import FrameRelay.Stage.Error

/-! The spacing of synthesized frames for slow motion and frame-rate conversion. -/

namespace FrameRelay
open Number

/-- Spacing of outputs in input frames, and the distance under which an input is copied. -/
structure Retiming where
  fpsFactor : Float
  threshold : Float
  frameRate : Ratio

/-- Why no spacing can be derived. -/
inductive RetimingFault where
  | slowmoNotPositive (slowmo : Float)
  | inputUnspecified (rate : Ratio)
  | targetMalformed (target : Ratio)
  | inconvertible (rate target : Ratio)
  | factorNotPositive (factor slowmo : Float) (target : Ratio)

def RetimingFault.message : RetimingFault → String
  | .slowmoNotPositive slowmo => "slow-motion factor must be positive, got " ++ messageText slowmo
  | .inputUnspecified rate => "input frame rate " ++ rate.text ++ " is not usable for retiming"
  | .targetMalformed target => "target frame rate " ++ target.text ++ " is malformed"
  | .inconvertible rate target => "cannot convert " ++ rate.text ++ " to " ++ target.text
  | .factorNotPositive factor slowmo target =>
    "fps factor " ++ messageText factor ++ " derived from slowmo " ++ messageText slowmo ++
      " and rate " ++ target.text ++ " is invalid"

/-- Finite and above zero. -/
def isPositive (x : Float) : Bool := x.isFinite && 0.0 < x

namespace Retiming

/-- The factor and the output rate. A target that is not specified keeps the input rate. -/
def factor? (slowmo : Float) (target rate : Ratio) : Except RetimingFault (Float × Ratio) :=
  if target.isSpecified then
    match target.div? rate with
    | none => .error (.inconvertible rate target)
    | some ratio => .ok (1.0 / (slowmo * ratio.toFloat), target)
  else .ok (1.0 / slowmo, rate)

def compute? (slowmo : Float) (target rate : Ratio) : Except RetimingFault Retiming :=
  if !isPositive slowmo then .error (.slowmoNotPositive slowmo)
  else if !rate.isSpecified then .error (.inputUnspecified rate)
  else if target.num < 0 || target.den ≤ 0 then .error (.targetMalformed target)
  else
    match factor? slowmo target rate with
    | .error fault => .error fault
    | .ok (factor, frameRate) =>
      if isPositive factor then .ok ⟨factor, factor * 0.3, frameRate⟩
      else .error (.factorNotPositive factor slowmo target)

/-- The spacing for one stream; a fault is one of the configuration. -/
def compute (slowmo : Float) (target rate : Ratio) : Outcome Retiming :=
  (compute? slowmo target rate).mapError fun fault => .configuration fault.message

end Retiming

end FrameRelay
