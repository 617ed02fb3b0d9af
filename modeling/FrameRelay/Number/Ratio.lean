import FrameRelay.Text.Blank
import FrameRelay.Text.Numeral

/-! Exact ratios for time bases, frame rates and aspect ratios. Both terms are signed words of
64 bits; an operation whose terms would leave that range has no result. -/

namespace FrameRelay
open Number Text

structure Ratio where
  num : Int
  den : Int
  deriving Repr, DecidableEq, Inhabited

/-- Fits a signed word of 64 bits. -/
def InWord (x : Int) : Prop := minWord ≤ x ∧ x ≤ maxWord

instance (x : Int) : Decidable (InWord x) := inferInstanceAs (Decidable (_ ∧ _))

def word? (x : Int) : Option Int := if InWord x then some x else none

theorem word?_eq_some_iff {x y : Int} : word? x = some y ↔ x = y ∧ InWord x := by
  simp only [word?]; split <;> simp_all

theorem word?_eq_none_iff {x : Int} : word? x = none ↔ ¬ InWord x := by
  simp only [word?]; split <;> simp_all

namespace Ratio

def zero : Ratio := ⟨0, 1⟩
def one : Ratio := ⟨1, 1⟩

/-- A rate counts as specified only when both terms are positive. -/
def isSpecified (r : Ratio) : Bool := 0 < r.num && 0 < r.den

def toFloat (r : Ratio) : Float :=
  if r.den = 0 then 0.0 else Float.ofInt r.num / Float.ofInt r.den

/-- Divides both terms by their greatest common divisor. -/
def cancel (r : Ratio) : Ratio :=
  let common : Int := r.num.natAbs.gcd r.den.natAbs
  if 1 < common then ⟨r.num / common, r.den / common⟩ else r

/-- Lowest terms over a positive denominator; none if changing the sign leaves the words. -/
def reduce? (r : Ratio) : Option Ratio :=
  if r.den < 0 then do
    let num ← word? (-r.num)
    let den ← word? (-r.den)
    return cancel ⟨num, den⟩
  else some r.cancel

/-- The quotient in lowest terms; none if a denominator or the divisor is zero or a product
leaves the words. -/
def div? (a b : Ratio) : Option Ratio :=
  if a.den = 0 ∨ b.den = 0 ∨ b.num = 0 then none
  else do
    let num ← word? (a.num * b.den)
    let den ← word? (a.den * b.num)
    reduce? ⟨num, den⟩

def text (r : Ratio) : String := toString r.num ++ "/" ++ toString r.den

def isSeparator (c : Char) : Bool := c == '/' || c == ':'

/-- The parts before and after the first slash or colon. -/
def splitTerms (cs : List Char) : Option (List Char × List Char) :=
  match cs.dropWhile (!isSeparator ·) with
  | [] => none
  | _ :: rest => some (cs.takeWhile (!isSeparator ·), rest)

def readTerm (cs : List Char) : Option Int := (readWord (trim cs)).toOption

def readTerms (num den : List Char) : Option Ratio := do
  let num ← readTerm num
  let den ← readTerm den
  if den = 0 then none else reduce? ⟨num, den⟩

/-- Reads a decimal, rounded to thousandths. -/
def readDecimal (cs : List Char) : Option Ratio := do
  let value ← readDouble cs
  if value.isFinite then reduce? ⟨nearestWord (value * 1000.0), 1000⟩ else none

def read (cs : List Char) : Option Ratio :=
  match splitTerms cs with
  | some (num, den) => readTerms num den
  | none =>
    match readWord cs with
    | .ok whole => some ⟨whole, 1⟩
    | .error _ => readDecimal cs

/-- A text that names no ratio, without its outer blanks. -/
structure Unreadable where
  text : String
  deriving Repr, DecidableEq

def Unreadable.message (fault : Unreadable) : String :=
  "invalid rational '" ++ fault.text ++ "', expected N, N/D or a decimal"

/-- Reads a whole number, two whole numbers around a slash or colon, or a decimal. -/
def parse (s : String) : Except Unreadable Ratio :=
  let cs := trim s.toList
  match read cs with
  | some r => .ok r
  | none => .error ⟨String.ofList cs⟩

end Ratio

end FrameRelay
