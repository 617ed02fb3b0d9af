import FrameRelay.Number.Ratio

/-! Values on a command line: what an option takes and how its text is read. -/

namespace FrameRelay.Command
open Text

/-- What an option takes. A `path` is a text that is not empty; a `whole` number lies in a range. -/
inductive ValueKind where
  | text
  | path
  | truth
  | count
  | whole (low high : Int)
  | number
  | ratio
  deriving Repr, DecidableEq, Inhabited

inductive Value where
  | text (value : String)
  | truth (value : Bool)
  | whole (value : Int)
  | number (value : Float)
  | ratio (value : Ratio)
  deriving Inhabited

/-- Why a text is no value: it is none of those allowed, or it cannot be read. -/
inductive ValueFault where
  | notAllowed
  | unreadable (reason : String)
  deriving Repr, DecidableEq, Inhabited

def maxCount : Nat := 18446744073709551615

def readCount (text : String) : Except ValueFault Value :=
  match readInt 0 maxCount text.toList with
  | .ok n => .ok (.whole n)
  | .error fault => .error (.unreadable fault.message)

/-- Reads a signed word first, then looks at the range. -/
def readWhole (low high : Int) (text : String) : Except ValueFault Value :=
  match readWord text.toList with
  | .error fault => .error (.unreadable fault.message)
  | .ok n =>
    if low ≤ n ∧ n ≤ high then .ok (.whole n)
    else .error (.unreadable
      (toString n ++ " is not in " ++ toString low ++ "..=" ++ toString high))

def readNumber (text : String) : Except ValueFault Value :=
  match readDouble text.toList with
  | some x => .ok (.number x)
  | none =>
    .error (.unreadable
      (if text.isEmpty then "cannot parse float from empty string" else "invalid float literal"))

def ValueKind.read (kind : ValueKind) (text : String) : Except ValueFault Value :=
  match kind with
  | .text => .ok (.text text)
  | .path => if text.isEmpty then .error .notAllowed else .ok (.text text)
  | .truth =>
    if text == "true" then .ok (.truth true)
    else if text == "false" then .ok (.truth false)
    else .error .notAllowed
  | .count => readCount text
  | .whole low high => readWhole low high text
  | .number => readNumber text
  | .ratio =>
    match Ratio.parse text with
    | .ok r => .ok (.ratio r)
    | .error fault => .error (.unreadable fault.message)

end FrameRelay.Command
