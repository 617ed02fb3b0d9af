import FrameRelay.Number.Binary

/-! Reading numbers from text. Whole numbers are read digit by digit within a range and the
first fault decides; decimals follow the usual grammar and round to the nearest double. -/

namespace FrameRelay.Text

/-- Why a text is no whole number of the wanted range. -/
inductive NumeralFault where
  | empty
  | strayCharacter
  | tooLarge
  | tooSmall
  deriving Repr, DecidableEq

def NumeralFault.message : NumeralFault → String
  | .empty => "cannot parse integer from empty string"
  | .strayCharacter => "invalid digit found in string"
  | .tooLarge => "number too large to fit in target type"
  | .tooSmall => "number too small to fit in target type"

def digit? (c : Char) : Option Nat :=
  if '0' ≤ c ∧ c ≤ '9' then some (c.toNat - '0'.toNat) else none

/-- Reads digits on top of `value`, which may grow up to `limit`. -/
def readDigits (limit : Nat) (excess : NumeralFault) : Nat → List Char → Except NumeralFault Nat
  | value, [] => .ok value
  | value, c :: rest =>
    match digit? c with
    | none => .error .strayCharacter
    | some d =>
      if 10 * value + d ≤ limit then readDigits limit excess (10 * value + d) rest
      else .error excess

/-- Reads an optional sign and digits within `low .. high`. Without negative numbers in the
range a minus sign is a stray character. -/
def readInt (low high : Int) : List Char → Except NumeralFault Int
  | [] => .error .empty
  | '+' :: [] => .error .strayCharacter
  | '-' :: [] => .error .strayCharacter
  | '+' :: rest => (readDigits high.toNat .tooLarge 0 rest).map Int.ofNat
  | '-' :: rest =>
    if low < 0 then (readDigits (-low).toNat .tooSmall 0 rest).map fun n => -(n : Int)
    else .error .strayCharacter
  | digits => (readDigits high.toNat .tooLarge 0 digits).map Int.ofNat

def readWord (cs : List Char) : Except NumeralFault Int :=
  readInt Number.minWord Number.maxWord cs

/-- The digits at the front as a number with their count, and the rest. -/
def takeDigits (cs : List Char) : Nat × Nat × List Char :=
  let digits := cs.takeWhile Char.isDigit
  (digits.foldl (fun n c => 10 * n + (c.toNat - '0'.toNat)) 0, digits.length,
    cs.dropWhile Char.isDigit)

/-- The value of the exponent mark at the front, zero for an empty text. -/
def readExponent : List Char → Option Int
  | [] => some 0
  | mark :: rest =>
    if mark != 'e' && mark != 'E' then none
    else
      let (negative, digits) := match rest with
        | '-' :: digits => (true, digits)
        | '+' :: digits => (false, digits)
        | digits => (false, digits)
      match takeDigits digits with
      | (value, count, []) => if count = 0 then none else some (if negative then -value else value)
      | _ => none

/-- The double nearest to `mantissa * 10 ^ exponent`. A number far outside the range of doubles
is decided by the place of its first digit. -/
def nearestDouble (mantissa : Nat) (exponent : Int) : Float :=
  let place := ((toString mantissa).length : Int) + exponent
  if mantissa = 0 || place < -330 then 0.0
  else if 320 < place then 1.0 / 0.0
  else .ofScientific mantissa (exponent < 0) exponent.natAbs

def readUnsignedDouble (cs : List Char) : Option Float :=
  let word := String.ofList (cs.map Char.toLower)
  if word == "inf" || word == "infinity" then some (1.0 / 0.0)
  else if word == "nan" then some (0.0 / 0.0)
  else
    let (whole, wholeCount, rest) := takeDigits cs
    let (fraction, fractionCount, rest) := match rest with
      | '.' :: rest => takeDigits rest
      | rest => (0, 0, rest)
    if wholeCount + fractionCount = 0 then none
    else (readExponent rest).map fun exponent =>
      nearestDouble (whole * Number.tenTo fractionCount + fraction) (exponent - fractionCount)

/-- Reads a decimal, `inf`, `infinity` or `nan` in any case, with an optional sign. -/
def readDouble : List Char → Option Float
  | '-' :: rest => (readUnsignedDouble rest).map Float.neg
  | '+' :: rest => readUnsignedDouble rest
  | cs => readUnsignedDouble cs

end FrameRelay.Text
