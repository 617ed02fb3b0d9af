/-! The exact number behind a floating-point word, and the roundings that leave it for the
integers or for the other precision. Everything is decided on the mantissa and the power of
two, so each result can be computed by hand. -/

namespace FrameRelay.Number
open Float.Model

def twoTo (n : Nat) : Nat := Nat.pow 2 n

def tenTo (n : Nat) : Nat := Nat.pow 10 n

/-- What a floating-point word stands for; a finite one is `± mantissa * 2 ^ exponent`. -/
inductive Parts where
  | notANumber
  | infinite (negative : Bool)
  | finite (negative : Bool) (mantissa : Nat) (exponent : Int)
  deriving Repr, DecidableEq

namespace Parts

def ofUnpacked : UnpackedFloat → Parts
  | .notANumber => .notANumber
  | .infinity sign => .infinite (sign == .negative)
  | .zero sign => .finite (sign == .negative) 0 0
  | .finite sign mantissa exponent _ => .finite (sign == .negative) mantissa exponent

def ofDouble (x : Float) : Parts := ofUnpacked x.toModel.unpack

def ofSingle (x : Float32) : Parts := ofUnpacked x.toModel.unpack

/-- The whole number nearest to `mantissa * 2 ^ exponent`, a half going up. -/
def nearest (mantissa : Nat) (exponent : Int) : Nat :=
  if 0 ≤ exponent then mantissa * twoTo exponent.toNat
  else (mantissa * 2 + twoTo (-exponent).toNat) / (2 * twoTo (-exponent).toNat)

/-- The largest whole number not above `mantissa * 2 ^ exponent`. -/
def whole (mantissa : Nat) (exponent : Int) : Nat :=
  if 0 ≤ exponent then mantissa * twoTo exponent.toNat
  else mantissa / twoTo (-exponent).toNat

/-- Applies a rounding of magnitudes and brings the result into `low .. high`. Not-a-number
becomes zero and an infinity the nearer end. -/
def toIntWithin (round : Nat → Int → Nat) (low high : Int) : Parts → Int
  | .notANumber => 0
  | .infinite true => low
  | .infinite false => high
  | .finite true mantissa exponent => max low (min high (-(round mantissa exponent : Int)))
  | .finite false mantissa exponent => max low (min high (round mantissa exponent))

end Parts

/-- The range of signed words of 64 bits. -/
def minWord : Int := -9223372036854775808
def maxWord : Int := 9223372036854775807

/-- The nearest whole number, halves away from zero, within signed 64 bits. -/
def nearestWord (x : Float) : Int :=
  (Parts.ofDouble x).toIntWithin Parts.nearest minWord maxWord

/-- The nearest whole number, halves up, from zero up to `high`. -/
def nearestNat (high : Nat) (x : Float) : Nat :=
  ((Parts.ofDouble x).toIntWithin Parts.nearest 0 high).toNat

/-- The number without its fraction, from zero up to `high`. -/
def wholeNat (high : Nat) (x : Float32) : Nat :=
  ((Parts.ofSingle x).toIntWithin Parts.whole 0 high).toNat

/-- The nearest sixteen-bit sample, halves up. The difference to the whole part is exact. -/
def nearestSample (x : Float) : UInt16 :=
  let below := x.toUInt16
  if 0.5 ≤ x - below.toFloat && below < 65535 then below + 1 else below

/-- Rounds to single precision, ties to the even mantissa. -/
def narrow (x : Float) : Float32 :=
  .ofModel (.pack (match x.toModel.unpack with
    | .finite sign mantissa exponent _ => .round .binary32 sign mantissa exponent
    | other => other))

def widen (x : Float32) : Float :=
  .ofModel (.pack (match x.toModel.unpack with
    | .finite sign mantissa exponent _ => .round .binary64 sign mantissa exponent
    | other => other))

/-- The larger of two numbers; a not-a-number loses to a number. -/
def larger (x y : Float) : Float :=
  if x.isNaN then y else if y.isNaN then x else if x < y then y else x

/-- Brings `x` into `low .. high`; not-a-number stays. -/
def clamp (low high x : Float) : Float :=
  if x < low then low else if high < x then high else x

end FrameRelay.Number
