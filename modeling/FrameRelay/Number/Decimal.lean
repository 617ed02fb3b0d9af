import FrameRelay.Number.Binary

/-! Decimal text of binary numbers. The digits are the fewest that read back to the same word,
found by exact comparisons on the decimal grids from coarse to fine; how they are written down
is a record of its own. -/

namespace FrameRelay.Number

/-- The number `digits * 10 ^ exponent`. -/
structure Decimal where
  digits : Nat
  exponent : Int
  deriving Repr, DecidableEq

/-- Which of two equally near decimals is taken. -/
inductive Tie where
  | up
  | even
  deriving Repr, DecidableEq

/-- A positive binary number with the cell of reals that round to it. The cell reaches half a
unit of the last place to each side, or a quarter below a `tight` number, and owns its ends
when the mantissa is even. -/
structure Cell where
  mantissa : Nat
  exponent : Int
  tight : Bool
  deriving Repr, DecidableEq

namespace Cell

/-- Ends of the cell in quarters of the last place. -/
def low (cell : Cell) : Nat := 4 * cell.mantissa - if cell.tight then 1 else 2
def high (cell : Cell) : Nat := 4 * cell.mantissa + 2

/-- Compares `count * 10 ^ power` with `quarters` quarters of the last place. -/
def compareGrid (cell : Cell) (count : Nat) (power : Int) (quarters : Nat) : Ordering :=
  let shift := cell.exponent - 2
  compare (count * tenTo power.toNat * twoTo (-shift).toNat)
    (quarters * twoTo shift.toNat * tenTo (-power).toNat)

def holds (cell : Cell) (count : Nat) (power : Int) : Bool :=
  let owned := cell.mantissa % 2 == 0
  let below := cell.compareGrid count power cell.low
  let above := cell.compareGrid count power cell.high
  (below == .gt || owned && below == .eq) && (above == .lt || owned && above == .eq)

def floorOnGrid (cell : Cell) (power : Int) : Nat :=
  (cell.mantissa * twoTo cell.exponent.toNat * tenTo (-power).toNat) /
    (tenTo power.toNat * twoTo (-cell.exponent).toNat)

/-- The neighbour on the grid `10 ^ power` that reads back, the nearer one if both do. -/
def onGrid? (cell : Cell) (tie : Tie) (power : Int) : Option Nat :=
  let count := cell.floorOnGrid power
  match cell.holds count power, cell.holds (count + 1) power with
  | false, false => none
  | true, false => some count
  | false, true => some (count + 1)
  | true, true =>
    match cell.compareGrid (2 * count + 1) power (8 * cell.mantissa) with
    | .gt => some count
    | .lt => some (count + 1)
    | .eq => some (if tie == .even && count % 2 == 0 then count else count + 1)

/-- Every digit of the number. -/
def exact (cell : Cell) : Decimal :=
  if 0 ≤ cell.exponent then ⟨cell.mantissa * twoTo cell.exponent.toNat, 0⟩
  else ⟨cell.mantissa * Nat.pow 5 (-cell.exponent).toNat, cell.exponent⟩

/-- A power of ten above the number. -/
def magnitude (cell : Cell) : Int :=
  Int.fdiv (((cell.mantissa.log2 : Int) + 1 + cell.exponent) * 30103) 100000 + 2

/-- The first of the grids from `power` downwards that has a point reading back. -/
def search (cell : Cell) (tie : Tie) : Nat → Int → Decimal
  | 0, _ => cell.exact
  | steps + 1, power =>
    match cell.onGrid? tie power with
    | some count => ⟨count, power⟩
    | none => cell.search tie steps (power - 1)

/-- The fewest digits that read back. Seventeen always do, and two grids lie above the first. -/
def shortest (cell : Cell) (tie : Tie) : Decimal :=
  cell.search tie 21 cell.magnitude

end Cell

/-- How a decimal is written. Outside `positional`, a range for the place of the leading digit
counted from the point, the text carries an exponent. -/
structure Layout where
  tie : Tie
  positional : Option (Int × Int)
  wholeMark : String
  deriving Repr, DecidableEq

namespace Layout

/-- Messages are positional throughout, and a whole number has no point. -/
def message : Layout := ⟨.up, none, ""⟩

/-- Documents keep a point or an exponent in every number. -/
def document : Layout := ⟨.even, some (-4, 16), ".0"⟩
def documentSingle : Layout := ⟨.even, some (-5, 13), ".0"⟩

def zeros (count : Nat) : String := String.ofList (List.replicate count '0')

def positionalText (layout : Layout) (digits : String) (exponent : Int) : String :=
  let place := (digits.length : Int) + exponent
  if 0 ≤ exponent then digits ++ zeros exponent.toNat ++ layout.wholeMark
  else if 0 < place then
    String.ofList (digits.toList.take place.toNat) ++ "." ++
      String.ofList (digits.toList.drop place.toNat)
  else "0." ++ zeros (-place).toNat ++ digits

/-- One digit before the point; the exponent has a sign in any case. -/
def scientificText (digits : String) (exponent : Int) : String :=
  let place := (digits.length : Int) + exponent - 1
  let mark := if 0 ≤ place then "e+" else "e"
  match digits.toList with
  | [] => ""
  | [lead] => String.ofList [lead] ++ mark ++ toString place
  | lead :: rest => String.ofList (lead :: '.' :: rest) ++ mark ++ toString place

def write (layout : Layout) (value : Decimal) : String :=
  if value.digits = 0 then "0" ++ layout.wholeMark
  else
    let digits := toString value.digits
    let place := (digits.length : Int) + value.exponent
    match layout.positional with
    | none => layout.positionalText digits value.exponent
    | some (first, last) =>
      if first ≤ place && place ≤ last then layout.positionalText digits value.exponent
      else scientificText digits value.exponent

end Layout

/-- The sizes of a binary format: the first mantissa of full length and the least exponent. -/
structure Precision where
  full : Nat
  least : Int

def Precision.double : Precision := ⟨twoTo 52, -1074⟩
def Precision.single : Precision := ⟨twoTo 23, -149⟩

namespace Parts

/-- The text of a number, with words for what is not finite. -/
def write (layout : Layout) (precision : Precision) : Parts → String
  | .notANumber => "NaN"
  | .infinite negative => if negative then "-inf" else "inf"
  | .finite negative mantissa exponent =>
    let text :=
      if mantissa = 0 then layout.write ⟨0, 0⟩
      else
        let cell : Cell :=
          ⟨mantissa, exponent, mantissa == precision.full && precision.least < exponent⟩
        layout.write (cell.shortest layout.tie)
    if negative then "-" ++ text else text

def isFinite : Parts → Bool
  | .finite .. => true
  | _ => false

end Parts

def messageText (x : Float) : String := (Parts.ofDouble x).write .message .double
def messageTextSingle (x : Float32) : String := (Parts.ofSingle x).write .message .single

/-- Pads with zeros on the left up to `width` characters. -/
def padZeros (width : Nat) (text : String) : String :=
  Layout.zeros (width - text.length) ++ text

/-- `num / den` rounded to a whole number, a half to the even one. -/
def roundQuotient (num den : Nat) : Nat :=
  let quotient := num / den
  match compare (2 * (num % den)) den with
  | .lt => quotient
  | .gt => quotient + 1
  | .eq => quotient + quotient % 2

/-- The text with a set number of places, at least one. -/
def fixedText (places : Nat) (x : Float) : String :=
  match Parts.ofDouble x with
  | .finite negative mantissa exponent =>
    let scaled :=
      roundQuotient (mantissa * twoTo exponent.toNat * tenTo places) (twoTo (-exponent).toNat)
    let text := toString (scaled / tenTo places) ++ "." ++
      padZeros places (toString (scaled % tenTo places))
    if negative then "-" ++ text else text
  | parts => parts.write .message .double

end FrameRelay.Number
