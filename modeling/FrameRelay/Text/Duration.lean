import FrameRelay.Number.Decimal

/-! Lengths of time and their short text. -/

namespace FrameRelay

/-- A length of time in nanoseconds. -/
structure Duration where
  nanos : Nat
  deriving Repr, DecidableEq, Inhabited

namespace Duration

def ofMillis (millis : Nat) : Duration := ⟨millis * 1000000⟩
def ofParts (seconds nanos : Nat) : Duration := ⟨seconds * 1000000000 + nanos⟩

def seconds (d : Duration) : Nat := d.nanos / 1000000000
def subsecNanos (d : Duration) : Nat := d.nanos % 1000000000

def times (d : Duration) (count : Nat) : Duration := ⟨d.nanos * count⟩

/-- `total` units of `10 ^ places` parts each, without trailing zeros. -/
def unitText (total places : Nat) : String :=
  let fraction := (Number.padZeros places (toString (total % Number.tenTo places))).toList.reverse
  let shown := (fraction.dropWhile (· == '0')).reverse
  let whole := toString (total / Number.tenTo places)
  if shown.isEmpty then whole else whole ++ "." ++ String.ofList shown

/-- The text in the largest unit that the length fills once. -/
def text (d : Duration) : String :=
  if 1000000000 ≤ d.nanos then unitText d.nanos 9 ++ "s"
  else if 1000000 ≤ d.nanos then unitText d.nanos 6 ++ "ms"
  else if 1000 ≤ d.nanos then unitText d.nanos 3 ++ "µs"
  else toString d.nanos ++ "ns"

end Duration

end FrameRelay
