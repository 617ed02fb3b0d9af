/-! Limits of machine words, and the faults that stop a program. -/

namespace FrameRelay

/-- Why a call does not return. Arithmetic is checked, so a number that outgrows its word is such
a reason. The program ends there, and what stands after a fault means nothing. -/
inductive Fault where
  | overflow
  | outOfRange
  | threadName
  deriving Repr, DecidableEq, Inhabited

def Fault.text : Fault → String
  | .overflow => "arithmetic overflow"
  | .outOfRange => "index out of range"
  | .threadName => "thread name may not contain interior null bytes"

/-- Steps one after another come to a result only if each of them does. -/
theorem ok_of_bind {ε α β : Type} {first : Except ε α} {rest : α → Except ε β} {result : β}
    (passed : (first >>= rest) = .ok result) :
    ∃ between, first = .ok between ∧ rest between = .ok result := by
  cases first with
  | error cause => cases passed
  | ok between => exact ⟨between, rfl, passed⟩

namespace Number

/-- Sizes and offsets of buffers stay below `2 ^ 64`. -/
def sizeLimit : Nat := 18446744073709551616

/-- The width and the height of a picture stay below `2 ^ 32`, and so do the polls of a drain. -/
def shortLimit : Nat := 4294967296

end Number

end FrameRelay
