/-! Blank characters and the trimming of texts. -/

namespace FrameRelay.Text

/-- The characters with the property of white space, twenty-five in all. -/
def isBlank (c : Char) : Bool :=
  let n := c.toNat
  (0x09 ≤ n && n ≤ 0x0d) || n == 0x20 || n == 0x85 || n == 0xa0 || n == 0x1680 ||
    (0x2000 ≤ n && n ≤ 0x200a) || n == 0x2028 || n == 0x2029 || n == 0x202f ||
    n == 0x205f || n == 0x3000

def trim (cs : List Char) : List Char :=
  ((cs.dropWhile isBlank).reverse.dropWhile isBlank).reverse

/-- A text whose first and last characters are no blanks is left alone. -/
theorem trim_eq_self {cs : List Char} (first : ∀ c ∈ cs.head?, isBlank c = false)
    (last : ∀ c ∈ cs.getLast?, isBlank c = false) : trim cs = cs := by
  cases cs with
  | nil => rfl
  | cons c rest =>
    have c_ink : isBlank c = false := first c rfl
    have front : (c :: rest).dropWhile isBlank = c :: rest := by simp [c_ink]
    rw [trim, front]
    cases reversed : (c :: rest).reverse with
    | nil => simp at reversed
    | cons d back =>
      have ends : (c :: rest).getLast? = some d := by
        rw [← List.head?_reverse, reversed]; rfl
      have d_ink : isBlank d = false := last d (by rw [ends]; rfl)
      have kept : (d :: back).dropWhile isBlank = d :: back := by simp [d_ink]
      rw [kept, ← reversed, List.reverse_reverse]

end FrameRelay.Text
