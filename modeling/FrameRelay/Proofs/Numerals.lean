import FrameRelay.Number.Ratio
import Mathlib.Algebra.Order.Ring.Int
import Mathlib.Data.List.TakeWhile

/-! Numerals read and written. Digits are read up to the first one that exceeds the limit, a word is
read back from its text, and blanks around a text are cut off. -/

namespace FrameRelay.Text
open Number

/-! Whole numbers. -/

theorem toNat_of_isDigit {c : Char} (digit : c.isDigit) : 48 ≤ c.toNat ∧ c.toNat ≤ 57 := by
  rw [Char.isDigit, Bool.and_eq_true, decide_eq_true_eq, decide_eq_true_eq] at digit
  exact digit

theorem ne_of_isDigit {c other : Char} (digit : c.isDigit) (plain : other.isDigit = false) :
    c ≠ other := by
  rintro rfl
  rw [digit] at plain
  cases plain

theorem digit?_of_isDigit {c : Char} (digit : c.isDigit) :
    digit? c = some (c.toNat - '0'.toNat) := by
  rw [Char.isDigit, Bool.and_eq_true, decide_eq_true_eq, decide_eq_true_eq] at digit
  exact if_pos digit

theorem le_ofDigitChars (cs : List Char) (value : Nat) : value ≤ Nat.ofDigitChars 10 cs value := by
  induction cs generalizing value with
  | nil => exact le_rfl
  | cons c rest ih =>
    rw [Nat.ofDigitChars_cons]
    exact le_trans (by omega) (ih _)

theorem readDigits_eq {limit : Nat} {excess : NumeralFault} {cs : List Char}
    (digits : ∀ c ∈ cs, c.isDigit) {value : Nat} (fits : value ≤ limit) :
    readDigits limit excess value cs =
      if Nat.ofDigitChars 10 cs value ≤ limit then .ok (Nat.ofDigitChars 10 cs value)
      else .error excess := by
  induction cs generalizing value with
  | nil => exact (if_pos fits).symm
  | cons c rest ih =>
    rw [List.forall_mem_cons] at digits
    simp only [readDigits, digit?_of_isDigit digits.1, Nat.ofDigitChars_cons]
    by_cases next : 10 * value + (c.toNat - '0'.toNat) ≤ limit
    · rw [if_pos next, ih digits.2 next]
    · rw [if_neg next, if_neg]
      exact fun inside => next ((le_ofDigitChars rest _).trans inside)

theorem le_of_readDigits {limit : Nat} {excess : NumeralFault} {cs : List Char} {value n : Nat}
    (fits : value ≤ limit) (read : readDigits limit excess value cs = .ok n) : n ≤ limit := by
  induction cs generalizing value with
  | nil => exact Except.ok.inj read ▸ fits
  | cons c rest ih =>
    rw [readDigits] at read
    cases known : digit? c with
    | none => simp [known] at read
    | some d =>
      simp only [known] at read
      by_cases next : 10 * value + d ≤ limit
      · rw [if_pos next] at read
        exact ih next read
      · rw [if_neg next] at read
        cases read

theorem readInt_digits {low high : Int} {cs : List Char} (some_digit : cs ≠ [])
    (digits : ∀ c ∈ cs, c.isDigit) :
    readInt low high cs = (readDigits high.toNat .tooLarge 0 cs).map Int.ofNat := by
  cases cs with
  | nil => exact absurd rfl some_digit
  | cons c rest =>
    have plus : c ≠ '+' := ne_of_isDigit (digits c List.mem_cons_self) (by decide)
    have minus : c ≠ '-' := ne_of_isDigit (digits c List.mem_cons_self) (by decide)
    unfold readInt
    split <;> simp_all

theorem readInt_plus {low high : Int} {cs : List Char} (some_digit : cs ≠ []) :
    readInt low high ('+' :: cs) = (readDigits high.toNat .tooLarge 0 cs).map Int.ofNat := by
  cases cs with
  | nil => exact absurd rfl some_digit
  | cons c rest =>
    rw [readInt]
    exact List.cons_ne_nil c rest

theorem readInt_minus {low high : Int} {cs : List Char} (some_digit : cs ≠ [])
    (negative : low < 0) :
    readInt low high ('-' :: cs) =
      (readDigits (-low).toNat .tooSmall 0 cs).map fun (n : Nat) => -(n : Int) := by
  cases cs with
  | nil => exact absurd rfl some_digit
  | cons c rest =>
    rw [readInt, if_pos negative]
    · cases readDigits (-low).toNat .tooSmall 0 (c :: rest) <;> rfl
    · exact List.cons_ne_nil c rest

theorem toList_toString (x : Int) :
    (toString x).toList =
      if 0 ≤ x then Nat.toDigits 10 x.toNat else '-' :: Nat.toDigits 10 (-x).toNat := by
  rw [Int.toString_eq_repr, Int.repr_eq_if]
  split
  · exact Nat.toList_repr
  · rw [String.toList_append, Nat.toList_repr]
    rfl

theorem isDigit_of_mem_toDigits {n : Nat} : ∀ c ∈ Nat.toDigits 10 n, c.isDigit :=
  fun _ listed => Nat.isDigit_of_mem_toDigits (by decide) (by decide) listed

theorem isDigit_of_mem_toString {x : Int} {c : Char} (listed : c ∈ (toString x).toList)
    (unsigned : c ≠ '-') : c.isDigit := by
  rw [toList_toString] at listed
  split at listed
  · exact isDigit_of_mem_toDigits c listed
  · exact isDigit_of_mem_toDigits c (List.mem_of_ne_of_mem unsigned listed)

theorem readWord_toString {x : Int} (inside : InWord x) : readWord (toString x).toList = .ok x := by
  rw [toList_toString, readWord]
  obtain ⟨low, high⟩ := inside
  by_cases sign : 0 ≤ x
  · have fits : x.toNat ≤ maxWord.toNat := by simp only [maxWord] at *; omega
    rw [if_pos sign, readInt_digits Nat.toDigits_ne_nil isDigit_of_mem_toDigits,
      readDigits_eq isDigit_of_mem_toDigits (Nat.zero_le _), Nat.ofDigitChars_ten_toDigits,
      if_pos fits]
    exact congrArg Except.ok (Int.toNat_of_nonneg sign)
  · have fits : (-x).toNat ≤ (-minWord).toNat := by simp only [minWord] at *; omega
    have same : -((-x).toNat : Int) = x := by omega
    rw [if_neg sign, readInt_minus Nat.toDigits_ne_nil (by decide),
      readDigits_eq isDigit_of_mem_toDigits (Nat.zero_le _), Nat.ofDigitChars_ten_toDigits,
      if_pos fits]
    exact congrArg Except.ok same

theorem of_map_ok {ε α β : Type} {f : α → β} {x : Except ε α} {y : β} (mapped : x.map f = .ok y) :
    ∃ n, x = .ok n ∧ f n = y := by
  cases x with
  | error fault => cases mapped
  | ok n => exact ⟨n, rfl, Except.ok.inj mapped⟩

theorem inWord_of_readWord {cs : List Char} {x : Int} (read : readWord cs = .ok x) : InWord x := by
  have above {digits : List Char}
      (found : (readDigits maxWord.toNat .tooLarge 0 digits).map Int.ofNat = .ok x) :
      InWord x := by
    obtain ⟨n, digits_read, rfl⟩ := of_map_ok found
    have limit : n ≤ maxWord.toNat := le_of_readDigits (Nat.zero_le _) digits_read
    simp only [InWord, minWord, maxWord, Int.ofNat_eq_natCast] at *
    omega
  unfold readWord readInt at read
  split at read
  case h_1 | h_2 | h_3 => cases read
  case h_4 | h_6 => exact above read
  case h_5 =>
    rw [if_pos (by decide)] at read
    obtain ⟨magnitude, lifted, rfl⟩ := of_map_ok read
    obtain ⟨n, digits_read, rfl⟩ := of_map_ok lifted
    have limit : n ≤ (-minWord).toNat := le_of_readDigits (Nat.zero_le _) digits_read
    simp only [InWord, minWord, maxWord] at *
    omega

/-! Blanks. -/

/-- Nothing but blanks. -/
def Blanks (cs : List Char) : Prop := ∀ c ∈ cs, isBlank c = true

theorem trim_append_left {left : List Char} (blanks : Blanks left) (cs : List Char) :
    trim (left ++ cs) = trim cs := by
  rw [trim, trim, List.dropWhile_append_of_pos blanks]

theorem trim_append_right {right : List Char} (blanks : Blanks right) (cs : List Char) :
    trim (cs ++ right) = trim cs := by
  have nothing : right.dropWhile isBlank = [] := List.dropWhile_eq_nil_iff.mpr blanks
  rw [trim, trim, List.dropWhile_append]
  by_cases blank : (cs.dropWhile isBlank).isEmpty
  · rw [if_pos blank, nothing, List.isEmpty_iff.mp blank]
  · have backwards : ∀ c ∈ right.reverse, isBlank c = true :=
      fun c listed => blanks c (List.mem_reverse.mp listed)
    rw [if_neg blank, List.reverse_append, List.dropWhile_append_of_pos backwards]

end FrameRelay.Text
