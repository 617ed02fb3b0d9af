import FrameRelay.Number.Ratio
import Mathlib.Data.Int.GCD
import Mathlib.Algebra.Order.Ring.Int

/-! Ratios in lowest terms. A value has one ratio in lowest terms, and reducing finds it unless the
change of the sign leaves the words. -/

namespace FrameRelay
open Number

theorem inWord_neg_iff {x : Int} (inside : InWord x) : InWord (-x) ↔ x ≠ minWord := by
  simp only [InWord, minWord, maxWord] at *
  omega

theorem inWord_of_mul {common x : Int} (positive : 0 < common) (inside : InWord (common * x)) :
    InWord x := by
  obtain ⟨low, high⟩ := inside
  rcases le_total 0 x with above | below
  · have less : x ≤ common * x := le_mul_of_one_le_left above positive
    simp only [InWord, minWord, maxWord] at *
    omega
  · have more : common * x ≤ x := by
      have less := le_mul_of_one_le_left (neg_nonneg.mpr below) positive
      rw [mul_neg] at less
      omega
    simp only [InWord, minWord, maxWord] at *
    omega

namespace Ratio

/-- A positive denominator that has no divisor in common with the numerator. -/
structure Lowest (r : Ratio) : Prop where
  positive : 0 < r.den
  coprime : r.num.natAbs.Coprime r.den.natAbs

/-- Both terms fit signed words. -/
structure InWords (r : Ratio) : Prop where
  num : InWord r.num
  den : InWord r.den

theorem Lowest.eq_of_cross {r q : Ratio} (lowest : r.Lowest) (lowest' : q.Lowest)
    (cross : r.num * q.den = q.num * r.den) : r = q := by
  obtain ⟨num, den⟩ := r
  obtain ⟨num', den'⟩ := q
  obtain ⟨positive, coprime⟩ := lowest
  obtain ⟨positive', coprime'⟩ := lowest'
  dsimp only at *
  have first : den ∣ den' := by
    apply Int.dvd_of_dvd_mul_right_of_gcd_one (b := num) ⟨num', by rw [cross, mul_comm]⟩
    rw [Int.gcd_comm]
    exact coprime
  have second : den' ∣ den := by
    apply Int.dvd_of_dvd_mul_right_of_gcd_one (b := num') ⟨num, by rw [← cross, mul_comm]⟩
    rw [Int.gcd_comm]
    exact coprime'
  obtain rfl : den = den' := Int.dvd_antisymm positive.le positive'.le first second
  rw [mul_right_cancel₀ positive.ne' cross]

section cancel
variable {r : Ratio} (nonzero : r.den ≠ 0)
include nonzero

theorem common_pos : 0 < Int.gcd r.num r.den :=
  Int.gcd_pos_of_ne_zero_right _ nonzero

theorem cancel_eq :
    r.cancel = ⟨r.num / (Int.gcd r.num r.den : Int), r.den / (Int.gcd r.num r.den : Int)⟩ := by
  have positive := common_pos nonzero
  by_cases large : (1 : Int) < (Int.gcd r.num r.den : Int)
  · exact if_pos large
  · have one : Int.gcd r.num r.den = 1 := by omega
    rw [one, Nat.cast_one, Int.ediv_one, Int.ediv_one]
    exact if_neg large

theorem terms_eq_cancel :
    r.num = (Int.gcd r.num r.den : Int) * r.cancel.num ∧
      r.den = (Int.gcd r.num r.den : Int) * r.cancel.den := by
  rw [cancel_eq nonzero]
  exact ⟨(Int.mul_ediv_cancel' (Int.gcd_dvd_left ..)).symm,
    (Int.mul_ediv_cancel' (Int.gcd_dvd_right ..)).symm⟩

theorem coprime_cancel : r.cancel.num.natAbs.Coprime r.cancel.den.natAbs := by
  rw [cancel_eq nonzero]
  exact Int.gcd_ediv_gcd_ediv_gcd (common_pos nonzero)

theorem cancel_cross : r.cancel.num * r.den = r.num * r.cancel.den := by
  obtain ⟨num_eq, den_eq⟩ := terms_eq_cancel nonzero
  calc r.cancel.num * r.den
      = r.cancel.num * ((Int.gcd r.num r.den : Int) * r.cancel.den) := by rw [← den_eq]
    _ = (Int.gcd r.num r.den : Int) * r.cancel.num * r.cancel.den := by
      rw [← mul_assoc, mul_comm r.cancel.num]
    _ = r.num * r.cancel.den := by rw [← num_eq]

theorem inWords_cancel (words : r.InWords) : r.cancel.InWords := by
  have positive : (0 : Int) < Int.gcd r.num r.den := by exact_mod_cast common_pos nonzero
  obtain ⟨num_eq, den_eq⟩ := terms_eq_cancel nonzero
  exact ⟨inWord_of_mul positive (num_eq ▸ words.num), inWord_of_mul positive (den_eq ▸ words.den)⟩

end cancel

theorem lowest_cancel {r : Ratio} (positive : 0 < r.den) : r.cancel.Lowest := by
  refine ⟨?_, coprime_cancel positive.ne'⟩
  have den_eq := (terms_eq_cancel positive.ne').2
  rw [den_eq] at positive
  exact pos_of_mul_pos_right positive (Int.natCast_nonneg _)

/-- In lowest terms, of the same value as `r`, in words. -/
structure Reduces (r q : Ratio) : Prop where
  lowest : q.Lowest
  words : q.InWords
  cross : q.num * r.den = r.num * q.den

theorem Reduces.unique {r q q' : Ratio} (nonzero : r.den ≠ 0) (reduces : r.Reduces q)
    (lowest' : q'.Lowest) (cross' : q'.num * r.den = r.num * q'.den) : q = q' := by
  refine reduces.lowest.eq_of_cross lowest' (mul_right_cancel₀ nonzero ?_)
  calc q.num * q'.den * r.den
      = q.num * r.den * q'.den := by rw [mul_right_comm]
    _ = r.num * q.den * q'.den := by rw [reduces.cross]
    _ = q'.num * r.den * q.den := by rw [mul_right_comm, cross']
    _ = q'.num * q.den * r.den := by rw [mul_right_comm]

theorem reduces_cancel {r : Ratio} (positive : 0 < r.den) (words : r.InWords) :
    r.Reduces r.cancel :=
  ⟨lowest_cancel positive, inWords_cancel positive.ne' words, cancel_cross positive.ne'⟩

theorem reduce?_eq_none_iff {r : Ratio} (words : r.InWords) :
    r.reduce? = none ↔ r.den < 0 ∧ (r.num = minWord ∨ r.den = minWord) := by
  by_cases negative : r.den < 0
  · by_cases first : r.num = minWord
    · have outside : word? (-r.num) = none :=
        word?_eq_none_iff.mpr fun inside => (inWord_neg_iff words.num).mp inside first
      simp only [reduce?, if_pos negative, outside]
      exact ⟨fun _ => ⟨negative, .inl first⟩, fun _ => rfl⟩
    · have num_word := word?_eq_some_iff.mpr ⟨rfl, (inWord_neg_iff words.num).mpr first⟩
      by_cases second : r.den = minWord
      · have outside : word? (-r.den) = none :=
          word?_eq_none_iff.mpr fun inside => (inWord_neg_iff words.den).mp inside second
        simp only [reduce?, if_pos negative, num_word, outside]
        exact ⟨fun _ => ⟨negative, .inr second⟩, fun _ => rfl⟩
      · have den_word := word?_eq_some_iff.mpr ⟨rfl, (inWord_neg_iff words.den).mpr second⟩
        simp [reduce?, negative, num_word, den_word, first, second]
  · simp [reduce?, negative]

theorem reduces_of_reduce? {r q : Ratio} (nonzero : r.den ≠ 0) (words : r.InWords)
    (found : r.reduce? = some q) : r.Reduces q := by
  rw [reduce?] at found
  by_cases negative : r.den < 0
  · rw [if_pos negative, Option.bind_eq_bind, Option.bind_eq_some_iff] at found
    obtain ⟨num, num_word, found⟩ := found
    rw [Option.bind_eq_some_iff] at found
    obtain ⟨den, den_word, found⟩ := found
    obtain ⟨rfl, num_in⟩ := word?_eq_some_iff.mp num_word
    obtain ⟨rfl, den_in⟩ := word?_eq_some_iff.mp den_word
    obtain rfl : cancel ⟨-r.num, -r.den⟩ = q := Option.some.inj found
    obtain ⟨lowest, words', cross⟩ :=
      reduces_cancel (r := ⟨-r.num, -r.den⟩) (neg_pos.mpr negative) ⟨num_in, den_in⟩
    refine ⟨lowest, words', ?_⟩
    rw [mul_neg, neg_mul] at cross
    exact neg_inj.mp cross
  · rw [if_neg negative] at found
    obtain rfl := Option.some.inj found
    exact reduces_cancel (lt_of_le_of_ne (not_lt.mp negative) nonzero.symm) words

end Ratio

end FrameRelay
