import FrameRelay.Stage.Options
import FrameRelay.Proofs.Singles

/-! Quotients of counts compared in double precision. Different quotients of small terms are
further apart than their rounding errors, and equal ones are rounded alike, so that the comparison
is the one of the exact quotients. The scale derived from two lengths is therefore the exact one. -/

namespace FrameRelay.Number

theorem Fine.dyadic {x : ℚ} (fine : Fine x) : ∃ (numerator : ℤ) (k : ℕ), x * 2 ^ k = numerator := by
  obtain ⟨mantissa, exponent, -, -, rfl⟩ := fine
  rcases Int.le_total 0 exponent with above | below
  · lift exponent to ℕ using above
    exact ⟨mantissa * 2 ^ exponent, 0, by push_cast; simp⟩
  · obtain ⟨k, rfl⟩ := Int.exists_eq_neg_ofNat below
    refine ⟨mantissa, k, ?_⟩
    rw [zpow_neg, zpow_natCast]
    push_cast
    field_simp

/-- The terms of a quotient, counts that a double holds exactly. -/
structure Terms (n d : ℕ) : Prop where
  positive : 0 < d
  small : n < 2 ^ 53
  small' : d < 2 ^ 53

namespace Terms
variable {n d : ℕ} (terms : Terms n d)
include terms

theorem fine_of_dyadic {numerator : ℤ} {k : ℕ} (dyadic : (n : ℚ) / d * 2 ^ k = numerator) :
    Fine (n / d) := by
  obtain ⟨positive, small, small'⟩ := terms
  have common : 0 < n.gcd d := Nat.gcd_pos_of_pos_right n positive
  obtain ⟨g, n', d', g_pos, coprime, rfl, rfl⟩ := Nat.exists_coprime' common
  have positive' : 0 < d' := Nat.pos_of_mul_pos_right positive
  have reduced : ((n' * g : ℕ) : ℚ) / (d' * g : ℕ) = n' / d' := by
    have nonzero : (g : ℚ) ≠ 0 := by exact_mod_cast g_pos.ne'
    rw [Nat.cast_mul, Nat.cast_mul, mul_div_mul_right _ _ nonzero]
  rw [reduced] at dyadic ⊢
  have divides : d' ∣ 2 ^ k := by
    have whole : ((n' * 2 ^ k : ℕ) : ℤ) = numerator * d' := by
      rw [div_mul_eq_mul_div, div_eq_iff (by exact_mod_cast positive'.ne')] at dyadic
      exact_mod_cast dyadic
    have divides : d' ∣ n' * 2 ^ k := by
      rw [← Int.natCast_dvd_natCast, whole]
      exact Dvd.intro_left numerator rfl
    exact coprime.symm.dvd_of_dvd_mul_left divides
  obtain ⟨j, -, rfl⟩ := (Nat.dvd_prime_pow Nat.prime_two).mp divides
  have short : j < 53 := by
    have below : 2 ^ j ≤ 2 ^ j * g := Nat.le_mul_of_pos_right _ g_pos
    exact (Nat.pow_lt_pow_iff_right (by norm_num)).mp (below.trans_lt small')
  have less : n' ≤ n' * g := Nat.le_mul_of_pos_right n' g_pos
  refine ⟨n', -(j : ℤ), less.trans_lt small, by omega, ?_⟩
  rw [zpow_neg, zpow_natCast, Nat.cast_pow, Nat.cast_ofNat, div_eq_mul_inv]

/-- A quotient never lies in the middle of two doubles, so it has one rounding only. -/
theorem eq_of_rounds {rounded rounded' : ℚ} (rounds : Rounds ((n : ℚ) / d) rounded)
    (rounds' : Rounds ((n : ℚ) / d) rounded') : rounded = rounded' := by
  have far : |rounded - n / d| = |rounded' - n / d| :=
    le_antisymm (rounds.nearest _ rounds'.fine) (rounds'.nearest _ rounds.fine)
  rcases abs_eq_abs.mp far with same | opposite
  · exact sub_left_inj.mp same
  · obtain ⟨numerator, k, first⟩ := rounds.fine.dyadic
    obtain ⟨numerator', k', second⟩ := rounds'.fine.dyadic
    have sum : rounded + rounded' = 2 * (n / d) := by linarith
    have middle : (n : ℚ) / d * 2 ^ (k + k' + 1) =
        ((numerator * 2 ^ k' + numerator' * 2 ^ k : ℤ) : ℚ) := by
      push_cast
      calc (n : ℚ) / d * 2 ^ (k + k' + 1)
          = 2 * (n / d) * (2 ^ k * 2 ^ k') := by ring
        _ = rounded * 2 ^ k * 2 ^ k' + rounded' * 2 ^ k' * 2 ^ k := by rw [← sum]; ring
        _ = numerator * 2 ^ k' + numerator' * 2 ^ k := by rw [first, second]
    have fine := terms.fine_of_dyadic middle
    rw [rounds.eq_of_fine fine, rounds'.eq_of_fine fine]

theorem close {rounded : ℚ} (rounds : Rounds ((n : ℚ) / d) rounded) :
    |rounded - n / d| ≤ n / d / 2 ^ 52 := by
  rcases Nat.eq_zero_or_pos n with rfl | some
  · have fine : Fine (((0 : ℕ) : ℚ) / d) := by
      rw [Nat.cast_zero, zero_div]
      exact holds_zero.fine
    rw [rounds.eq_of_fine fine, sub_self, abs_zero]
    positivity
  · apply rounds.close
    have one : (1 : ℚ) ≤ n := by exact_mod_cast some
    have least : (d : ℚ) ≤ 2 ^ 53 := by exact_mod_cast terms.small'.le
    have positive : (0 : ℚ) < d := by exact_mod_cast terms.positive
    calc (2 : ℚ) ^ (-1022 : ℤ) ≤ 2 ^ (-53 : ℤ) := zpow_le_zpow_right₀ one_le_two (by norm_num)
      _ = 1 / 2 ^ 53 := by norm_num
      _ ≤ n / d := by gcongr

theorem holds : ∃ rounded, Holds (Float.ofNat n / Float.ofNat d) rounded ∧
    Rounds ((n : ℚ) / d) rounded := by
  have positive : (0 : ℚ) < d := by exact_mod_cast terms.positive
  have one : (1 : ℚ) ≤ d := by exact_mod_cast terms.positive
  have bounded : (n : ℚ) / d ≤ 2 ^ 100 := by
    have most : (n : ℚ) ≤ 2 ^ 53 := by exact_mod_cast terms.small.le
    calc (n : ℚ) / d ≤ n / 1 := by gcongr
      _ ≤ 2 ^ 100 := by linarith
  exact (ofNat_exact terms.small.le).div (ofNat_exact terms.small'.le) positive bounded

variable {n' d' : ℕ} (terms' : Terms n' d')
include terms'

/-- Different quotients are further apart than their rounding errors, if the product of the outer
terms is small. -/
theorem rounded_lt_rounded {rounded rounded' : ℚ} (rounds : Rounds ((n : ℚ) / d) rounded)
    (rounds' : Rounds ((n' : ℚ) / d') rounded') (less : n * d' < n' * d)
    (apart : n * d' < 2 ^ 50) : rounded < rounded' := by
  have positive : (0 : ℚ) < d := by exact_mod_cast terms.positive
  have positive' : (0 : ℚ) < d' := by exact_mod_cast terms'.positive
  have gap : ((n : ℚ) / d + n' / d') / 2 ^ 52 < n' / d' - n / d := by
    have next : (n : ℚ) * d' + 1 ≤ n' * d := by exact_mod_cast less
    have bound : (n : ℚ) * d' < 2 ^ 50 := by exact_mod_cast apart
    rw [div_add_div _ _ positive.ne' positive'.ne', div_sub_div _ _ positive'.ne' positive.ne',
      div_div, div_lt_div_iff₀ (by positivity) (by positivity)]
    nlinarith [mul_pos positive positive']
  have above := (abs_le.mp (terms.close rounds)).2
  have below := (abs_le.mp (terms'.close rounds')).1
  rw [add_div] at gap
  linarith

theorem quotient_lt_iff (apart : n * d' < 2 ^ 50) :
    Float.ofNat n / Float.ofNat d < Float.ofNat n' / Float.ofNat d' ↔ n * d' < n' * d := by
  obtain ⟨rounded, holds, rounds⟩ := terms.holds
  obtain ⟨rounded', holds', rounds'⟩ := terms'.holds
  have positive : (0 : ℚ) < d := by exact_mod_cast terms.positive
  have positive' : (0 : ℚ) < d' := by exact_mod_cast terms'.positive
  rw [holds.lt_iff holds']
  constructor
  · intro above
    by_contra notLess
    have order : (n' : ℚ) / d' ≤ n / d := by
      rw [div_le_div_iff₀ positive' positive]
      exact_mod_cast not_lt.mp notLess
    rcases order.lt_or_eq with less | same
    · exact (rounds'.mono rounds less).not_gt above
    · rw [same] at rounds'
      exact above.ne (terms.eq_of_rounds rounds rounds')
  · intro less
    exact terms.rounded_lt_rounded terms' rounds rounds' less apart

end Terms

namespace Holds
variable {x y z : Float} {value value' bound : ℚ} (holds : Holds x value) (holds' : Holds y value')
  (bounded : Holds z bound)
include holds

theorem isNaN : x.isNaN = false := by
  obtain ⟨mantissa, exponent, -, unpacked, -⟩ := holds
  show x.toModel.unpack.isNaN = false
  rw [unpacked, finiteOf]
  split <;> rfl

include holds' bounded

theorem lt_larger_iff : z < larger x y ↔ z < x ∨ z < y := by
  simp only [larger, holds.isNaN, holds'.isNaN, Bool.false_eq_true, if_false]
  by_cases less : x < y
  · rw [if_pos less, bounded.lt_iff holds, bounded.lt_iff holds']
    rw [holds.lt_iff holds'] at less
    exact ⟨.inr, fun either => either.elim (fun first => first.trans less) id⟩
  · rw [if_neg less, bounded.lt_iff holds, bounded.lt_iff holds']
    rw [holds.lt_iff holds', not_lt] at less
    exact ⟨.inl, fun either => either.elim id (fun second => second.trans_le less)⟩

end Holds

end FrameRelay.Number

namespace FrameRelay.UpscaleOptions
open Number

/-- A wanted length is more than so many fifths of an input length, which is not zero. -/
def Exceeds (fifths target input : Nat) : Prop := 0 < input ∧ fifths * input < 5 * target

instance (fifths target input : Nat) : Decidable (Exceeds fifths target input) :=
  inferInstanceAs (Decidable (_ ∧ _))

theorem Exceeds.mono {fifths target target' input : Nat} (exceeds : Exceeds fifths target input)
    (wider : target ≤ target') : Exceeds fifths target' input :=
  ⟨exceeds.1, exceeds.2.trans_le (Nat.mul_le_mul_left 5 wider)⟩

/-- One of the two wanted lengths exceeds its input length so. -/
def Outgrows (fifths w h inputWidth inputHeight : Nat) : Prop :=
  Exceeds fifths w inputWidth ∨ Exceeds fifths h inputHeight

instance (fifths w h inputWidth inputHeight : Nat) :
    Decidable (Outgrows fifths w h inputWidth inputHeight) :=
  inferInstanceAs (Decidable (_ ∨ _))

section ratio
variable {target input : Nat} (target_word : target < 2 ^ 32) (input_word : input < 2 ^ 32)
include target_word input_word

theorem holds_sizeRatio : ∃ ratio, Holds (sizeRatio target input) ratio := by
  by_cases empty : input = 0
  · rw [sizeRatio, if_pos empty]
    exact ⟨0, holds_zero⟩
  · rw [sizeRatio, if_neg empty]
    have terms : Terms target input := ⟨Nat.pos_of_ne_zero empty, by omega, by omega⟩
    obtain ⟨ratio, holds, -⟩ := terms.holds
    exact ⟨ratio, holds⟩

theorem lt_sizeRatio_iff {fifths : Nat} (few : fifths < 2 ^ 16) :
    Float.ofNat fifths / Float.ofNat 5 < sizeRatio target input ↔
      Exceeds fifths target input := by
  have bound : Terms fifths 5 := ⟨by norm_num, by omega, by norm_num⟩
  by_cases empty : input = 0
  · obtain ⟨rounded, holds, -⟩ := bound.holds
    rw [sizeRatio, if_pos empty, holds.lt_iff holds_zero]
    exact iff_of_false holds.nonneg.not_gt fun exceeds => exceeds.1.ne' empty
  · have terms : Terms target input := ⟨Nat.pos_of_ne_zero empty, by omega, by omega⟩
    have apart : fifths * input < 2 ^ 50 := by
      calc fifths * input < 2 ^ 16 * 2 ^ 32 := Nat.mul_lt_mul'' few input_word
        _ < 2 ^ 50 := by norm_num
    rw [sizeRatio, if_neg empty, bound.quotient_lt_iff terms apart, Exceeds, Nat.mul_comm target 5]
    exact ⟨fun less => ⟨Nat.pos_of_ne_zero empty, less⟩, And.right⟩

end ratio

theorem twelve_fifths : (2.4 : Float) = Float.ofNat 12 / Float.ofNat 5 := by decide +kernel

theorem six_fifths : (1.2 : Float) = Float.ofNat 6 / Float.ofNat 5 := by decide +kernel

section scale
variable {w h inputWidth inputHeight : Nat} (w_word : w < 2 ^ 32) (h_word : h < 2 ^ 32)
  (width_word : inputWidth < 2 ^ 32) (height_word : inputHeight < 2 ^ 32)
include w_word h_word width_word height_word

theorem lt_larger_sizeRatio_iff {fifths : Nat} (few : fifths < 2 ^ 16) :
    Float.ofNat fifths / Float.ofNat 5 <
        larger (sizeRatio w inputWidth) (sizeRatio h inputHeight) ↔
      Outgrows fifths w h inputWidth inputHeight := by
  have bound : Terms fifths 5 := ⟨by norm_num, by omega, by norm_num⟩
  obtain ⟨rounded, bounded, -⟩ := bound.holds
  obtain ⟨ratio, holds⟩ := holds_sizeRatio w_word width_word
  obtain ⟨ratio', holds'⟩ := holds_sizeRatio h_word height_word
  rw [holds.lt_larger_iff holds' bounded, lt_sizeRatio_iff w_word width_word few,
    lt_sizeRatio_iff h_word height_word few, Outgrows]

theorem deriveScale_eq : deriveScale w h inputWidth inputHeight =
    if Outgrows 12 w h inputWidth inputHeight then 4
    else if Outgrows 6 w h inputWidth inputHeight then 2 else 1 := by
  have large := lt_larger_sizeRatio_iff w_word h_word width_word height_word
    (show 12 < 2 ^ 16 by norm_num)
  have medium := lt_larger_sizeRatio_iff w_word h_word width_word height_word
    (show 6 < 2 ^ 16 by norm_num)
  simp only [deriveScale, twelve_fifths, six_fifths, large, medium]

theorem deriveScale_swap :
    deriveScale h w inputHeight inputWidth = deriveScale w h inputWidth inputHeight := by
  rw [deriveScale_eq w_word h_word width_word height_word,
    deriveScale_eq h_word w_word height_word width_word]
  have swap (fifths : Nat) : Outgrows fifths h w inputHeight inputWidth ↔
      Outgrows fifths w h inputWidth inputHeight := Or.comm
  simp only [swap]

theorem deriveScale_mono {w' h' : Nat} (wider : w ≤ w') (wide_word : w' < 2 ^ 32)
    (higher : h ≤ h') (high_word : h' < 2 ^ 32) :
    deriveScale w h inputWidth inputHeight ≤ deriveScale w' h' inputWidth inputHeight := by
  have grows {fifths : Nat} (outgrows : Outgrows fifths w h inputWidth inputHeight) :
      Outgrows fifths w' h' inputWidth inputHeight :=
    outgrows.imp (Exceeds.mono · wider) (Exceeds.mono · higher)
  rw [deriveScale_eq w_word h_word width_word height_word,
    deriveScale_eq wide_word high_word width_word height_word]
  by_cases large : Outgrows 12 w h inputWidth inputHeight
  · rw [if_pos large, if_pos (grows large)]
  rw [if_neg large]
  by_cases medium : Outgrows 6 w h inputWidth inputHeight
  · rw [if_pos medium, if_pos (grows medium)]
    split <;> decide
  · rw [if_neg medium]
    split
    · decide
    · split <;> decide

end scale

theorem deriveScale_at_ratio {k other : Nat} (some : 0 < k) (word : 12 * k + 1 < 2 ^ 32)
    (other_word : other < 2 ^ 32) :
    deriveScale (6 * k) 0 (5 * k) other = 1 ∧ deriveScale (6 * k + 1) 0 (5 * k) other = 2 ∧
      deriveScale (12 * k) 0 (5 * k) other = 2 ∧ deriveScale (12 * k + 1) 0 (5 * k) other = 4 := by
  have scale {w : Nat} (below : w ≤ 12 * k + 1) :=
    deriveScale_eq (show w < 2 ^ 32 by omega) (show 0 < 2 ^ 32 by norm_num)
      (show 5 * k < 2 ^ 32 by omega) other_word
  rw [scale (by omega), scale (by omega), scale (by omega), scale (by omega)]
  simp only [Outgrows, Exceeds]
  grind

/-- The scale of any wanted and any input size is 4 exactly if a wanted length is above twelve
fifths of its input length, else 2 exactly if one is above six fifths, and 1 otherwise. It does not
fall when a wanted length grows, and it changes with the first pixel above the two ratios, in
either direction. -/
theorem deriveScale_exact {w h inputWidth inputHeight : Nat} (w_word : w < 2 ^ 32)
    (h_word : h < 2 ^ 32) (width_word : inputWidth < 2 ^ 32) (height_word : inputHeight < 2 ^ 32) :
    (deriveScale w h inputWidth inputHeight = 4 ↔ Outgrows 12 w h inputWidth inputHeight) ∧
    (deriveScale w h inputWidth inputHeight = 2 ↔
      ¬ Outgrows 12 w h inputWidth inputHeight ∧ Outgrows 6 w h inputWidth inputHeight) ∧
    (deriveScale w h inputWidth inputHeight = 1 ↔
      ¬ Outgrows 12 w h inputWidth inputHeight ∧ ¬ Outgrows 6 w h inputWidth inputHeight) ∧
    (∀ w' h', w ≤ w' → w' < 2 ^ 32 → h ≤ h' → h' < 2 ^ 32 →
      deriveScale w h inputWidth inputHeight ≤ deriveScale w' h' inputWidth inputHeight) ∧
    (∀ k other, 0 < k → 12 * k + 1 < 2 ^ 32 → other < 2 ^ 32 →
      (deriveScale (6 * k) 0 (5 * k) other = 1 ∧ deriveScale (6 * k + 1) 0 (5 * k) other = 2 ∧
        deriveScale (12 * k) 0 (5 * k) other = 2 ∧
        deriveScale (12 * k + 1) 0 (5 * k) other = 4) ∧
      ∀ target < 2 ^ 32, deriveScale 0 target other (5 * k) =
        deriveScale target 0 (5 * k) other) := by
  have scale := deriveScale_eq w_word h_word width_word height_word
  refine ⟨?four, ?two, ?one, fun w' h' wider wide_word higher high_word =>
    deriveScale_mono w_word h_word width_word height_word wider wide_word higher high_word,
    fun k other some word other_word => ⟨deriveScale_at_ratio some word other_word,
      fun target target_word => deriveScale_swap target_word (by norm_num) (by omega) other_word⟩⟩
  all_goals
    rw [scale]
    by_cases large : Outgrows 12 w h inputWidth inputHeight
    · simp [large]
    · by_cases medium : Outgrows 6 w h inputWidth inputHeight <;> simp [large, medium]

/-- The largest width against two input widths, one pixel to each side of five twelfths of it. -/
theorem deriveScale_exact_largest :
    4294967295 < 2 ^ 32 ∧ 0 < 2 ^ 32 ∧ 1789569706 < 2 ^ 32 ∧ 1789569707 < 2 ^ 32 ∧
      deriveScale 4294967295 0 1789569706 0 = 4 ∧ deriveScale 4294967295 0 1789569707 0 = 2 := by
  have narrow := @deriveScale_exact 4294967295 0 1789569706 0 (by decide) (by decide) (by decide)
    (by decide)
  have wide := @deriveScale_exact 4294967295 0 1789569707 0 (by decide) (by decide) (by decide)
    (by decide)
  exact ⟨by decide, by decide, by decide, by decide, narrow.1.mpr (by decide),
    wide.2.1.mpr (by decide)⟩

end FrameRelay.UpscaleOptions
