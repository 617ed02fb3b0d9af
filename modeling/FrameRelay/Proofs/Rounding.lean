import FrameRelay.Number.Binary
import Mathlib

/-! Rounding to double precision on exact numbers: what a mantissa with residual bits knows of the
number it was cut from, and that no double is nearer to a number than its rounding. -/

namespace FrameRelay.Number
open Float.Model UnpackedFloat

/-- Where a number lies from a mantissa with residual bits. -/
def Lies (cut : ExtendedMantissa) (x : ℚ) : Prop :=
  match cut.roundBit, cut.stickyBit with
  | false, false => x = cut.mantissa
  | false, true => cut.mantissa < x ∧ x < cut.mantissa + 1 / 2
  | true, false => x = cut.mantissa + 1 / 2
  | true, true => cut.mantissa + 1 / 2 < x ∧ x < cut.mantissa + 1

namespace Lies
variable {cut : ExtendedMantissa} {x : ℚ}

theorem shiftRightOne (lies : Lies cut x) : Lies cut.shiftRightOne (x / 2) := by
  obtain ⟨mantissa, roundBit, stickyBit⟩ := cut
  have parts : (mantissa : ℚ) = 2 * (mantissa / 2 : ℕ) + (mantissa % 2 : ℕ) := by
    exact_mod_cast (Nat.div_add_mod mantissa 2).symm
  have bit : mantissa % 2 = 0 ∨ mantissa % 2 = 1 := by omega
  rcases bit with bit | bit <;> rw [bit] at parts <;> cases roundBit <;> cases stickyBit <;>
    simp [Lies, ExtendedMantissa.shiftRightOne, bit] at lies ⊢ <;> push_cast at parts <;>
    (try constructor) <;> linarith

theorem shiftRight (lies : Lies cut x) (n : ℕ) : Lies (cut >>> n) (x / 2 ^ n) := by
  induction n with
  | zero =>
    show Lies cut (x / 2 ^ 0)
    simpa using lies
  | succ n ih =>
    have next := ih.shiftRightOne
    rwa [div_div, ← pow_succ] at next

theorem mantissa_le (lies : Lies cut x) : (cut.mantissa : ℚ) ≤ x := by
  obtain ⟨mantissa, roundBit, stickyBit⟩ := cut
  cases roundBit <;> cases stickyBit <;> simp only [Lies] at lies <;> linarith

theorem lt_mantissa (lies : Lies cut x) : x < cut.mantissa + 1 := by
  obtain ⟨mantissa, roundBit, stickyBit⟩ := cut
  cases roundBit <;> cases stickyBit <;> simp only [Lies] at lies <;> linarith

theorem rounded (lies : Lies cut x) :
    (cut.roundedMantissa = cut.mantissa ∧ x ≤ cut.mantissa + 1 / 2) ∨
      (cut.roundedMantissa = cut.mantissa + 1 ∧ cut.mantissa + 1 / 2 ≤ x) := by
  obtain ⟨mantissa, roundBit, stickyBit⟩ := cut
  have bit : mantissa % 2 = 0 ∨ mantissa % 2 = 1 := by omega
  cases roundBit <;> cases stickyBit <;>
    simp only [Lies, ExtendedMantissa.roundedMantissa, ExtendedMantissa.accuracy,
      Accuracy.roundToNearestEven] at lies ⊢
  · exact .inl ⟨trivial, by linarith⟩
  · exact .inl ⟨trivial, by linarith⟩
  · rcases bit with bit | bit
    · exact .inl ⟨by omega, by linarith⟩
    · exact .inr ⟨by omega, by linarith⟩
  · exact .inr ⟨trivial, by linarith⟩

theorem nearest (lies : Lies cut x) (other : ℕ) :
    |(cut.roundedMantissa : ℚ) - x| ≤ |(other : ℚ) - x| := by
  have low := lies.mantissa_le
  have high := lies.lt_mantissa
  have side : (other : ℚ) ≤ cut.mantissa ∨ (cut.mantissa : ℚ) + 1 ≤ other := by
    rcases Nat.lt_or_ge cut.mantissa other with above | below
    · exact .inr (by exact_mod_cast above)
    · exact .inl (by exact_mod_cast below)
  rcases lies.rounded with ⟨kept, half⟩ | ⟨next, half⟩
  · rw [kept, abs_of_nonpos (by linarith)]
    rcases side with below | above
    · rw [abs_of_nonpos (by linarith)]; linarith
    · rw [abs_of_nonneg (by linarith)]; linarith
  · rw [next, Nat.cast_succ, abs_of_nonneg (by linarith)]
    rcases side with below | above
    · rw [abs_of_nonpos (by linarith)]; linarith
    · rw [abs_of_nonneg (by linarith)]; linarith

end Lies

theorem mantissa_shiftRight (cut : ExtendedMantissa) (n : ℕ) :
    (cut >>> n).mantissa = cut.mantissa / 2 ^ n := by
  induction n with
  | zero => show cut.mantissa = cut.mantissa / 2 ^ 0; simp
  | succ n ih =>
    show (cut >>> n).mantissa / 2 = _
    rw [ih, Nat.div_div_eq_div_mul, Nat.pow_succ]

theorem shiftRight_shiftLeft (mantissa n : ℕ) :
    ExtendedMantissa.mk (mantissa <<< n) false false >>> n = ⟨mantissa, false, false⟩ := by
  have lies := Lies.shiftRight
    (show Lies ⟨mantissa <<< n, false, false⟩ ((mantissa <<< n : ℕ) : ℚ) from rfl) n
  have kept : (ExtendedMantissa.mk (mantissa <<< n) false false >>> n).mantissa = mantissa := by
    rw [mantissa_shiftRight, Nat.shiftLeft_eq, Nat.mul_div_cancel _ (Nat.two_pow_pos n)]
  have whole : ((mantissa <<< n : ℕ) : ℚ) / 2 ^ n = mantissa := by
    rw [Nat.shiftLeft_eq]
    push_cast
    field_simp
  rw [whole] at lies
  generalize ExtendedMantissa.mk (mantissa <<< n) false false >>> n = cut at lies kept
  obtain ⟨mantissa', roundBit, stickyBit⟩ := cut
  obtain rfl : mantissa' = mantissa := kept
  cases roundBit <;> cases stickyBit <;> simp [Lies] at lies ⊢
  exact absurd lies (by norm_num)

/-- A number that double precision can express, its largest exponent aside. -/
def Fine (x : ℚ) : Prop :=
  ∃ (mantissa : ℕ) (exponent : ℤ), mantissa < 2 ^ 53 ∧ -1074 ≤ exponent ∧
    x = mantissa * 2 ^ exponent

/-- A mantissa and an exponent in the one form that a word keeps them in. -/
structure Canonical (mantissa : ℕ) (exponent : ℤ) : Prop where
  small : mantissa < 2 ^ 53
  deep : -1074 ≤ exponent
  full : 2 ^ 52 ≤ mantissa ∨ exponent = -1074

theorem Canonical.fine {mantissa : ℕ} {exponent : ℤ} (canonical : Canonical mantissa exponent) :
    Fine (mantissa * 2 ^ exponent) :=
  ⟨mantissa, exponent, canonical.small, canonical.deep, rfl⟩

/-- Among the numbers of double precision none is nearer to the exact one. -/
structure Rounds (exact rounded : ℚ) : Prop where
  fine : Fine rounded
  nearest : ∀ other, Fine other → |rounded - exact| ≤ |other - exact|

namespace Rounds
variable {exact rounded other : ℚ}

theorem self (fine : Fine exact) : Rounds exact exact :=
  ⟨fine, fun other _ => by rw [sub_self, abs_zero]; exact abs_nonneg _⟩

theorem eq_of_fine (rounds : Rounds exact rounded) (fine : Fine exact) : rounded = exact := by
  have distance := rounds.nearest exact fine
  rw [sub_self, abs_zero] at distance
  exact sub_eq_zero.mp (abs_eq_zero.mp (le_antisymm distance (abs_nonneg _)))

theorem le_of_le (rounds : Rounds exact rounded) (fine : Fine other) (below : exact ≤ other) :
    rounded ≤ other := by
  have distance := rounds.nearest other fine
  rw [abs_of_nonneg (sub_nonneg.mpr below)] at distance
  have := (abs_le.mp distance).2
  linarith

theorem ge_of_ge (rounds : Rounds exact rounded) (fine : Fine other) (above : other ≤ exact) :
    other ≤ rounded := by
  have distance := rounds.nearest other fine
  rw [abs_of_nonpos (sub_nonpos.mpr above)] at distance
  have := (abs_le.mp distance).1
  linarith

theorem mono {exact' rounded' : ℚ} (rounds : Rounds exact rounded)
    (rounds' : Rounds exact' rounded') (below : exact < exact') : rounded ≤ rounded' := by
  by_contra turned
  have turned : rounded' < rounded := not_le.mp turned
  -- each number would be on the far side of the middle of the two results
  have first : rounded + rounded' ≤ 2 * exact := by
    have distance := sq_le_sq.mpr (rounds.nearest rounded' rounds'.fine)
    nlinarith
  have second : 2 * exact' ≤ rounded + rounded' := by
    have distance := sq_le_sq.mpr (rounds'.nearest rounded rounds.fine)
    nlinarith
  linarith

theorem close (rounds : Rounds exact rounded) (full : 2 ^ (-1022 : ℤ) ≤ exact) :
    |rounded - exact| ≤ exact / 2 ^ 52 := by
  have positive : 0 < exact := lt_of_lt_of_le (zpow_pos two_pos _) full
  obtain ⟨exponent, low, high⟩ := exists_mem_Ico_zpow positive one_lt_two
  have deep : (-1022 : ℤ) < exponent + 1 :=
    (zpow_lt_zpow_iff_right₀ one_lt_two).mp (lt_of_le_of_lt full high)
  -- the grid of mantissas that are full at this exponent
  have grid : (2 : ℚ) ^ exponent = 2 ^ (exponent - 52) * 2 ^ 52 := by
    rw [← zpow_natCast, ← zpow_add₀ two_ne_zero]; congr 1; norm_num
  have step : (0 : ℚ) < 2 ^ (exponent - 52) := zpow_pos two_pos _
  have under := Nat.floor_le (div_pos positive step).le
  have beyond := Nat.lt_floor_add_one (exact / 2 ^ (exponent - 52))
  rw [le_div_iff₀ step] at under
  rw [div_lt_iff₀ step] at beyond
  have small : ⌊exact / 2 ^ (exponent - 52)⌋₊ < 2 ^ 53 := by
    have bound : exact / 2 ^ (exponent - 52) < ((2 ^ 53 : ℕ) : ℚ) := by
      rw [div_lt_iff₀ step]
      calc exact < 2 ^ (exponent + 1) := high
        _ = 2 ^ exponent * 2 := zpow_add_one₀ two_ne_zero exponent
        _ = _ := by rw [grid]; push_cast; ring
    exact (Nat.floor_lt (div_pos positive step).le).mpr bound
  have distance := rounds.nearest _ ⟨_, exponent - 52, small, by omega, rfl⟩
  rw [abs_of_nonpos (sub_nonpos.mpr under)] at distance
  refine distance.trans ?_
  rw [le_div_iff₀ (by positivity)]
  nlinarith

end Rounds

/-- The finite number with these parts; no mantissa makes a zero. -/
def finiteOf (sign : Sign) (mantissa : ℕ) (exponent : ℤ) : UnpackedFloat :=
  if h : mantissa = 0 then .zero sign else .finite sign mantissa exponent (Nat.pos_of_ne_zero h)

theorem finiteOf_zero (sign : Sign) (exponent : ℤ) : finiteOf sign 0 exponent = .zero sign :=
  dif_pos rfl

theorem finiteOf_of_pos (sign : Sign) {mantissa : ℕ} (exponent : ℤ) (some : 0 < mantissa) :
    finiteOf sign mantissa exponent = .finite sign mantissa exponent some :=
  dif_neg some.ne'

theorem targetExponent_eq (exponent : ℤ) :
    Format.binary64.targetExponent exponent = max (exponent - 53) (-1074) := rfl

theorem log2_lt_succ {mantissa : ℕ} (bits : ℕ) (small : mantissa < 2 ^ (bits + 1)) :
    mantissa.log2 < bits + 1 := by
  by_cases zero : mantissa = 0
  · simp [zero]
  · exact (Nat.log2_lt zero).mpr small

theorem shiftToTargetExponent_shiftLeft (spec : Format) (mantissa shift : ℕ) (exponent : ℤ)
    (target : spec.targetExponent (totalExponent (mantissa <<< shift) exponent) =
      exponent + shift) :
    shiftToTargetExponent spec (mantissa <<< shift) exponent .exact =
      (⟨mantissa, false, false⟩, exponent + shift) := by
  have steps : (exponent + shift - exponent).toNat = shift := by omega
  simp only [shiftToTargetExponent, shiftToExponent, target, steps]
  exact congrArg (·, exponent + (shift : ℤ)) (shiftRight_shiftLeft mantissa shift)

theorem shiftToTargetExponent_of_le {mantissa : ℕ} {exponent : ℤ} (small : mantissa ≤ 2 ^ 53)
    (deep : -1074 ≤ exponent) :
    ∃ mantissa' exponent',
      shiftToTargetExponent .binary64 mantissa exponent .exact =
        (⟨mantissa', false, false⟩, exponent') ∧
      (mantissa' : ℚ) * 2 ^ exponent' = mantissa * 2 ^ exponent ∧
      (mantissa < 2 ^ 53 → mantissa' = mantissa ∧ exponent' = exponent) ∧
      (mantissa = 2 ^ 53 → mantissa' = 2 ^ 52 ∧ exponent' = exponent + 1) := by
  rcases Nat.lt_or_eq_of_le small with fits | long
  · have bits := log2_lt_succ 52 fits
    have still : (Format.binary64.targetExponent (totalExponent mantissa exponent) -
        exponent).toNat = 0 := by
      rw [targetExponent_eq, totalExponent]; omega
    refine ⟨mantissa, exponent, ?_, rfl, fun _ => ⟨rfl, rfl⟩, fun long => by omega⟩
    simp only [shiftToTargetExponent, shiftToExponent, still]
    simp only [Nat.cast_zero, add_zero]
    rfl
  · subst long
    have bits : Nat.log2 (2 ^ 53) = 53 := Nat.log2_two_pow
    have one : (Format.binary64.targetExponent (totalExponent (2 ^ 53) exponent) -
        exponent).toNat = 1 := by
      rw [targetExponent_eq, totalExponent, bits]; omega
    refine ⟨2 ^ 52, exponent + 1, ?_, ?_, fun fits => by omega, fun _ => ⟨rfl, rfl⟩⟩
    · simp only [shiftToTargetExponent, shiftToExponent, one]
      rfl
    · rw [zpow_add_one₀ two_ne_zero]; push_cast; ring

/-- Rounding the mantissa at one exponent gives a nearest number over all exponents, if the
mantissa is full or the exponent the least one. -/
theorem Lies.rounds {cut : ExtendedMantissa} {x : ℚ} {exponent : ℤ} (lies : Lies cut x)
    (fine : Fine (cut.roundedMantissa * 2 ^ exponent))
    (full : 2 ^ 52 ≤ cut.mantissa ∨ exponent = -1074) :
    Rounds (x * 2 ^ exponent) (cut.roundedMantissa * 2 ^ exponent) := by
  have positive : (0 : ℚ) < 2 ^ exponent := zpow_pos two_pos _
  have scaled (y : ℚ) : |y * 2 ^ exponent - x * 2 ^ exponent| = |y - x| * 2 ^ exponent := by
    rw [← sub_mul, abs_mul, abs_of_pos positive]
  refine ⟨fine, ?_⟩
  rintro other ⟨mantissa, otherExponent, small, deep, rfl⟩
  rw [scaled]
  rcases le_or_gt exponent otherExponent with coarse | finer
  · -- a number of this exponent's grid
    obtain ⟨shift, shifted⟩ := Int.eq_ofNat_of_zero_le (sub_nonneg.mpr coarse)
    have onGrid : (mantissa : ℚ) * 2 ^ otherExponent =
        ((mantissa * 2 ^ shift : ℕ) : ℚ) * 2 ^ exponent := by
      rw [show otherExponent = exponent + shift by omega, zpow_add₀ two_ne_zero, zpow_natCast]
      push_cast; ring
    rw [onGrid, scaled]
    exact mul_le_mul_of_nonneg_right (lies.nearest _) positive.le
  · -- smaller than the least full mantissa, which is on the grid and not above the number
    have full : 2 ^ 52 ≤ cut.mantissa := full.resolve_right (by omega)
    have least : ((2 ^ 52 : ℕ) : ℚ) ≤ x := le_trans (by exact_mod_cast full) lies.mantissa_le
    have below : (mantissa : ℚ) * 2 ^ otherExponent ≤ ((2 ^ 52 : ℕ) : ℚ) * 2 ^ exponent := by
      have next : (2 : ℚ) ^ otherExponent ≤ 2 ^ (exponent - 1) :=
        zpow_le_zpow_right₀ one_le_two (by omega)
      have half : (2 : ℚ) ^ exponent = 2 ^ (exponent - 1) * 2 := by
        rw [← zpow_add_one₀ two_ne_zero, sub_add_cancel]
      have bound : (mantissa : ℚ) ≤ 2 ^ 53 := by exact_mod_cast small.le
      calc (mantissa : ℚ) * 2 ^ otherExponent
          ≤ 2 ^ 53 * 2 ^ (exponent - 1) := by gcongr
        _ = _ := by rw [half]; push_cast; ring
    have near := mul_le_mul_of_nonneg_right (lies.nearest (2 ^ 52)) positive.le
    rw [← scaled ((2 ^ 52 : ℕ) : ℚ)] at near
    have onGrid : ((2 ^ 52 : ℕ) : ℚ) * 2 ^ exponent ≤ x * 2 ^ exponent :=
      mul_le_mul_of_nonneg_right least positive.le
    rw [abs_of_nonpos (sub_nonpos.mpr onGrid)] at near
    rw [abs_of_nonpos (sub_nonpos.mpr (below.trans onGrid))]
    linarith

/-- The result is a nearest number in the form of a word, under the given sign. -/
def RoundsTo (sign : Sign) (exact : ℚ) (result : UnpackedFloat) : Prop :=
  ∃ mantissa exponent, Canonical mantissa exponent ∧ Rounds exact (mantissa * 2 ^ exponent) ∧
    result = finiteOf sign mantissa exponent

theorem Canonical.roundsTo {mantissa : ℕ} {exponent : ℤ} (canonical : Canonical mantissa exponent)
    (sign : Sign) : RoundsTo sign (mantissa * 2 ^ exponent) (finiteOf sign mantissa exponent) :=
  ⟨mantissa, exponent, canonical, .self canonical.fine, rfl⟩

theorem RoundsTo.zero {sign : Sign} : RoundsTo sign 0 (.zero sign) := by
  have none : Canonical 0 (-1074) := ⟨by norm_num, le_rfl, .inr rfl⟩
  simpa [finiteOf_zero] using none.roundsTo sign

theorem mantissa_ofMantissaAndAccuracy (mantissa : ℕ) (accuracy : Accuracy) :
    (ExtendedMantissa.ofMantissaAndAccuracy mantissa accuracy).mantissa = mantissa := by
  unfold ExtendedMantissa.ofMantissaAndAccuracy
  split <;> rfl

/-- Nothing is lost on the way to an exponent that is not above the one the mantissa calls for
but by the one rounding. The mantissa may come with a rest already. -/
theorem Lies.roundWithAccuracy_rounds (sign : Sign) {mantissa : ℕ} {exponent : ℤ}
    {accuracy : Accuracy} {x : ℚ}
    (lies : Lies (ExtendedMantissa.ofMantissaAndAccuracy mantissa accuracy) x)
    (long : exponent ≤ Format.binary64.targetExponent (totalExponent mantissa exponent)) :
    RoundsTo sign (x * 2 ^ exponent)
      (roundWithAccuracy .binary64 sign mantissa exponent accuracy) := by
  obtain ⟨shift, shifted⟩ := Int.eq_ofNat_of_zero_le (sub_nonneg.mpr long)
  have target : max (mantissa.log2 + 1 + exponent - 53) (-1074) = exponent + shift := by
    rw [targetExponent_eq, totalExponent] at shifted; omega
  set cut := ExtendedMantissa.ofMantissaAndAccuracy mantissa accuracy >>> shift with cutIs
  have lies : Lies cut (x / 2 ^ shift) := lies.shiftRight shift
  have kept : cut.mantissa = mantissa / 2 ^ shift := by
    rw [cutIs, mantissa_shiftRight, mantissa_ofMantissaAndAccuracy]
  have small : cut.mantissa < 2 ^ 53 := by
    rw [kept, Nat.div_lt_iff_lt_mul (Nat.two_pow_pos shift), ← Nat.pow_add]
    exact lt_of_lt_of_le Nat.lt_log2_self (Nat.pow_le_pow_right two_pos (by omega))
  have full : 2 ^ 52 ≤ cut.mantissa ∨ exponent + shift = -1074 := by
    by_cases least : exponent + shift = -1074
    · exact .inr least
    · have bits : mantissa.log2 = 52 + shift := by omega
      have some : mantissa ≠ 0 := by
        intro none
        rw [none, Nat.log2_zero] at bits
        omega
      left
      rw [kept, Nat.le_div_iff_mul_le (Nat.two_pow_pos shift), ← Nat.pow_add, ← bits]
      exact Nat.log2_self_le some
  have bounds : cut.mantissa ≤ cut.roundedMantissa ∧ cut.roundedMantissa ≤ 2 ^ 53 := by
    rcases lies.rounded with ⟨same, -⟩ | ⟨next, -⟩ <;> omega
  have deep : -1074 ≤ exponent + shift := by omega
  obtain ⟨mantissa', exponent', second, same, fits, carry⟩ :=
    shiftToTargetExponent_of_le bounds.2 deep
  have canonical : Canonical mantissa' exponent' := by
    rcases Nat.lt_or_eq_of_le bounds.2 with short | exceeds
    · obtain ⟨rfl, rfl⟩ := fits short
      exact ⟨short, deep, full.imp_left fun full => full.trans bounds.1⟩
    · obtain ⟨rfl, rfl⟩ := carry exceeds
      exact ⟨by norm_num, by omega, .inl le_rfl⟩
  refine ⟨mantissa', exponent', canonical, ?_, ?_⟩
  · have scale : x * 2 ^ exponent = x / 2 ^ shift * 2 ^ (exponent + shift : ℤ) := by
      rw [zpow_add₀ two_ne_zero, zpow_natCast]; field_simp
    rw [scale, same]
    exact lies.rounds (same ▸ canonical.fine) full
  · have first : shiftToTargetExponent .binary64 mantissa exponent accuracy =
        (cut, exponent + shift) := by
      simp only [shiftToTargetExponent, shiftToExponent, shifted]
      rfl
    simp only [roundWithAccuracy, first, second]
    rfl

theorem roundWithAccuracy_rounds (sign : Sign) (mantissa : ℕ) (exponent : ℤ)
    (long : exponent ≤ Format.binary64.targetExponent (totalExponent mantissa exponent)) :
    RoundsTo sign (mantissa * 2 ^ exponent)
      (roundWithAccuracy .binary64 sign mantissa exponent .exact) :=
  Lies.roundWithAccuracy_rounds sign
    (show Lies ⟨mantissa, false, false⟩ (mantissa : ℚ) from rfl) long

theorem log2_shiftLeft {mantissa : ℕ} (some : mantissa ≠ 0) (shift : ℕ) :
    (mantissa <<< shift).log2 = mantissa.log2 + shift := by
  induction shift with
  | zero => rfl
  | succ shift ih =>
    have more : mantissa <<< shift ≠ 0 := by
      rw [Nat.shiftLeft_eq]
      exact Nat.mul_ne_zero some (Nat.two_pow_pos shift).ne'
    rw [Nat.shiftLeft_succ, Nat.log2_two_mul more, ih, add_assoc]

theorem round_rounds (sign : Sign) {mantissa : ℕ} (some : mantissa ≠ 0) (exponent : ℤ) :
    RoundsTo sign (mantissa * 2 ^ exponent) (round .binary64 sign mantissa exponent) := by
  set shift := (exponent - Format.binary64.targetExponent
    (totalExponent mantissa exponent)).toNat with shiftIs
  have same : (mantissa : ℚ) * 2 ^ exponent =
      ((mantissa <<< shift : ℕ) : ℚ) * 2 ^ (exponent - shift) := by
    rw [Nat.shiftLeft_eq, zpow_sub₀ two_ne_zero, zpow_natCast]
    push_cast
    field_simp
  have long : exponent - shift ≤ Format.binary64.targetExponent
      (totalExponent (mantissa <<< shift) (exponent - shift)) := by
    have bits := log2_shiftLeft some shift
    rw [targetExponent_eq, totalExponent] at shiftIs ⊢
    omega
  rw [same]
  exact roundWithAccuracy_rounds sign _ _ long

theorem normalize_rounds (mantissa : ℕ) (exponent : ℤ) :
    RoundsTo .positive (mantissa * 2 ^ exponent)
      (UnpackedFloat.normalize .binary64 mantissa exponent .positive) := by
  by_cases none : mantissa = 0
  · rw [none, Nat.cast_zero, zero_mul]
    exact .zero
  · have positive : compare (mantissa : ℤ) 0 = .gt := Int.compare_eq_gt.mpr (by omega)
    rw [UnpackedFloat.normalize, positive]
    exact round_rounds .positive none exponent

theorem shiftLeft_scaled (mantissa : ℕ) {exponent least : ℤ} (below : least ≤ exponent) :
    (mantissa : ℚ) * 2 ^ exponent =
      ((mantissa <<< (exponent - least).toNat : ℕ) : ℚ) * 2 ^ least := by
  have parts : exponent = (exponent - least).toNat + least := by omega
  conv_lhs => rw [parts, zpow_add₀ two_ne_zero, zpow_natCast]
  rw [Nat.shiftLeft_eq]
  push_cast
  ring

section Operations
variable {mantissa mantissa' : ℕ} {exponent exponent' : ℤ}

theorem mul_positive (sign : Sign) : sign * .positive = sign := by
  cases sign <;> rfl

theorem mul_rounds_of_sign (sign : Sign) (canonical : Canonical mantissa exponent)
    (canonical' : Canonical mantissa' exponent') :
    RoundsTo sign (mantissa * 2 ^ exponent * (mantissa' * 2 ^ exponent'))
      (mul .binary64 (finiteOf sign mantissa exponent)
        (finiteOf .positive mantissa' exponent')) := by
  have zero : RoundsTo sign 0 (.zero (sign * .positive)) := by
    rw [mul_positive]
    exact .zero
  rcases Nat.eq_zero_or_pos mantissa with none | some
  · rw [none, finiteOf_zero, Nat.cast_zero, zero_mul, zero_mul]
    rcases Nat.eq_zero_or_pos mantissa' with none' | some'
    · rw [none', finiteOf_zero]
      exact zero
    · rw [finiteOf_of_pos _ _ some']
      exact zero
  rcases Nat.eq_zero_or_pos mantissa' with none' | some'
  · rw [none', finiteOf_zero, finiteOf_of_pos _ _ some, Nat.cast_zero, zero_mul, mul_zero]
    exact zero
  rw [finiteOf_of_pos _ _ some, finiteOf_of_pos _ _ some']
  have product : (mantissa : ℚ) * 2 ^ exponent * (mantissa' * 2 ^ exponent') =
      ((mantissa * mantissa' : ℕ) : ℚ) * 2 ^ (exponent + exponent') := by
    rw [zpow_add₀ two_ne_zero]; push_cast; ring
  rw [product, UnpackedFloat.mul, mul_positive]
  refine roundWithAccuracy_rounds sign _ _ ?_
  have nonzero : mantissa * mantissa' ≠ 0 := (Nat.mul_pos some some').ne'
  rw [targetExponent_eq, totalExponent]
  by_cases full : 2 ^ 52 ≤ mantissa * mantissa'
  · have bits := (Nat.le_log2 nonzero).mpr full
    omega
  · have least : exponent = -1074 := canonical.full.resolve_left fun long =>
      full (long.trans (Nat.le_mul_of_pos_right _ some'))
    have least' : exponent' = -1074 := canonical'.full.resolve_left fun long =>
      full (long.trans (Nat.le_mul_of_pos_left _ some))
    omega

theorem mul_rounds (canonical : Canonical mantissa exponent)
    (canonical' : Canonical mantissa' exponent') :
    RoundsTo .positive (mantissa * 2 ^ exponent * (mantissa' * 2 ^ exponent'))
      (mul .binary64 (finiteOf .positive mantissa exponent)
        (finiteOf .positive mantissa' exponent')) :=
  mul_rounds_of_sign .positive canonical canonical'

theorem add_rounds (canonical : Canonical mantissa exponent)
    (canonical' : Canonical mantissa' exponent') :
    RoundsTo .positive (mantissa * 2 ^ exponent + mantissa' * 2 ^ exponent')
      (add .binary64 (finiteOf .positive mantissa exponent)
        (finiteOf .positive mantissa' exponent')) := by
  rcases Nat.eq_zero_or_pos mantissa with none | some
  · rw [none, finiteOf_zero, Nat.cast_zero, zero_mul, zero_add]
    rcases Nat.eq_zero_or_pos mantissa' with none' | some'
    · rw [none', finiteOf_zero, Nat.cast_zero, zero_mul]
      exact .zero
    · have sum := canonical'.roundsTo .positive
      rwa [finiteOf_of_pos _ _ some'] at sum ⊢
  rcases Nat.eq_zero_or_pos mantissa' with none' | some'
  · rw [none', finiteOf_zero, Nat.cast_zero, zero_mul, add_zero]
    have sum := canonical.roundsTo .positive
    rwa [finiteOf_of_pos _ _ some] at sum ⊢
  rw [finiteOf_of_pos _ _ some, finiteOf_of_pos _ _ some']
  -- both mantissas at the smaller exponent
  rw [shiftLeft_scaled mantissa (min_le_left exponent exponent'),
    shiftLeft_scaled mantissa' (min_le_right exponent exponent'), ← add_mul, ← Nat.cast_add]
  exact normalize_rounds _ _

theorem sub_rounds (canonical : Canonical mantissa exponent)
    (below : (mantissa' : ℚ) * 2 ^ exponent' ≤ mantissa * 2 ^ exponent) :
    RoundsTo .positive (mantissa * 2 ^ exponent - mantissa' * 2 ^ exponent')
      (sub .binary64 (finiteOf .positive mantissa exponent)
        (finiteOf .positive mantissa' exponent')) := by
  rcases Nat.eq_zero_or_pos mantissa' with none' | some'
  · rw [none', finiteOf_zero, Nat.cast_zero, zero_mul, sub_zero]
    rcases Nat.eq_zero_or_pos mantissa with none | some
    · rw [none, finiteOf_zero, Nat.cast_zero, zero_mul]
      exact .zero
    · have difference := canonical.roundsTo .positive
      rwa [finiteOf_of_pos _ _ some] at difference ⊢
  rcases Nat.eq_zero_or_pos mantissa with none | some
  · have positive : (0 : ℚ) < mantissa' * 2 ^ exponent' := by positivity
    rw [none, Nat.cast_zero, zero_mul] at below
    exact absurd positive below.not_gt
  rw [finiteOf_of_pos _ _ some, finiteOf_of_pos _ _ some']
  rw [shiftLeft_scaled mantissa (min_le_left exponent exponent'),
    shiftLeft_scaled mantissa' (min_le_right exponent exponent')] at below ⊢
  have ordered : mantissa' <<< (exponent' - min exponent exponent').toNat ≤
      mantissa <<< (exponent - min exponent exponent').toNat := by
    exact_mod_cast le_of_mul_le_mul_right below (zpow_pos two_pos _)
  rw [← sub_mul, ← Nat.cast_sub ordered]
  have rounds := normalize_rounds (mantissa <<< (exponent - min exponent exponent').toNat -
    mantissa' <<< (exponent' - min exponent exponent').toNat) (min exponent exponent')
  rwa [Int.ofNat_sub ordered] at rounds

/-- The rest of a division tells on which side of the middle between two mantissas it is. -/
theorem lies_accuracyOfFraction (n : ℕ) {d : ℕ} (some : 0 < d) :
    Lies (ExtendedMantissa.ofMantissaAndAccuracy (n / d) (accuracyOfFraction (n % d) d))
      ((n : ℚ) / d) := by
  have positive : (0 : ℚ) < d := by exact_mod_cast some
  have division : (n : ℚ) = d * (n / d : ℕ) + (n % d : ℕ) := by
    exact_mod_cast (Nat.div_add_mod n d).symm
  have parts : (n : ℚ) / d = (n / d : ℕ) + ((n % d : ℕ) : ℚ) / d := by
    conv_lhs => rw [division]
    rw [add_div, mul_div_cancel_left₀ _ positive.ne']
  rw [accuracyOfFraction, parts]
  by_cases none : n % d = 0
  · rw [if_pos none, none]
    simp [Lies, ExtendedMantissa.ofMantissaAndAccuracy]
  rw [if_neg none]
  have rest : (0 : ℚ) < ((n % d : ℕ) : ℚ) / d :=
    div_pos (by exact_mod_cast Nat.pos_of_ne_zero none) positive
  have below : ((n % d : ℕ) : ℚ) / d < 1 := by
    rw [div_lt_one positive]
    exact_mod_cast Nat.mod_lt n some
  rcases lt_trichotomy (2 * (n % d)) d with less | equal | more
  · have half : ((n % d : ℕ) : ℚ) / d < 1 / 2 := by
      have : (2 : ℚ) * (n % d : ℕ) < d := by exact_mod_cast less
      rw [div_lt_iff₀ positive]
      linarith
    rw [compare_lt_iff_lt.mpr less]
    show ((n / d : ℕ) : ℚ) < _ ∧ _ < ((n / d : ℕ) : ℚ) + 1 / 2
    exact ⟨by linarith, by linarith⟩
  · have half : ((n % d : ℕ) : ℚ) / d = 1 / 2 := by
      have : (2 : ℚ) * (n % d : ℕ) = d := by exact_mod_cast equal
      rw [div_eq_iff positive.ne']
      linarith
    rw [compare_eq_iff_eq.mpr equal, half]
    rfl
  · have half : 1 / 2 < ((n % d : ℕ) : ℚ) / d := by
      have : (d : ℚ) < 2 * (n % d : ℕ) := by exact_mod_cast more
      rw [lt_div_iff₀ positive]
      linarith
    rw [compare_gt_iff_gt.mpr more]
    show ((n / d : ℕ) : ℚ) + 1 / 2 < _ ∧ _ < ((n / d : ℕ) : ℚ) + 1
    exact ⟨by linarith, by linarith⟩

theorem log2_quotient (some : 0 < mantissa) (some' : 0 < mantissa') {shift bits : ℕ}
    (longer : mantissa'.log2 + 1 + bits ≤ mantissa.log2 + shift) :
    bits ≤ (mantissa <<< shift / mantissa').log2 := by
  have quotient : 2 ^ bits ≤ mantissa <<< shift / mantissa' := by
    rw [Nat.le_div_iff_mul_le some', Nat.shiftLeft_eq]
    calc 2 ^ bits * mantissa'
        ≤ 2 ^ bits * 2 ^ (mantissa'.log2 + 1) := Nat.mul_le_mul_left _ Nat.lt_log2_self.le
      _ = 2 ^ (mantissa'.log2 + 1 + bits) := by rw [← Nat.pow_add, Nat.add_comm]
      _ ≤ 2 ^ (mantissa.log2 + shift) := Nat.pow_le_pow_right two_pos longer
      _ = 2 ^ mantissa.log2 * 2 ^ shift := Nat.pow_add ..
      _ ≤ mantissa * 2 ^ shift := Nat.mul_le_mul_right _ (Nat.log2_self_le some.ne')
  exact (Nat.le_log2 (by have := Nat.two_pow_pos bits; omega)).mpr quotient

theorem div_rounds (mantissa : ℕ) (exponent exponent' : ℤ) (some' : 0 < mantissa') :
    RoundsTo .positive (mantissa * 2 ^ exponent / (mantissa' * 2 ^ exponent'))
      (div .binary64 (finiteOf .positive mantissa exponent)
        (finiteOf .positive mantissa' exponent')) := by
  rw [finiteOf_of_pos _ _ some']
  rcases Nat.eq_zero_or_pos mantissa with none | some
  · rw [none, finiteOf_zero, Nat.cast_zero, zero_mul, zero_div]
    exact .zero
  rw [finiteOf_of_pos _ _ some]
  set target := min (exponent - exponent') (Format.binary64.targetExponent
    (totalExponent mantissa exponent - totalExponent mantissa' exponent')) with targetIs
  set shift := (exponent - exponent' - target).toNat with shiftIs
  have scaled : (mantissa : ℚ) * 2 ^ exponent / (mantissa' * 2 ^ exponent') =
      ((mantissa <<< shift : ℕ) : ℚ) / mantissa' * 2 ^ target := by
    rw [mul_div_mul_comm, ← zpow_sub₀ two_ne_zero, div_mul_eq_mul_div, div_mul_eq_mul_div,
      shiftLeft_scaled mantissa (min_le_left _ _)]
  rw [scaled]
  refine (lies_accuracyOfFraction (mantissa <<< shift) some').roundWithAccuracy_rounds _ ?_
  show target ≤ _
  rw [targetExponent_eq, totalExponent, totalExponent] at targetIs
  rw [targetExponent_eq, totalExponent]
  by_cases deep : target ≤ -1074
  · exact le_max_of_le_right deep
  · obtain ⟨bits, length⟩ : ∃ bits : ℕ, mantissa'.log2 + 1 + bits = mantissa.log2 + shift :=
      Nat.exists_eq_add_of_le (by omega) |>.imp fun _ => Eq.symm
    have long := log2_quotient some some' length.le
    omega

end Operations

end FrameRelay.Number
