import FrameRelay.Proofs.Rounding

/-! Double words as the numbers they hold: comparing two words compares their numbers, and a sum,
a product or a count is held rounded. -/

namespace FrameRelay.Number
open Float.Model UnpackedFloat

theorem sign_packComponents {spec : Format} (sign : Sign)
    (exponent : BitVec spec.exponentBits) (mantissa : BitVec spec.mantissaBitsWithoutImplicit) :
    Sign.ofBitVec (unpackSign (packComponents spec sign exponent mantissa)) = sign := by
  rw [unpackSign_packComponents, Sign.ofBitVec_toBitVec]

theorem toNat_one_append {bits : ℕ} (mantissa : BitVec bits) :
    (1#1 ++ mantissa).toNat = 2 ^ bits + mantissa.toNat := by
  rw [BitVec.toNat_append, ← Nat.shiftLeft_add_eq_or_of_lt mantissa.isLt, Nat.shiftLeft_eq]
  simp

theorem unpack_packComponents_full {spec : Format} (sign : Sign)
    {exponent : BitVec spec.exponentBits} {mantissa : BitVec spec.mantissaBitsWithoutImplicit}
    (stored : exponent ≠ 0#_) (finite : exponent ≠ -1#_) :
    UnpackedFloat.unpack spec (packComponents spec sign exponent mantissa) =
      .finite sign (2 ^ spec.mantissaBitsWithoutImplicit + mantissa.toNat)
        (exponent.toNat - (spec.exponentBias + spec.mantissaBitsWithoutImplicit))
        (by positivity) := by
  simp only [UnpackedFloat.unpack, unpackExponent_packComponents, unpackMantissa_packComponents,
    sign_packComponents, if_neg stored, if_neg finite]
  congr 1
  exact toNat_one_append mantissa

theorem unpack_pack_full {spec : Format} (sign : Sign) {mantissa : ℕ} {exponent : ℤ}
    (some : 0 < mantissa) (bits : mantissa.log2 + 1 = spec.mantissaBits)
    (stored : 0 < exponent + spec.exponentBias + spec.mantissaBitsWithoutImplicit)
    (finite : (exponent + spec.exponentBias + spec.mantissaBitsWithoutImplicit).toNat + 1 <
      2 ^ spec.exponentBits) :
    UnpackedFloat.unpack spec (UnpackedFloat.pack spec (.finite sign mantissa exponent some)) =
      .finite sign mantissa exponent some := by
  have low : 2 ^ spec.mantissaBitsWithoutImplicit ≤ mantissa := by
    rw [Format.mantissaBits] at bits
    rw [show spec.mantissaBitsWithoutImplicit = mantissa.log2 by omega]
    exact Nat.log2_self_le some.ne'
  have high : mantissa < 2 * 2 ^ spec.mantissaBitsWithoutImplicit := by
    rw [Format.mantissaBits] at bits
    rw [← Nat.pow_succ', show spec.mantissaBitsWithoutImplicit = mantissa.log2 by omega]
    exact Nat.lt_log2_self
  set biased := (exponent + spec.exponentBias + spec.mantissaBitsWithoutImplicit).toNat
    with biasedIs
  have word : (BitVec.ofNat spec.exponentBits biased).toNat = biased := by
    rw [BitVec.toNat_ofNat, Nat.mod_eq_of_lt (by omega)]
  have kept : (BitVec.ofNat spec.mantissaBitsWithoutImplicit mantissa).toNat =
      mantissa - 2 ^ spec.mantissaBitsWithoutImplicit := by
    rw [BitVec.toNat_ofNat, Nat.mod_eq_sub_mod low, Nat.mod_eq_of_lt (by omega)]
  have notNone : BitVec.ofNat spec.exponentBits biased ≠ 0#_ := fun none => by
    rw [none, BitVec.toNat_zero] at word
    omega
  have notTop : BitVec.ofNat spec.exponentBits biased ≠ -1#_ := fun top => by
    rw [top, BitVec.neg_one_eq_allOnes, BitVec.toNat_allOnes] at word
    omega
  simp only [UnpackedFloat.pack, ← biasedIs, if_neg (show ¬ 2 ^ spec.exponentBits ≤ biased + 1 by
    omega), if_pos bits]
  rw [unpack_packComponents_full sign notNone notTop]
  congr 1 <;> omega

theorem unpack_packComponents_partial (sign : Sign) {mantissa : BitVec 52}
    (some : 0 < mantissa.toNat) :
    UnpackedFloat.unpack .binary64 (packComponents .binary64 sign 0#11 mantissa) =
      .finite sign mantissa.toNat (-1074) some := by
  have notNone : mantissa ≠ 0#52 := by rintro rfl; exact absurd some (by decide)
  simp only [UnpackedFloat.unpack, unpackExponent_packComponents, unpackMantissa_packComponents,
    sign_packComponents]
  rw [if_neg (by decide), if_pos trivial, dif_neg notNone]
  rfl

theorem unpack_pack_finiteOf (sign : Sign) {mantissa : ℕ} {exponent : ℤ}
    (canonical : Canonical mantissa exponent) (bounded : exponent ≤ 971) :
    UnpackedFloat.unpack .binary64
        (UnpackedFloat.pack .binary64 (finiteOf sign mantissa exponent)) =
      finiteOf sign mantissa exponent := by
  obtain ⟨small, deep, full⟩ := canonical
  rcases Nat.eq_zero_or_pos mantissa with none | some
  · rw [none, finiteOf_zero]
    cases sign <;> rfl
  rw [finiteOf_of_pos _ _ some]
  have bias : exponent + Format.binary64.exponentBias +
      Format.binary64.mantissaBitsWithoutImplicit = exponent + 1075 := by
    show exponent + (1023 : ℕ) + (52 : ℕ) = _
    omega
  have inRange : (exponent + 1075).toNat + 1 < 2 ^ Format.binary64.exponentBits := by
    show _ < 2048
    omega
  by_cases long : 2 ^ 52 ≤ mantissa
  · have bits : mantissa.log2 + 1 = Format.binary64.mantissaBits := by
      have := log2_lt_succ 52 small
      have := (Nat.le_log2 some.ne').mpr long
      show mantissa.log2 + 1 = 53
      omega
    exact unpack_pack_full sign some bits (by omega) (by rw [bias]; exact inRange)
  · have bits : ¬ mantissa.log2 + 1 = Format.binary64.mantissaBits := by
      have := log2_lt_succ 51 (show mantissa < 2 ^ 52 by omega)
      show ¬ mantissa.log2 + 1 = 53
      omega
    simp only [UnpackedFloat.pack, bias, if_neg (not_le.mpr inRange), if_neg bits]
    have kept : (BitVec.ofNat 52 mantissa).toNat = mantissa := by
      rw [BitVec.toNat_ofNat]; omega
    rw [unpack_packComponents_partial sign (by omega)]
    congr 1
    exact (full.resolve_left long).symm

/-- The word is a finite number without a sign, and this is the number. -/
def Holds (x : Float) (value : ℚ) : Prop :=
  ∃ mantissa exponent, Canonical mantissa exponent ∧
    x.toModel.unpack = finiteOf .positive mantissa exponent ∧ value = mantissa * 2 ^ exponent

theorem Canonical.exponent_le {mantissa : ℕ} {exponent : ℤ}
    (canonical : Canonical mantissa exponent) (bounded : (mantissa : ℚ) * 2 ^ exponent ≤ 2 ^ 100) :
    exponent ≤ 48 := by
  by_contra high
  have full : 2 ^ 52 ≤ mantissa := canonical.full.resolve_right (by omega)
  have least : (2 : ℚ) ^ 52 ≤ mantissa := by exact_mod_cast full
  have large : (2 : ℚ) ^ (49 : ℤ) ≤ 2 ^ exponent := zpow_le_zpow_right₀ one_le_two (by omega)
  have huge : (2 : ℚ) ^ 52 * 2 ^ (49 : ℤ) ≤ mantissa * 2 ^ exponent := by gcongr
  norm_num at huge bounded
  linarith

theorem unpack_pack_of_lt (sign : Sign) {mantissa : ℕ} {exponent : ℤ}
    (canonical : Canonical mantissa exponent) (exceeds : 971 < exponent) :
    UnpackedFloat.unpack .binary64
        (UnpackedFloat.pack .binary64 (finiteOf sign mantissa exponent)) = .infinity sign := by
  have full : 2 ^ 52 ≤ mantissa := canonical.full.resolve_right (by omega)
  have top : 2 ^ Format.binary64.exponentBits ≤ (exponent + Format.binary64.exponentBias +
      Format.binary64.mantissaBitsWithoutImplicit).toNat + 1 := by
    show 2048 ≤ (exponent + (1023 : ℕ) + (52 : ℕ)).toNat + 1
    omega
  rw [finiteOf_of_pos _ _ (by omega), UnpackedFloat.pack, if_pos top]
  cases sign <;> rfl

/-- A rounded number is packed into a word that holds it, or it is beyond all of them. -/
theorem RoundsTo.holds_or_overflows {exact : ℚ} {result : UnpackedFloat}
    (rounds : RoundsTo .positive exact result) :
    (∃ value, Holds (.ofModel (.pack result)) value ∧ Rounds exact value) ∨
      (Float.ofModel (.pack result)).isFinite = false := by
  obtain ⟨mantissa, exponent, canonical, nearest, rfl⟩ := rounds
  by_cases inRange : exponent ≤ 971
  · exact .inl ⟨_, ⟨mantissa, exponent, canonical,
      unpack_pack_finiteOf .positive canonical inRange, rfl⟩, nearest⟩
  · right
    show (UnpackedFloat.unpack .binary64 (UnpackedFloat.pack .binary64
      (finiteOf .positive mantissa exponent))).isFinite = false
    rw [unpack_pack_of_lt .positive canonical (not_le.mp inRange)]
    rfl

theorem RoundsTo.holds {exact : ℚ} {result : UnpackedFloat}
    (rounds : RoundsTo .positive exact result) (bounded : exact ≤ 2 ^ 100) :
    ∃ value, Holds (.ofModel (.pack result)) value ∧ Rounds exact value := by
  obtain ⟨mantissa, exponent, canonical, nearest, rfl⟩ := rounds
  have top : Fine (2 ^ 100) := ⟨1, 100, by norm_num, by norm_num, by norm_num⟩
  have inRange := canonical.exponent_le (nearest.le_of_le top bounded)
  exact ⟨_, ⟨mantissa, exponent, canonical,
    unpack_pack_finiteOf .positive canonical (by omega), rfl⟩, nearest⟩

theorem Canonical.lt_of_exponent_lt {mantissa mantissa' : ℕ} {exponent exponent' : ℤ}
    (canonical : Canonical mantissa exponent) (canonical' : Canonical mantissa' exponent')
    (below : exponent < exponent') :
    (mantissa : ℚ) * 2 ^ exponent < mantissa' * 2 ^ exponent' := by
  have deep := canonical.deep
  have full : 2 ^ 52 ≤ mantissa' := canonical'.full.resolve_right (by omega)
  have least : (2 : ℚ) ^ 52 ≤ mantissa' := by exact_mod_cast full
  have small : (mantissa : ℚ) < 2 ^ 53 := by exact_mod_cast canonical.small
  have next : (2 : ℚ) ^ (exponent + 1) ≤ 2 ^ exponent' := zpow_le_zpow_right₀ one_le_two below
  calc (mantissa : ℚ) * 2 ^ exponent
      < 2 ^ 53 * 2 ^ exponent := by gcongr
    _ = 2 ^ 52 * 2 ^ (exponent + 1) := by rw [zpow_add_one₀ two_ne_zero]; ring
    _ ≤ mantissa' * 2 ^ exponent' := by gcongr

theorem compare_then {mantissa mantissa' : ℕ} {exponent exponent' : ℤ}
    (canonical : Canonical mantissa exponent) (canonical' : Canonical mantissa' exponent') :
    (compare exponent exponent').then (compare mantissa mantissa') =
      compare ((mantissa : ℚ) * 2 ^ exponent) (mantissa' * 2 ^ exponent') := by
  rcases lt_trichotomy exponent exponent' with below | same | above
  · rw [compare_lt_iff_lt.mpr below,
      compare_lt_iff_lt.mpr (canonical.lt_of_exponent_lt canonical' below)]
    rfl
  · subst same
    have positive : (0 : ℚ) < 2 ^ exponent := zpow_pos two_pos _
    rw [compare_eq_iff_eq.mpr rfl]
    show compare mantissa mantissa' = _
    rcases lt_trichotomy mantissa mantissa' with less | equal | more
    · rw [compare_lt_iff_lt.mpr less, compare_lt_iff_lt.mpr]
      exact mul_lt_mul_of_pos_right (by exact_mod_cast less) positive
    · rw [equal, compare_eq_iff_eq.mpr rfl, compare_eq_iff_eq.mpr rfl]
    · rw [compare_gt_iff_gt.mpr more, compare_gt_iff_gt.mpr]
      exact mul_lt_mul_of_pos_right (by exact_mod_cast more) positive
  · rw [compare_gt_iff_gt.mpr above,
      compare_gt_iff_gt.mpr (canonical'.lt_of_exponent_lt canonical above)]
    rfl

theorem compare_finiteOf {mantissa mantissa' : ℕ} {exponent exponent' : ℤ}
    (canonical : Canonical mantissa exponent) (canonical' : Canonical mantissa' exponent') :
    (finiteOf .positive mantissa exponent).compare (finiteOf .positive mantissa' exponent') =
      some (compare ((mantissa : ℚ) * 2 ^ exponent) (mantissa' * 2 ^ exponent')) := by
  have positive (mantissa : ℕ) (exponent : ℤ) (some : 0 < mantissa) :
      (0 : ℚ) < mantissa * 2 ^ exponent := by positivity
  rcases Nat.eq_zero_or_pos mantissa with none | some <;>
    rcases Nat.eq_zero_or_pos mantissa' with none' | some'
  · rw [none, none', finiteOf_zero, finiteOf_zero]
    simp [UnpackedFloat.compare]
  · rw [none, finiteOf_zero, finiteOf_of_pos _ _ some', compare_lt_iff_lt.mpr]
    · rfl
    · simpa using positive mantissa' exponent' some'
  · rw [none', finiteOf_zero, finiteOf_of_pos _ _ some, compare_gt_iff_gt.mpr]
    · rfl
    · simpa using positive mantissa exponent some
  · rw [finiteOf_of_pos _ _ some, finiteOf_of_pos _ _ some', ← compare_then canonical canonical']
    rfl

theorem lt_iff_compare (x y : Float) :
    x < y ↔ x.toModel.unpack.compare y.toModel.unpack = some .lt := by
  show decide (x.toModel < y.toModel) = true ↔ _
  rw [decide_eq_true_eq]
  exact beq_iff_eq

theorem le_iff_compare (x y : Float) :
    x ≤ y ↔ (x.toModel.unpack.compare y.toModel.unpack).any (·.isLE) = true := by
  show decide (x.toModel ≤ y.toModel) = true ↔ _
  rw [decide_eq_true_eq]
  exact Iff.rfl

namespace Holds
variable {x y : Float} {value value' : ℚ}

theorem lt_iff (holds : Holds x value) (holds' : Holds y value') : x < y ↔ value < value' := by
  obtain ⟨mantissa, exponent, canonical, unpacked, rfl⟩ := holds
  obtain ⟨mantissa', exponent', canonical', unpacked', rfl⟩ := holds'
  rw [lt_iff_compare, unpacked, unpacked', compare_finiteOf canonical canonical',
    Option.some_inj, compare_lt_iff_lt]

theorem le_iff (holds : Holds x value) (holds' : Holds y value') : x ≤ y ↔ value ≤ value' := by
  obtain ⟨mantissa, exponent, canonical, unpacked, rfl⟩ := holds
  obtain ⟨mantissa', exponent', canonical', unpacked', rfl⟩ := holds'
  rw [le_iff_compare, unpacked, unpacked', compare_finiteOf canonical canonical', Option.any_some]
  exact Ordering.isLE_iff_ne_gt.trans compare_le_iff_le

theorem of_parts {mantissa : ℕ} {exponent : ℤ}
    (parts : Parts.ofDouble x = .finite false mantissa exponent)
    (canonical : Canonical mantissa exponent) (some : 0 < mantissa) :
    Holds x (mantissa * 2 ^ exponent) := by
  refine ⟨mantissa, exponent, canonical, ?_, rfl⟩
  rw [finiteOf_of_pos _ _ some]
  cases unpacked : x.toModel.unpack with
  | notANumber => simp [Parts.ofDouble, Parts.ofUnpacked, unpacked] at parts
  | infinity sign => simp [Parts.ofDouble, Parts.ofUnpacked, unpacked] at parts
  | zero sign =>
    simp only [Parts.ofDouble, Parts.ofUnpacked, unpacked, Parts.finite.injEq] at parts
    omega
  | finite sign mantissa' exponent' some' =>
    simp only [Parts.ofDouble, Parts.ofUnpacked, unpacked, Parts.finite.injEq] at parts
    obtain ⟨upright, rfl, rfl⟩ := parts
    cases sign with
    | negative => exact absurd upright (by decide)
    | positive => rfl

theorem of_power (exponent : ℤ) (parts : Parts.ofDouble x = .finite false (2 ^ 52) exponent)
    (deep : -1074 ≤ exponent) (power : value = 2 ^ (52 + exponent)) : Holds x value := by
  have holds := of_parts parts ⟨by norm_num, deep, .inl le_rfl⟩ (by norm_num)
  rwa [Nat.cast_pow, Nat.cast_ofNat, ← zpow_natCast, ← zpow_add₀ two_ne_zero, Nat.cast_ofNat,
    ← power] at holds

theorem parts (holds : Holds x value) : ∃ mantissa exponent,
    Parts.ofDouble x = .finite false mantissa exponent ∧ value = mantissa * 2 ^ exponent := by
  obtain ⟨mantissa, exponent, canonical, unpacked, rfl⟩ := holds
  rcases Nat.eq_zero_or_pos mantissa with none | some
  · exact ⟨0, 0, by rw [Parts.ofDouble, unpacked, none, finiteOf_zero]; rfl, by simp [none]⟩
  · exact ⟨mantissa, exponent, by rw [Parts.ofDouble, unpacked, finiteOf_of_pos _ _ some]; rfl, rfl⟩

theorem fine (holds : Holds x value) : Fine value := by
  obtain ⟨mantissa, exponent, canonical, -, rfl⟩ := holds
  exact canonical.fine

theorem nonneg (holds : Holds x value) : 0 ≤ value := by
  obtain ⟨mantissa, exponent, -, -, rfl⟩ := holds
  positivity

theorem mul (holds : Holds x value) (holds' : Holds y value') (bounded : value * value' ≤ 2 ^ 100) :
    ∃ product, Holds (x * y) product ∧ Rounds (value * value') product := by
  obtain ⟨mantissa, exponent, canonical, unpacked, rfl⟩ := holds
  obtain ⟨mantissa', exponent', canonical', unpacked', rfl⟩ := holds'
  have product := (mul_rounds canonical canonical').holds bounded
  rwa [← unpacked, ← unpacked'] at product

theorem add (holds : Holds x value) (holds' : Holds y value') (bounded : value + value' ≤ 2 ^ 100) :
    ∃ sum, Holds (x + y) sum ∧ Rounds (value + value') sum := by
  obtain ⟨mantissa, exponent, canonical, unpacked, rfl⟩ := holds
  obtain ⟨mantissa', exponent', canonical', unpacked', rfl⟩ := holds'
  have sum := (add_rounds canonical canonical').holds bounded
  rwa [← unpacked, ← unpacked'] at sum

theorem div (holds : Holds x value) (holds' : Holds y value') (positive : 0 < value')
    (bounded : value / value' ≤ 2 ^ 100) :
    ∃ quotient, Holds (x / y) quotient ∧ Rounds (value / value') quotient := by
  obtain ⟨mantissa, exponent, canonical, unpacked, rfl⟩ := holds
  obtain ⟨mantissa', exponent', canonical', unpacked', rfl⟩ := holds'
  have some' : 0 < mantissa' := by
    by_contra none
    simp [Nat.eq_zero_of_not_pos none] at positive
  have quotient := (div_rounds mantissa exponent exponent' some').holds bounded
  rwa [← unpacked, ← unpacked'] at quotient

theorem unique (holds : Holds x value) (holds' : Holds x value') : value = value' := by
  have same : ¬ x < x := fun less => lt_irrefl _ ((holds.lt_iff holds).mp less)
  have first : ¬ value' < value := fun below => same ((holds'.lt_iff holds).mpr below)
  have second : ¬ value < value' := fun below => same ((holds.lt_iff holds').mpr below)
  exact le_antisymm (not_lt.mp first) (not_lt.mp second)

end Holds

theorem fine_natCast {n : ℕ} (small : n ≤ 2 ^ 53) : Fine n := by
  rcases Nat.lt_or_eq_of_le small with below | rfl
  · exact ⟨n, 0, below, by norm_num, by simp⟩
  · exact ⟨1, 53, by norm_num, by norm_num, by norm_num⟩

theorem holds_one : Holds (.ofBits 0x3FF0000000000000) 1 :=
  .of_power (-52) (by decide +kernel) (by norm_num) (by norm_num)

theorem ofNat_of_lt {n : ℕ} (small : n < 2 ^ 53) :
    Float.ofNat n = n.toUInt64.toFloat * .ofBits 0x3FF0000000000000 := by
  show Float.ofScientific n false 0 = _
  rw [Float.ofScientific, dif_pos ⟨small, by norm_num⟩]
  rfl

theorem ofNat_of_le {n : ℕ} (large : 2 ^ 53 ≤ n) :
    Float.ofNat n = .ofModel (.pack (.ofScientific .binary64 n 0)) := by
  show Float.ofScientific n false 0 = _
  rw [Float.ofScientific, dif_neg (by omega)]
  rfl

theorem toUInt64_holds {n : ℕ} (small : n < 2 ^ 53) : Holds n.toUInt64.toFloat n := by
  have word : n.toUInt64.toNat = n := by
    rw [UInt64.toNat_ofNat']
    omega
  have fits : (n : ℚ) ≤ 2 ^ 100 := by
    have : (n : ℚ) ≤ 2 ^ 53 := by exact_mod_cast small.le
    linarith
  have rounds := normalize_rounds n 0
  rw [zpow_zero, mul_one] at rounds
  obtain ⟨value, holds, nearest⟩ := rounds.holds fits
  rw [nearest.eq_of_fine (fine_natCast small.le)] at holds
  have same : n.toUInt64.toFloat =
      .ofModel (.pack (UnpackedFloat.normalize .binary64 (n.toUInt64.toNat : ℤ) 0 .positive)) := rfl
  rwa [same, word]

theorem ofNat_rounds (n : ℕ) :
    ∃ result, Float.ofNat n = .ofModel (.pack result) ∧ RoundsTo .positive n result := by
  rcases Nat.lt_or_ge n (2 ^ 53) with small | large
  · obtain ⟨mantissa, exponent, canonical, unpacked, value⟩ := toUInt64_holds small
    obtain ⟨one, oneExponent, oneCanonical, oneUnpacked, oneValue⟩ := holds_one
    have rounds := mul_rounds canonical oneCanonical
    rw [← oneValue, mul_one, ← value, ← unpacked, ← oneUnpacked] at rounds
    exact ⟨_, ofNat_of_lt small, rounds⟩
  · refine ⟨_, ofNat_of_le large, ?_⟩
    have some : n ≠ 0 := by omega
    have scaled : ((n <<< 53 * 1 : ℕ) : ℚ) * 2 ^ (-53 + 0 : ℤ) = n := by
      rw [Nat.shiftLeft_eq, mul_one]
      rw [Nat.cast_mul, Nat.cast_pow, Nat.cast_ofNat, add_zero, mul_assoc, ← zpow_natCast,
        ← zpow_add₀ two_ne_zero, Nat.cast_ofNat, add_neg_cancel, zpow_zero, mul_one]
    have bits := log2_shiftLeft some 53
    have rounds := roundWithAccuracy_rounds .positive (n <<< 53 * 1) (-53 + 0) (by
      rw [targetExponent_eq, totalExponent, mul_one, bits]
      omega)
    rw [scaled] at rounds
    have notDeep : ¬ (0 : ℤ) < -((2 ^ Format.binary64.exponentBits : ℤ) + n.log2) := by
      show ¬ (0 : ℤ) < -(2048 + n.log2)
      omega
    rw [UnpackedFloat.ofScientific, dif_neg some, if_neg (by decide), if_neg notDeep, if_pos le_rfl]
    exact rounds

theorem holds_ofNat {n : ℕ} (bounded : (n : ℚ) ≤ 2 ^ 100) :
    ∃ value, Holds (Float.ofNat n) value ∧ Rounds n value := by
  obtain ⟨result, packed, rounds⟩ := ofNat_rounds n
  rw [packed]
  exact rounds.holds bounded

theorem ofNat_exact {n : ℕ} (small : n ≤ 2 ^ 53) : Holds (Float.ofNat n) n := by
  have bounded : (n : ℚ) ≤ 2 ^ 100 := by
    have : (n : ℚ) ≤ 2 ^ 53 := by exact_mod_cast small
    linarith
  obtain ⟨value, holds, nearest⟩ := holds_ofNat bounded
  rwa [nearest.eq_of_fine (fine_natCast small)] at holds

/-- Not a number below zero: a zero without a sign, a positive number or not a number at all. -/
def Unsigned : UnpackedFloat → Prop
  | .notANumber => True
  | .infinity sign | .zero sign | .finite sign _ _ _ => sign = .positive

theorem unsigned_finiteOf (mantissa : ℕ) (exponent : ℤ) :
    Unsigned (finiteOf .positive mantissa exponent) := by
  rw [finiteOf]
  split <;> rfl

theorem RoundsTo.unsigned {exact : ℚ} {result : UnpackedFloat}
    (rounds : RoundsTo .positive exact result) : Unsigned result := by
  obtain ⟨mantissa, exponent, -, -, rfl⟩ := rounds
  exact unsigned_finiteOf mantissa exponent

theorem unsigned_roundWithAccuracy (mantissa : ℕ) (exponent : ℤ) (accuracy : Accuracy) :
    Unsigned (roundWithAccuracy .binary64 .positive mantissa exponent accuracy) := by
  unfold roundWithAccuracy
  dsimp only
  split <;> rfl

theorem unsigned_mul {value value' : UnpackedFloat} (unsigned : Unsigned value)
    (unsigned' : Unsigned value') : Unsigned (mul .binary64 value value') := by
  cases value <;> cases value' <;> simp only [Unsigned] at unsigned unsigned' <;>
    subst_vars <;> first | trivial | rfl | exact unsigned_roundWithAccuracy _ _ _

theorem unsigned_div {value value' : UnpackedFloat} (unsigned : Unsigned value)
    (unsigned' : Unsigned value') : Unsigned (div .binary64 value value') := by
  cases value <;> cases value' <;> simp only [Unsigned] at unsigned unsigned' <;>
    subst_vars <;> first | trivial | rfl | exact unsigned_roundWithAccuracy _ _ _

theorem unsigned_unpack {bits : BitVec Format.binary64.numBits}
    (clear : Sign.ofBitVec (unpackSign bits) = .positive) :
    Unsigned (UnpackedFloat.unpack .binary64 bits) := by
  unfold UnpackedFloat.unpack
  dsimp only
  split
  · split
    · exact clear
    · trivial
  · split
    · split
      · exact clear
      · exact clear
    · exact clear

theorem sign_pack {value : UnpackedFloat} (unsigned : Unsigned value) :
    Sign.ofBitVec (unpackSign (UnpackedFloat.pack .binary64 value)) = .positive := by
  cases value with
  | notANumber => exact sign_packComponents _ _ _
  | infinity sign => exact (sign_packComponents _ _ _).trans unsigned
  | zero sign => exact (sign_packComponents _ _ _).trans unsigned
  | finite sign mantissa exponent some =>
    unfold UnpackedFloat.pack
    dsimp only
    split
    · exact (sign_packComponents _ _ _).trans unsigned
    · split
      · exact (sign_packComponents _ _ _).trans unsigned
      · exact (sign_packComponents _ _ _).trans unsigned

/-- The word does not stand for a number below zero. -/
def Upright (x : Float) : Prop := Unsigned x.toModel.unpack

namespace Upright
variable {x y : Float}

theorem of_packed {value : UnpackedFloat} (unsigned : Unsigned value) :
    Upright (.ofModel (.pack value)) :=
  unsigned_unpack (sign_pack unsigned)

theorem ofNat (n : ℕ) : Upright (Float.ofNat n) := by
  obtain ⟨result, packed, rounds⟩ := ofNat_rounds n
  rw [packed]
  exact of_packed rounds.unsigned

theorem mul (upright : Upright x) (upright' : Upright y) : Upright (x * y) :=
  of_packed (unsigned_mul upright upright')

theorem div (upright : Upright x) (upright' : Upright y) : Upright (x / y) :=
  of_packed (unsigned_div upright upright')

theorem sub {value value' : ℚ} (holds : Holds x value) (holds' : Holds y value')
    (below : value' ≤ value) : Upright (x - y) := by
  obtain ⟨mantissa, exponent, canonical, unpacked, rfl⟩ := holds
  obtain ⟨mantissa', exponent', canonical', unpacked', rfl⟩ := holds'
  have rounds := sub_rounds canonical below
  rw [← unpacked, ← unpacked'] at rounds
  exact of_packed rounds.unsigned

theorem nearestWord_nonneg (upright : Upright x) : 0 ≤ nearestWord x := by
  have range : minWord ≤ 0 ∧ 0 ≤ maxWord := by decide
  rw [Upright] at upright
  rw [nearestWord, Parts.ofDouble]
  cases unpacked : x.toModel.unpack with
  | notANumber => exact le_rfl
  | infinity sign =>
    rw [unpacked] at upright
    obtain rfl : sign = .positive := upright
    exact range.2
  | zero sign =>
    rw [unpacked] at upright
    obtain rfl : sign = .positive := upright
    decide
  | finite sign mantissa exponent some =>
    rw [unpacked] at upright
    obtain rfl : sign = .positive := upright
    exact le_max_of_le_right (le_min range.2 (Int.natCast_nonneg _))

end Upright

theorem targetExponent_single (mantissa : ℕ) (exponent : ℤ) :
    Format.binary32.targetExponent (totalExponent mantissa exponent) =
      max (mantissa.log2 + 1 + exponent - 24) (-149) :=
  rfl

/-- A full mantissa of double precision loses 29 bits in single precision. What is left of it can
be one bit too long, if it was rounded up. -/
theorem round_of_full {mantissa mantissa' carry : ℕ} {exponent : ℤ} (full : mantissa.log2 = 52)
    (deep : -178 ≤ exponent) (full' : mantissa'.log2 = 23) (some : 0 < mantissa')
    (rounded : (ExtendedMantissa.mk mantissa false false >>> 29).roundedMantissa =
      mantissa' <<< carry) :
    UnpackedFloat.round .binary32 .positive mantissa exponent =
      .finite .positive mantissa' (exponent + 29 + carry) some := by
  have placed : Format.binary32.targetExponent (totalExponent mantissa exponent) =
      exponent + 29 := by
    rw [targetExponent_single, full]
    omega
  have still : (exponent - (exponent + 29)).toNat = 0 := by omega
  have steps : (exponent + 29 - exponent).toNat = 29 := by omega
  have first : shiftToTargetExponent .binary32 mantissa exponent .exact =
      (ExtendedMantissa.mk mantissa false false >>> 29, exponent + 29) := by
    simp only [shiftToTargetExponent, shiftToExponent, placed, steps]
    rfl
  have second := shiftToTargetExponent_shiftLeft .binary32 mantissa' carry (exponent + 29)
    (by rw [targetExponent_single, log2_shiftLeft some.ne', full']; omega)
  simp only [UnpackedFloat.round, decreaseExponent, placed, still, Nat.shiftLeft_zero,
    Nat.cast_zero, sub_zero, roundWithAccuracy, first, rounded, second]
  exact dif_neg some.ne'

theorem round_single {mantissa : ℕ} {exponent : ℤ} (full : mantissa.log2 = 23)
    (deep : -149 ≤ exponent) (some : 0 < mantissa) :
    UnpackedFloat.round .binary32 .positive (mantissa <<< 29) (exponent - 29) =
      .finite .positive mantissa exponent some := by
  have bits : (mantissa <<< 29).log2 = 52 := by rw [log2_shiftLeft some.ne', full]
  have kept : (ExtendedMantissa.mk (mantissa <<< 29) false false >>> 29).roundedMantissa =
      mantissa <<< 0 := by
    rw [shiftRight_shiftLeft]
    rfl
  have rounds := round_of_full bits (show -178 ≤ exponent - 29 by omega) full some kept
  rwa [Nat.cast_zero, add_zero, sub_add_cancel] at rounds

theorem Canonical.unique {mantissa mantissa' : ℕ} {exponent exponent' : ℤ}
    (canonical : Canonical mantissa exponent) (canonical' : Canonical mantissa' exponent')
    (same : (mantissa : ℚ) * 2 ^ exponent = mantissa' * 2 ^ exponent') :
    mantissa = mantissa' ∧ exponent = exponent' := by
  rcases lt_trichotomy exponent exponent' with below | rfl | above
  · exact absurd same (canonical.lt_of_exponent_lt canonical' below).ne
  · exact ⟨by exact_mod_cast mul_right_cancel₀ (zpow_ne_zero _ two_ne_zero) same, rfl⟩
  · exact absurd same (canonical'.lt_of_exponent_lt canonical above).ne'

section count
variable {n : ℕ}

theorem log2_full (some : 0 < n) (small : n < 2 ^ 24) : (n <<< (23 - n.log2)).log2 = 23 := by
  have bits : n.log2 < 24 := log2_lt_succ 23 small
  rw [log2_shiftLeft some.ne']
  omega

theorem unpack_ofNat (some : 0 < n) (small : n < 2 ^ 24) :
    (Float.ofNat n).toModel.unpack =
      finiteOf .positive (n <<< (23 - n.log2) <<< 29) (n.log2 - 23 - 29) := by
  obtain ⟨mantissa, exponent, canonical, unpacked, value⟩ := ofNat_exact (n := n) (by omega)
  have bits : n.log2 < 24 := log2_lt_succ 23 small
  have deep : -1074 ≤ (n.log2 : ℤ) - 23 - 29 := by omega
  have shift : 23 - n.log2 + 29 = (0 - ((n.log2 : ℤ) - 23 - 29)).toNat := by omega
  have scaled := shiftLeft_scaled n (show (n.log2 : ℤ) - 23 - 29 ≤ 0 by omega)
  rw [zpow_zero, mul_one, ← shift, Nat.shiftLeft_add] at scaled
  have nonzero : n <<< (23 - n.log2) ≠ 0 := by rw [Nat.shiftLeft_eq]; positivity
  have nonzero' : n <<< (23 - n.log2) <<< 29 ≠ 0 := by rw [Nat.shiftLeft_eq]; positivity
  have full : (n <<< (23 - n.log2) <<< 29).log2 = 52 := by
    rw [log2_shiftLeft nonzero, log2_full some small]
  have canonical' : Canonical (n <<< (23 - n.log2) <<< 29) (n.log2 - 23 - 29) :=
    ⟨(Nat.log2_lt nonzero').mp (by rw [full]; norm_num), deep,
      .inl ((Nat.le_log2 nonzero').mp full.ge)⟩
  have same := canonical.unique canonical' (value.symm.trans scaled)
  rw [unpacked, same.1, same.2]

theorem wholeNat_narrow_ofNat {high : ℕ} (small : n < 2 ^ 24) (within : n ≤ high) :
    wholeNat high (narrow (Float.ofNat n)) = n := by
  rcases Nat.eq_zero_or_pos n with rfl | some
  · have none : Parts.ofSingle (narrow (Float.ofNat 0)) = .finite false 0 0 := by decide +kernel
    rw [wholeNat, none]
    simp [Parts.toIntWithin, Parts.whole]
  have bits : n.log2 < 24 := log2_lt_succ 23 small
  have nonzero : 0 < n <<< (23 - n.log2) := by rw [Nat.shiftLeft_eq]; positivity
  have nonzero' : 0 < n <<< (23 - n.log2) <<< 29 := by rw [Nat.shiftLeft_eq]; positivity
  have full := log2_full some small
  have bias : (n.log2 : ℤ) - 23 + Format.binary32.exponentBias +
      Format.binary32.mantissaBitsWithoutImplicit = n.log2 + 127 := by
    show (n.log2 : ℤ) - 23 + (127 : ℕ) + (23 : ℕ) = _
    omega
  have kept : (narrow (Float.ofNat n)).toModel.unpack =
      .finite .positive (n <<< (23 - n.log2)) (n.log2 - 23) nonzero := by
    rw [narrow, unpack_ofNat some small, finiteOf_of_pos _ _ nonzero']
    simp only
    rw [round_single full (by omega) nonzero]
    refine unpack_pack_full .positive nonzero (by rw [full]; rfl) (by omega) ?_
    rw [bias]
    show (_ : ℕ) < 256
    omega
  have whole : Parts.whole (n <<< (23 - n.log2)) (n.log2 - 23) = n := by
    rw [Parts.whole, Nat.shiftLeft_eq]
    by_cases top : n.log2 = 23
    · rw [if_pos (by omega), top]
      simp [twoTo]
    · rw [if_neg (by omega), show (-((n.log2 : ℤ) - 23)).toNat = 23 - n.log2 by omega]
      exact Nat.mul_div_cancel n (Nat.two_pow_pos _)
  rw [wholeNat, Parts.ofSingle, kept]
  show (max 0 (min (high : ℤ) (Parts.whole _ _ : ℤ))).toNat = n
  rw [whole]
  omega

end count

end FrameRelay.Number
