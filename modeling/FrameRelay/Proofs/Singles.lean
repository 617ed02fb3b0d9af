import FrameRelay.Proofs.Doubles

/-! Positive numbers in single precision. A double that is not below a positive one holds a number,
and one of moderate size stays finite and positive when it is narrowed. -/

namespace FrameRelay.Number
open Float.Model UnpackedFloat

theorem canonical_unpack {bits : BitVec Format.binary64.numBits} {sign : Sign} {mantissa : ℕ}
    {exponent : ℤ} {some : 0 < mantissa}
    (unpacked : UnpackedFloat.unpack .binary64 bits = .finite sign mantissa exponent some) :
    Canonical mantissa exponent := by
  have stored : (unpackMantissa bits).toNat < 2 ^ 52 := (unpackMantissa bits).isLt
  have bias : (Format.binary64.exponentBias : ℤ) + (52 : ℕ) = 1075 := rfl
  simp only [UnpackedFloat.unpack] at unpacked
  split at unpacked
  · split at unpacked <;> cases unpacked
  split at unpacked
  next least =>
    split at unpacked
    · cases unpacked
    · injection unpacked with _ mantissa_eq exponent_eq
      have zero : (unpackExponent bits).toNat = 0 := by rw [least]; rfl
      exact ⟨by omega, by omega, .inr (by omega)⟩
  next above =>
    injection unpacked with _ mantissa_eq exponent_eq
    have one : (unpackExponent bits).toNat ≠ 0 := fun zero => above (BitVec.eq_of_toNat_eq zero)
    have full : (1#1 ++ unpackMantissa bits).toNat = 2 ^ 52 + (unpackMantissa bits).toNat :=
      toNat_one_append _
    exact ⟨by omega, by omega, .inl (by omega)⟩

theorem Holds.of_not_lt {x low : Float} {least : ℚ} (finite : x.isFinite = true)
    (holds : Holds low least) (positive : 0 < least) (above : ¬ x < low) :
    ∃ value, Holds x value ∧ least ≤ value := by
  obtain ⟨mantissa, exponent, canonical, unpacked, rfl⟩ := id holds
  have some : 0 < mantissa := by
    by_contra none
    simp [Nat.eq_zero_of_not_pos none] at positive
  rw [lt_iff_compare, unpacked, finiteOf_of_pos _ _ some] at above
  cases unpacked' : x.toModel.unpack with
  | notANumber =>
    have word : x.isFinite = x.toModel.unpack.isFinite := rfl
    rw [word, unpacked'] at finite
    cases finite
  | infinity sign =>
    have word : x.isFinite = x.toModel.unpack.isFinite := rfl
    rw [word, unpacked'] at finite
    cases finite
  | zero sign =>
    rw [unpacked'] at above
    exact absurd rfl above
  | finite sign mantissa' exponent' some' =>
    cases sign with
    | negative =>
      rw [unpacked'] at above
      exact absurd rfl above
    | positive =>
      have held : Holds x (mantissa' * 2 ^ exponent') :=
        ⟨mantissa', exponent', canonical_unpack unpacked',
          by rw [unpacked', finiteOf_of_pos _ _ some'], rfl⟩
      rw [← finiteOf_of_pos _ _ some, ← unpacked, ← lt_iff_compare, held.lt_iff holds] at above
      exact ⟨_, held, not_lt.mp above⟩

theorem round_full {mantissa : ℕ} {exponent : ℤ} (full : mantissa.log2 = 52)
    (deep : -178 ≤ exponent) :
    ∃ mantissa' exponent', ∃ some' : 0 < mantissa',
      UnpackedFloat.round .binary32 .positive mantissa exponent =
        .finite .positive mantissa' exponent' some' ∧ mantissa'.log2 = 23 ∧
      exponent + 29 ≤ exponent' ∧ exponent' ≤ exponent + 30 := by
  set cut := ExtendedMantissa.mk mantissa false false >>> 29 with cutIs
  have some : mantissa ≠ 0 := by
    rintro rfl
    rw [Nat.log2_zero] at full
    omega
  have kept : cut.mantissa = mantissa / 2 ^ 29 := mantissa_shiftRight _ 29
  have low : 2 ^ 52 ≤ mantissa := full ▸ Nat.log2_self_le some
  have high : mantissa < 2 ^ 53 := by
    have := @Nat.lt_log2_self mantissa
    rwa [full] at this
  have lies : Lies cut ((mantissa : ℚ) / 2 ^ 29) :=
    Lies.shiftRight (show Lies ⟨mantissa, false, false⟩ (mantissa : ℚ) from rfl) 29
  have bounds : 2 ^ 23 ≤ cut.roundedMantissa ∧ cut.roundedMantissa ≤ 2 ^ 24 := by
    rcases lies.rounded with ⟨same, -⟩ | ⟨next, -⟩ <;> omega
  obtain ⟨half, carry, bits, rounded, once⟩ : ∃ half carry : ℕ, half.log2 = 23 ∧
      cut.roundedMantissa = half <<< carry ∧ carry ≤ 1 := by
    rcases Nat.lt_or_eq_of_le bounds.2 with short | long
    · have most := log2_lt_succ 23 short
      have least := (Nat.le_log2 (by omega)).mpr bounds.1
      exact ⟨cut.roundedMantissa, 0, by omega, rfl, by omega⟩
    · exact ⟨2 ^ 23, 1, Nat.log2_two_pow, by rw [long, Nat.shiftLeft_eq, ← Nat.pow_succ], le_rfl⟩
  have positive : 0 < half := by
    by_contra none
    rw [Nat.eq_zero_of_not_pos none, Nat.log2_zero] at bits
    omega
  exact ⟨half, _, positive, round_of_full full deep bits positive rounded, bits, by omega, by omega⟩

theorem holds_zero : Holds 0.0 0 := by
  have parts : Parts.ofDouble 0.0 = .finite false 0 0 := by decide +kernel
  have zero : (0.0 : Float).toModel.unpack = .zero .positive := by
    cases unpacked : (0.0 : Float).toModel.unpack with
    | zero sign =>
      cases sign with
      | positive => rfl
      | negative => simp [Parts.ofDouble, Parts.ofUnpacked, unpacked] at parts
    | finite sign mantissa exponent some =>
      simp only [Parts.ofDouble, Parts.ofUnpacked, unpacked, Parts.finite.injEq] at parts
      omega
    | notANumber => simp [Parts.ofDouble, Parts.ofUnpacked, unpacked] at parts
    | infinity sign => simp [Parts.ofDouble, Parts.ofUnpacked, unpacked] at parts
  exact ⟨0, -1074, ⟨by norm_num, le_rfl, .inr rfl⟩, by rw [zero, finiteOf_zero], by simp⟩

section moderate
variable {mantissa : ℕ} {exponent : ℤ}

theorem Canonical.moderate (canonical : Canonical mantissa exponent)
    (low : (2 : ℚ) ^ (-100 : ℤ) ≤ mantissa * 2 ^ exponent) :
    -152 ≤ exponent ∧ mantissa.log2 = 52 := by
  have deep : -152 ≤ exponent := by
    by_contra below
    have small : (mantissa : ℚ) < 2 ^ 53 := by exact_mod_cast canonical.small
    have least : (2 : ℚ) ^ exponent ≤ 2 ^ (-153 : ℤ) := zpow_le_zpow_right₀ one_le_two (by omega)
    have less : (mantissa : ℚ) * 2 ^ exponent < 2 ^ 53 * 2 ^ (-153 : ℤ) := by
      calc (mantissa : ℚ) * 2 ^ exponent
          < 2 ^ 53 * 2 ^ exponent := by gcongr
        _ ≤ 2 ^ 53 * 2 ^ (-153 : ℤ) := by gcongr
    norm_num at less low
    linarith
  have full : 2 ^ 52 ≤ mantissa := canonical.full.resolve_right (by omega)
  have above := (Nat.le_log2 (by omega)).mpr full
  have below := log2_lt_succ 52 canonical.small
  exact ⟨deep, by omega⟩

end moderate

theorem Holds.narrow {x : Float} {value : ℚ} (holds : Holds x value) (low : 2 ^ (-100 : ℤ) ≤ value)
    (high : value ≤ 2 ^ 98) :
    (Number.narrow x).isFinite = true ∧ 0.0 < widen (Number.narrow x) := by
  obtain ⟨mantissa, exponent, canonical, unpacked, rfl⟩ := holds
  obtain ⟨deep, full⟩ := canonical.moderate low
  have top : exponent ≤ 48 := canonical.exponent_le (high.trans (by norm_num))
  obtain ⟨mantissa', exponent', some', rounded, bits, above, below⟩ :=
    round_full full (show -178 ≤ exponent by omega)
  have some : 0 < mantissa := by
    by_contra none
    rw [Nat.eq_zero_of_not_pos none, Nat.log2_zero] at full
    omega
  have bias : exponent' + Format.binary32.exponentBias +
      Format.binary32.mantissaBitsWithoutImplicit = exponent' + 150 := by
    show exponent' + (127 : ℕ) + (23 : ℕ) = _
    omega
  have kept : (Number.narrow x).toModel.unpack = .finite .positive mantissa' exponent' some' := by
    rw [Number.narrow, unpacked, finiteOf_of_pos _ _ some]
    simp only [rounded]
    refine unpack_pack_full .positive some' (by rw [bits]; rfl) (by omega) ?_
    rw [bias]
    show (_ : ℕ) < 256
    omega
  have small : mantissa' < 2 ^ 24 := by
    have next := @Nat.lt_log2_self mantissa'
    rwa [bits] at next
  have fine : Fine (mantissa' * 2 ^ exponent') := ⟨mantissa', exponent', by omega, by omega, rfl⟩
  have bounded : (mantissa' : ℚ) * 2 ^ exponent' ≤ 2 ^ 100 := by
    have least : (2 : ℚ) ^ 52 ≤ mantissa := by exact_mod_cast full ▸ Nat.log2_self_le some.ne'
    have most : (mantissa' : ℚ) ≤ 2 ^ 24 := by exact_mod_cast small.le
    have next : (2 : ℚ) ^ exponent' ≤ 2 ^ (exponent + 30) := zpow_le_zpow_right₀ one_le_two below
    calc (mantissa' : ℚ) * 2 ^ exponent'
        ≤ 2 ^ 24 * 2 ^ (exponent + 30) := by gcongr
      _ = 4 * (2 ^ 52 * 2 ^ exponent) := by rw [zpow_add₀ two_ne_zero]; ring
      _ ≤ 4 * (mantissa * 2 ^ exponent) := by gcongr
      _ ≤ 4 * 2 ^ 98 := by gcongr
      _ = 2 ^ 100 := by norm_num
  constructor
  · have word : (Number.narrow x).isFinite = (Number.narrow x).toModel.unpack.isFinite := rfl
    rw [word, kept]
    rfl
  · obtain ⟨result, held, nearest⟩ :=
      (round_rounds .positive some'.ne' exponent').holds bounded
    rw [nearest.eq_of_fine fine] at held
    have wide : widen (Number.narrow x) =
        .ofModel (.pack (UnpackedFloat.round .binary64 .positive mantissa' exponent')) := by
      rw [widen, kept]
    rw [wide, holds_zero.lt_iff held]
    positivity

/-! Bounds by powers of two, kept by rounding. -/

/-- The word holds a number from `2 ^ low` to `2 ^ high`. -/
def Between (low high : ℤ) (x : Float) : Prop :=
  ∃ value, Holds x value ∧ 2 ^ low ≤ value ∧ value ≤ 2 ^ high

theorem fine_two_zpow {exponent : ℤ} (deep : -1074 ≤ exponent) : Fine (2 ^ exponent) :=
  ⟨1, exponent, by norm_num, deep, by simp⟩

theorem Rounds.between {exact rounded : ℚ} {low high : ℤ} (rounds : Rounds exact rounded)
    (deep : -1074 ≤ low) (above : 2 ^ low ≤ exact) (below : exact ≤ 2 ^ high) :
    2 ^ low ≤ rounded ∧ rounded ≤ 2 ^ high := by
  have order : low ≤ high :=
    (zpow_le_zpow_iff_right₀ (one_lt_two : (1 : ℚ) < 2)).mp (above.trans below)
  exact ⟨rounds.ge_of_ge (fine_two_zpow deep) above,
    rounds.le_of_le (fine_two_zpow (deep.trans order)) below⟩

namespace Between
variable {low high low' high' : ℤ} {x y : Float}

theorem ofNat {n : ℕ} (some : 0 < n) (small : n ≤ 2 ^ 63) : Between 0 63 (Float.ofNat n) := by
  have least : (2 : ℚ) ^ (0 : ℤ) ≤ n := by rw [zpow_zero]; exact_mod_cast some
  have most : (n : ℚ) ≤ 2 ^ (63 : ℤ) := by exact_mod_cast small
  obtain ⟨value, holds, rounds⟩ := holds_ofNat (most.trans (by norm_num))
  exact ⟨value, holds, rounds.between (by norm_num) least most⟩

theorem mul (first : Between low high x) (second : Between low' high' y)
    (deep : -1074 ≤ low + low') (top : high + high' ≤ 100) :
    Between (low + low') (high + high') (x * y) := by
  obtain ⟨value, holds, above, below⟩ := first
  obtain ⟨value', holds', above', below'⟩ := second
  have positive : (0 : ℚ) < 2 ^ low' := zpow_pos two_pos _
  have least : (2 : ℚ) ^ (low + low') ≤ value * value' := by
    rw [zpow_add₀ two_ne_zero]
    gcongr
    exact holds.nonneg
  have most : value * value' ≤ 2 ^ (high + high') := by
    rw [zpow_add₀ two_ne_zero]
    gcongr
    exact holds'.nonneg
  have bounded : value * value' ≤ 2 ^ 100 :=
    most.trans (by exact_mod_cast zpow_le_zpow_right₀ (one_le_two : (1 : ℚ) ≤ 2) top)
  obtain ⟨product, held, rounds⟩ := holds.mul holds' bounded
  exact ⟨product, held, rounds.between deep least most⟩

theorem div (first : Between low high x) (second : Between low' high' y)
    (deep : -1074 ≤ low - high') (top : high - low' ≤ 100) :
    Between (low - high') (high - low') (x / y) := by
  obtain ⟨value, holds, above, below⟩ := first
  obtain ⟨value', holds', above', below'⟩ := second
  have positive : 0 < value' := lt_of_lt_of_le (zpow_pos two_pos _) above'
  have least : (2 : ℚ) ^ (low - high') ≤ value / value' := by
    rw [zpow_sub₀ two_ne_zero]
    exact div_le_div₀ holds.nonneg above positive below'
  have most : value / value' ≤ 2 ^ (high - low') := by
    rw [zpow_sub₀ two_ne_zero]
    exact div_le_div₀ (zpow_pos two_pos _).le below (zpow_pos two_pos _) above'
  have bounded : value / value' ≤ 2 ^ 100 :=
    most.trans (by exact_mod_cast zpow_le_zpow_right₀ (one_le_two : (1 : ℚ) ≤ 2) top)
  obtain ⟨quotient, held, rounds⟩ := holds.div holds' positive bounded
  exact ⟨quotient, held, rounds.between deep least most⟩

theorem narrow (bounds : Between low high x) (deep : -100 ≤ low) (top : high ≤ 98) :
    (Number.narrow x).isFinite = true ∧ 0.0 < widen (Number.narrow x) := by
  obtain ⟨value, holds, above, below⟩ := bounds
  refine holds.narrow (le_trans ?_ above) (below.trans ?_)
  · exact zpow_le_zpow_right₀ one_le_two deep
  · exact_mod_cast zpow_le_zpow_right₀ (one_le_two : (1 : ℚ) ≤ 2) top

end Between

end FrameRelay.Number
