import FrameRelay.Proofs.ReadBack
import FrameRelay.Proofs.Doubles

/-! Whole numbers without a separator. One that fits a word is read as itself. One that does not is
taken for a decimal: it ends at the last word on its side, in thousandths, until the doubles end
too and it is refused. -/

namespace FrameRelay.Number
open Float.Model UnpackedFloat

/-! Doubles beyond the words. -/

/-- The last word on this side of zero. -/
def lastWord : Sign → Int
  | .negative => minWord
  | .positive => maxWord

/-- On this side of zero and beyond the words. -/
def Far (sign : Sign) : UnpackedFloat → Prop
  | .infinity side => side = sign
  | .finite side mantissa exponent _ => side = sign ∧ (2 : ℚ) ^ 63 ≤ mantissa * 2 ^ exponent
  | .notANumber | .zero _ => False

theorem le_nearest {bound mantissa : ℕ} {exponent : ℤ}
    (large : (bound : ℚ) ≤ mantissa * 2 ^ exponent) : bound ≤ Parts.nearest mantissa exponent := by
  rw [Parts.nearest]
  by_cases whole : 0 ≤ exponent
  · obtain ⟨shift, rfl⟩ := Int.eq_ofNat_of_zero_le whole
    rw [if_pos whole]
    rw [zpow_natCast] at large
    exact_mod_cast large
  · obtain ⟨shift, same⟩ := Int.eq_ofNat_of_zero_le (show 0 ≤ -exponent by omega)
    obtain rfl : exponent = -shift := by omega
    have positive : 0 < twoTo shift := Nat.two_pow_pos shift
    have scaled : bound * twoTo shift ≤ mantissa := by
      rw [zpow_neg, zpow_natCast, ← div_eq_mul_inv, le_div_iff₀ (by positivity)] at large
      exact_mod_cast large
    rw [if_neg whole, neg_neg, Int.toNat_natCast, Nat.le_div_iff_mul_le (by omega)]
    linarith

theorem nearestWord_of_far {sign : Sign} {x : Float} (far : Far sign x.toModel.unpack) :
    nearestWord x = lastWord sign := by
  have range : maxWord + 1 = 2 ^ 63 ∧ minWord = -2 ^ 63 := by decide
  rw [nearestWord, Parts.ofDouble]
  cases unpacked : x.toModel.unpack with
  | notANumber => rw [unpacked] at far; exact far.elim
  | zero side => rw [unpacked] at far; exact far.elim
  | infinity side =>
    rw [unpacked] at far
    obtain rfl : side = sign := far
    cases side <;> rfl
  | finite side mantissa exponent some =>
    rw [unpacked] at far
    obtain ⟨rfl, large⟩ := far
    have beyond : 2 ^ 63 ≤ Parts.nearest mantissa exponent := le_nearest (by exact_mod_cast large)
    have beyond : (2 ^ 63 : ℤ) ≤ Parts.nearest mantissa exponent := by exact_mod_cast beyond
    cases side with
    | negative =>
      show max minWord (min maxWord (-(Parts.nearest mantissa exponent : ℤ))) = minWord
      omega
    | positive =>
      show max minWord (min maxWord (Parts.nearest mantissa exponent : ℤ)) = maxWord
      omega

theorem RoundsTo.far {sign : Sign} {exact : ℚ} {result : UnpackedFloat}
    (rounds : RoundsTo sign exact result) (large : 2 ^ 63 ≤ exact) :
    Far sign (UnpackedFloat.unpack .binary64 (UnpackedFloat.pack .binary64 result)) := by
  obtain ⟨mantissa, exponent, canonical, nearest, rfl⟩ := rounds
  have fine : Fine (2 ^ 63) := ⟨1, 63, by norm_num, by norm_num, by norm_num⟩
  -- a power of two is held exactly, and rounding does not fall back behind it
  have kept := nearest.ge_of_ge fine large
  by_cases inRange : exponent ≤ 971
  · have some : 0 < mantissa := by
      by_contra none
      norm_num [Nat.eq_zero_of_not_pos none] at kept
    rw [unpack_pack_finiteOf sign canonical inRange, finiteOf_of_pos _ _ some]
    exact ⟨rfl, kept⟩
  · rw [unpack_pack_of_lt sign canonical (not_le.mp inRange)]
    rfl

theorem unpack_neg {x : Float} {mantissa : ℕ} {exponent : ℤ}
    (canonical : Canonical mantissa exponent) (inRange : exponent ≤ 971)
    (unpacked : x.toModel.unpack = finiteOf .positive mantissa exponent) :
    x.neg.toModel.unpack = finiteOf .negative mantissa exponent := by
  have word : x.neg.toModel.unpack = UnpackedFloat.unpack .binary64
    (UnpackedFloat.pack .binary64 x.toModel.unpack.neg) := rfl
  have side : (finiteOf .positive mantissa exponent).neg =
      finiteOf .negative mantissa exponent := by
    rw [finiteOf, finiteOf]
    split <;> rfl
  rw [word, unpacked, side, unpack_pack_finiteOf .negative canonical inRange]

theorem isFinite_of_neg {x : Float} (finite : x.neg.isFinite = true) : x.isFinite = true := by
  have word : x.neg.isFinite = (UnpackedFloat.unpack .binary64
    (UnpackedFloat.pack .binary64 x.toModel.unpack.neg)).isFinite := rfl
  have plain : x.isFinite = x.toModel.unpack.isFinite := rfl
  rw [word] at finite
  rw [plain]
  cases unpacked : x.toModel.unpack with
  | notANumber => rw [unpacked] at finite; cases finite
  | infinity sign => rw [unpacked] at finite; cases sign <;> cases finite
  | zero sign => rfl
  | finite sign mantissa exponent some => rfl

theorem holds_thousand : Holds 1000.0 1000 := by
  have same : (1000.0 : Float) = Float.ofNat 1000 := by decide +kernel
  rw [same]
  exact ofNat_exact (by norm_num)

theorem nearestWord_thousandfold {sign : Sign} {x : Float} {mantissa : ℕ} {exponent : ℤ}
    (canonical : Canonical mantissa exponent)
    (unpacked : x.toModel.unpack = finiteOf sign mantissa exponent)
    (large : (2 : ℚ) ^ 63 ≤ mantissa * 2 ^ exponent) :
    nearestWord (x * 1000.0) = lastWord sign := by
  obtain ⟨mantissa', exponent', canonical', unpacked', value⟩ := holds_thousand
  have rounds := mul_rounds_of_sign sign canonical canonical'
  rw [← value, ← unpacked, ← unpacked'] at rounds
  exact nearestWord_of_far (rounds.far (by linarith))

/-! Counts beyond the doubles. -/

/-- The least count whose nearest double would need one more exponent. -/
def countLimit : ℕ := 2 ^ 1024 - 2 ^ 970

theorem isFinite_ofNat_iff {n : ℕ} {mantissa : ℕ} {exponent : ℤ}
    (canonical : Canonical mantissa exponent)
    (packed : Float.ofNat n = .ofModel (.pack (finiteOf .positive mantissa exponent))) :
    (Float.ofNat n).isFinite = true ↔ exponent ≤ 971 := by
  have word : (Float.ofNat n).isFinite = (UnpackedFloat.unpack .binary64
      (UnpackedFloat.pack .binary64 (finiteOf .positive mantissa exponent))).isFinite := by
    rw [packed]
    rfl
  rw [word]
  by_cases inRange : exponent ≤ 971
  · rw [unpack_pack_finiteOf .positive canonical inRange, finiteOf]
    split <;> simp [inRange, UnpackedFloat.isFinite]
  · rw [unpack_pack_of_lt .positive canonical (not_le.mp inRange)]
    simp [inRange, UnpackedFloat.isFinite]

theorem isFinite_ofNat_mono {n n' : ℕ} (below : n < n')
    (finite : (Float.ofNat n').isFinite = true) : (Float.ofNat n).isFinite = true := by
  obtain ⟨_, packed, mantissa, exponent, canonical, nearest, rfl⟩ := ofNat_rounds n
  obtain ⟨_, packed', mantissa', exponent', canonical', nearest', rfl⟩ := ofNat_rounds n'
  rw [isFinite_ofNat_iff canonical' packed'] at finite
  rw [isFinite_ofNat_iff canonical packed]
  by_contra beyond
  have turned := canonical'.lt_of_exponent_lt canonical (finite.trans_lt (not_le.mp beyond))
  exact turned.not_ge (nearest.mono nearest' (by exact_mod_cast below))

/-- The limit itself is a tie, which goes up. -/
theorem isFinite_ofNat {n : ℕ} : (Float.ofNat n).isFinite = true ↔ n < countLimit := by
  -- rounding keeps the order, so the two counts next to the limit decide for all
  have last : (Float.ofNat (countLimit - 1)).isFinite = true := by decide +kernel
  have first : ¬ (Float.ofNat countLimit).isFinite = true := by decide +kernel
  constructor
  · intro finite
    by_contra above
    rcases Nat.lt_or_eq_of_le (not_lt.mp above) with more | same
    · exact first (isFinite_ofNat_mono more finite)
    · exact first (same ▸ finite)
  · intro below
    rcases Nat.lt_or_eq_of_le (Nat.le_sub_one_of_lt below) with less | same
    · exact isFinite_ofNat_mono less last
    · exact same ▸ last

theorem nearestWord_ofNat {n : ℕ} (large : 2 ^ 63 ≤ n) (fits : n < countLimit) :
    nearestWord (Float.ofNat n * 1000.0) = maxWord ∧
      nearestWord ((Float.ofNat n).neg * 1000.0) = minWord ∧
      (Float.ofNat n).neg.isFinite = true := by
  obtain ⟨_, packed, mantissa, exponent, canonical, nearest, rfl⟩ := ofNat_rounds n
  have inRange := (isFinite_ofNat_iff canonical packed).mp (isFinite_ofNat.mpr fits)
  have unpacked : (Float.ofNat n).toModel.unpack = finiteOf .positive mantissa exponent := by
    rw [packed]
    exact unpack_pack_finiteOf .positive canonical inRange
  have fine : Fine (2 ^ 63) := ⟨1, 63, by norm_num, by norm_num, by norm_num⟩
  have kept := nearest.ge_of_ge fine (by exact_mod_cast large)
  have turned := unpack_neg canonical inRange unpacked
  refine ⟨nearestWord_thousandfold canonical unpacked kept,
    nearestWord_thousandfold canonical turned kept, ?_⟩
  show (Float.ofNat n).neg.toModel.unpack.isFinite = true
  rw [turned, finiteOf]
  split <;> rfl

end FrameRelay.Number

namespace FrameRelay.Text
open Number

/-! Digits read as a decimal. -/

theorem toLower_of_isDigit {c : Char} (digit : c.isDigit) : c.toLower = c := by
  have range := toNat_of_isDigit digit
  rw [Char.toLower, dif_neg]
  intro upper
  have above : 65 ≤ c.toNat := upper.1
  omega

theorem spelled_ne {cs : List Char} (some_digit : cs ≠ []) (digits : ∀ c ∈ cs, c.isDigit)
    {word : String} {letter : Char} {more : List Char} (spelled : word.toList = letter :: more)
    (other : letter.isDigit = false) : String.ofList (cs.map Char.toLower) ≠ word := by
  rintro rfl
  cases cs with
  | nil => exact some_digit rfl
  | cons c rest =>
    have digit : c.isDigit := digits c List.mem_cons_self
    rw [String.toList_ofList, List.map_cons, toLower_of_isDigit digit] at spelled
    exact ne_of_isDigit digit other (List.cons.inj spelled).1

theorem takeDigits_of_digits {cs : List Char} (digits : ∀ c ∈ cs, c.isDigit) :
    takeDigits cs = (Nat.ofDigitChars 10 cs 0, cs.length, []) := by
  rw [takeDigits, List.takeWhile_eq_self_iff.mpr digits, List.dropWhile_eq_nil_iff.mpr digits,
    Nat.ofDigitChars_eq_foldl]

theorem readUnsignedDouble_digits {cs : List Char} (some_digit : cs ≠ [])
    (digits : ∀ c ∈ cs, c.isDigit) :
    readUnsignedDouble cs = some (nearestDouble (Nat.ofDigitChars 10 cs 0) 0) := by
  have count : cs.length ≠ 0 := fun none => some_digit (List.length_eq_zero_iff.mp none)
  have inf : _ ≠ "inf" := spelled_ne some_digit digits rfl rfl
  have infinity : _ ≠ "infinity" := spelled_ne some_digit digits rfl rfl
  have nan : _ ≠ "nan" := spelled_ne some_digit digits rfl rfl
  simp [readUnsignedDouble, inf, infinity, nan, takeDigits_of_digits digits, count, readExponent,
    tenTo]

theorem readDouble_digits {cs : List Char} (some_digit : cs ≠ []) (digits : ∀ c ∈ cs, c.isDigit) :
    readDouble cs = some (nearestDouble (Nat.ofDigitChars 10 cs 0) 0) := by
  rw [← readUnsignedDouble_digits some_digit digits]
  cases cs with
  | nil => exact absurd rfl some_digit
  | cons c rest =>
    have minus : c ≠ '-' := ne_of_isDigit (digits c List.mem_cons_self) (by decide)
    have plus : c ≠ '+' := ne_of_isDigit (digits c List.mem_cons_self) (by decide)
    unfold readDouble
    split <;> simp_all

/-- A count is read as its nearest double, even where the place of its first digit decides. -/
theorem isFinite_nearestDouble {n : Nat} (some : 0 < n) :
    ((nearestDouble n 0).isFinite = true ↔ n < countLimit) ∧
      (n < countLimit → nearestDouble n 0 = Float.ofNat n) := by
  have short (below : n < countLimit) : n.repr.length ≤ 320 :=
    (Nat.length_repr_le_iff (by decide)).mpr (below.trans_le (by decide +kernel))
  have near : ¬ (n = 0 ∨ (n.repr.length : Int) + 0 < -330) := by omega
  rw [nearestDouble, Nat.toString_eq_repr]
  simp only [decide_eq_true_eq, Bool.or_eq_true, if_neg near]
  by_cases long : (320 : Int) < n.repr.length + 0
  · have above : ¬ n < countLimit := fun below => by
      have := short below
      omega
    have infinite : ¬ ((1.0 : Float) / 0.0).isFinite = true := by decide +kernel
    rw [if_pos long]
    exact ⟨iff_of_false infinite above, fun below => absurd below above⟩
  · rw [if_neg long]
    exact ⟨isFinite_ofNat, fun _ => rfl⟩

end FrameRelay.Text

namespace FrameRelay.Ratio
open Number Text

/-! The two readings of a magnitude. -/

theorem readDigits_word {limit : Nat} {excess : NumeralFault} {sign : Nat → Int}
    (range : ∀ n, n ≤ limit ↔ InWord (sign n)) {digits : List Char}
    (all : ∀ c ∈ digits, c.isDigit) :
    (readDigits limit excess 0 digits).map sign =
      if InWord (sign (Nat.ofDigitChars 10 digits 0)) then
        .ok (sign (Nat.ofDigitChars 10 digits 0))
      else .error excess := by
  rw [readDigits_eq all (Nat.zero_le _)]
  by_cases fits : Nat.ofDigitChars 10 digits 0 ≤ limit
  · rw [if_pos fits, if_pos ((range _).mp fits)]
    rfl
  · rw [if_neg fits, if_neg (mt (range _).mpr fits)]
    rfl

theorem le_maxWord_iff (n : Nat) : n ≤ maxWord.toNat ↔ InWord (Int.ofNat n) := by
  simp only [InWord, minWord, maxWord, Int.ofNat_eq_natCast]
  omega

theorem le_minWord_iff (n : Nat) : n ≤ (-minWord).toNat ↔ InWord (-(n : Int)) := by
  simp only [InWord, minWord, maxWord]
  omega

/-- The last word on the side of a number, taken for thousandths. -/
def lastThousandths (n : Int) : Ratio :=
  if n < 0 then ⟨-1152921504606846976, 125⟩ else ⟨9223372036854775807, 1000⟩

section decimal
variable {cs : List Char} {count : Nat}

theorem readDecimal_of_far {value : Float} {last : Ratio} (read : readDouble cs = some value)
    (finite : value.isFinite = true ↔ count < countLimit)
    (ends : count < countLimit → reduce? ⟨nearestWord (value * 1000.0), 1000⟩ = some last) :
    readDecimal cs = if count < countLimit then some last else none := by
  rw [readDecimal, read]
  simp only [Option.bind_eq_bind, Option.bind_some, finite]
  by_cases fits : count < countLimit
  · rw [if_pos fits, if_pos fits, ends fits]
  · rw [if_neg fits, if_neg fits]

theorem readDecimal_upper (far : 2 ^ 63 ≤ count)
    (read : readDouble cs = some (nearestDouble count 0)) :
    readDecimal cs = if count < countLimit then some (lastThousandths count) else none := by
  obtain ⟨finite, near⟩ := isFinite_nearestDouble (show 0 < count by omega)
  refine readDecimal_of_far read finite fun fits => ?_
  rw [near fits, (nearestWord_ofNat far fits).1, lastThousandths, if_neg (by omega)]
  decide

theorem readDecimal_lower (far : 2 ^ 63 ≤ count)
    (read : readDouble cs = some (nearestDouble count 0).neg) :
    readDecimal cs = if count < countLimit then some (lastThousandths (-count)) else none := by
  obtain ⟨finite, near⟩ := isFinite_nearestDouble (show 0 < count by omega)
  have finite' : (nearestDouble count 0).neg.isFinite = true ↔ count < countLimit :=
    ⟨fun turned => finite.mp (isFinite_of_neg turned), fun fits =>
      near fits ▸ (nearestWord_ofNat far fits).2.2⟩
  refine readDecimal_of_far read finite' fun fits => ?_
  rw [near fits, (nearestWord_ofNat far fits).2.1, lastThousandths, if_pos (by omega)]
  decide

end decimal

/-! Texts of whole numbers. -/

/-- An optional sign and at least one digit, with the number they stand for. -/
inductive Denotes : List Char → Int → Prop
  | plain {digits : List Char} (some_digit : digits ≠ []) (all : ∀ c ∈ digits, c.isDigit) :
      Denotes digits (Nat.ofDigitChars 10 digits 0)
  | plus {digits : List Char} (some_digit : digits ≠ []) (all : ∀ c ∈ digits, c.isDigit) :
      Denotes ('+' :: digits) (Nat.ofDigitChars 10 digits 0)
  | minus {digits : List Char} (some_digit : digits ≠ []) (all : ∀ c ∈ digits, c.isDigit) :
      Denotes ('-' :: digits) (-(Nat.ofDigitChars 10 digits 0 : Int))

namespace Denotes
variable {cs : List Char} {n : Int}

theorem splitTerms (denotes : Denotes cs n) : splitTerms cs = none := by
  have plain : ∀ c ∈ cs, isSeparator c = false := by
    have digit {digits : List Char} (all : ∀ c ∈ digits, c.isDigit) :
        ∀ c ∈ digits, isSeparator c = false := fun c listed => (inked_of_isDigit (all c listed)).2
    cases denotes with
    | plain _ all => exact digit all
    | plus _ all => exact List.forall_mem_cons.mpr ⟨by decide, digit all⟩
    | minus _ all => exact List.forall_mem_cons.mpr ⟨by decide, digit all⟩
  have passed : cs.dropWhile (!isSeparator ·) = [] :=
    List.dropWhile_eq_nil_iff.mpr fun c listed => by simp [plain c listed]
  rw [Ratio.splitTerms, passed]

theorem readWord (denotes : Denotes cs n) :
    (InWord n → readWord cs = .ok n) ∧ (¬ InWord n → ∃ fault, readWord cs = .error fault) := by
  have split {fault : NumeralFault} (read : Text.readWord cs = if InWord n then .ok n
      else .error fault) :
      (InWord n → Text.readWord cs = .ok n) ∧
        (¬ InWord n → ∃ fault, Text.readWord cs = .error fault) :=
    ⟨fun inside => by rw [read, if_pos inside],
      fun outside => ⟨fault, by rw [read, if_neg outside]⟩⟩
  cases denotes with
  | plain some_digit all =>
    exact split ((readInt_digits some_digit all).trans (readDigits_word le_maxWord_iff all))
  | plus some_digit all =>
    exact split ((readInt_plus some_digit).trans (readDigits_word le_maxWord_iff all))
  | minus some_digit all =>
    exact split ((readInt_minus some_digit (by decide)).trans (readDigits_word le_minWord_iff all))

theorem readDecimal (denotes : Denotes cs n) (outside : ¬ InWord n) :
    readDecimal cs = if n.natAbs < countLimit then some (lastThousandths n) else none := by
  have far : 2 ^ 63 ≤ n.natAbs := by
    simp only [InWord, minWord, maxWord] at outside
    omega
  cases denotes with
  | plain some_digit all => exact readDecimal_upper far (readDouble_digits some_digit all)
  | plus some_digit all => exact readDecimal_upper far (readUnsignedDouble_digits some_digit all)
  | minus some_digit all =>
    rw [Int.natAbs_neg, Int.natAbs_natCast] at far ⊢
    refine readDecimal_lower far ?_
    rw [readDouble, readUnsignedDouble_digits some_digit all]
    rfl

end Denotes

/-- A whole number is read as itself if it is a word. If not, it ends at the last word on its side
in thousandths, and is refused only where doubles end. -/
theorem parse_whole_number {s : String} {n : Int} (denotes : Denotes (trim s.toList) n) :
    (InWord n → parse s = .ok ⟨n, 1⟩) ∧
    (¬ InWord n → n.natAbs < countLimit → parse s = .ok (lastThousandths n)) ∧
    (countLimit ≤ n.natAbs → parse s = .error ⟨String.ofList (trim s.toList)⟩) := by
  have decimal (outside : ¬ InWord n) : read (trim s.toList) =
      if n.natAbs < countLimit then some (lastThousandths n) else none := by
    obtain ⟨fault, word⟩ := denotes.readWord.2 outside
    rw [read, denotes.splitTerms]
    simp only [word]
    exact denotes.readDecimal outside
  refine ⟨fun inside => ?word, fun outside fits => ?last, fun beyond => ?refused⟩
  case word =>
    rw [parse_eq_ok_iff, read, denotes.splitTerms]
    simp only [denotes.readWord.1 inside]
  case last => rw [parse_eq_ok_iff, decimal outside, if_pos fits]
  case refused =>
    have words : 2 ^ 63 < countLimit := by decide +kernel
    have outside : ¬ InWord n := by
      simp only [InWord, minWord, maxWord]
      omega
    simp only [parse, decimal outside, if_neg beyond.not_gt]

/-- The last word below zero, the number behind it, and one that doubles do not reach. -/
theorem parse_whole_number_at_the_ends :
    parse " -9223372036854775808" = .ok ⟨-9223372036854775808, 1⟩ ∧
    parse "-9223372036854775809 " = .ok ⟨-1152921504606846976, 125⟩ ∧
    parse (String.ofList ('+' :: '7' :: List.replicate 309 '0')) =
      .error ⟨String.ofList ('+' :: '7' :: List.replicate 309 '0')⟩ := by
  refine ⟨?word, ?last, ?refused⟩
  case word =>
    have digits : ∀ c ∈ "9223372036854775808".toList, c.isDigit := List.all_eq_true.mp (by decide)
    have denotes : Denotes ('-' :: "9223372036854775808".toList) (-9223372036854775808) :=
      .minus (by decide) digits
    have cut : trim " -9223372036854775808".toList = '-' :: "9223372036854775808".toList := by
      decide
    rw [← cut] at denotes
    exact (parse_whole_number denotes).1 (by decide)
  case last =>
    have digits : ∀ c ∈ "9223372036854775809".toList, c.isDigit := List.all_eq_true.mp (by decide)
    have denotes : Denotes ('-' :: "9223372036854775809".toList) (-9223372036854775809) :=
      .minus (by decide) digits
    have cut : trim "-9223372036854775809 ".toList = '-' :: "9223372036854775809".toList := by
      decide
    rw [← cut] at denotes
    exact (parse_whole_number denotes).2.1 (by decide) (by decide +kernel)
  case refused =>
    have cut : trim (String.ofList ('+' :: '7' :: List.replicate 309 '0')).toList =
        '+' :: '7' :: List.replicate 309 '0' := by
      rw [String.toList_ofList]
      decide +kernel
    have zeros : ∀ c ∈ List.replicate 309 '0', c.isDigit := fun c zero =>
      List.eq_of_mem_replicate zero ▸ by decide
    have denotes := Denotes.plus (List.cons_ne_nil '7' (List.replicate 309 '0'))
      (List.forall_mem_cons.mpr ⟨by decide, zeros⟩)
    rw [← cut] at denotes
    rw [(parse_whole_number denotes).2.2 (by decide +kernel), cut]

/-- The first number behind the words is read, as another number. -/
theorem parse_first_beyond_words :
    Denotes (trim "9223372036854775808".toList) 9223372036854775808 ∧
    ¬ InWord 9223372036854775808 ∧
    ∃ r, parse "9223372036854775808" = .ok r ∧ r.num ≠ 9223372036854775808 * r.den := by
  have digits : ∀ c ∈ "9223372036854775808".toList, c.isDigit := List.all_eq_true.mp (by decide)
  have cut : trim "9223372036854775808".toList = "9223372036854775808".toList := by decide
  refine ⟨?_, by decide, ⟨9223372036854775807, 1000⟩, by decide +kernel, by decide⟩
  rw [cut]
  exact .plain (by decide) digits

end FrameRelay.Ratio
