import FrameRelay.Proofs.LowestTerms

/-! Quotients on machine words. The common divisor comes from Euclid's loop on the magnitudes and
goes back to a signed word; every step says whether it overflows or divides by zero, and none does.
A quotient is exact and in lowest terms wherever there is one. -/

namespace FrameRelay
open Number

namespace Machine

/-- What stops a computation on words. -/
inductive Fault where
  | overflow
  | zeroDivisor
  deriving DecidableEq

/-- `x` as a signed word. -/
def signed (x : Int) : Except Fault Int :=
  if InWord x then .ok x else .error .overflow

/-- The magnitude of a signed word as an unsigned one. -/
def magnitude (x : Int) : Except Fault UInt64 :=
  if x.natAbs < UInt64.size then .ok (.ofNat x.natAbs) else .error .overflow

def remainder (a b : UInt64) : Except Fault UInt64 :=
  if b = 0 then .error .zeroDivisor else .ok (a % b)

/-- The quotient of two signed words, cut towards zero. -/
def quotient (a b : Int) : Except Fault Int :=
  if b = 0 then .error .zeroDivisor else signed (a.tdiv b)

/-- Euclid's loop. -/
def euclid (a b : UInt64) : Except Fault UInt64 :=
  if b = 0 then .ok a
  else
    match _left : remainder a b with
    | .error fault => .error fault
    | .ok rest => euclid b rest
termination_by b.toNat
decreasing_by
  rename_i nonzero
  rw [remainder, if_neg nonzero] at _left
  obtain rfl := Except.ok.inj _left
  exact UInt64.mod_lt a (UInt64.pos_iff_ne_zero.mpr nonzero)

/-- Divides both terms by the common divisor of their magnitudes. -/
def cancel (r : Ratio) : Except Fault Ratio := do
  let num ← magnitude r.num
  let den ← magnitude r.den
  let common ← euclid num den
  if 1 < common then
    let common ← signed common.toNat
    return ⟨← quotient r.num common, ← quotient r.den common⟩
  else return r

/-- `Ratio.reduce?` by its steps. -/
def reduce? (r : Ratio) : Except Fault (Option Ratio) :=
  if r.den < 0 then
    match word? (-r.num), word? (-r.den) with
    | some num, some den => some <$> cancel ⟨num, den⟩
    | _, _ => .ok none
  else some <$> cancel r

/-- `Ratio.div?` by its steps. -/
def div? (a b : Ratio) : Except Fault (Option Ratio) :=
  if a.den = 0 ∨ b.den = 0 ∨ b.num = 0 then .ok none
  else
    match word? (a.num * b.den), word? (a.den * b.num) with
    | some num, some den => reduce? ⟨num, den⟩
    | _, _ => .ok none

theorem signed_ok {x : Int} (inside : InWord x) : signed x = .ok x := if_pos inside

theorem natAbs_lt_size {x : Int} (inside : InWord x) : x.natAbs < UInt64.size := by
  have size : UInt64.size = 18446744073709551616 := rfl
  simp only [InWord, minWord, maxWord] at inside
  omega

theorem magnitude_ok {x : Int} (inside : InWord x) : magnitude x = .ok (.ofNat x.natAbs) :=
  if_pos (natAbs_lt_size inside)

theorem euclid_ok (a b : UInt64) : euclid a b = .ok (.ofNat (a.toNat.gcd b.toNat)) := by
  fun_induction euclid a b
  case case1 a => simp
  case case2 a b nonzero fault left => simp [remainder, nonzero] at left
  case case3 a b nonzero rest left ih =>
    rw [remainder, if_neg nonzero] at left
    obtain rfl := Except.ok.inj left
    rw [ih, UInt64.toNat_mod, Nat.gcd_comm, ← Nat.gcd_rec, Nat.gcd_comm]

theorem quotient_ok {common x : Int} (positive : 0 < common) (inside : InWord x) :
    quotient (common * x) common = .ok x := by
  rw [quotient, if_neg positive.ne', Int.mul_tdiv_cancel_left x positive.ne', signed_ok inside]

theorem inWord_common {r : Ratio} (positive : 0 < r.den) (words : r.InWords) :
    InWord (Int.gcd r.num r.den) := by
  have below : (Int.gcd r.num r.den : Int) ≤ r.den :=
    Int.le_of_dvd positive (Int.gcd_dvd_right ..)
  have inside := words.den
  simp only [InWord, minWord, maxWord] at *
  omega

theorem cancel_ok {r : Ratio} (positive : 0 < r.den) (words : r.InWords) :
    cancel r = .ok r.cancel := by
  have common_eq : (UInt64.ofNat ((UInt64.ofNat r.num.natAbs).toNat.gcd
      (UInt64.ofNat r.den.natAbs).toNat)).toNat = Int.gcd r.num r.den := by
    rw [UInt64.toNat_ofNat_of_lt' (natAbs_lt_size words.num),
      UInt64.toNat_ofNat_of_lt' (natAbs_lt_size words.den)]
    apply UInt64.toNat_ofNat_of_lt'
    have small := natAbs_lt_size (inWord_common positive words)
    rwa [Int.natAbs_natCast] at small
  simp only [cancel, magnitude_ok words.num, magnitude_ok words.den, euclid_ok, bind, Except.bind,
    UInt64.lt_iff_toNat_lt, common_eq, UInt64.toNat_one]
  obtain ⟨num_eq, den_eq⟩ := r.terms_eq_cancel positive.ne'
  obtain ⟨num_word, den_word⟩ := r.inWords_cancel positive.ne' words
  by_cases large : 1 < Int.gcd r.num r.den
  · have above : (0 : Int) < Int.gcd r.num r.den := by omega
    have num_ok : quotient r.num (Int.gcd r.num r.den) = .ok r.cancel.num := by
      conv_lhs => arg 1; rw [num_eq]
      exact quotient_ok above num_word
    have den_ok : quotient r.den (Int.gcd r.num r.den) = .ok r.cancel.den := by
      conv_lhs => arg 1; rw [den_eq]
      exact quotient_ok above den_word
    rw [if_pos large, signed_ok (inWord_common positive words)]
    simp only [num_ok, den_ok]
    rfl
  · have unchanged : r.cancel = r := if_neg (by exact_mod_cast large)
    rw [if_neg large, unchanged]
    rfl

theorem reduce?_ok {r : Ratio} (nonzero : r.den ≠ 0) (words : r.InWords) :
    reduce? r = .ok r.reduce? := by
  by_cases negative : r.den < 0
  · cases num_word : word? (-r.num) with
    | none => simp only [reduce?, Ratio.reduce?, if_pos negative, num_word]; rfl
    | some num =>
      cases den_word : word? (-r.den) with
      | none => simp only [reduce?, Ratio.reduce?, if_pos negative, num_word, den_word]; rfl
      | some den =>
        obtain ⟨rfl, num_in⟩ := word?_eq_some_iff.mp num_word
        obtain ⟨rfl, den_in⟩ := word?_eq_some_iff.mp den_word
        have cancelled := cancel_ok (r := ⟨-r.num, -r.den⟩) (neg_pos.mpr negative) ⟨num_in, den_in⟩
        simp only [reduce?, Ratio.reduce?, if_pos negative, num_word, den_word, cancelled]
        rfl
  · have positive : 0 < r.den := lt_of_le_of_ne (not_lt.mp negative) nonzero.symm
    simp only [reduce?, Ratio.reduce?, if_neg negative, cancel_ok positive words]
    rfl

theorem div?_ok (a b : Ratio) : div? a b = .ok (a.div? b) := by
  by_cases zero : a.den = 0 ∨ b.den = 0 ∨ b.num = 0
  · simp only [div?, Ratio.div?, if_pos zero]
  · cases num_word : word? (a.num * b.den) with
    | none => simp only [div?, Ratio.div?, if_neg zero, num_word]; rfl
    | some num =>
      cases den_word : word? (a.den * b.num) with
      | none => simp only [div?, Ratio.div?, if_neg zero, num_word, den_word]; rfl
      | some den =>
        obtain ⟨rfl, num_in⟩ := word?_eq_some_iff.mp num_word
        obtain ⟨rfl, den_in⟩ := word?_eq_some_iff.mp den_word
        have nonzero : a.den * b.num ≠ 0 := by
          push Not at zero
          exact mul_ne_zero zero.1 zero.2.2
        simp only [div?, Ratio.div?, if_neg zero, num_word, den_word]
        exact reduce?_ok (r := ⟨_, _⟩) nonzero ⟨num_in, den_in⟩

end Machine

namespace Ratio

/-- The quotient of two ratios before it is reduced. -/
def crossed (a b : Ratio) : Ratio := ⟨a.num * b.den, a.den * b.num⟩

section
variable {a b : Ratio} (divides : ¬ (a.den = 0 ∨ b.den = 0 ∨ b.num = 0))
include divides

theorem den_crossed_ne_zero : (a.crossed b).den ≠ 0 := by
  push Not at divides
  exact mul_ne_zero divides.1 divides.2.2

theorem div?_eq_reduce? (words : (a.crossed b).InWords) : a.div? b = (a.crossed b).reduce? := by
  have num_word : word? (a.num * b.den) = some _ := word?_eq_some_iff.mpr ⟨rfl, words.num⟩
  have den_word : word? (a.den * b.num) = some _ := word?_eq_some_iff.mpr ⟨rfl, words.den⟩
  simp only [div?, if_neg divides, num_word, den_word]
  rfl

theorem words_of_div? {r : Ratio} (found : a.div? b = some r) : (a.crossed b).InWords := by
  rw [div?, if_neg divides, Option.bind_eq_bind, Option.bind_eq_some_iff] at found
  obtain ⟨num, num_word, found⟩ := found
  rw [Option.bind_eq_some_iff] at found
  obtain ⟨den, den_word, -⟩ := found
  exact ⟨(word?_eq_some_iff.mp num_word).2, (word?_eq_some_iff.mp den_word).2⟩

end

theorem div?_eq_none_iff (a b : Ratio) :
    a.div? b = none ↔
      (a.den = 0 ∨ b.den = 0 ∨ b.num = 0) ∨ ¬ (a.crossed b).InWords ∨
        (a.crossed b).den < 0 ∧ ((a.crossed b).num = minWord ∨ (a.crossed b).den = minWord) := by
  by_cases zero : a.den = 0 ∨ b.den = 0 ∨ b.num = 0
  · exact ⟨fun _ => .inl zero, fun _ => if_pos zero⟩
  by_cases words : (a.crossed b).InWords
  · rw [div?_eq_reduce? zero words, reduce?_eq_none_iff words]
    simp only [zero, words, not_true, false_or]
  · refine ⟨fun _ => .inr (.inl words), fun _ => ?_⟩
    exact Option.eq_none_iff_forall_ne_some.mpr fun r found => words (words_of_div? zero found)

theorem reduces_of_div? {a b r : Ratio} (found : a.div? b = some r) : (a.crossed b).Reduces r := by
  by_cases zero : a.den = 0 ∨ b.den = 0 ∨ b.num = 0
  · rw [div?, if_pos zero] at found
    cases found
  · have words := words_of_div? zero found
    rw [div?_eq_reduce? zero words] at found
    exact reduces_of_reduce? (den_crossed_ne_zero zero) words found

/-- When there is no quotient, what a quotient is, and that no step towards it overflows or divides
by zero. -/
theorem div?_exact (a b : Ratio) :
    (a.div? b = none ↔
      a.den = 0 ∨ b.den = 0 ∨ b.num = 0 ∨ ¬ InWord (a.num * b.den) ∨ ¬ InWord (a.den * b.num) ∨
        a.den * b.num < 0 ∧ (a.num * b.den = minWord ∨ a.den * b.num = minWord)) ∧
    (∀ r, a.div? b = some r →
      r.Lowest ∧ r.InWords ∧ r.num * (a.den * b.num) = a.num * b.den * r.den) ∧
    Machine.div? a b = .ok (a.div? b) := by
  refine ⟨?_, fun r found => ?_, Machine.div?_ok a b⟩
  · have words_iff : (a.crossed b).InWords ↔ InWord (a.num * b.den) ∧ InWord (a.den * b.num) :=
      ⟨fun words => ⟨words.num, words.den⟩, fun ⟨num, den⟩ => ⟨num, den⟩⟩
    rw [div?_eq_none_iff, words_iff, not_and_or]
    simp only [crossed, or_assoc]
  · obtain ⟨lowest, words, cross⟩ := reduces_of_div? found
    exact ⟨lowest, words, cross⟩

/-- The least word has no positive counterpart. -/
example : div? ⟨minWord, 1⟩ ⟨-1, 1⟩ = none := by
  decide

end Ratio

end FrameRelay
