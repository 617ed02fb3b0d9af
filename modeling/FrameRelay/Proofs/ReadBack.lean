import FrameRelay.Proofs.LowestTerms
import FrameRelay.Proofs.Numerals

/-! Ratios read back from their text. Two words around a separator are read as the one ratio in
lowest terms of the same value, unless the denominator is zero or the change of the sign leaves the
words. What is read at all is in lowest terms, so its own text gives it again. -/

namespace FrameRelay.Ratio
open Number Text

/-! The characters of a number. -/

/-- No blank and no separator. -/
def Inked (c : Char) : Prop := isBlank c = false ∧ isSeparator c = false

theorem inked_of_isDigit {c : Char} (digit : c.isDigit) : Inked c := by
  have range := toNat_of_isDigit digit
  refine ⟨?_, ?_⟩
  · simp only [isBlank, Bool.or_eq_false_iff, Bool.and_eq_false_iff, decide_eq_false_iff_not,
      beq_eq_false_iff_ne]
    omega
  · have slash : c ≠ '/' := ne_of_isDigit digit (by decide)
    have colon : c ≠ ':' := ne_of_isDigit digit (by decide)
    simp [isSeparator, slash, colon]

theorem inked_toString (x : Int) : ∀ c ∈ (toString x).toList, Inked c := by
  intro c listed
  rw [toList_toString] at listed
  split at listed
  · exact inked_of_isDigit (isDigit_of_mem_toDigits c listed)
  · rcases List.mem_cons.mp listed with rfl | listed
    · exact ⟨by decide, by decide⟩
    · exact inked_of_isDigit (isDigit_of_mem_toDigits c listed)

theorem toString_ne_nil (x : Int) : (toString x).toList ≠ [] := by
  rw [toList_toString]
  split
  · exact Nat.toDigits_ne_nil
  · exact List.cons_ne_nil _ _

theorem isSeparator_of_isBlank {c : Char} (blank : isBlank c = true) : isSeparator c = false := by
  have slash : c ≠ '/' := by rintro rfl; exact absurd blank (by decide)
  have colon : c ≠ ':' := by rintro rfl; exact absurd blank (by decide)
  simp [isSeparator, slash, colon]

/-! Reading. -/

theorem splitTerms_append {front back : List Char} {sep : Char}
    (plain : ∀ c ∈ front, isSeparator c = false) (separates : isSeparator sep = true) :
    splitTerms (front ++ sep :: back) = some (front, back) := by
  have passed : ∀ c ∈ front, (!isSeparator c) = true := fun c listed => by simp [plain c listed]
  have rest : (sep :: back).dropWhile (!isSeparator ·) = sep :: back := by simp [separates]
  have nothing : (sep :: back).takeWhile (!isSeparator ·) = [] := by simp [separates]
  simp only [splitTerms, List.dropWhile_append_of_pos passed, rest,
    List.takeWhile_append_of_pos passed, nothing, List.append_nil]

theorem trim_toString (x : Int) : trim (toString x).toList = (toString x).toList :=
  trim_eq_self (fun c first => (inked_toString x c (List.mem_of_mem_head? first)).1)
    (fun c last => (inked_toString x c (List.mem_of_mem_getLast? last)).1)

theorem readTerm_padded {x : Int} (inside : InWord x) {left right : List Char}
    (before : Blanks left) (behind : Blanks right) :
    readTerm (left ++ (toString x).toList ++ right) = some x := by
  rw [readTerm, trim_append_right behind, trim_append_left before, trim_toString,
    readWord_toString inside]
  rfl

/-- Two numbers around a separator, with blanks around the whole and around each number. -/
def Shows (num den : Int) (cs : List Char) : Prop :=
  ∃ outer inner inner' outer' sep, Blanks outer ∧ Blanks inner ∧ Blanks inner' ∧ Blanks outer' ∧
    isSeparator sep = true ∧
    cs = outer ++ ((toString num).toList ++ (inner ++ sep :: inner') ++ (toString den).toList) ++
      outer'

theorem blanks_nil : Blanks [] := fun _ listed => nomatch listed

theorem shows_text (r : Ratio) : Shows r.num r.den r.text.toList := by
  refine ⟨[], [], [], [], '/', blanks_nil, blanks_nil, blanks_nil, blanks_nil, rfl, ?_⟩
  simp [text]

theorem trim_between (num den : Int) (middle : List Char) :
    trim ((toString num).toList ++ middle ++ (toString den).toList) =
      (toString num).toList ++ middle ++ (toString den).toList := by
  apply trim_eq_self
  · intro c first
    rw [List.append_assoc, List.head?_append, List.head?_eq_some_head (toString_ne_nil num),
      Option.some_or] at first
    exact (inked_toString num c (Option.mem_some.mp first ▸ List.head_mem _)).1
  · intro c last
    rw [List.getLast?_append, List.getLast?_eq_some_getLast (toString_ne_nil den),
      Option.some_or] at last
    exact (inked_toString den c (Option.mem_some.mp last ▸ List.getLast_mem _)).1

theorem read_of_shows {num den : Int} (num_word : InWord num) (den_word : InWord den)
    {cs : List Char} (shown : Shows num den cs) :
    read (trim cs) = if den = 0 then none else reduce? ⟨num, den⟩ := by
  obtain ⟨outer, inner, inner', outer', sep, before, between, between', behind, separates, rfl⟩ :=
    shown
  have front : ∀ c ∈ (toString num).toList ++ inner, isSeparator c = false := fun c listed =>
    (List.mem_append.mp listed).elim (fun digit => (inked_toString num c digit).2)
      (fun blank => isSeparator_of_isBlank (between c blank))
  have cut : splitTerms ((toString num).toList ++ (inner ++ sep :: inner') ++
      (toString den).toList) =
        some ((toString num).toList ++ inner, inner' ++ (toString den).toList) := by
    rw [← splitTerms_append front separates]
    simp only [List.append_assoc, List.cons_append]
  have first := readTerm_padded num_word blanks_nil between
  have second := readTerm_padded den_word between' blanks_nil
  rw [List.nil_append] at first
  rw [List.append_nil] at second
  rw [trim_append_right behind, trim_append_left before, trim_between, read, cut]
  simp only [readTerms, first, second]
  rfl

theorem parse_eq_ok_iff {s : String} {r : Ratio} :
    parse s = .ok r ↔ read (trim s.toList) = some r := by
  simp only [parse]
  cases found : read (trim s.toList) <;> simp

/-! What is read. -/

theorem inWord_nearestWord (x : Float) : InWord (nearestWord x) := by
  have ends : minWord ≤ 0 ∧ 0 ≤ maxWord := by decide
  unfold nearestWord Parts.toIntWithin InWord
  split <;> omega

theorem lowest_of_readTerms {front back : List Char} {r : Ratio}
    (found : readTerms front back = some r) : r.Lowest ∧ r.InWords := by
  have term {cs : List Char} {x : Int} (read : readTerm cs = some x) : InWord x := by
    rw [readTerm] at read
    cases word : readWord (trim cs) with
    | error fault => rw [word] at read; cases read
    | ok y =>
      rw [word] at read
      exact Option.some.inj read ▸ inWord_of_readWord word
  rw [readTerms, Option.bind_eq_bind, Option.bind_eq_some_iff] at found
  obtain ⟨num, num_read, found⟩ := found
  rw [Option.bind_eq_some_iff] at found
  obtain ⟨den, den_read, found⟩ := found
  by_cases zero : den = 0
  · rw [if_pos zero] at found
    cases found
  · rw [if_neg zero] at found
    have reduces := reduces_of_reduce? (r := ⟨num, den⟩) zero ⟨term num_read, term den_read⟩ found
    exact ⟨reduces.lowest, reduces.words⟩

theorem lowest_of_readDecimal {cs : List Char} {r : Ratio} (found : readDecimal cs = some r) :
    r.Lowest ∧ r.InWords := by
  rw [readDecimal, Option.bind_eq_bind, Option.bind_eq_some_iff] at found
  obtain ⟨value, -, found⟩ := found
  split at found
  · have reduces := reduces_of_reduce? (r := ⟨nearestWord (value * 1000.0), 1000⟩)
      (show (1000 : Int) ≠ 0 by decide)
      ⟨inWord_nearestWord _, show InWord 1000 by decide⟩ found
    exact ⟨reduces.lowest, reduces.words⟩
  · cases found

theorem inWord_one : InWord 1 := by decide

theorem lowest_of_parse {s : String} {r : Ratio} (parsed : parse s = .ok r) :
    r.Lowest ∧ r.InWords := by
  have found := parse_eq_ok_iff.mp parsed
  rw [read] at found
  split at found
  · exact lowest_of_readTerms found
  · split at found
    case h_1 whole word =>
      obtain rfl := Option.some.inj found
      exact ⟨⟨Int.one_pos, Nat.coprime_one_right _⟩, ⟨inWord_of_readWord word, inWord_one⟩⟩
    case h_2 => exact lowest_of_readDecimal found

theorem Lowest.cancel_eq {r : Ratio} (lowest : r.Lowest) : r.cancel = r :=
  (lowest_cancel lowest.positive).eq_of_cross lowest (cancel_cross lowest.positive.ne')

theorem Lowest.reads_back {r : Ratio} (lowest : r.Lowest) (words : r.InWords) :
    parse r.text = .ok r := by
  rw [parse_eq_ok_iff, read_of_shows words.num words.den (shows_text r),
    if_neg lowest.positive.ne', reduce?, if_neg lowest.positive.le.not_gt, lowest.cancel_eq]

/-- When the two numbers of a text are refused, and else the one ratio they are read as. In
lowest terms a ratio is read back unchanged, and so is whatever was read before. -/
theorem parse_undoes_text {num den : Int} (num_word : InWord num) (den_word : InWord den)
    {s : String} (shown : Shows num den s.toList) :
    ((∃ fault, parse s = .error fault) ↔
      den = 0 ∨ den < 0 ∧ (num = minWord ∨ den = minWord)) ∧
    (∀ r, parse s = .ok r → r.Lowest ∧ r.num * den = num * r.den ∧
      ∀ q : Ratio, q.Lowest → q.num * den = num * q.den → q = r) ∧
    (∀ r : Ratio, r.Lowest → r.InWords → parse r.text = .ok r) ∧
    (∀ t r, parse t = .ok r → parse r.text = .ok r) := by
  have words : (⟨num, den⟩ : Ratio).InWords := ⟨num_word, den_word⟩
  have read_eq := read_of_shows num_word den_word shown
  have fails_iff : (∃ fault, parse s = .error fault) ↔ read (trim s.toList) = none := by
    simp only [parse]
    cases read (trim s.toList) <;> simp
  refine ⟨?fails, fun r parsed => ?reads, fun r => Lowest.reads_back, fun t r parsed => ?again⟩
  case fails =>
    rw [fails_iff, read_eq]
    by_cases zero : den = 0
    · exact ⟨fun _ => .inl zero, fun _ => if_pos zero⟩
    · rw [if_neg zero, reduce?_eq_none_iff words]
      exact ⟨.inr, fun refused => refused.resolve_left zero⟩
  case reads =>
    have found := parse_eq_ok_iff.mp parsed
    rw [read_eq] at found
    by_cases zero : den = 0
    · rw [if_pos zero] at found
      cases found
    · rw [if_neg zero] at found
      have reduces := reduces_of_reduce? (r := ⟨num, den⟩) zero words found
      exact ⟨reduces.lowest, reduces.cross,
        fun q lowest cross => (reduces.unique zero lowest cross).symm⟩
  case again =>
    obtain ⟨lowest, words⟩ := lowest_of_parse parsed
    exact lowest.reads_back words

/-- Two negative numbers around a colon, with blanks at all four places. -/
theorem parse_undoes_text_padded :
    Shows (-6) (-4) "\t-6 :  -4\n".toList ∧ parse "\t-6 :  -4\n" = .ok ⟨3, 2⟩ := by
  have blank {c : Char} (is : isBlank c = true) : Blanks [c] := List.forall_mem_singleton.mpr is
  have shown : Shows (-6) (-4) "\t-6 :  -4\n".toList :=
    ⟨['\t'], [' '], [' ', ' '], ['\n'], ':', blank rfl, blank rfl,
      List.forall_mem_cons.mpr ⟨rfl, blank rfl⟩, blank rfl, rfl, by decide⟩
  obtain ⟨fails, reads, -⟩ :=
    parse_undoes_text (by decide : InWord (-6)) (by decide : InWord (-4)) shown
  refine ⟨shown, ?_⟩
  cases parsed : parse "\t-6 :  -4\n" with
  | error fault => exact absurd (fails.mp ⟨fault, parsed⟩) (by decide)
  | ok r => rw [← (reads r parsed).2.2 ⟨3, 2⟩ ⟨by decide, by decide⟩ (by decide)]

end FrameRelay.Ratio
