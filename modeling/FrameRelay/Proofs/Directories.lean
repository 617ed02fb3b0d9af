import FrameRelay.Store.Folder
import Mathlib.Data.List.Nodup
import Mathlib.Data.List.TakeWhile
import Mathlib.Data.String.Basic

/-! Files in a directory. The path of a file leads through its directory, making a directory that is
there changes nothing, and a file with a proper name gets into it. What a directory lists is one
entry for each name. -/

namespace FrameRelay

section paths
open String

/-- The text is read up to here, `word` being what has been read of the part that it stands in. -/
theorem splitOnAux_slash (before word rest : List Char) (parts : List String) :
    splitOnAux (ofList (before ++ word ++ rest)) "/" ⟨utf8Len before⟩
        ⟨utf8Len before + utf8Len word⟩ 0 parts =
      parts.reverse ++ (List.splitOnPPrepend (· == '/') rest word.reverse).map ofList := by
  unfold splitOnAux
  simp only [List.append_assoc, atEnd_iff, rawEndPos_ofList, utf8Len_append, Pos.Raw.mk_le_mk,
    Nat.add_le_add_iff_left,
    (by omega : utf8Len word + utf8Len rest ≤ utf8Len word ↔ utf8Len rest = 0), utf8Len_eq_zero]
  split
  · subst rest
    simpa using extract_of_valid before word []
  · obtain ⟨c, rest, rfl⟩ := rest.exists_cons_of_ne_nil ‹_›
    have slash : (0 : Pos.Raw).get "/" = '/' := by decide
    have slashEnd : ("/" : String).rawEndPos ≤ (0 : Pos.Raw).next "/" := by decide
    have still (i : Nat) : (⟨i⟩ : Pos.Raw).unoffsetBy 0 = ⟨i⟩ := rfl
    have here := get_of_valid (before ++ word) (c :: rest)
    have next := next_of_valid (before ++ word) c rest
    simp only [List.append_assoc, utf8Len_append, List.headD_cons] at here next
    simp only [slash, slashEnd, still, here, next, if_true]
    -- a slash ends the word, any other character joins it
    by_cases separates : c = '/'
    · subst separates
      have one : Char.utf8Size '/' = 1 := by decide
      have back : (⟨utf8Len before + utf8Len word + 1⟩ : Pos.Raw).unoffsetBy
        ((0 : Pos.Raw).next "/") = ⟨utf8Len before + utf8Len word⟩ := rfl
      have later := splitOnAux_slash (before ++ word ++ ['/']) [] rest (ofList word :: parts)
      have part := extract_of_valid before word ('/' :: rest)
      simp only [List.append_assoc] at part
      simpa [-ofList_append, one, List.splitOnPPrepend_cons_eq_if, ← Nat.add_assoc, back, part]
        using later
    · have later := splitOnAux_slash before (word ++ [c]) rest parts
      simpa [-ofList_append, List.splitOnPPrepend_cons_eq_if, separates, Nat.add_assoc]
        using later

theorem segments_eq (path : String) : segments path = (path.toList.splitOn '/').map ofList := by
  have whole := splitOnAux_slash [] [] path.toList []
  simpa [segments, splitOn, List.splitOn_eq_splitOnP] using whole

theorem segments_slash (path : String) {name : String} (plain : '/' ∉ name.toList) :
    segments (path ++ "/" ++ name) = segments path ++ [name] := by
  have cut : (path ++ "/" ++ name).toList = path.toList ++ '/' :: name.toList := by simp
  rw [segments_eq, cut, List.splitOn_append_cons_self, List.splitOn_eq_singleton plain,
    List.map_append, ← segments_eq]
  simp

theorem segments_name {name : String} (plain : '/' ∉ name.toList) : segments name = [name] := by
  rw [segments_eq, List.splitOn_eq_singleton plain]
  simp

theorem startOf_name {name : String} (plain : '/' ∉ name.toList) : startOf name = ([], [name]) := by
  have upright : name.startsWith "/" = false := by
    rw [startsWith_string_eq_false_iff]
    exact fun slash => plain (slash.subset (by decide))
  rw [startOf, upright, segments_name plain]
  rfl

theorem segments_ne_nil (path : String) : segments path ≠ [] := by
  rw [segments_eq]
  simp [List.splitOn_ne_nil]

/-- Where the paths of entries behind a slash start, and the parts before their names. -/
def frontOf (path : String) : List String × List String :=
  if (path ++ "/").startsWith "/" then (["/"], (segments path).drop 1) else ([], segments path)

theorem startOf_slash (path : String) {name : String} (plain : '/' ∉ name.toList) :
    startOf (path ++ "/" ++ name) = ((frontOf path).1, (frontOf path).2 ++ [name]) := by
  have rooted : (path ++ "/" ++ name).startsWith "/" = (path ++ "/").startsWith "/" := by
    rw [Bool.eq_iff_iff, startsWith_string_iff, startsWith_string_iff]
    cases chars : path.toList <;> simp_all
  obtain ⟨first, rest, parts⟩ := List.exists_cons_of_ne_nil (segments_ne_nil path)
  rw [startOf, frontOf, rooted, segments_slash path plain, parts]
  split <;> rfl

theorem startOf_joinPath (directory : String) {name : String} (plain : '/' ∉ name.toList) :
    ∃ start front,
      (startOf directory = (start, front) ∨ startOf directory = (start, front ++ [""])) ∧
        startOf (joinPath directory name) = (start, front ++ [name]) := by
  -- no text at all has one empty part, as if a slash stood behind it
  by_cases none : directory = ""
  · refine ⟨[], [], .inr ?_, ?_⟩
    · rw [none]
      exact startOf_name (by decide)
    · simp [none, joinPath, startOf_name plain]
  by_cases slash : directory.endsWith "/" = true
  · have ending := slash
    rw [← endsWith_toSlice, Slice.endsWith_string_iff, copy_toSlice] at ending
    obtain ⟨chars, ends⟩ := ending
    obtain rfl : directory = ofList chars ++ "/" := by
      rw [← toList_inj, ← ends]
      simp
    have whole := startOf_slash (ofList chars) (show '/' ∉ ("" : String).toList by decide)
    rw [append_empty] at whole
    refine ⟨_, _, .inr whole, ?_⟩
    rw [joinPath, slash, Bool.or_true, if_pos rfl]
    exact startOf_slash (ofList chars) plain
  · refine ⟨(frontOf directory).1, (frontOf directory).2, .inl ?_, ?_⟩
    · have rooted : (directory ++ "/").startsWith "/" = directory.startsWith "/" := by
        have some_char : directory.toList ≠ [] := fun nil => none (toList_eq_nil_iff.mp nil)
        rw [Bool.eq_iff_iff, startsWith_string_iff, startsWith_string_iff]
        cases chars : directory.toList <;> simp_all
      rw [startOf, frontOf, rooted]
    · have bare : (directory.isEmpty || directory.endsWith "/") = false := by
        simp_all
      rw [joinPath, bare, if_neg Bool.false_ne_true]
      exact startOf_slash directory plain

theorem joinPath_eq (directory name : String) : ∃ middle,
    joinPath directory name = directory ++ middle ++ name ∧ (middle = "" ∨ middle = "/") := by
  rw [joinPath]
  split
  · exact ⟨"", by simp, .inl rfl⟩
  · exact ⟨"/", rfl, .inr rfl⟩

end paths

theorem dropSlashes_append (parts : List String) :
    ∃ count, parts = dropSlashes parts ++ List.replicate count "" := by
  have whole := congrArg List.reverse (List.takeWhile_append_dropWhile (l := parts.reverse)
    (p := (· == "")))
  have blank : parts.reverse.takeWhile (· == "") =
      List.replicate (parts.reverse.takeWhile (· == "")).length "" := by
    refine List.eq_replicate_iff.mpr ⟨rfl, fun part listed => ?_⟩
    have empty := List.mem_takeWhile_imp listed
    exact eq_of_beq empty
  rw [List.reverse_append, List.reverse_reverse] at whole
  refine ⟨(parts.reverse.takeWhile (· == "")).length, ?_⟩
  rw [dropSlashes, ← List.reverse_replicate, ← blank, whole]

theorem dropSlashes_concat {front : List String} {name : String} (some : name ≠ "") :
    dropSlashes (front ++ [name]) = front ++ [name] := by
  simp [dropSlashes, some]

theorem dropSlashes_concat_blank (front : List String) :
    dropSlashes (front ++ [""]) = dropSlashes front := by
  simp [dropSlashes]

theorem splitMade_append (parts : List String) :
    (splitMade parts).1 ++ (splitMade parts).2 = dropSlashes parts := by
  unfold splitMade
  dsimp only
  split
  · exact List.append_nil _
  · rw [List.splitAt_eq]
    exact List.take_append_drop _ _

namespace Folder
variable {folder : Folder} {place last site : List String} {part : String}
  {front back parts : List String} {entry : Entry}

/-! Following a path. -/

theorem follow_cons_ok : folder.follow place (part :: back) = .ok last ↔
    ∃ next, folder.enter place part = .ok next ∧ (folder.entryAt? next).isSome ∧
      folder.follow next back = .ok last := by
  rw [follow]
  cases entered : folder.enter place part with
  | error fault => simp [bind, Except.bind]
  | ok next =>
    cases found : folder.entryAt? next with
    | none => simp [bind, Except.bind, found, throw, throwThe, MonadExceptOf.throw]
    | some entry => simp [bind, Except.bind, found]

theorem follow_append_ok : folder.follow place (front ++ back) = .ok last ↔
    ∃ middle, folder.follow place front = .ok middle ∧ folder.follow middle back = .ok last := by
  induction front generalizing place with
  | nil => simp [follow]
  | cons part front ih =>
    simp only [List.cons_append, follow_cons_ok, ih]
    grind

theorem isSome_entryAt?_of_isDirectory (there : folder.isDirectory place = true) :
    (folder.entryAt? place).isSome := by
  rw [eq_of_beq there]
  rfl

theorem follow_idle (idle : ∀ part ∈ parts, stays part = true) :
    folder.follow place parts = .ok last ∧ folder.isDirectory last = true ↔
      place = last ∧ folder.isDirectory last = true := by
  induction parts with
  | nil => simp [follow]
  | cons part back ih =>
    obtain ⟨here, later⟩ := List.forall_mem_cons.mp idle
    rw [follow_cons_ok, ← ih later]
    constructor
    · rintro ⟨⟨next, entered, -, followed⟩, there⟩
      unfold enter at entered
      split at entered
      · cases entered
      · obtain rfl : place = next := Except.ok.inj entered
        exact ⟨followed, there⟩
    · rintro ⟨followed, there⟩
      obtain ⟨rfl, -⟩ := (ih later).mp ⟨followed, there⟩
      have entered : folder.enter place part = .ok place := by simp [enter, there, here]
      exact ⟨⟨place, entered, isSome_entryAt?_of_isDirectory there, followed⟩, there⟩

theorem follow_append_idle (idle : ∀ part ∈ back, stays part = true) :
    folder.follow place (front ++ back) = .ok last ∧ folder.isDirectory last = true ↔
      folder.follow place front = .ok last ∧ folder.isDirectory last = true := by
  constructor
  · rintro ⟨followed, there⟩
    obtain ⟨middle, first, second⟩ := follow_append_ok.mp followed
    obtain ⟨rfl, -⟩ := (follow_idle idle).mp ⟨second, there⟩
    exact ⟨first, there⟩
  · rintro ⟨first, there⟩
    have second := ((follow_idle idle).mpr ⟨rfl, there⟩).1
    exact ⟨follow_append_ok.mpr ⟨last, first, second⟩, there⟩

theorem follow_dropSlashes (parts : List String) :
    folder.follow place (dropSlashes parts) = .ok last ∧ folder.isDirectory last = true ↔
      folder.follow place parts = .ok last ∧ folder.isDirectory last = true := by
  obtain ⟨count, split⟩ := dropSlashes_append parts
  have idle : ∀ part ∈ List.replicate count "", stays part = true := by
    intro part listed
    rw [List.eq_of_mem_replicate listed]
    rfl
  nth_rewrite 2 [split]
  exact (follow_append_idle idle).symm

theorem makeWay_of_follow (followed : folder.follow place parts = .ok last) :
    folder.makeWay place parts = (.ok last, folder) := by
  induction parts generalizing place with
  | nil =>
    obtain rfl : place = last := Except.ok.inj followed
    rfl
  | cons part back ih =>
    obtain ⟨next, entered, there, later⟩ := follow_cons_ok.mp followed
    simp only [makeWay, entered]
    rw [if_neg (by simp [Option.isSome_iff_ne_none.mp there]), ih later]

/-- The path leads to a directory at this place. -/
structure Leads (folder : Folder) (path : String) (place : List String) : Prop where
  follows : folder.follow (startOf path).1 (dropSlashes (startOf path).2) = .ok place
  there : folder.isDirectory place = true

theorem checkPath_of_makeDirectory {path : String} {made : Folder}
    (makes : folder.makeDirectory path = (.ok (), made)) : path = "" ∨ checkPath path = .ok () := by
  by_cases none : path = ""
  · exact .inl none
  · right
    rw [makeDirectory, if_neg (by simpa using none)] at makes
    cases checked : checkPath path with
    | error fault => simp [checked] at makes
    | ok => rfl

theorem Leads.makeDirectory {path : String} (leads : folder.Leads path place)
    (checked : path = "" ∨ checkPath path = .ok ()) :
    folder.makeDirectory path = (.ok (), folder) := by
  rcases checked with rfl | checked
  · rfl
  have followed := leads.follows
  rw [← splitMade_append, follow_append_ok] at followed
  obtain ⟨middle, first, second⟩ := followed
  have some_char : path.isEmpty = false := by
    by_contra empty
    obtain rfl : path = "" := by simpa using empty
    cases checked
  simp only [Folder.makeDirectory, some_char, Bool.false_eq_true, if_false, checked,
    makeWay_of_follow first, reach, second, bind, Except.bind, leads.there]
  rfl

/-! Putting an entry where no directory is. -/

theorem entries_put : (folder.put site entry).entries[place]? =
    if site = place then some entry else folder.entries[place]? := by
  rw [put, Std.TreeMap.getElem?_insert]
  simp only [Std.LawfulEqCmp.compare_eq_iff_eq]

theorem entryAt?_put (other : site ≠ place) :
    (folder.put site entry).entryAt? place = folder.entryAt? place := by
  rw [entryAt?, entryAt?, entries_put, if_neg other]

theorem isDirectory_put (file : ¬ folder.isDirectory site = true)
    (there : folder.isDirectory place = true) :
    (folder.put site entry).isDirectory place = true := by
  have other : site ≠ place := by
    rintro rfl
    exact file there
  rwa [isDirectory, entryAt?_put other]

theorem isSome_entryAt?_put (there : (folder.entryAt? place).isSome) :
    ((folder.put site entry).entryAt? place).isSome := by
  by_cases same : site = place
  · rw [entryAt?, entries_put, if_pos same]
    split <;> rfl
  · rwa [entryAt?_put same]

theorem enter_ok_put (file : ¬ folder.isDirectory site = true)
    (entered : folder.enter place part = .ok last) :
    (folder.put site entry).enter place part = .ok last := by
  have there : folder.isDirectory place = true := by
    cases there : folder.isDirectory place with
    | true => rfl
    | false => simp [enter, there] at entered
  rw [enter, there] at entered
  rw [enter, isDirectory_put file there]
  exact entered

theorem follow_ok_put (file : ¬ folder.isDirectory site = true)
    (followed : folder.follow place parts = .ok last) :
    (folder.put site entry).follow place parts = .ok last := by
  induction parts generalizing place with
  | nil => exact followed
  | cons part back ih =>
    obtain ⟨next, entered, there, later⟩ := follow_cons_ok.mp followed
    exact follow_cons_ok.mpr ⟨next, enter_ok_put file entered, isSome_entryAt?_put there, ih later⟩

theorem Leads.put {path : String} (leads : folder.Leads path place)
    (file : ¬ folder.isDirectory site = true) : (folder.put site entry).Leads path place :=
  ⟨follow_ok_put file leads.follows, isDirectory_put file leads.there⟩

/-- A name of a file. -/
structure Proper (name : String) : Prop where
  plain : '/' ∉ name.toList
  inked : ∀ c ∈ name.toList, c.toNat ≠ 0
  step : isStep name = false
  short : name.utf8ByteSize ≤ maxName

namespace Proper
variable {name directory : String}

theorem ne_blank (proper : Proper name) : name ≠ "" := by
  rintro rfl
  exact absurd proper.step (by decide)

theorem stays (proper : Proper name) : stays name = false := by
  have step := proper.step
  rw [isStep, Bool.or_eq_false_iff] at step
  exact step.1

theorem entryAt? (proper : Proper name) :
    folder.entryAt? (place ++ [name]) = folder.entries[place ++ [name]]? := by
  have slash : name ≠ "/" := by
    rintro rfl
    exact proper.plain (by decide)
  have above : name ≠ ".." := by
    rintro rfl
    exact absurd proper.step (by decide)
  simp [Folder.entryAt?, slash, above]

theorem enter (proper : Proper name) (there : folder.isDirectory place = true) :
    folder.enter place name = .ok (place ++ [name]) := by
  have step := proper.step
  rw [isStep, Bool.or_eq_false_iff, beq_eq_false_iff_ne] at step
  simp [Folder.enter, there, step, proper.short]

theorem checkPath (proper : Proper name) (checked : directory = "" ∨ checkPath directory = .ok ())
    (room : directory.utf8ByteSize + 1 + name.utf8ByteSize ≤ maxPath) :
    FrameRelay.checkPath (joinPath directory name) = .ok () := by
  have front : ∀ c ∈ directory.toList, c.toNat ≠ 0 := by
    rcases checked with rfl | checked
    · exact fun c listed => nomatch listed
    · rw [FrameRelay.checkPath] at checked
      by_contra nul
      rw [if_pos (by simpa using nul)] at checked
      cases checked
  obtain ⟨middle, same, blank⟩ := joinPath_eq directory name
  have size : (joinPath directory name).utf8ByteSize ≤ maxPath := by
    have slash : middle.utf8ByteSize ≤ 1 := by rcases blank with rfl | rfl <;> decide
    rw [same, String.utf8ByteSize_append, String.utf8ByteSize_append]
    omega
  have inked : ∀ c ∈ (joinPath directory name).toList, c.toNat ≠ 0 := by
    intro c listed
    rw [same, String.toList_append, String.toList_append, List.mem_append, List.mem_append]
      at listed
    rcases listed with (listed | listed) | listed
    · exact front c listed
    · rcases blank with rfl | rfl
      · cases listed
      · obtain rfl : c = '/' := by simpa using listed
        decide
    · exact proper.inked c listed
  have some_char : joinPath directory name ≠ "" := by
    rw [same]
    intro empty
    exact proper.ne_blank (String.append_eq_empty_iff.mp empty).2
  rw [FrameRelay.checkPath, if_neg (by simpa using inked), if_neg (by simpa using some_char),
    if_neg (by omega)]

theorem write (proper : Proper name) (entry : Entry) (leads : folder.Leads directory place)
    (checked : FrameRelay.checkPath (joinPath directory name) = .ok ())
    (file : ¬ folder.isDirectory (place ++ [name]) = true) :
    folder.write (joinPath directory name) entry = .ok (folder.put (place ++ [name]) entry) := by
  obtain ⟨start, front, parts, whole⟩ := startOf_joinPath directory proper.plain
  have followed := leads.follows
  have same : (startOf directory).1 = start ∧
      dropSlashes (startOf directory).2 = dropSlashes front := by
    rcases parts with parts | parts
    · rw [parts]
      exact ⟨rfl, rfl⟩
    · rw [parts]
      exact ⟨rfl, dropSlashes_concat_blank front⟩
  rw [same.1, same.2] at followed
  -- the parts before the name are those of the directory and at most some empty ones
  have through := ((follow_dropSlashes front).mp ⟨followed, leads.there⟩).1
  have isFile : folder.isDirectory (place ++ [name]) = false := by simpa using file
  simp [Folder.write, checked, whole, dropSlashes_concat proper.ne_blank, through, leads.there,
    proper.step, proper.enter leads.there, isFile, bind, Except.bind, pure, Except.pure]

end Proper

/-! What a directory lists. -/

/-- The names in a directory with their entries. -/
def children (folder : Folder) (place : List String) : List (String × Entry) :=
  folder.entries.toList.filterMap fun (site, entry) =>
    site.getLast?.bind fun name => if site.dropLast = place then some (name, entry) else none

/-- The names in the directory that a path leads to. -/
def listing (folder : Folder) (path : String) : Except PathFault (List (String × Entry)) := do
  let place ← folder.follow (startOf path).1 (dropSlashes (startOf path).2)
  if folder.isDirectory place then return folder.children place else throw .notDirectory

theorem listing_eq_ok_iff {path : String} {found : List (String × Entry)} :
    folder.listing path = .ok found ↔
      ∃ place, folder.Leads path place ∧ folder.children place = found := by
  rw [listing]
  cases followed : folder.follow (startOf path).1 (dropSlashes (startOf path).2) with
  | error fault =>
    refine ⟨fun listed => (nomatch listed), fun ⟨place, leads, _⟩ => ?_⟩
    exact absurd (followed.symm.trans leads.follows) (by simp)
  | ok place =>
    cases there : folder.isDirectory place with
    | false =>
      simp only [bind, Except.bind, there, Bool.false_eq_true, if_false]
      refine ⟨fun listed => (nomatch listed), fun ⟨place', leads, _⟩ => ?_⟩
      obtain rfl : place = place' := Except.ok.inj (followed.symm.trans leads.follows)
      exact absurd leads.there (by simp [there])
    | true =>
      simp only [bind, Except.bind, there, if_true]
      constructor
      · intro listed
        exact ⟨place, ⟨followed, there⟩, Except.ok.inj listed⟩
      · rintro ⟨place', leads, rfl⟩
        obtain rfl : place = place' := Except.ok.inj (followed.symm.trans leads.follows)
        rfl

theorem listed_site {name : String} {found : Entry}
    (listed : (site.getLast?.bind fun name =>
      if site.dropLast = place then some (name, found) else none) = some (name, entry)) :
    site = place ++ [name] ∧ found = entry := by
  obtain ⟨last, ends, kept⟩ := Option.bind_eq_some_iff.mp listed
  split at kept
  case isTrue front =>
    obtain ⟨rfl, rfl⟩ : last = name ∧ found = entry := by simpa using kept
    rw [← front, List.dropLast_append_getLast? last ends]
    exact ⟨rfl, rfl⟩
  case isFalse => cases kept

theorem mem_children {name : String} :
    (name, entry) ∈ folder.children place ↔ folder.entries[place ++ [name]]? = some entry := by
  simp only [children, List.mem_filterMap, Prod.exists, Std.TreeMap.mem_toList_iff_getElem?_eq_some]
  constructor
  · rintro ⟨site, found, there, listed⟩
    obtain ⟨rfl, rfl⟩ := listed_site listed
    exact there
  · intro there
    exact ⟨place ++ [name], entry, there, by simp⟩

theorem nodup_children : ((folder.children place).map Prod.fst).Nodup := by
  rw [List.Nodup, List.pairwise_map, children, List.pairwise_filterMap]
  refine Std.TreeMap.distinct_keys_toList.imp ?_
  rintro ⟨site, found⟩ ⟨site', found'⟩ apart ⟨name, entry⟩ listed ⟨name', entry'⟩ listed' same
  obtain ⟨rfl, -⟩ := listed_site listed
  obtain ⟨rfl, -⟩ := listed_site listed'
  obtain rfl : name = name' := same
  exact apart Std.ReflCmp.compare_self

end Folder

end FrameRelay
