import FrameRelay.Proofs.Directories

/-! The directory that a file gets into is the one that the parent of its path leads to, however the
two paths are spelled, and a directory that was made is there. -/

namespace FrameRelay

section paths
open String

theorem not_mem_splitOn {separator : Char} (cs : List Char) :
    ∀ part ∈ cs.splitOn separator, separator ∉ part := by
  induction cs with
  | nil => simp [List.splitOn_nil]
  | cons c rest ih =>
    obtain ⟨first, later, parts⟩ := List.exists_cons_of_ne_nil (List.splitOn_ne_nil separator rest)
    rw [List.splitOn_cons_eq_if_modifyHead, parts]
    rw [parts, List.forall_mem_cons] at ih
    split
    case isTrue => simpa using ih
    case isFalse other =>
      have apart : separator ≠ c := by
        rintro rfl
        simp at other
      simpa [apart] using ih

theorem plain_segments (path : String) : ∀ part ∈ segments path, '/' ∉ part.toList := by
  rw [segments_eq, List.forall_mem_map]
  intro part listed
  rw [toList_ofList]
  exact not_mem_splitOn path.toList part listed

theorem segments_intercalate {parts : List String} (plain : ∀ part ∈ parts, '/' ∉ part.toList)
    (some_part : parts ≠ []) : segments (String.intercalate "/" parts) = parts := by
  have chars : (String.intercalate "/" parts).toList =
      ['/'].intercalate (parts.map String.toList) := toList_intercalate
  rw [segments_eq, chars,
    List.splitOn_intercalate '/' (by simpa using plain) (by simpa using some_part), List.map_map]
  simp [Function.comp_def]

theorem startOf_eq (path : String) : startOf path =
    match segments path with
    | "" :: second :: rest => (["/"], second :: rest)
    | parts => ([], parts) := by
  rw [startOf, segments_eq]
  cases chars : path.toList with
  | nil =>
    have upright : path.startsWith "/" = false := by
      rw [startsWith_string_eq_false_iff, chars]
      simp
    rw [upright, List.splitOn_nil]
    rfl
  | cons c rest =>
    obtain ⟨first, later, parts⟩ := List.exists_cons_of_ne_nil (List.splitOn_ne_nil '/' rest)
    rw [List.splitOn_cons_eq_if_modifyHead, parts]
    by_cases slash : c = '/'
    · subst slash
      have rooted : path.startsWith "/" = true := by
        rw [startsWith_string_iff, chars]
        exact ⟨rest, rfl⟩
      rw [rooted]
      rfl
    · have upright : path.startsWith "/" = false := by
        rw [startsWith_string_eq_false_iff, chars]
        simp [Ne.symm slash]
      have named : ofList (c :: first) ≠ "" := by simp
      rw [upright]
      simp [slash]

theorem trimSegments_cons (first : String) (rest : List String) : ∃ kept idle,
    rest = kept ++ idle ∧ trimSegments (first :: rest) = first :: kept ∧
      ∀ part ∈ idle, stays part = true := by
  refine ⟨(rest.reverse.dropWhile stays).reverse, (rest.reverse.takeWhile stays).reverse, ?_, rfl,
    fun part listed => ?_⟩
  · rw [← List.reverse_append, List.takeWhile_append_dropWhile, List.reverse_reverse]
  · exact List.mem_takeWhile_imp (List.mem_reverse.mp listed)

theorem parentPath_eq {path name : String} {front : List String}
    (parts : segments path = front ++ [name]) (named : stays name = false) :
    parentPath path = pathOfSegments (trimSegments front) := by
  have whole : trimSegments (front ++ [name]) = front ++ [name] := by
    cases front with
    | nil => rfl
    | cons first rest => simp [trimSegments, named]
  rw [parentPath, parts, whole, List.dropLast_concat]

theorem startOf_of_rooted {path : String} {rest : List String} (parts : segments path = "" :: rest)
    (deep : rest ≠ []) : startOf path = (["/"], rest) := by
  obtain ⟨second, later, rfl⟩ := List.exists_cons_of_ne_nil deep
  rw [startOf_eq, parts]
  rfl

theorem startOf_of_relative {path first : String} {rest : List String}
    (parts : segments path = first :: rest) (named : first ≠ "") :
    startOf path = ([], first :: rest) := by
  simp [startOf_eq, parts, named]

theorem segments_pathOfSegments {parts : List String} (plain : ∀ part ∈ parts, '/' ∉ part.toList)
    (some_part : parts ≠ []) (deep : parts ≠ [""]) : segments (pathOfSegments parts) = parts := by
  unfold pathOfSegments
  split
  · exact absurd rfl deep
  · exact segments_intercalate plain some_part

/-- A path to a file and the path of its parent start alike. What stands before the name leads where
the parent's parts lead, for behind these it only has parts that stay where they are. -/
theorem startOf_parentPath {path name : String} {front : List String}
    (parts : segments path = front ++ [name]) (named : stays name = false) :
    ∃ start kept idle, startOf path = (start, kept ++ idle ++ [name]) ∧
      (∀ part ∈ idle, stays part = true) ∧ (startOf (parentPath path)).1 = start ∧
      dropSlashes (startOf (parentPath path)).2 = dropSlashes kept := by
  have plain := plain_segments path
  have parent := parentPath_eq parts named
  rw [parts] at plain
  have empty : startOf "" = ([], [""]) := startOf_name (by decide)
  cases front with
  | nil =>
    have bare : name ≠ "" := by
      rintro rfl
      cases named
    refine ⟨[], [], [], startOf_of_relative parts bare, by simp, ?_⟩
    rw [parent]
    exact ⟨congrArg Prod.fst empty, congrArg (dropSlashes ·.2) empty⟩
  | cons first rest =>
    obtain ⟨kept, idle, rfl, trimmed, stay⟩ := trimSegments_cons first rest
    rw [trimmed] at parent
    have plain_kept : ∀ part ∈ first :: kept, '/' ∉ part.toList :=
      fun part listed => plain part (by simp at listed ⊢; tauto)
    by_cases rooted : first = ""
    · subst rooted
      refine ⟨["/"], kept, idle, startOf_of_rooted parts (by simp), stay, ?_⟩
      rw [parent]
      by_cases shallow : kept = []
      · subst shallow
        have root : startOf "/" = (["/"], [""]) := by
          rw [startOf_eq, segments_eq]
          rfl
        exact ⟨congrArg Prod.fst root, congrArg (dropSlashes ·.2) root⟩
      · have back := segments_pathOfSegments plain_kept (by simp) (by simp [shallow])
        rw [startOf_of_rooted back shallow]
        exact ⟨rfl, rfl⟩
    · refine ⟨[], first :: kept, idle, startOf_of_relative parts rooted, stay, ?_⟩
      have back := segments_pathOfSegments plain_kept (by simp) (by simp [rooted])
      rw [parent, startOf_of_relative back rooted]
      exact ⟨rfl, rfl⟩

end paths

namespace Folder
variable {folder ready : Folder} {place last site : List String} {parts : List String}
  {directory name path : String}

/-- A directory that the parent of a file's path leads to is the one that the file gets into. -/
theorem leads_of_parentPath (proper : Proper name)
    (leads : folder.Leads (parentPath (joinPath directory name)) place) :
    folder.Leads directory place := by
  obtain ⟨start, front, same, whole⟩ := startOf_joinPath directory proper.plain
  obtain ⟨before, segmented⟩ : ∃ before, segments (joinPath directory name) = before ++ [name] := by
    have starts := startOf_eq (joinPath directory name)
    rw [whole] at starts
    split at starts
    next second rest found =>
      refine ⟨"" :: front, ?_⟩
      rw [found, ← (Prod.mk.inj starts).2]
      rfl
    next => exact ⟨front, (Prod.mk.inj starts).2.symm⟩
  obtain ⟨start', kept, idle, whole', stay, parent⟩ := startOf_parentPath segmented proper.stays
  obtain ⟨rfl, joined⟩ := Prod.mk.inj (whole.symm.trans whole')
  obtain rfl : front = kept ++ idle := List.append_cancel_right joined
  have followed := And.intro leads.follows leads.there
  rw [parent.1, parent.2, follow_dropSlashes, ← follow_append_idle stay, ← follow_dropSlashes]
    at followed
  rcases same with same | same
  · exact ⟨by rw [same]; exact followed.1, followed.2⟩
  · exact ⟨by rw [same, dropSlashes_concat_blank]; exact followed.1, followed.2⟩

/-! Making directories. -/

/-- Every entry is still there. -/
def Extends (folder ready : Folder) : Prop :=
  ∀ place entry, folder.entryAt? place = some entry → ready.entryAt? place = some entry

theorem extends_put (missing : folder.entryAt? site = none) (entry : Entry) :
    folder.Extends (folder.put site entry) := by
  intro place found there
  have other : site ≠ place := by
    rintro rfl
    cases missing.symm.trans there
  rwa [entryAt?_put other]

theorem Extends.enter {part : String} (grown : folder.Extends ready)
    (entered : folder.enter place part = .ok last) : ready.enter place part = .ok last := by
  unfold Folder.enter at entered
  split at entered
  case isTrue => cases entered
  case isFalse there =>
    rw [Bool.not_eq_true, Bool.not_eq_false', Folder.isDirectory, beq_iff_eq] at there
    have there' : ready.isDirectory place = true := by
      rw [Folder.isDirectory, beq_iff_eq]
      exact grown place _ there
    rw [Folder.enter, there']
    exact entered

theorem makeWay_ok (made : folder.makeWay place parts = (.ok last, ready)) :
    folder.Extends ready ∧ ready.follow place parts = .ok last := by
  induction parts generalizing folder place with
  | nil =>
    cases made
    exact ⟨fun _ _ there => there, rfl⟩
  | cons part back ih =>
    rw [makeWay] at made
    cases entered : folder.enter place part with
    | error fault =>
      rw [entered] at made
      cases made
    | ok next =>
      simp only [entered] at made
      split at made
      case isTrue missing =>
        obtain ⟨grown, followed⟩ := ih made
        have whole : folder.Extends ready := fun place entry there =>
          grown place entry (extends_put (by simpa using missing) .directory place entry there)
        have there : (folder.put next .directory).entryAt? next = some .directory := by
          rw [entryAt?, entries_put, if_pos rfl, ite_self]
        refine ⟨whole, follow_cons_ok.mpr ⟨next, whole.enter entered, ?_, followed⟩⟩
        rw [grown next _ there]
        rfl
      case isFalse present =>
        obtain ⟨grown, followed⟩ := ih made
        obtain ⟨entry, there⟩ := Option.ne_none_iff_exists'.mp (by simpa using present)
        refine ⟨grown, follow_cons_ok.mpr ⟨next, grown.enter entered, ?_, followed⟩⟩
        rw [grown next entry there]
        rfl

theorem reach_ok (reached : folder.reach place parts = .ok ()) :
    ∃ last, folder.follow place parts = .ok last ∧ folder.isDirectory last = true := by
  obtain ⟨last, followed, passed⟩ := ok_of_bind reached
  refine ⟨last, followed, ?_⟩
  split at passed
  · cases passed
  next there => simpa using there

theorem leads_of_makeDirectory (made : folder.makeDirectory path = (.ok (), ready)) :
    ∃ place, ready.Leads path place := by
  by_cases none : path = ""
  · subst none
    have empty : startOf "" = ([], [""]) := startOf_name (by decide)
    refine ⟨[], ?_, rfl⟩
    rw [empty]
    rfl
  · have checked := (checkPath_of_makeDirectory made).resolve_left none
    have bare : path.isEmpty = false := by simpa using none
    simp only [makeDirectory, bare, checked, Bool.false_eq_true, if_false] at made
    generalize way : folder.makeWay (startOf path).1 (splitMade (startOf path).2).1 = answer at made
    obtain ⟨fault | place, folder'⟩ := answer
    · cases made
    · obtain ⟨reached, rfl⟩ := Prod.mk.inj made
      obtain ⟨-, first⟩ := makeWay_ok way
      obtain ⟨last, second, there⟩ := reach_ok reached
      refine ⟨last, ?_, there⟩
      rw [← splitMade_append, follow_append_ok]
      exact ⟨place, first, second⟩

end Folder

end FrameRelay
