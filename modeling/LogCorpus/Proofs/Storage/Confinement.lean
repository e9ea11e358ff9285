/-
Places below a base.

A relative path that is joined to a base goes on where the base leads.  It leads to a
place below the base if its `..` parts never lead above where it started, and its last
part names an entry.
-/
import LogCorpus.Proofs.Storage.Growth

namespace LogCorpus

/-- Is the place below the base? -/
def Location.IsBelow (place base : Location) : Prop :=
  base <+: place ∧ place ≠ base

instance (place base : Location) : Decidable (Location.IsBelow place base) :=
  inferInstanceAs (Decidable (_ ∧ _))

/-- What is below one of two bases that lie apart is not below the other. -/
theorem Location.not_isBelow_of_apart {place base other : Location}
    (hleft : ¬ base <+: other) (hright : ¬ other <+: base)
    (hplace : Location.IsBelow place base) : ¬ Location.IsBelow place other := by
  intro hother
  rcases List.prefix_or_prefix_of_prefix hplace.1 hother.1 with hbelow | hbelow
  · exact hleft hbelow
  · exact hright hbelow

/-- Do parts never lead above the place at this depth below where they start? -/
def staysInside : Nat → List String → Bool
  | _, [] => true
  | depth, part :: rest =>
      if part = "" ∨ part = "." then staysInside depth rest
      else if part = ".." then 0 < depth && staysInside (depth - 1) rest
      else staysInside (depth + 1) rest

theorem staysInside_of_append {depth : Nat} {front back : List String}
    (hinside : staysInside depth (front ++ back)) : staysInside depth front := by
  induction front generalizing depth with
  | nil => rfl
  | cons part rest ih =>
      rw [List.cons_append, staysInside] at hinside
      rw [staysInside]
      split
      · next hidle =>
          rw [if_pos hidle] at hinside
          exact ih hinside
      · next hidle =>
          rw [if_neg hidle] at hinside
          split
          · next hup =>
              rw [if_pos hup, Bool.and_eq_true] at hinside
              rw [Bool.and_eq_true]
              exact ⟨hinside.1, ih hinside.2⟩
          · next hup =>
              rw [if_neg hup] at hinside
              exact ih hinside

/-! ### Joined paths -/

section

variable {base path : String} (hpath : isAbsolute path = false)
include hpath

/-- A relative path is added to the base. -/
theorem exists_joinPath_eq_append : ∃ ending, joinPath base path = base ++ ending := by
  rw [joinPath, if_neg (Bool.eq_false_iff.mp hpath)]
  split
  · exact ⟨path, rfl⟩
  · exact ⟨"/" ++ path, String.append_assoc⟩

/-- The parts of the base come first, but for an empty one behind a final slash. -/
theorem exists_pathParts_joinPath (hbase : ¬ base.isEmpty) :
    ∃ front, pathParts (joinPath base path) = front ++ pathParts path ∧
      (pathParts base = front ∨ pathParts base = front ++ [""]) := by
  rw [joinPath, if_neg (Bool.eq_false_iff.mp hpath)]
  by_cases hlast : base.toList.getLast? = some '/'
  · obtain ⟨front, hfront⟩ := List.getLast?_eq_some_iff.mp hlast
    refine ⟨(segments '/' front).map String.ofList, ?_, .inr ?_⟩
    · rw [if_pos (by simp [hlast]), pathParts, String.toList_append, hfront,
        List.append_assoc, List.singleton_append, segments_append_cons, List.map_append]
      rfl
    · rw [pathParts, hfront, segments_append_cons, List.map_append]
      rfl
  · refine ⟨pathParts base, ?_, .inl rfl⟩
    rw [if_neg (by simp [hbase, hlast]), String.append_assoc, pathParts,
      String.toList_append, String.toList_append]
    change (segments '/' (base.toList ++ '/' :: path.toList)).map String.ofList = _
    rw [segments_append_cons, List.map_append]
    rfl

end

namespace Disk

/-- The other disk has the same file at the place, or neither has a file there. -/
def SameFile (disk other : Disk) (place : Location) : Prop :=
  ∀ content, other.find? place = some (.file content) ↔
    disk.find? place = some (.file content)

/-- The location of a base, to which paths are joined.  The empty base is the working
directory. -/
def baseOf (disk : Disk) (base : String) : Except DiskFault Location :=
  if base.isEmpty then .ok disk.working else disk.goal base

/-- Parts that stay inside lead to places below where they start, or back to it. -/
theorem prefix_of_foldlM_follow {parts : List String} {base inner place : Location}
    (hfollow : parts.foldlM follow (base ++ inner) = .ok place)
    (hinside : staysInside inner.length parts) : base <+: place := by
  -- inner is what has been entered below the base, its length the depth
  induction parts generalizing inner with
  | nil =>
      injection hfollow with hplace
      exact ⟨inner, hplace⟩
  | cons part rest ih =>
      rw [List.foldlM_cons] at hfollow
      obtain ⟨next, hnext, hrest⟩ := exists_of_bind_eq_ok hfollow
      rw [follow] at hnext
      rw [staysInside] at hinside
      by_cases hidle : part = "" ∨ part = "."
      · rw [if_pos hidle] at hnext hinside
        injection hnext with hnext
        exact ih (hnext ▸ hrest) hinside
      rw [if_neg hidle] at hnext hinside
      by_cases hup : part = ".."
      · rw [if_pos hup] at hnext hinside
        injection hnext with hnext
        rw [Bool.and_eq_true, decide_eq_true_iff] at hinside
        have hne : inner ≠ [] := List.length_pos_iff.mp hinside.1
        rw [List.dropLast_append_of_ne_nil hne] at hnext
        exact ih (hnext ▸ hrest) (by rw [List.length_dropLast]; exact hinside.2)
      · rw [if_neg hup] at hnext hinside
        split at hnext
        · cases hnext
        · injection hnext with hnext
          rw [List.append_assoc] at hnext
          exact ih (hnext ▸ hrest)
            (by rw [List.length_append, List.length_singleton]; exact hinside)

/-- Parts that stay inside, and then a name, lead below where they start. -/
theorem isBelow_of_foldlM_follow {parts : List String} {name : String}
    {base place : Location} (hname : IsEntryName name)
    (hfollow : (parts ++ [name]).foldlM follow base = .ok place)
    (hinside : staysInside 0 parts) : place.IsBelow base := by
  obtain ⟨middle, hmiddle, hnext⟩ := foldlM_concat_eq_ok_iff.mp hfollow
  have hstart : parts.foldlM follow (base ++ []) = .ok middle := by
    rw [List.append_nil]
    exact hmiddle
  have hbase := prefix_of_foldlM_follow hstart hinside
  rw [follow_of_isEntryName hname hnext]
  refine ⟨hbase.trans (List.prefix_append _ _), fun hsame => ?_⟩
  have hlength := congrArg List.length hsame
  have hle := hbase.length_le
  rw [List.length_append, List.length_singleton] at hlength
  omega

theorem foldlM_follow_append_empty (parts : List String) (place : Location) :
    (parts ++ [""]).foldlM follow place = parts.foldlM follow place := by
  rw [List.foldlM_append]
  cases parts.foldlM follow place <;> rfl

/-- A path that can be followed starts where each of its beginnings starts. -/
theorem start_eq_ok_of_append {disk : Disk} {base ending : String}
    {found : Location × List String} (hbase : ¬ base.isEmpty)
    (hstart : disk.start (base ++ ending) = .ok found) :
    disk.start base = .ok (found.1, pathParts base) := by
  have habsolute : isAbsolute (base ++ ending) = isAbsolute base := by
    rw [isAbsolute, isAbsolute, String.toList_append]
    cases hchars : base.toList with
    | nil => exact absurd (by simpa using hchars) hbase
    | cons c others => rfl
  rw [start] at hstart ⊢
  split at hstart
  · cases hstart
  split at hstart
  · cases hstart
  · next hnul =>
      split at hstart
      · cases hstart
      · next hlong =>
          injection hstart with hfound
          rw [String.toList_append] at hnul
          rw [String.utf8ByteSize_append] at hlong
          rw [if_neg hbase,
            if_neg fun h => hnul (by rw [List.contains_append, h]; rfl),
            if_neg (by omega), ← hfound, habsolute]

/-- A relative path goes on from where the base leads. -/
theorem exists_baseOf_of_goal_joinPath {disk : Disk} {base path : String}
    {place : Location} (hpath : isAbsolute path = false)
    (hgoal : disk.goal (joinPath base path) = .ok place) :
    ∃ root, disk.baseOf base = .ok root ∧
      (pathParts path).foldlM follow root = .ok place := by
  obtain ⟨⟨first, parts⟩, hstart, hfollow⟩ := exists_of_bind_eq_ok hgoal
  change parts.foldlM follow first = .ok place at hfollow
  obtain ⟨hfirst, hparts⟩ := Prod.mk.inj (eq_of_start_eq_ok hstart)
  rw [baseOf]
  by_cases hbase : base.isEmpty
  · have hjoin : joinPath base path = path := by
      rw [joinPath, if_neg (Bool.eq_false_iff.mp hpath), String.isEmpty_iff.mp hbase]
      simp
    rw [hjoin, if_neg (Bool.eq_false_iff.mp hpath)] at hfirst
    rw [hparts, hjoin, hfirst] at hfollow
    exact ⟨disk.working, if_pos hbase, hfollow⟩
  · rw [if_neg hbase]
    obtain ⟨ending, hending⟩ : ∃ ending, joinPath base path = base ++ ending :=
      exists_joinPath_eq_append hpath
    obtain ⟨front, hjoined, hfront⟩ := exists_pathParts_joinPath hpath hbase
    rw [hending] at hstart
    rw [hparts, hjoined, List.foldlM_append] at hfollow
    obtain ⟨root, hroot, hrest⟩ := exists_of_bind_eq_ok hfollow
    refine ⟨root, ?_, hrest⟩
    rw [goal, start_eq_ok_of_append hbase hstart]
    change (pathParts base).foldlM follow first = _
    rcases hfront with hsame | hslash
    · rw [hsame, hroot]
    · rw [hslash, foldlM_follow_append_empty, hroot]

end Disk

end LogCorpus
