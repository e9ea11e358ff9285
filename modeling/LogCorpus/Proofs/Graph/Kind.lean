/-
Entries by edge kind.

There is at most one entry for each kind, and the entries stand in the order of the
kinds.  So such a list is settled by its members: it does not matter whether it was made
by going through the kinds, by keeping a sorted map or by reading it.
-/
import LogCorpus.Graph.Kind
import LogCorpus.Proofs.Lists

namespace LogCorpus

namespace EdgeKind

theorem mem_all (kind : EdgeKind) : kind ∈ all :=
  List.mem_of_getElem? (all_getElem?_ordinal kind)

theorem ordinal_inj {kind other : EdgeKind} (hsame : kind.ordinal = other.ordinal) :
    kind = other :=
  eq_of_place_eq all_getElem?_ordinal hsame

instance : Std.TransOrd EdgeKind :=
  inferInstanceAs (Std.TransCmp (compareOn ordinal))

instance : Std.LawfulEqOrd EdgeKind where
  eq_of_compare hsame := ordinal_inj (Std.LawfulEqOrd.eq_of_compare hsame)

theorem pairwise_all : all.Pairwise fun kind other => kind.ordinal < other.ordinal := by
  decide

end EdgeKind

/-- At most one entry for each kind, in the order of the kinds. -/
def ByKind {α : Type} (entries : List (EdgeKind × α)) : Prop :=
  entries.Pairwise fun first second => first.1.ordinal < second.1.ordinal

instance {α : Type} (entries : List (EdgeKind × α)) : Decidable (ByKind entries) :=
  inferInstanceAs (Decidable (entries.Pairwise _))

namespace ByKind

variable {α : Type} {entries others : List (EdgeKind × α)}

theorem nodup_kinds (hentries : ByKind entries) : (entries.map Prod.fst).Nodup :=
  List.pairwise_map.mpr (hentries.imp fun hlt hsame =>
    Nat.ne_of_lt hlt (congrArg EdgeKind.ordinal hsame))

theorem lookup_eq_some_iff (hentries : ByKind entries) {kind : EdgeKind} {value : α} :
    entries.lookup kind = some value ↔ (kind, value) ∈ entries :=
  lookup_eq_some_iff_mem hentries.nodup_kinds

/-- The last entry of a kind is its first. -/
theorem lookup_reverse (hentries : ByKind entries) (kind : EdgeKind) :
    entries.reverse.lookup kind = entries.lookup kind := by
  have hreverse : (entries.reverse.map Prod.fst).Nodup := by
    rw [List.map_reverse, List.nodup_reverse]
    exact hentries.nodup_kinds
  apply Option.ext
  intro value
  rw [lookup_eq_some_iff_mem hreverse, hentries.lookup_eq_some_iff, List.mem_reverse]

/-- Entries by kind are the same if they have the same members. -/
theorem eq_of_mem_iff (hentries : ByKind entries) (hothers : ByKind others)
    (hmem : ∀ kind value, (kind, value) ∈ entries ↔ (kind, value) ∈ others) :
    entries = others := by
  apply eq_of_ascending (fun entry : EdgeKind × α => entry.1.ordinal) hentries hothers
  exact fun entry => hmem entry.1 entry.2

/-- Entries that are made by going through the kinds. -/
theorem filterMap_all (value? : EdgeKind → Option α) :
    ByKind (EdgeKind.all.filterMap fun kind =>
      (value? kind).map fun value => (kind, value)) := by
  apply EdgeKind.pairwise_all.filterMap
  intro kind other hlt first hfirst second hsecond
  obtain ⟨_, _, rfl⟩ := Option.map_eq_some_iff.mp hfirst
  obtain ⟨_, _, rfl⟩ := Option.map_eq_some_iff.mp hsecond
  exact hlt

theorem mem_filterMap_all {value? : EdgeKind → Option α} {kind : EdgeKind} {value : α} :
    ((kind, value) ∈ EdgeKind.all.filterMap fun kind =>
        (value? kind).map fun value => (kind, value)) ↔
      value? kind = some value := by
  rw [List.mem_filterMap]
  constructor
  · rintro ⟨_, _, hfound⟩
    obtain ⟨_, hvalue, hsame⟩ := Option.map_eq_some_iff.mp hfound
    cases hsame
    exact hvalue
  · intro hvalue
    exact ⟨kind, kind.mem_all, Option.map_eq_some_iff.mpr ⟨value, hvalue, rfl⟩⟩

/-- Looking up every kind in turn gives the entries back. -/
theorem filterMap_lookup (hentries : ByKind entries) :
    (EdgeKind.all.filterMap fun kind =>
      (entries.lookup kind).map fun value => (kind, value)) = entries := by
  apply (filterMap_all _).eq_of_mem_iff hentries
  intro kind value
  rw [mem_filterMap_all, hentries.lookup_eq_some_iff]

end ByKind

end LogCorpus
