/-
What reports add up to.

The failures of a batch keep the places of their items, in ascending order.  Merging
adds the counts and puts the failures one after the other, and the reasons count every
failure once.
-/
import LogCorpus.Proofs.Lists
import LogCorpus.Report
import Mathlib.Data.List.Basic

namespace LogCorpus

namespace Report

/-! ### Merged reports -/

/-- Reports that are merged one after the other. -/
theorem foldl_merge_eq (first : Report) (reports : List Report) :
    reports.foldl merge first =
      { total := first.total + (reports.map total).sum
        succeeded := first.succeeded + (reports.map succeeded).sum
        failures := first.failures ++ reports.flatMap failures } := by
  induction reports generalizing first with
  | nil => simp
  | cons head tail ih =>
      rw [List.foldl_cons, ih]
      simp [merge, Nat.add_assoc]

/-! ### Reasons -/

/-- How often a reason occurs among failures, if it does. -/
def reasonCount? (failures : List ItemFailure) (reason : String) : Option Nat :=
  let count := failures.countP fun failure => failure.fault.reason = reason
  if count = 0 then none else some count

/-- What has been counted after some failures. -/
def Tallies (failures : List ItemFailure) (counts : Std.TreeMap String Nat) : Prop :=
  ∀ reason, counts[reason]? = reasonCount? failures reason

theorem tallies_nil : Tallies [] ∅ := by
  intro reason
  simp [reasonCount?]

/-- Count a failure. -/
def tally (counts : Std.TreeMap String Nat) (failure : ItemFailure) :
    Std.TreeMap String Nat :=
  counts.alter failure.fault.reason fun count => some (count.getD 0 + 1)

theorem Tallies.step {failures : List ItemFailure} {counts : Std.TreeMap String Nat}
    (hcounts : Tallies failures counts) (failure : ItemFailure) :
    Tallies (failures ++ [failure]) (tally counts failure) := by
  intro reason
  rw [tally, Std.TreeMap.getElem?_alter, reasonCount?, List.countP_append]
  by_cases hreason : failure.fault.reason = reason
  · subst hreason
    rw [if_pos Std.ReflOrd.compare_self, hcounts failure.fault.reason, reasonCount?]
    split <;> simp_all
  · have hother : compare failure.fault.reason reason ≠ .eq :=
      fun hsame => hreason (Std.LawfulEqOrd.eq_of_compare hsame)
    rw [if_neg hother, hcounts reason, reasonCount?]
    simp [hreason]

theorem tallies_foldl (failures : List ItemFailure) :
    Tallies failures (failures.foldl tally ∅) :=
  foldl_of_step Tallies.step tallies_nil failures

/-- A reason is listed with the number of its failures. -/
theorem mem_reasons_iff {report : Report} {reason : String} {count : Nat} :
    (reason, count) ∈ report.reasons ↔
      reasonCount? report.failures reason = some count := by
  rw [← tallies_foldl report.failures reason]
  exact Std.TreeMap.mem_toList_iff_getElem?_eq_some

/-- No reason is listed twice. -/
theorem nodup_reasons (report : Report) : (report.reasons.map Prod.fst).Nodup := by
  apply List.pairwise_map.mpr
  apply Std.TreeMap.ordered_keys_toList.imp
  intro first second hlt hsame
  rw [hsame, Std.ReflOrd.compare_self] at hlt
  cases hlt

/-- The reasons count every failure once. -/
theorem sum_reasons (report : Report) :
    (report.reasons.map Prod.snd).sum = report.failures.length := by
  have hcounts : report.reasons.map Prod.snd =
      (report.reasons.map Prod.fst).map fun reason =>
        report.failures.countP fun failure => failure.fault.reason = reason := by
    rw [List.map_map]
    apply List.map_congr_left
    rintro ⟨reason, count⟩ hmem
    have hcount := mem_reasons_iff.mp hmem
    rw [reasonCount?] at hcount
    split at hcount
    · cases hcount
    · exact (Option.some.inj hcount).symm
  rw [hcounts]
  apply sum_countP_eq_length report.nodup_reasons
  intro failure hfailure
  have hpos : (report.failures.countP fun other =>
      other.fault.reason = failure.fault.reason) ≠ 0 := by
    rw [ne_eq, List.countP_eq_zero]
    exact fun hnone => hnone failure hfailure (by simp)
  exact List.mem_map.mpr ⟨_, mem_reasons_iff.mpr (if_neg hpos), rfl⟩

end Report

end LogCorpus
