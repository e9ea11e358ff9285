/-
Batches do not depend on the order of arrivals.

Every worker sends the outcome of its item once, so every slot is filled once and
holds the outcome of its item, whenever it came.
-/
import LogCorpus.Conversion.Batch
import Mathlib.Data.List.Nodup
import Mathlib.Data.List.Perm.Basic

namespace LogCorpus

/-- Put an outcome into the slot of its item. -/
def storeArrival (slots : Array (Option ConversionOutcome)) (arrival : Arrival) :
    Array (Option ConversionOutcome) :=
  slots.setIfInBounds arrival.1 (some arrival.2)

theorem fillSlots_eq_foldl (count : Nat) (arrivals : List Arrival) :
    fillSlots count arrivals =
      arrivals.foldl storeArrival (Array.replicate count none) := rfl

theorem size_foldl_storeArrival (arrivals : List Arrival)
    (slots : Array (Option ConversionOutcome)) :
    (arrivals.foldl storeArrival slots).size = slots.size := by
  induction arrivals generalizing slots with
  | nil => rfl
  | cons head tail ih =>
      rw [List.foldl_cons, ih, storeArrival, Array.size_setIfInBounds]

/-- A slot whose outcome does not arrive stays as it is. -/
theorem getElem?_foldl_storeArrival_of_not_mem {arrivals : List Arrival}
    {place : Nat} (hplace : place ∉ arrivals.map Prod.fst)
    (slots : Array (Option ConversionOutcome)) :
    (arrivals.foldl storeArrival slots)[place]? = slots[place]? := by
  induction arrivals generalizing slots with
  | nil => rfl
  | cons head tail ih =>
      rw [List.map_cons, List.mem_cons, not_or] at hplace
      rw [List.foldl_cons, ih hplace.2, storeArrival,
        Array.getElem?_setIfInBounds_ne (Ne.symm hplace.1)]

/-- A slot holds the outcome that arrives for it. -/
theorem getElem?_foldl_storeArrival_of_mem {arrivals : List Arrival}
    (hplaces : (arrivals.map Prod.fst).Nodup) {arrival : Arrival}
    (harrival : arrival ∈ arrivals) {slots : Array (Option ConversionOutcome)}
    (hslot : arrival.1 < slots.size) :
    (arrivals.foldl storeArrival slots)[arrival.1]? = some (some arrival.2) := by
  induction arrivals generalizing slots with
  | nil => exact absurd harrival List.not_mem_nil
  | cons head tail ih =>
      rw [List.map_cons, List.nodup_cons] at hplaces
      rw [List.foldl_cons]
      rcases List.mem_cons.mp harrival with rfl | htail
      · rw [getElem?_foldl_storeArrival_of_not_mem hplaces.1, storeArrival,
          Array.getElem?_setIfInBounds_self_of_lt hslot]
      · apply ih hplaces.2 htail
        rwa [storeArrival, Array.size_setIfInBounds]

/-- The outcomes that the workers send, in the order of the items. -/
def sentInOrder (convert : Occurrence → ConversionOutcome)
    (occurrences : List Occurrence) : List Arrival :=
  occurrences.zipIdx.map fun (occurrence, place) => (place, convert occurrence)

theorem places_sentInOrder (convert : Occurrence → ConversionOutcome)
    (occurrences : List Occurrence) :
    (sentInOrder convert occurrences).map Prod.fst =
      List.range occurrences.length := by
  rw [sentInOrder, List.map_map]
  change occurrences.zipIdx.map Prod.snd = _
  rw [List.zipIdx_map_snd, List.range_eq_range']

/-- In whatever order the outcomes arrive, each is in the slot of its item. -/
theorem fillSlots_of_perm {convert : Occurrence → ConversionOutcome}
    {occurrences : List Occurrence} {arrivals : List Arrival}
    (harrivals : arrivals.Perm (sentInOrder convert occurrences)) :
    (fillSlots occurrences.length arrivals).toList =
      occurrences.map fun occurrence => some (convert occurrence) := by
  have hplaces : (arrivals.map Prod.fst).Nodup := by
    rw [(harrivals.map Prod.fst).nodup_iff, places_sentInOrder]
    exact List.nodup_range
  have hsize : (fillSlots occurrences.length arrivals).size = occurrences.length := by
    rw [fillSlots_eq_foldl, size_foldl_storeArrival, Array.size_replicate]
  apply List.ext_getElem?
  intro place
  rw [Array.getElem?_toList, List.getElem?_map]
  by_cases hplace : place < occurrences.length
  · have hsent : (place, convert occurrences[place]) ∈ arrivals := by
      rw [harrivals.mem_iff, sentInOrder, List.mem_map]
      refine ⟨(occurrences[place], place), ?_, rfl⟩
      rw [List.mem_zipIdx_iff_getElem?]
      exact List.getElem?_eq_getElem hplace
    rw [List.getElem?_eq_getElem hplace]
    exact getElem?_foldl_storeArrival_of_mem hplaces hsent
      (by rwa [Array.size_replicate])
  · rw [List.getElem?_eq_none (by omega), Array.getElem?_eq_none (by omega)]
    rfl

/-- In whatever order the outcomes arrive, the batch has the examples of the items
that succeed and the report of all, in the order of the items. -/
theorem Batch.ofArrivals_of_perm {convert : Occurrence → ConversionOutcome}
    {occurrences : List Occurrence} {arrivals : List Arrival}
    (harrivals : arrivals.Perm (sentInOrder convert occurrences)) :
    ofArrivals occurrences arrivals =
      { examples := occurrences.filterMap fun occurrence =>
          (convert occurrence).toOption
        report := .ofOutcomes (occurrences.zip (occurrences.map convert))
        progress := (List.range occurrences.length).map fun done =>
          (done + 1, occurrences.length) } := by
  have houtcomes : (fillSlots occurrences.length arrivals).toList.map slotOutcome =
      occurrences.map convert := by
    rw [fillSlots_of_perm harrivals, List.map_map]
    rfl
  have hlength : arrivals.length = occurrences.length := by
    rw [harrivals.length_eq, sentInOrder, List.length_map, List.length_zipIdx]
  rw [ofArrivals, hlength, houtcomes, successes, List.filterMap_map]
  rfl

theorem Converter.examples_convertAll (converter : Converter) (disk : Disk)
    (occurrences : List Occurrence) :
    (converter.convertAll disk occurrences).examples =
      occurrences.filterMap fun occurrence =>
        (converter.convert disk occurrence).toOption :=
  congrArg Batch.examples (Batch.ofArrivals_of_perm (List.Perm.refl _))

theorem Converter.report_convertAll (converter : Converter) (disk : Disk)
    (occurrences : List Occurrence) :
    (converter.convertAll disk occurrences).report =
      .ofOutcomes (occurrences.zip (occurrences.map (converter.convert disk))) :=
  congrArg Batch.report (Batch.ofArrivals_of_perm (List.Perm.refl _))

end LogCorpus
