/-
Deliveries end in the batch that is converted in order.

Of every item the outcome waits, lies in the queue or is in its slot, and the
caller was told once for each that is in its slot.  Every step keeps this, so a
delivery that is over has filled the slots as if the items had been converted one
after the other, whatever the order of the steps.
-/
import LogCorpus.Conversion.Delivery
import LogCorpus.Proofs.Conversion.Batch

namespace LogCorpus

/-- The failure of an item, if it fails. -/
def itemFailure? (convert : Occurrence → ConversionOutcome)
    (item : Occurrence × Nat) : Option ItemFailure :=
  match convert item.1 with
  | .error fault => some ⟨item.2, item.1.graphPath, fault⟩
  | .ok _ => none

theorem failuresFrom_zip_map (convert : Occurrence → ConversionOutcome)
    (occurrences : List Occurrence) (place : Nat) :
    Report.failuresFrom place (occurrences.zip (occurrences.map convert)) =
      (occurrences.zipIdx place).filterMap (itemFailure? convert) := by
  induction occurrences generalizing place with
  | nil => rfl
  | cons head tail ih =>
      rw [List.map_cons, List.zip_cons_cons, List.zipIdx_cons, List.filterMap_cons,
        itemFailure?]
      cases hhead : convert head with
      | error fault => simp only [Report.failuresFrom, ih]
      | ok training => simp only [Report.failuresFrom, ih]

theorem fillSlots_concat (count : Nat) (arrivals : List Arrival) (arrival : Arrival) :
    fillSlots count (arrivals ++ [arrival]) =
      (fillSlots count arrivals).setIfInBounds arrival.1 (some arrival.2) := by
  rw [fillSlots, List.foldl_concat]
  rfl

namespace Delivery

variable {convert : Occurrence → ConversionOutcome} {total : Nat}

/-- What holds of a delivery when these outcomes were taken: they are in their
slots and the caller was told of each, and with those in the queue and those that
are waited for they are the outcomes of all items. -/
structure Accounts (convert : Occurrence → ConversionOutcome)
    (occurrences : List Occurrence) (arrivals : List Arrival)
    (delivery : Delivery) : Prop where
  slots_eq : delivery.slots = fillSlots occurrences.length arrivals
  completed_eq : delivery.completed = arrivals.length
  progress_eq : delivery.progress = (List.range arrivals.length).map fun done =>
    (done + 1, occurrences.length)
  perm : (arrivals ++ (delivery.queue ++ delivery.waiting.map (message convert))).Perm
    (sentInOrder convert occurrences)

theorem accounts_start (convert : Occurrence → ConversionOutcome)
    (occurrences : List Occurrence) :
    Accounts convert occurrences [] (start occurrences) where
  slots_eq := rfl
  completed_eq := rfl
  progress_eq := rfl
  perm := List.Perm.refl _

/-- No step loses an outcome, takes one twice or forgets to tell the caller. -/
theorem Accounts.step {occurrences : List Occurrence} {arrivals taken : List Arrival}
    {delivery next : Delivery} (haccounts : Accounts convert occurrences arrivals delivery)
    (hstep : Step convert occurrences.length delivery taken next) :
    Accounts convert occurrences (arrivals ++ taken) next := by
  cases hstep with
  | @send item hwaits =>
      rw [List.append_nil]
      refine ⟨haccounts.slots_eq, haccounts.completed_eq, haccounts.progress_eq, ?_⟩
      have hwaiting := (List.perm_cons_erase hwaits).map (message convert)
      rw [List.map_cons] at hwaiting
      refine List.Perm.trans (List.Perm.append_left arrivals ?_) haccounts.perm
      rw [send, List.append_assoc, List.singleton_append]
      exact List.Perm.append_left delivery.queue hwaiting.symm
  | @take arrival rest hqueue =>
      constructor
      · rw [take, fillSlots_concat, haccounts.slots_eq]
      · rw [take, haccounts.completed_eq, List.length_append, List.length_singleton]
      · rw [take, haccounts.progress_eq, haccounts.completed_eq, List.length_append,
          List.length_singleton, List.range_succ, List.map_append]
        rfl
      · have hperm := haccounts.perm
        rw [hqueue] at hperm
        rw [take, hqueue, List.tail_cons, List.append_assoc, List.singleton_append]
        exact hperm

/-- What every delivery of a batch has taken is accounted for. -/
theorem Run.accounts {occurrences : List Occurrence} {arrivals : List Arrival}
    {delivery : Delivery}
    (hrun : Run convert occurrences.length (start occurrences) arrivals delivery) :
    Accounts convert occurrences arrivals delivery := by
  induction hrun with
  | nil => exact accounts_start convert occurrences
  | step _ hstep ih => exact ih.step hstep

theorem Accounts.perm_of_isOver {occurrences : List Occurrence}
    {arrivals : List Arrival} {delivery : Delivery}
    (haccounts : Accounts convert occurrences arrivals delivery)
    (hover : delivery.IsOver) : arrivals.Perm (sentInOrder convert occurrences) := by
  have hperm := haccounts.perm
  rw [hover.1, hover.2, List.map_nil, List.append_nil, List.append_nil] at hperm
  exact hperm

theorem Accounts.batch_eq {occurrences : List Occurrence} {arrivals : List Arrival}
    {delivery : Delivery} (haccounts : Accounts convert occurrences arrivals delivery) :
    delivery.batch occurrences = .ofArrivals occurrences arrivals := by
  rw [batch, haccounts.slots_eq, haccounts.progress_eq]
  rfl

/-- The outcomes that are not taken yet; one that is not sent counts twice. -/
def pending (delivery : Delivery) : Nat :=
  2 * delivery.waiting.length + delivery.queue.length

theorem Step.pending_lt {delivery next : Delivery} {taken : List Arrival}
    (hstep : Step convert total delivery taken next) :
    next.pending < delivery.pending := by
  cases hstep with
  | @send item hwaits =>
      have hlength := List.length_erase_of_mem hwaits
      have hpos := List.length_pos_of_mem hwaits
      simp only [pending, Delivery.send, hlength, List.length_append, List.length_singleton]
      omega
  | @take arrival rest hqueue =>
      simp only [pending, Delivery.take, hqueue, List.tail_cons, List.length_cons]
      omega

/-- No delivery takes steps forever. -/
theorem step_wellFounded (convert : Occurrence → ConversionOutcome) (total : Nat) :
    WellFounded fun next delivery : Delivery =>
      ∃ taken, Step convert total delivery taken next :=
  Subrelation.wf (fun ⟨_, hstep⟩ => hstep.pending_lt) (measure pending).wf

/-- A delivery that is not over can go on. -/
theorem exists_step_of_not_isOver (convert : Occurrence → ConversionOutcome)
    (total : Nat) {delivery : Delivery} (hover : ¬ delivery.IsOver) :
    ∃ taken next, Step convert total delivery taken next := by
  cases hwaiting : delivery.waiting with
  | cons item rest =>
      exact ⟨_, _, .send (hwaiting ▸ List.mem_cons_self)⟩
  | nil =>
      cases hqueue : delivery.queue with
      | cons arrival rest => exact ⟨_, _, .take hqueue⟩
      | nil => exact absurd ⟨hwaiting, hqueue⟩ hover

theorem Run.trans {first middle last : Delivery} {arrivals more : List Arrival}
    (hrun : Run convert total first arrivals middle)
    (hmore : Run convert total middle more last) :
    Run convert total first (arrivals ++ more) last := by
  induction hmore with
  | nil => rwa [List.append_nil]
  | step _ hstep ih =>
      rw [← List.append_assoc]
      exact ih.step hstep

/-- Where nothing is in the queue, the items that wait can be delivered in any
order. -/
theorem exists_run_of_perm_waiting {items : List (Occurrence × Nat)}
    {delivery : Delivery} (hqueue : delivery.queue = [])
    (hitems : items.Perm delivery.waiting) :
    ∃ last, Run convert total delivery (items.map (message convert)) last ∧
      last.IsOver := by
  induction items generalizing delivery with
  | nil => exact ⟨delivery, .nil, hitems.nil_eq.symm, hqueue⟩
  | cons item rest ih =>
      -- the worker of the item sends, and the coordinator takes what it has sent
      let sent := delivery.send convert item
      have hsent : sent.queue = [message convert item] := by
        simp only [sent, send, hqueue, List.nil_append]
      have hwaits : item ∈ delivery.waiting := hitems.subset List.mem_cons_self
      have hrest : rest.Perm sent.waiting := by
        have herase := hitems.erase item
        rwa [List.erase_cons_head] at herase
      let taken := sent.take total (message convert item)
      have htaken : taken.queue = [] := by
        simp only [taken, take, hsent, List.tail_cons]
      obtain ⟨last, hrun, hover⟩ := ih htaken hrest
      have hfirst : Run convert total delivery [message convert item] taken :=
        (Run.nil.step (.send hwaits)).step (.take hsent)
      exact ⟨last, hfirst.trans hrun, hover⟩

/-- Every order of the outcomes is that of some delivery. -/
theorem exists_run_of_perm {occurrences : List Occurrence} {arrivals : List Arrival}
    (harrivals : arrivals.Perm (sentInOrder convert occurrences)) :
    ∃ last, Run convert total (start occurrences) arrivals last ∧ last.IsOver := by
  obtain ⟨items, rfl, hitems⟩ := (congrFun₂ (List.eq_map_comp_perm (message convert))
    arrivals occurrences.zipIdx).mpr harrivals
  exact exists_run_of_perm_waiting rfl hitems

/-- Whatever the order in which the outcomes are taken, a delivery that is over has
the batch of the items converted one after the other.  No slot is empty, and the
caller was told of each item once.  Every order occurs, and every delivery comes to
an end. -/
theorem batch_of_every_order (converter : Converter) (disk : Disk)
    {occurrences : List Occurrence} {arrivals : List Arrival} {last : Delivery}
    (hrun : Run (converter.convert disk) occurrences.length (start occurrences)
      arrivals last) (hover : last.IsOver) :
    let convert := converter.convert disk
    let batch := last.batch occurrences
    batch = converter.convertAll disk occurrences ∧
      batch.examples = occurrences.filterMap (fun occurrence =>
        (convert occurrence).toOption) ∧
      batch.report.failures = occurrences.zipIdx.filterMap (itemFailure? convert) ∧
      batch.report.total = occurrences.length ∧
      batch.report.succeeded + batch.report.failures.length = batch.report.total ∧
      last.slots.toList = occurrences.map (fun occurrence =>
        some (convert occurrence)) ∧
      batch.progress = (List.range occurrences.length).map (fun done =>
        (done + 1, occurrences.length)) ∧
      (∀ order : List Arrival, order.Perm (sentInOrder convert occurrences) ↔
        ∃ delivery, Run convert occurrences.length (start occurrences) order delivery ∧
          delivery.IsOver) ∧
      (∀ delivery : Delivery, delivery.IsOver ∨
        ∃ taken next, Step convert occurrences.length delivery taken next) ∧
      WellFounded fun next delivery : Delivery =>
        ∃ taken, Step convert occurrences.length delivery taken next := by
  intro convert batch
  have haccounts := hrun.accounts
  have hperm := haccounts.perm_of_isOver hover
  have hbatch : batch = .ofArrivals occurrences arrivals := haccounts.batch_eq
  have hfields := hbatch.trans (Batch.ofArrivals_of_perm hperm)
  have hall : converter.convertAll disk occurrences = _ :=
    Batch.ofArrivals_of_perm (List.Perm.refl (sentInOrder convert occurrences))
  refine ⟨hfields.trans hall.symm, by rw [hfields], ?_, ?_, ?_, ?_, by rw [hfields], ?_,
    ?_, step_wellFounded convert occurrences.length⟩
  · rw [hfields]
    exact failuresFrom_zip_map convert occurrences 0
  · rw [hfields, Report.ofOutcomes, List.length_zip, List.length_map, Nat.min_self]
  · rw [hfields]
    exact Report.succeeded_add_failures _
  · rw [haccounts.slots_eq]
    exact fillSlots_of_perm hperm
  · intro order
    constructor
    · exact exists_run_of_perm
    · rintro ⟨delivery, horder, hdone⟩
      exact horder.accounts.perm_of_isOver hdone
  · intro delivery
    by_cases hdone : delivery.IsOver
    · exact .inl hdone
    · exact .inr (exists_step_of_not_isOver convert occurrences.length hdone)

/-- The second of two items is taken first, and the first one fails. -/
theorem batch_of_second_first :
    let graph : Graph := ⟨"A.java",
      [⟨1, .token, "log", 1, 1, 0, 3⟩, ⟨2, .token, ";", 1, 1, 3, 4⟩], []⟩
    let entries : List (Location × Entry) := [(["corpus"], .directory),
      (["corpus", "A.proto"], .file (.bytes graph.toRecord))]
    let disk : Disk := { entries := .ofList entries }
    let converter : Converter := ⟨⟨"/corpus"⟩, ⟨.severity, wordTokens⟩, 2⟩
    let lost : Occurrence := ⟨"A.proto", .warn, "m", some 3, none⟩
    let call : Occurrence := ⟨"A.proto", .info, "m", some 1, none⟩
    let training : TrainingExample := ⟨[""], [], [], ["info"], 0⟩
    ∃ last : Delivery,
      Run (converter.convert disk) 2 (start [lost, call])
          [(1, .ok training), (0, .error (.rootNotFound 3))] last ∧
        last.IsOver ∧
        last.batch [lost, call] =
          ⟨[training], ⟨2, 1, [⟨0, "A.proto", .rootNotFound 3⟩]⟩, [(1, 2), (2, 2)]⟩ := by
  intro graph entries disk converter lost call training
  let order : List Arrival := [(1, .ok training), (0, .error (.rootNotFound 3))]
  have hlost : converter.convert disk lost = .error (.rootNotFound 3) := by
    decide +kernel
  have hcall : converter.convert disk call = .ok training := by
    decide +kernel
  have horder : order.Perm (sentInOrder (converter.convert disk) [lost, call]) := by
    change order.Perm [(0, converter.convert disk lost), (1, converter.convert disk call)]
    rw [hlost, hcall]
    exact List.Perm.swap _ _ []
  obtain ⟨last, hrun, hover⟩ : ∃ last, Run (converter.convert disk) [lost, call].length
      (start [lost, call]) order last ∧ last.IsOver := exists_run_of_perm horder
  have hbatch := (batch_of_every_order converter disk hrun hover).1
  exact ⟨last, hrun, hover, hbatch.trans (by decide +kernel)⟩

end Delivery

end LogCorpus
