/-
Deliveries: how the outcomes of a batch reach its slots.

An item waits until a worker has converted it and sends the outcome.  What was
sent lies in a queue, from which the coordinator takes the oldest outcome, puts
it into the slot of its item, counts it and tells the caller.  Nothing but this
ties the steps of the workers and of the coordinator to an order.
-/
import LogCorpus.Conversion.Batch

namespace LogCorpus

/-- A batch under way: the items that wait, with their places, the outcomes that
were sent and not taken, the oldest first, the slots, the number of outcomes
taken, and what the caller was told. -/
structure Delivery where
  waiting : List (Occurrence × Nat)
  queue : List Arrival
  slots : Array (Option ConversionOutcome)
  completed : Nat
  progress : List (Nat × Nat)

namespace Delivery

/-- Every item waits. -/
def start (occurrences : List Occurrence) : Delivery where
  waiting := occurrences.zipIdx
  queue := []
  slots := Array.replicate occurrences.length none
  completed := 0
  progress := []

/-- What the worker of an item sends. -/
def message (convert : Occurrence → ConversionOutcome)
    (item : Occurrence × Nat) : Arrival :=
  (item.2, convert item.1)

/-- A worker sends the outcome of an item. -/
def send (convert : Occurrence → ConversionOutcome) (item : Occurrence × Nat)
    (delivery : Delivery) : Delivery :=
  { delivery with
    waiting := delivery.waiting.erase item
    queue := delivery.queue ++ [message convert item] }

/-- The coordinator takes an outcome off the queue. -/
def take (total : Nat) (arrival : Arrival) (delivery : Delivery) : Delivery :=
  { delivery with
    queue := delivery.queue.tail
    slots := delivery.slots.setIfInBounds arrival.1 (some arrival.2)
    completed := delivery.completed + 1
    progress := delivery.progress ++ [(delivery.completed + 1, total)] }

/-- A step of a worker or of the coordinator, with the outcome that the
coordinator takes in it. -/
inductive Step (convert : Occurrence → ConversionOutcome) (total : Nat) :
    Delivery → List Arrival → Delivery → Prop
  | send {delivery : Delivery} {item : Occurrence × Nat}
      (hwaits : item ∈ delivery.waiting) :
      Step convert total delivery [] (delivery.send convert item)
  | take {delivery : Delivery} {arrival : Arrival} {rest : List Arrival}
      (hqueue : delivery.queue = arrival :: rest) :
      Step convert total delivery [arrival] (delivery.take total arrival)

/-- Steps one after the other, with the outcomes in the order in which the
coordinator takes them. -/
inductive Run (convert : Occurrence → ConversionOutcome) (total : Nat)
    (first : Delivery) : List Arrival → Delivery → Prop
  | nil : Run convert total first [] first
  | step {arrivals taken : List Arrival} {delivery next : Delivery}
      (hrun : Run convert total first arrivals delivery)
      (hstep : Step convert total delivery taken next) :
      Run convert total first (arrivals ++ taken) next

/-- Every worker is finished and everything that was sent is taken. -/
def IsOver (delivery : Delivery) : Prop :=
  delivery.waiting = [] ∧ delivery.queue = []

/-- The batch that is read off the slots. -/
def batch (delivery : Delivery) (occurrences : List Occurrence) : Batch :=
  let outcomes := delivery.slots.toList.map slotOutcome
  { examples := successes outcomes
    report := .ofOutcomes (occurrences.zip outcomes)
    progress := delivery.progress }

end Delivery

end LogCorpus
