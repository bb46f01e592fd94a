import Lifecycle.Deque
import Lifecycle.Response
import Lifecycle.Settings

/-!
# Bounded queues

Events of a lead wait in a queue of a fixed capacity. A full queue makes room by dropping its oldest
event that is not shielded; when all are shielded it turns an unshielded event away and grows for a
shielded one. Every drop is counted (`EventQueue.dropped`), and from the watermark on each arrival
is logged with the depth.
-/

namespace Lifecycle

/-- Events waiting for a lead. -/
structure EventQueue (α : Type) where
  lead : String
  /-- How many events the queue holds, a number. -/
  capacity : Json
  /-- The share of the capacity from which on arrivals report the depth, a number. -/
  watermark : Json
  /-- Which events are never dropped. -/
  shielded : α → Bool
  /-- The waiting events. -/
  line : Deque α
  /-- How many events were dropped or turned away. -/
  dropped : Nat
  /-- Whether a worker is taking events from the queue. -/
  processing : Bool

namespace EventQueue

variable {α : Type}

/-- A queue without shielded events. -/
def plain (lead : String) (capacity watermark : Json) : EventQueue α :=
  ⟨lead, capacity, watermark, fun _ => false, .empty, 0, false⟩

/-- A queue of event words that shields some of them. -/
def shielding (lead : String) (capacity : Json) (protectedWords : List String) :
    EventQueue String :=
  ⟨lead, capacity, .ofNumber Settings.queueWatermark, protectedWords.contains, .empty, 0, false⟩

/-- The waiting events, the oldest first. -/
def items (q : EventQueue α) : List α := q.line.toList

/-- The number of waiting events. -/
def depth (q : EventQueue α) : Nat := q.line.size

/-- The labels of the metrics of a queue. -/
def labels (q : EventQueue α) : Labels := [("lead", Notice.short q.lead)]

/-- Whether the queue has no room left; a capacity that is no number does not tell. -/
def isFull (q : EventQueue α) : Except Fault Bool :=
  match q.capacity.number? with
  | some capacity => .ok (capacity.intAtLeast q.depth)
  | none => .error (.notNumber q.capacity.kindName)

/-- The report of the depth. -/
def depthSignal (q : EventQueue α) : Signal :=
  .gauge "queue.depth" (.int q.depth) q.labels

/-- The share of a capacity that a depth takes, as a percentage without decimals. -/
def percentText (depth : Nat) (capacity : Number) : String :=
  ((capacity.ratio depth).mul (Double.ofInt 100)).wholeText

/-- The warning that is due at the depth of the queue, none below the watermark. A share of a
capacity beyond binary64 is none, and a capacity of zero has no share that could be told. -/
def highSignals (q : EventQueue α) : Except Fault (List Signal) :=
  match q.capacity.number?, q.watermark.number? with
  | some capacity, some watermark =>
    match capacity.mul? watermark with
    | none => .error .beyondDouble
    | some least =>
      if least.intAtLeast q.depth then
        if capacity.isZero then .error (.divisionByZero capacity.isFloat)
        else .ok [.log (.queueHigh q.lead q.depth q.capacity (percentText q.depth capacity))]
      else .ok []
  | _, _ => .error (.notNumber q.watermark.kindName)

/-- Puts an event at the end and reports the depth. -/
def append (q : EventQueue α) (item : α) (signals : List Signal) : Response (EventQueue α) Bool :=
  let longer := { q with line := q.line.push item }
  let told := signals ++ [longer.depthSignal]
  match longer.highSignals with
  | .ok high => ⟨longer, told ++ high, .ok true⟩
  | .error fault => ⟨longer, told, .error fault⟩

/-- Accepts an event, if there is or can be made room for it. -/
def enqueue (q : EventQueue α) (item : α) : Response (EventQueue α) Bool :=
  match q.isFull with
  | .error fault => ⟨q, [], .error fault⟩
  | .ok false => q.append item []
  | .ok true =>
    match q.line.dropOldest? q.shielded with
    | some kept =>
      { q with line := kept, dropped := q.dropped + 1 }.append item
        [.log (.queueDropped q.lead), .count "queue.dropped" q.labels]
    | none =>
      if q.shielded item then q.append item [.log (.queueGrowing q.lead)]
      else
        ⟨{ q with dropped := q.dropped + 1 },
          [.log (.queueRejected q.lead), .count "queue.dropped" q.labels], .ok false⟩

/-- Takes the oldest event. -/
def dequeue (q : EventQueue α) : Response (EventQueue α) (Option α) :=
  match q.line.pop? with
  | none => ⟨q, [], .ok none⟩
  | some (item, rest) =>
    let shorter := { q with line := rest }
    ⟨shorter, [shorter.depthSignal], .ok (some item)⟩

/-- Removes all events; the result is how many there were. -/
def clear (q : EventQueue α) : Response (EventQueue α) Nat :=
  let empty := { q with line := .empty }
  ⟨empty, [empty.depthSignal], .ok q.depth⟩

/-- The first waiting events; a negative limit counts from the end. -/
def pending (q : EventQueue α) (limit : Int) : List α :=
  if 0 ≤ limit then q.items.take limit.toNat
  else q.items.take (q.depth - (-limit).toNat)

@[simp] theorem length_items (q : EventQueue α) : q.items.length = q.depth :=
  q.line.length_toList

end EventQueue

end Lifecycle
