import Lifecycle.Proofs.Lead.Capacity
import Mathlib.Data.List.DropRight
import Mathlib.Data.List.Induction

/-!
# What a queue holds on to

What a queue holds of the events that were offered to it, when none has been taken from it, does not
depend on the course of things: all that are shielded, and of the others the last ones, as many as
the shielded ones leave room for (`retained`). An answer keeps it so (`Answers.retains`), hence any
number of arrivals does (`retains_enqueueAll`); and an event is turned away exactly when it is not
shielded and the shielded ones fill the capacity (`enqueueAll_retained`).
-/

namespace Lifecycle.EventQueue

variable {α : Type} {shielded : α → Bool} {room : Nat} {event : α} {events : List α}

/-! ## Events that are held on to -/

/-- Of some events those that are shielded, and of the others the last ones that there is room
for. -/
def retained (shielded : α → Bool) (room : Nat) : List α → List α
  | [] => []
  | event :: rest =>
    if shielded event = true ∨ rest.countP (!shielded ·) < room then
      event :: retained shielded room rest
    else retained shielded room rest

theorem retained_nil (shielded : α → Bool) (room : Nat) : retained shielded room [] = [] := rfl

theorem retained_cons (shielded : α → Bool) (room : Nat) (event : α) (rest : List α) :
    retained shielded room (event :: rest) =
      if shielded event = true ∨ rest.countP (!shielded ·) < room then
        event :: retained shielded room rest
      else retained shielded room rest := rfl

theorem retained_sublist (shielded : α → Bool) (room : Nat) (events : List α) :
    (retained shielded room events).Sublist events := by
  induction events with
  | nil => exact .slnil
  | cons event rest ih =>
    rw [retained_cons]
    split
    · exact ih.cons_cons event
    · exact ih.cons event

/-- All shielded events are held on to. -/
theorem filter_retained (shielded : α → Bool) (room : Nat) (events : List α) :
    (retained shielded room events).filter shielded = events.filter shielded := by
  induction events with
  | nil => rfl
  | cons event rest ih =>
    rw [retained_cons]
    by_cases hs : shielded event = true
    · rw [if_pos (.inl hs), List.filter_cons_of_pos hs, List.filter_cons_of_pos hs, ih]
    · split <;> simp [hs, ih]

/-- The others that are held on to are the last ones. -/
theorem filter_not_retained (shielded : α → Bool) (room : Nat) (events : List α) :
    (retained shielded room events).filter (!shielded ·) =
      (events.filter (!shielded ·)).rtake room := by
  induction events with
  | nil => rw [retained_nil, List.filter_nil, List.rtake_nil]
  | cons event rest ih =>
    rw [retained_cons, List.countP_eq_length_filter]
    by_cases hs : shielded event = true
    · simp [hs, ih]
    · rw [Bool.not_eq_true] at hs
      rw [List.rtake] at ih
      simp only [hs, Bool.false_eq_true, false_or, List.rtake, Bool.not_false,
        List.filter_cons_of_pos, List.length_cons]
      split <;> rename_i hroom
      · rw [List.filter_cons_of_pos (by simp [hs]), ih, Nat.sub_eq_zero_of_le (by omega),
          Nat.sub_eq_zero_of_le (by omega)]
        rfl
      · rw [ih, Nat.succ_sub (by omega), List.drop_succ_cons]

/-- Where there is room for all, all are held on to. -/
theorem retained_of_le (h : events.countP (!shielded ·) ≤ room) :
    retained shielded room events = events := by
  induction events with
  | nil => rfl
  | cons event rest ih =>
    rw [List.countP_cons] at h
    rw [retained_cons, ih (by omega), if_pos]
    by_cases hs : shielded event = true
    · exact .inl hs
    · simp only [hs, Bool.not_false, if_true] at h
      exact .inr h

theorem retained_zero (shielded : α → Bool) (events : List α) :
    retained shielded 0 events = events.filter shielded := by
  induction events with
  | nil => rfl
  | cons event rest ih =>
    rw [retained_cons, List.filter_cons, ih]
    simp

/-- An event that is shielded is held on to beside the others. -/
theorem retained_concat_of_shielded (h : shielded event = true) :
    retained shielded room (events ++ [event]) = retained shielded room events ++ [event] := by
  induction events with
  | nil => simp [retained_cons, retained_nil, h]
  | cons first rest ih =>
    have hcount : (rest ++ [event]).countP (!shielded ·) = rest.countP (!shielded ·) := by
      simp [h]
    rw [List.cons_append, retained_cons, retained_cons, hcount, ih]
    split <;> rfl

/-- An event that is not shielded takes a place. -/
theorem retained_concat (h : shielded event = false) :
    retained shielded (room + 1) (events ++ [event]) =
      retained shielded room events ++ [event] := by
  induction events with
  | nil => simp [retained_cons, retained_nil]
  | cons first rest ih =>
    have hcount : (rest ++ [event]).countP (!shielded ·) = rest.countP (!shielded ·) + 1 := by
      simp [h]
    rw [List.cons_append, retained_cons, retained_cons, hcount, ih]
    simp only [Nat.add_lt_add_iff_right]
    split <;> rfl

/-- An event that is not shielded stands beside the others where there is a place left for it. -/
theorem retained_concat_of_lt (h : events.countP (!shielded ·) < room) :
    retained shielded room (events ++ [event]) = retained shielded room events ++ [event] := by
  have hcount : (events ++ [event]).countP (!shielded ·) ≤ room := by
    rw [List.countP_append, List.countP_singleton]
    split <;> omega
  rw [retained_of_le hcount, retained_of_le h.le]

/-- A place that is not taken makes no difference. -/
theorem retained_pred (h : room = 0 ∨ events.countP (!shielded ·) < room) :
    retained shielded (room - 1) events = retained shielded room events := by
  rcases h with rfl | hlt
  · rfl
  · rw [retained_of_le (Nat.le_sub_one_of_lt hlt), retained_of_le hlt.le]

/-- With one place less the oldest event that is not shielded is dropped. -/
theorem dropUnless?_retained (h : room < events.countP (!shielded ·)) :
    Deque.dropUnless? shielded (retained shielded (room + 1) events) =
      some (retained shielded room events) := by
  induction events with
  | nil => cases h
  | cons event rest ih =>
    rw [List.countP_cons] at h
    rw [retained_cons, retained_cons]
    by_cases hs : shielded event = true
    · simp only [hs, true_or, if_true, Bool.not_true, Bool.false_eq_true, if_false] at h ⊢
      rw [Deque.dropUnless?, if_pos hs, ih h]
      rfl
    · simp only [hs, Bool.not_false, if_true, Bool.false_eq_true, false_or] at h ⊢
      by_cases hlast : rest.countP (!shielded ·) < room + 1
      · have heq : rest.countP (!shielded ·) = room := by omega
        rw [if_pos hlast, if_neg (by omega), Deque.dropUnless?, if_neg (by simp [hs]),
          retained_of_le heq.le, retained_of_le (by omega)]
      · rw [if_neg hlast, if_neg (by omega), ih (by omega)]

theorem countP_retained (shielded : α → Bool) (room : Nat) (events : List α) :
    (retained shielded room events).countP shielded = events.countP shielded := by
  rw [List.countP_eq_length_filter, filter_retained, ← List.countP_eq_length_filter]

theorem countP_not_retained (shielded : α → Bool) (room : Nat) (events : List α) :
    (retained shielded room events).countP (!shielded ·) =
      min room (events.countP (!shielded ·)) := by
  rw [List.countP_eq_length_filter, filter_not_retained, List.rtake, List.length_drop,
    ← List.countP_eq_length_filter]
  omega

/-- How many events are held on to. -/
theorem length_retained (shielded : α → Bool) (room : Nat) (events : List α) :
    (retained shielded room events).length =
      events.countP shielded + min room (events.countP (!shielded ·)) := by
  rw [List.length_eq_countP_add_countP shielded, countP_retained, ← countP_not_retained]
  simp

/-! ## Arrivals -/

variable {q q' : EventQueue α} {capacity : Int} {accept : Bool}

/-- How many events that are not shielded a capacity has room for beside the others. -/
def spareRoom (shielded : α → Bool) (capacity : Int) (events : List α) : Nat :=
  (capacity - events.countP shielded).toNat

/-- A queue holds what is to be held on to of some events. -/
def Retains (q : EventQueue α) (capacity : Int) (events : List α) : Prop :=
  q.items = retained q.shielded (spareRoom q.shielded capacity events) events

theorem spareRoom_concat (shielded : α → Bool) (capacity : Int) (events : List α) (event : α) :
    spareRoom shielded capacity (events ++ [event]) =
      spareRoom shielded capacity events - if shielded event = true then 1 else 0 := by
  unfold spareRoom
  rw [List.countP_append, List.countP_singleton]
  split <;> omega

/-- A queue has room exactly where there is a place left for an event that is not shielded. -/
theorem Retains.depth_lt_iff (h : q.Retains capacity events) : (q.depth : Int) < capacity ↔
    events.countP (!q.shielded ·) < spareRoom q.shielded capacity events := by
  have hdepth := q.length_items
  rw [h, length_retained] at hdepth
  unfold spareRoom at hdepth ⊢
  omega

/-- Only shielded events wait exactly where there is no place for others, or there are none. -/
theorem Retains.all_shielded_iff (h : q.Retains capacity events) :
    (∀ e ∈ q.items, q.shielded e = true) ↔
      spareRoom q.shielded capacity events = 0 ∨ events.countP (!q.shielded ·) = 0 := by
  have hwaiting := countP_not_retained q.shielded (spareRoom q.shielded capacity events) events
  rw [← h] at hwaiting
  have hnone : q.items.countP (!q.shielded ·) = 0 ↔ ∀ e ∈ q.items, q.shielded e = true := by
    simp [List.countP_eq_zero]
  rw [← hnone]
  omega

/-- An event is turned away where it is not shielded and shielded events fill the capacity. -/
theorem Answers.refuses_iff (hanswer : q.Answers capacity event q' accept)
    (h : q.Retains capacity events) :
    accept = false ↔ q.shielded event = false ∧ capacity ≤ events.countP q.shielded := by
  have hall := h.all_shielded_iff
  have hroom := h.depth_lt_iff
  have hspare : spareRoom q.shielded capacity events =
    (capacity - events.countP q.shielded).toNat := rfl
  cases hanswer with
  | joins hitems hfits =>
    refine iff_of_false Bool.noConfusion fun ⟨hs, hfull⟩ => ?_
    have hlt : (q.depth : Int) < capacity := by
      refine hfits.resolve_right fun hshielded => ?_
      exact absurd (hshielded event (List.mem_append_right _ List.mem_cons_self)) (by simp [hs])
    have := hroom.mp hlt
    omega
  | displaces hfull hdrop hitems =>
    refine iff_of_false Bool.noConfusion fun ⟨hs, hfilled⟩ => ?_
    -- One that is not shielded is dropped, so there was a place for it.
    have hshielded := hall.mpr (.inl (by omega))
    rw [Deque.dropUnless?_eq_none_iff.mpr hshielded] at hdrop
    cases hdrop
  | refuses hfull hitems hs =>
    have := hall.mp hitems
    exact iff_of_true rfl ⟨hs, by omega⟩

/-- An answer leaves the queue with what is to be held on to. -/
theorem Answers.retains (hanswer : q.Answers capacity event q' accept)
    (h : q.Retains capacity events) : q'.Retains capacity (events ++ [event]) := by
  have hall := h.all_shielded_iff
  have hroom := h.depth_lt_iff
  have hnext := spareRoom_concat q.shielded capacity events event
  unfold Retains at h ⊢
  generalize spareRoom q.shielded capacity events = room at *
  cases hanswer with
  | @joins line hitems hfits =>
    show line.toList = _
    rw [hitems, h, hnext]
    by_cases hs : q.shielded event = true
    · have hplace : room = 0 ∨ events.countP (!q.shielded ·) < room := by
        rcases hfits with hlt | hshielded
        · exact .inr (hroom.mp hlt)
        · have := hall.mp fun e he => hshielded e (List.mem_append_left _ he)
          omega
      rw [if_pos hs, retained_concat_of_shielded hs, retained_pred hplace]
    · have hlt : (q.depth : Int) < capacity := by
        refine hfits.resolve_right fun hshielded => hs (hshielded event ?_)
        exact List.mem_append_right _ List.mem_cons_self
      rw [if_neg hs, Nat.sub_zero, retained_concat_of_lt (hroom.mp hlt)]
  | @displaces line kept hfull hdrop hitems =>
    show line.toList = _
    -- There is one to drop, hence a place for one: what it leaves is the place of the next arrival.
    have hpos : room ≠ 0 ∧ events.countP (!q.shielded ·) ≠ 0 := by
      rw [← not_or, ← hall, ← Deque.dropUnless?_eq_none_iff, hdrop]
      exact Option.some_ne_none kept
    have hfilled := mt hroom.mpr (Int.not_lt.mpr hfull)
    obtain ⟨room, rfl⟩ := Nat.exists_eq_succ_of_ne_zero hpos.1
    rw [h, dropUnless?_retained (by omega)] at hdrop
    obtain rfl := Option.some.inj hdrop
    rw [hitems, hnext]
    by_cases hs : q.shielded event = true
    · rw [if_pos hs, retained_concat_of_shielded hs]
      rfl
    · rw [if_neg hs, Nat.sub_zero, retained_concat (Bool.eq_false_iff.mpr hs)]
  | refuses hfull hitems hs =>
    show q.items = _
    have hfilled := mt hroom.mpr (Int.not_lt.mpr hfull)
    have hzero : room = 0 := by
      have := hall.mp hitems
      omega
    rw [h, hnext, hzero, retained_zero, Nat.zero_sub, retained_zero, List.filter_append,
      List.filter_singleton, hs]
    exact (List.append_nil _).symm

/-! ## Any number of arrivals -/

/-- A queue after some events have been offered to it, one after the other. -/
def enqueueAll (q : EventQueue α) (events : List α) : EventQueue α :=
  events.foldl (fun q event => (q.enqueue event).state) q

theorem enqueueAll_concat (q : EventQueue α) (events : List α) (event : α) :
    q.enqueueAll (events ++ [event]) = ((q.enqueueAll events).enqueue event).state := by
  rw [enqueueAll, List.foldl_append]
  rfl

/-- Arrivals change the line and the number of drops, and nothing else. -/
theorem enqueueAll_frame (hcapacity : q.capacity = .int capacity) (events : List α) :
    ∃ line dropped, q.enqueueAll events = { q with line := line, dropped := dropped } := by
  induction events using List.reverseRecOn with
  | nil => exact ⟨_, _, rfl⟩
  | append_singleton events event ih =>
    obtain ⟨line, dropped, hframe⟩ := ih
    have hanswer : (q.enqueueAll events).Answers capacity event _ _ :=
      answers_enqueue (by rw [hframe]; exact hcapacity) event
    obtain ⟨line', dropped', hnext⟩ := hanswer.frame
    exact ⟨line', dropped', by rw [enqueueAll_concat, hnext, hframe]⟩

theorem retains_enqueueAll (hcapacity : q.capacity = .int capacity) (hempty : q.items = [])
    (events : List α) : (q.enqueueAll events).Retains capacity events := by
  induction events using List.reverseRecOn with
  | nil => exact hempty
  | append_singleton events event ih =>
    obtain ⟨line, dropped, hframe⟩ := enqueueAll_frame hcapacity events
    have hanswer : (q.enqueueAll events).Answers capacity event _ _ :=
      answers_enqueue (by rw [hframe]; exact hcapacity) event
    rw [enqueueAll_concat]
    exact hanswer.retains ih

theorem letIn_eq_false_iff {result : Except Fault Bool} :
    letIn result = false ↔ result = .ok false := by
  rcases result with fault | accepted
  · exact ⟨nofun, nofun⟩
  · exact ⟨fun h => congrArg Except.ok h, fun h => Except.ok.inj h⟩

/-- A capacity that is an integer within binary64 other than zero. -/
structure Graded (q : EventQueue α) (capacity : Int) : Prop where
  capacity_eq : q.capacity = .int capacity
  ne_zero : capacity ≠ 0
  isFinite : (Double.ofInt capacity).isFinite = true
  watermark : ∃ share, q.watermark = .ofNumber share

/-- An arrival within such a capacity is answered, for its share can be told. -/
theorem Graded.exists_result_enqueue (h : q.Graded capacity) (item : α) :
    ∃ accepted, (q.enqueue item).result = .ok accepted := by
  obtain ⟨share, hshare⟩ := h.watermark
  have harrival : arrival capacity share = .ok true :=
    arrival_eq_ok_iff.mpr ⟨fun _ => h.isFinite, fun hzero => absurd hzero h.ne_zero⟩
  rw [result_enqueue h.capacity_eq hshare, harrival]
  split <;> exact ⟨_, rfl⟩

/-- **What an overflowing queue keeps.** Of any events that are offered to an empty queue, one after
the other, it holds all protected ones and, of the others, the last ones that there is room for
beside them, in their order. The next event is turned away exactly when it is not protected and
the protected ones fill the capacity; and every event has an answer where the capacity is an integer
within binary64. -/
theorem enqueueAll_retained (lead : String) {capacity : Int} (hpos : 1 ≤ capacity)
    (protectedWords events : List String) {queue : EventQueue String}
    (hqueue : queue = (shielding lead (.int capacity) protectedWords).enqueueAll events)
    (event : String) :
    queue.items = retained protectedWords.contains
        (spareRoom protectedWords.contains capacity events) events ∧
      queue.items.Sublist events ∧
      queue.items.filter protectedWords.contains = events.filter protectedWords.contains ∧
      queue.items.filter (!protectedWords.contains ·) =
        (events.filter (!protectedWords.contains ·)).rtake
          (spareRoom protectedWords.contains capacity events) ∧
      ((queue.enqueue event).result = .ok false ↔
        protectedWords.contains event = false ∧
          capacity ≤ events.countP protectedWords.contains) ∧
      ((Double.ofInt capacity).isFinite = true →
        ∃ accepted, (queue.enqueue event).result = .ok accepted) := by
  have hnew : (shielding lead (.int capacity) protectedWords).items = [] := Deque.toList_empty
  have hretains : queue.Retains capacity events := hqueue ▸ retains_enqueueAll rfl hnew events
  obtain ⟨line, dropped, hframe⟩ : ∃ line dropped, queue =
      { shielding lead (.int capacity) protectedWords with line := line, dropped := dropped } :=
    hqueue ▸ enqueueAll_frame rfl events
  have hshielded : queue.shielded = protectedWords.contains := by rw [hframe]; rfl
  have hcapacity : queue.capacity = .int capacity := by rw [hframe]; rfl
  have hitems : queue.items = retained protectedWords.contains
      (spareRoom protectedWords.contains capacity events) events := by
    have := hretains
    rw [Retains, hshielded] at this
    exact this
  have hrefuses := (answers_enqueue hcapacity event).refuses_iff hretains
  refine ⟨hitems, ?_, ?_, ?_, ?_, fun hfinite => ?_⟩
  · rw [hitems]
    exact retained_sublist ..
  · rw [hitems]
    exact filter_retained ..
  · rw [hitems]
    exact filter_not_retained ..
  · rw [← letIn_eq_false_iff, hrefuses, hshielded]
  · have hgraded : queue.Graded capacity :=
      ⟨hcapacity, by omega, hfinite, Settings.queueWatermark, by rw [hframe]; rfl⟩
    exact hgraded.exists_result_enqueue event

/-- Two protected events fill a queue for two: they stay, and another event is turned away. -/
theorem enqueueAll_retained_full :
    (1 : Int) ≤ 2 ∧
      ((shielding "ada" (.int 2) ["goal.hit"]).enqueueAll
        ["meeting.booked", "goal.hit", "lead.message_sent", "goal.hit"]).items =
          ["goal.hit", "goal.hit"] ∧
      (((shielding "ada" (.int 2) ["goal.hit"]).enqueueAll
        ["meeting.booked", "goal.hit", "lead.message_sent", "goal.hit"]).enqueue
          "meeting.missed").result = .ok false := by
  have hpos : (1 : Int) ≤ 2 := by decide
  obtain ⟨hitems, -, -, -, hrefused, -⟩ := enqueueAll_retained "ada" hpos ["goal.hit"]
    ["meeting.booked", "goal.hit", "lead.message_sent", "goal.hit"] rfl "meeting.missed"
  exact ⟨hpos, hitems.trans (by decide), hrefused.mpr (by decide)⟩

end Lifecycle.EventQueue
