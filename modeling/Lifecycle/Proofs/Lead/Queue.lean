import Lifecycle.Lead.Queue
import Mathlib.Data.List.Basic

/-!
# What passes through a queue

A queue of integer capacity answers to an event in one of three ways (`EventQueue.Answers`): the
event joins the line, it displaces the oldest event that is not shielded, or it is refused. From
this follows how a queue accounts for the events that it was offered (`EventQueue.Accounts`): what
was taken from it and what still waits are in the order of arrival, no shielded event is missing,
and the missing ones are counted. Whatever is done with a queue keeps its accounts
(`Ledger.accounted`).
-/

namespace Lifecycle

/-- A drop leaves the spared items. -/
theorem Deque.filter_of_dropUnless? {α : Type} {spared : α → Bool} {items kept : List α}
    (h : dropUnless? spared items = some kept) : kept.filter spared = items.filter spared := by
  induction items generalizing kept with
  | nil => cases h
  | cons item rest ih =>
    unfold dropUnless? at h
    split at h
    · rename_i hspared
      obtain ⟨kept', hk, rfl⟩ := Option.map_eq_some_iff.mp h
      rw [List.filter_cons_of_pos hspared, List.filter_cons_of_pos hspared, ih hk]
    · rename_i hspared
      cases h
      rw [List.filter_cons_of_neg hspared]

namespace EventQueue

variable {α : Type} {q q' : EventQueue α} {item : α} {capacity : Int}

/-! ## One operation -/

/-- How a queue answers to an event, and whether it lets the event in. -/
inductive Answers (q : EventQueue α) (capacity : Int) (item : α) : EventQueue α → Bool → Prop where
  /-- There is room, or the event is one more among shielded ones. -/
  | joins {line : Deque α} (items : line.toList = q.items ++ [item])
      (room : q.depth < capacity ∨ ∀ e ∈ q.items ++ [item], q.shielded e = true) :
      Answers q capacity item { q with line := line } true
  | displaces {line : Deque α} {kept : List α} (full : capacity ≤ q.depth)
      (drop : Deque.dropUnless? q.shielded q.items = some kept)
      (items : line.toList = kept ++ [item]) :
      Answers q capacity item { q with line := line, dropped := q.dropped + 1 } true
  | refuses (full : capacity ≤ q.depth) (shielded : ∀ e ∈ q.items, q.shielded e = true)
      (unshielded : q.shielded item = false) :
      Answers q capacity item { q with dropped := q.dropped + 1 } false

/-- Whether an event was let in, as the result of an arrival tells. -/
def letIn : Except Fault Bool → Bool
  | .ok accepted => accepted
  | .error _ => true

theorem append_state (q : EventQueue α) (item : α) (signals : List Signal) :
    (q.append item signals).state = { q with line := q.line.push item } := by
  unfold append
  dsimp only
  split <;> rfl

theorem letIn_append (q : EventQueue α) (item : α) (signals : List Signal) :
    letIn (q.append item signals).result = true := by
  unfold append
  dsimp only
  split <;> rfl

/-- The arrival of an event changes the line and the number of drops, and nothing else. -/
theorem enqueue_frame (q : EventQueue α) (item : α) :
    ∃ line dropped, (q.enqueue item).state = { q with line := line, dropped := dropped } := by
  unfold enqueue
  split
  · exact ⟨q.line, q.dropped, rfl⟩
  · exact ⟨_, _, q.append_state item []⟩
  · split
    · exact ⟨_, _, append_state _ _ _⟩
    · split
      · exact ⟨_, _, append_state _ _ _⟩
      · exact ⟨q.line, q.dropped + 1, rfl⟩

/-- An event that arrives is answered. -/
theorem answers_enqueue (hcapacity : q.capacity = .int capacity) (item : α) :
    q.Answers capacity item (q.enqueue item).state (letIn (q.enqueue item).result) := by
  have hfull : q.isFull = .ok (decide (capacity ≤ q.depth)) := by
    rw [isFull, hcapacity]; rfl
  unfold enqueue
  rw [hfull]
  by_cases hroom : capacity ≤ q.depth
  · rw [decide_eq_true hroom]
    have hdrop := q.line.toList_dropOldest? q.shielded
    rcases hkept : q.line.dropOldest? q.shielded with _ | kept
    · rw [hkept, Option.map_none, eq_comm, Deque.dropUnless?_eq_none_iff] at hdrop
      by_cases hitem : q.shielded item = true
      · simp only [if_pos hitem, append_state, letIn_append]
        refine .joins (q.line.toList_push item) (.inr fun e he => ?_)
        rcases List.mem_append.mp he with he | he
        · exact hdrop e he
        · exact List.mem_singleton.mp he ▸ hitem
      · simp only [if_neg hitem]
        exact .refuses hroom hdrop (Bool.eq_false_iff.mpr hitem)
    · rw [hkept, Option.map_some, eq_comm] at hdrop
      simp only [append_state, letIn_append]
      exact .displaces hroom hdrop (kept.toList_push item)
  · rw [decide_eq_false hroom]
    simp only [append_state, letIn_append]
    exact .joins (q.line.toList_push item) (.inl (Int.not_le.mp hroom))

/-- An answer changes the line and the number of drops, and nothing else. -/
theorem Answers.frame {accept : Bool} (h : q.Answers capacity item q' accept) :
    ∃ line dropped, q' = { q with line := line, dropped := dropped } := by
  cases h <;> exact ⟨_, _, rfl⟩

/-- The oldest event is taken, if there is one. -/
theorem dequeue_cases (q : EventQueue α) :
    (q.items = [] ∧ q.dequeue = ⟨q, [], .ok none⟩) ∨
      ∃ line first, q.items = first :: line.toList ∧
        q.dequeue.state = { q with line := line } ∧ q.dequeue.result = .ok (some first) := by
  have hpop := q.line.toList_pop?
  unfold dequeue
  rcases hline : q.line.pop? with _ | ⟨first, line⟩
  · left
    rw [hline] at hpop
    refine ⟨?_, rfl⟩
    rw [items]
    cases h : q.line.toList with
    | nil => rfl
    | cons item rest => rw [h] at hpop; cases hpop
  · right
    rw [hline] at hpop
    refine ⟨line, first, ?_, rfl, rfl⟩
    rw [items]
    cases h : q.line.toList with
    | nil => rw [h] at hpop; cases hpop
    | cons item rest =>
      rw [h] at hpop
      obtain ⟨rfl, rfl⟩ := Prod.mk.inj (Option.some.inj hpop)
      rfl

/-! ## The accounts of a queue -/

/-- The events that were let in, among those that were offered. -/
def accepted (offers : List (α × Bool)) : List α := (offers.filter Prod.snd).map Prod.fst

theorem accepted_append (first second : List (α × Bool)) :
    accepted (first ++ second) = accepted first ++ accepted second := by
  rw [accepted, List.filter_append, List.map_append]; rfl

theorem accepted_sublist (offers : List (α × Bool)) :
    (accepted offers).Sublist (offers.map Prod.fst) :=
  List.filter_sublist.map Prod.fst

/-- What waits after an answer waited before, or is the event that was let in. -/
theorem Answers.items_sublist {accept : Bool} (h : q.Answers capacity item q' accept) :
    q'.items.Sublist (q.items ++ accepted [(item, accept)]) := by
  cases h with
  | @joins line hitems hroom =>
    change line.toList.Sublist _
    rw [hitems]
    exact .refl _
  | @displaces line kept hfull hdrop hitems =>
    change line.toList.Sublist _
    rw [hitems]
    exact (Deque.sublist_of_dropUnless? hdrop).append (.refl _)
  | refuses => exact List.sublist_append_left _ _

/-- Each event that is offered waits afterwards or counts as a drop, or another one does for it. -/
theorem Answers.depth_add_dropped {accept : Bool} (h : q.Answers capacity item q' accept) :
    q'.depth + q'.dropped = q.depth + q.dropped + 1 := by
  rw [← length_items, ← length_items]
  cases h with
  | @joins line hitems hroom =>
    have hnew : ({ q with line := line } : EventQueue α).items = q.items ++ [item] := hitems
    simp only [hnew, List.length_append, List.length_singleton]
    omega
  | @displaces line kept hfull hdrop hitems =>
    have hnew : ({ q with line := line, dropped := q.dropped + 1 } : EventQueue α).items =
      kept ++ [item] := hitems
    have hlength := Deque.length_of_dropUnless? hdrop
    simp only [hnew, List.length_append, List.length_singleton]
    omega
  | refuses => exact (Nat.add_assoc _ _ _).symm

/-- No answer drops a shielded event. -/
theorem Answers.filter_shielded {accept : Bool} (h : q.Answers capacity item q' accept) :
    q'.items.filter q.shielded = (q.items ++ [item]).filter q.shielded := by
  cases h with
  | joins hitems _ => exact congrArg (List.filter q.shielded) hitems
  | @displaces line kept hfull hdrop hitems =>
    change line.toList.filter q.shielded = _
    rw [hitems, List.filter_append, List.filter_append, Deque.filter_of_dropUnless? hdrop]
  | refuses _ _ hitem => simp [items, hitem]

/-- Whatever the answer, only shielded events come to wait beyond the capacity. -/
theorem Answers.bound {accept : Bool} (h : q.Answers capacity item q' accept)
    (hbound : q.depth ≤ capacity ∨ ∀ e ∈ q.items, q.shielded e = true) :
    q'.depth ≤ capacity ∨ ∀ e ∈ q'.items, q.shielded e = true := by
  have hcount := h.depth_add_dropped
  cases h with
  | @joins line hitems hroom =>
    have hnew : ({ q with line := line } : EventQueue α).items = q.items ++ [item] := hitems
    rw [hnew]
    refine hroom.imp_left fun hlt => ?_
    dsimp only at hcount
    omega
  | displaces hfull hdrop _ =>
    -- An event that can be dropped is not shielded, so the line was within the capacity.
    have hle : (q.depth : Int) ≤ capacity := by
      refine hbound.resolve_right fun hall => ?_
      rw [Deque.dropUnless?_eq_none_iff.mpr hall] at hdrop
      cases hdrop
    dsimp only at hcount
    omega
  | refuses _ hall => exact .inr hall

/-- A queue accounts for the events that it was offered, given those that were taken from it. -/
structure Accounts (q : EventQueue α) (capacity : Int) (offers : List (α × Bool))
    (taken : List α) : Prop where
  /-- What was taken and what waits was let in, in this order. -/
  order : (taken ++ q.items).Sublist (accepted offers)
  /-- Every other event was dropped. -/
  count : offers.length = taken.length + q.depth + q.dropped
  /-- No shielded event was dropped. -/
  spared : (taken ++ q.items).filter q.shielded = (offers.map Prod.fst).filter q.shielded
  /-- Only shielded events wait beyond the capacity. -/
  bound : q.depth ≤ capacity ∨ ∀ e ∈ q.items, q.shielded e = true

variable {offers : List (α × Bool)} {taken : List α}

theorem Accounts.enqueue {accept : Bool} (h : q.Accounts capacity offers taken)
    (hanswer : q.Answers capacity item q' accept) :
    q'.Accounts capacity (offers ++ [(item, accept)]) taken := by
  have hitems := hanswer.items_sublist
  have hdrops := hanswer.depth_add_dropped
  have hspared := hanswer.filter_shielded
  have hbound := hanswer.bound h.bound
  obtain ⟨line, dropped, rfl⟩ := hanswer.frame
  refine ⟨?_, ?_, ?_, hbound⟩
  · rw [accepted_append]
    refine ((List.Sublist.refl taken).append hitems).trans ?_
    rw [← List.append_assoc]
    exact h.order.append (.refl _)
  · have hcount := h.count
    rw [List.length_append, List.length_singleton]
    omega
  · rw [List.filter_append, hspared, ← List.filter_append, ← List.append_assoc, List.filter_append,
      h.spared, List.map_append, List.filter_append]
    rfl

/-- Marks do not count. -/
theorem Accounts.mark (h : q.Accounts capacity offers taken) (processing : Bool) :
    ({ q with processing := processing } : EventQueue α).Accounts capacity offers taken := by
  obtain ⟨horder, hcount, hspared, hbound⟩ := h
  exact ⟨horder, hcount, hspared, hbound⟩

theorem Accounts.dequeue {line : Deque α} (h : q.Accounts capacity offers taken)
    (hitems : q.items = item :: line.toList) :
    ({ q with line := line } : EventQueue α).Accounts capacity offers (taken ++ [item]) := by
  have hcount := h.count
  have hbound := h.bound
  rw [← length_items, hitems, List.length_cons] at hcount hbound
  have hsame : taken ++ [item] ++ line.toList = taken ++ q.items := by
    rw [hitems, List.append_assoc, List.singleton_append]
  refine ⟨?_, ?_, ?_, ?_⟩
  · exact hsame ▸ h.order
  · rw [← length_items, List.length_append, List.length_singleton]
    change _ = taken.length + 1 + line.toList.length + q.dropped
    omega
  · exact hsame ▸ h.spared
  · rw [← length_items]
    refine hbound.imp (fun hle => ?_) fun hall e he => hall e (List.mem_cons_of_mem _ he)
    change (line.toList.length : Int) ≤ capacity
    omega

theorem Accounts.clear (h : q.Accounts capacity offers taken) :
    q.clear.state.Accounts capacity offers (taken ++ q.items) := by
  have hnil : q.clear.state.items = [] := Deque.toList_empty
  refine ⟨?_, ?_, ?_, .inr fun e he => ?_⟩
  · rw [hnil, List.append_nil]; exact h.order
  · rw [← length_items, hnil, List.length_append, length_items, h.count]
    rfl
  · rw [hnil, List.append_nil]; exact h.spared
  · rw [hnil] at he; cases he

end EventQueue

/-! ## Any course of operations -/

/-- What can be done with a queue. -/
inductive QueueCall where
  | enqueue (event : String)
  | dequeue
  | clear

/-- A queue, the events that it was offered, and those that were taken out of it, by taking the
oldest or by clearing it. -/
structure Ledger where
  queue : EventQueue String
  /-- The events in the order of arrival, each with whether it was let in. -/
  offers : List (String × Bool)
  taken : List String

namespace Ledger

/-- The ledger of a new queue. -/
def opened (lead : String) (capacity : Int) (protectedWords : List String) : Ledger :=
  ⟨EventQueue.shielding lead (.int capacity) protectedWords, [], []⟩

/-- Carries out one call. -/
def serve (ledger : Ledger) : QueueCall → Ledger
  | .enqueue event =>
    let response := ledger.queue.enqueue event
    ⟨response.state, ledger.offers ++ [(event, EventQueue.letIn response.result)], ledger.taken⟩
  | .dequeue =>
    let response := ledger.queue.dequeue
    let event := response.result.toOption.join.toList
    ⟨response.state, ledger.offers, ledger.taken ++ event⟩
  | .clear => ⟨ledger.queue.clear.state, ledger.offers, ledger.taken ++ ledger.queue.items⟩

/-- A ledger of a queue of given capacity and protected events that is in order. -/
structure Sound (ledger : Ledger) (capacity : Int) (protectedWords : List String) : Prop where
  capacity_eq : ledger.queue.capacity = .int capacity
  shielded_eq : ledger.queue.shielded = protectedWords.contains
  accounts : ledger.queue.Accounts capacity ledger.offers ledger.taken

variable {ledger : Ledger} {capacity : Int} {protectedWords : List String}

theorem sound_opened (lead : String) (capacity : Int) (protectedWords : List String) :
    (opened lead capacity protectedWords).Sound capacity protectedWords := by
  have hnil : (opened lead capacity protectedWords).queue.items = [] := Deque.toList_empty
  refine ⟨rfl, rfl, ?_, rfl, ?_, .inr fun e he => ?_⟩
  · rw [hnil]; exact List.Sublist.refl _
  · rw [hnil]; rfl
  · rw [hnil] at he; cases he

theorem Sound.serve (h : ledger.Sound capacity protectedWords) (call : QueueCall) :
    (ledger.serve call).Sound capacity protectedWords := by
  cases call with
  | enqueue event =>
    have hanswer := EventQueue.answers_enqueue h.capacity_eq event
    obtain ⟨line, dropped, hframe⟩ := hanswer.frame
    refine ⟨?_, ?_, h.accounts.enqueue hanswer⟩
    · exact (congrArg EventQueue.capacity hframe).trans h.capacity_eq
    · exact (congrArg EventQueue.shielded hframe).trans h.shielded_eq
  | dequeue =>
    unfold Ledger.serve
    rcases ledger.queue.dequeue_cases with ⟨-, hdequeue⟩ |
      ⟨line, first, hitems, hstate, hresult⟩
    · simp only [hdequeue]
      refine ⟨h.capacity_eq, h.shielded_eq, ?_⟩
      simpa [Except.toOption] using h.accounts
    · simp only [hstate, hresult]
      exact ⟨h.capacity_eq, h.shielded_eq, h.accounts.dequeue hitems⟩
  | clear => exact ⟨h.capacity_eq, h.shielded_eq, h.accounts.clear⟩

theorem sound_serveAll (h : ledger.Sound capacity protectedWords) (calls : List QueueCall) :
    (calls.foldl Ledger.serve ledger).Sound capacity protectedWords := by
  induction calls generalizing ledger with
  | nil => exact h
  | cons call rest ih => exact ih (h.serve call)

/-- **Accounting of every queue.** After any operations on a queue that was empty: what was taken
out of it and what still waits are a part of the events that it was offered, in their order; no
protected event is missing from them; the number of drops is that of the missing events; and beyond
the capacity only protected events wait. -/
theorem accounted (lead : String) (capacity : Int) (protectedWords : List String)
    (calls : List QueueCall) :
    let ledger := calls.foldl serve (opened lead capacity protectedWords)
    let offered := ledger.offers.map Prod.fst
    let present := ledger.taken ++ ledger.queue.items
    present.Sublist offered ∧
      (∀ event ∈ protectedWords, present.count event = offered.count event) ∧
      ledger.queue.dropped + present.length = offered.length ∧
      (ledger.queue.depth ≤ capacity ∨ ∀ event ∈ ledger.queue.items, event ∈ protectedWords) := by
  intro ledger offered present
  obtain ⟨-, hshielded, horder, hcount, hspared, hbound⟩ :
      ledger.Sound capacity protectedWords :=
    sound_serveAll (sound_opened lead capacity protectedWords) calls
  refine ⟨horder.trans (EventQueue.accepted_sublist _), fun event hevent => ?_, ?_, ?_⟩
  · have hpositive : ledger.queue.shielded event = true := by
      rw [hshielded]; exact List.contains_iff_mem.mpr hevent
    rw [← List.count_filter hpositive, ← List.count_filter (l := offered) hpositive]
    exact congrArg (List.count event) hspared
  · simp only [offered, present, List.length_map, List.length_append, EventQueue.length_items]
    change ledger.offers.length = _ at hcount
    omega
  · refine hbound.imp id fun hall event hevent => ?_
    have := hall event hevent
    rwa [hshielded, List.contains_iff_mem] at this

end Ledger

end Lifecycle
