import Lifecycle.Lead.Persist
import Lifecycle.Proofs.Lead.Queue

/-!
# What is reported

Of the signals that a manager reports, those of queues set the gauge of the depth and count drops
(`EventQueue.signals_enqueue`), and one tells that the callback for changes failed. All others are
plain (`Signal.IsPlain`): what interpreters report when they are started, stopped or handed an
event, and what is reported when leads are saved in a file or loaded from one. Keys of metrics keep
them apart, since a key begins as the name of its metric does (`head?_metricKey`).
-/

namespace Lifecycle

/-- A signal that tells neither of a queue nor of a callback for changes that failed. -/
def Signal.IsPlain : Signal → Prop
  | .log (.observerFailed ..) => False
  | .log _ => True
  | .count name labels =>
    ∀ lead, metricKey name labels ≠ metricKey "queue.dropped" [("lead", lead)]
  | .gauge .. => False

/-- The key of a metric begins as its name does. -/
theorem head?_metricKey {name : String} {first : Char} (h : name.toList.head? = some first)
    (labels : Labels) : (metricKey name labels).toList.head? = some first := by
  obtain ⟨rest, hrest⟩ := List.head?_eq_some_iff.mp h
  unfold metricKey
  split
  · exact h
  · simp [String.toList_append, hrest]

theorem Signal.isPlain_count {name : String} (first : Char)
    (h : name.toList.head? = some first) (hne : first ≠ 'q') (labels : Labels) :
    (Signal.count name labels).IsPlain := by
  intro lead heq
  have hhead := head?_metricKey h labels
  have hqueue : (metricKey "queue.dropped" [("lead", lead)]).toList.head? = some 'q' :=
    head?_metricKey (by decide) _
  rw [heq, hqueue] at hhead
  exact hne (Option.some.inj hhead).symm

namespace Interpreter

variable {m : Interpreter}

theorem plain_settleFrom (unseen : List Nat) (m : Interpreter) :
    ∀ signal ∈ (m.settleFrom unseen).signals, signal.IsPlain := by
  fun_induction settleFrom unseen m with
  | case3 _ _ _ _ _ _ _ _ _ _ ih => exact ih
  | case5 => exact List.forall_mem_singleton.mpr trivial
  | _ => exact List.forall_mem_nil _

theorem plain_start (m : Interpreter) : ∀ signal ∈ m.start.signals, signal.IsPlain := by
  unfold start
  split
  · exact List.forall_mem_nil _
  · split
    · exact List.forall_mem_nil _
    · dsimp only
      split
      · exact plain_settleFrom _ _
      · exact List.forall_mem_append.mpr
          ⟨plain_settleFrom _ _, List.forall_mem_singleton.mpr trivial⟩

theorem plain_stop (m : Interpreter) : ∀ signal ∈ m.stop.signals, signal.IsPlain := by
  unfold stop
  split
  · exact List.forall_mem_nil _
  · exact List.forall_mem_singleton.mpr trivial

theorem plain_ignore {signals : List Signal} (h : ∀ signal ∈ signals, signal.IsPlain)
    (now : Json) (snapshot : Snapshot) (event reason : String) :
    ∀ signal ∈ (m.ignore now snapshot event reason signals).signals, signal.IsPlain := by
  unfold ignore
  split <;> exact h

theorem plain_react (now : Json) (snapshot : Snapshot) (event : String) (leaf : Nat)
    (transition : Transition) :
    ∀ signal ∈ (m.react now snapshot event leaf transition).signals, signal.IsPlain := by
  unfold react
  split
  · exact List.forall_mem_nil _
  · dsimp only
    split
    · exact plain_settleFrom _ _
    · exact plain_settleFrom _ _
    · refine List.forall_mem_append.mpr ⟨plain_settleFrom _ _, ?_⟩
      simp only [List.forall_mem_cons, List.not_mem_nil, false_imp_iff, implies_true, and_true]
      exact ⟨Signal.isPlain_count 't' (by decide) (by decide) _, trivial⟩

theorem plain_dispatch (m : Interpreter) (now : Json) (event : String) :
    ∀ signal ∈ (m.dispatch now event).signals, signal.IsPlain := by
  have hcount (kind : String) (h : (kind.toList.head? == some 't') = true) :
      (Signal.count kind m.labels).IsPlain := Signal.isPlain_count 't' (eq_of_beq h) (by decide) _
  unfold dispatch
  split
  · exact List.forall_mem_nil _
  · split
    · refine plain_ignore (List.forall_mem_singleton.mpr ?_) _ _ _ _
      exact hcount "transition.absorbed" (by decide)
    · split
      · refine plain_ignore (List.forall_mem_singleton.mpr ?_) _ _ _ _
        exact trivial
      · split
        · refine plain_ignore (List.forall_mem_cons.mpr ⟨?_, ?_⟩) _ _ _ _
          · exact trivial
          · exact List.forall_mem_singleton.mpr (hcount "transition.unhandled" (by decide))
        · exact plain_react _ _ _ _ _

end Interpreter

namespace EventQueue

variable {α : Type} {q : EventQueue α} {capacity : Int}

theorem plain_highSignals {high : List Signal} (h : q.highSignals = .ok high) :
    ∃ notices : List Notice, (∀ notice ∈ notices, (Signal.log notice).IsPlain) ∧
      high = notices.map .log := by
  unfold highSignals at h
  split at h
  · split at h
    · cases h
    · split at h
      · split at h
        · cases h
        · cases h
          refine ⟨[.queueHigh q.lead q.depth q.capacity _], ?_, rfl⟩
          exact List.forall_mem_singleton.mpr trivial
      · cases h
        exact ⟨[], List.forall_mem_nil _, rfl⟩
  · cases h

/-- An event at the end of the line is reported with the depth. -/
theorem signals_append (q : EventQueue α) (item : α) (signals : List Signal) :
    ∃ notices : List Notice, (∀ notice ∈ notices, (Signal.log notice).IsPlain) ∧
      (q.append item signals).signals =
        signals ++ (q.append item signals).state.depthSignal :: notices.map .log := by
  rw [append_state]
  unfold append
  dsimp only
  split
  · rename_i high hhigh
    obtain ⟨notices, hplain, rfl⟩ := plain_highSignals hhigh
    exact ⟨notices, hplain, by simp⟩
  · exact ⟨[], List.forall_mem_nil _, rfl⟩

/-- The arrival of an event is reported with some notices, the drop that it costs, and the depth if
it is let in. -/
theorem signals_enqueue (hcapacity : q.capacity = .int capacity) (item : α) :
    ∃ before after : List Notice, (∀ notice ∈ before ++ after, (Signal.log notice).IsPlain) ∧
      (q.enqueue item).signals = before.map .log ++
        (List.replicate ((q.enqueue item).state.dropped - q.dropped)
          (.count "queue.dropped" q.labels) ++
        ((if letIn (q.enqueue item).result then [(q.enqueue item).state.depthSignal] else []) ++
        after.map .log)) := by
  have hfull : q.isFull = .ok (decide (capacity ≤ q.depth)) := by
    rw [isFull, hcapacity]
    rfl
  unfold enqueue
  rw [hfull]
  split
  · cases ‹_›
  · obtain ⟨notices, hplain, hsignals⟩ := q.signals_append item []
    refine ⟨[], notices, hplain, ?_⟩
    rw [letIn_append, hsignals, append_state]
    simp
  · split
    · rename_i kept _
      obtain ⟨notices, hplain, hsignals⟩ :=
        signals_append { q with line := kept, dropped := q.dropped + 1 } item
          [.log (.queueDropped q.lead), .count "queue.dropped" q.labels]
      refine ⟨[.queueDropped q.lead], notices, List.forall_mem_cons.mpr ⟨trivial, hplain⟩, ?_⟩
      rw [letIn_append, hsignals, append_state]
      simp
    · split
      · obtain ⟨notices, hplain, hsignals⟩ := q.signals_append item [.log (.queueGrowing q.lead)]
        refine ⟨[.queueGrowing q.lead], notices, List.forall_mem_cons.mpr ⟨trivial, hplain⟩, ?_⟩
        rw [letIn_append, hsignals, append_state]
        simp
      · refine ⟨[.queueRejected q.lead], [], List.forall_mem_singleton.mpr trivial, ?_⟩
        simp [letIn]

end EventQueue

namespace LeadsFile

theorem plain_load (disk : Disk) (route : Route) (version : Json) :
    ∀ signal ∈ (load disk route version).1, signal.IsPlain := by
  unfold load
  split
  · exact List.forall_mem_nil _
  · exact List.forall_mem_singleton.mpr trivial
  · split
    · exact List.forall_mem_singleton.mpr trivial
    · rename_i rejection _
      refine List.forall_mem_cons.mpr ⟨by cases rejection <;> exact trivial, ?_⟩
      exact List.forall_mem_singleton.mpr
        (Signal.isPlain_count 'p' (by decide) (by decide) _)

theorem plain_save (disk : Disk) (route : Route) (version now : Json) (leads : Entries Saved) :
    ∀ signal ∈ (save disk route version now leads).signals, signal.IsPlain := by
  unfold save
  split
  · exact List.forall_mem_singleton.mpr trivial
  · refine List.forall_mem_cons.mpr ⟨trivial, List.forall_mem_singleton.mpr ?_⟩
    exact Signal.isPlain_count 'p' (by decide) (by decide) _

end LeadsFile

end Lifecycle
