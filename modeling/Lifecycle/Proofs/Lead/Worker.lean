import Lifecycle.Proofs.Lead.Manager

/-!
# What a worker does in a turn

Where no lead is removed, a turn is told by the queues. A worker that finds an event in the queue it
has claimed sends it on (`Worker.takeEvent_of_some`); one that finds none gives the queue back
(`Worker.takeEvent_of_nil`) and looks for another, which it claims only if there is an event in it
(`Worker.seek_cases`).
-/

namespace Lifecycle.Worker

open Manager

variable {m : Manager} {lead event : String} {box : Mailbox} {agent : Agent}

/-- A queue without events is given back. -/
theorem takeEvent_of_nil (h : m.Orderly) (hbox : m.mailbox? lead = some box)
    (hitems : box.queue.items = []) (w : Worker) :
    takeEvent m w lead box.ticket =
      (m.setQueue lead box.ticket { box.queue with processing := false },
        { w with claim := none }, none) := by
  obtain ⟨-, hdequeue⟩ | ⟨line, first, hcons, -⟩ := box.queue.dequeue_cases
  · have hsame : (m.putMailbox ⟨box.ticket, box.queue⟩).report [] = m := by
      rw [h.putMailbox_eq hbox, setQueue, Entries.set_self hbox]
      rfl
    unfold takeEvent release
    simp only [h.mailboxOf?_eq hbox, Option.map_some, hdequeue, hsame, h.mark_eq hbox]
  · rw [hitems] at hcons
    cases hcons

/-- The event that is taken from a queue is sent on. -/
theorem takeEvent_of_some (h : m.Orderly) (hcalm : m.Calm) (hbox : m.mailbox? lead = some box)
    (hresult : box.queue.dequeue.result = .ok (some event)) (hagent : m.agent? lead = some agent)
    (hshows : Interpreter.Shows (agent.interpreter.dispatch m.now event) Verdict.snapshot)
    (w : Worker) :
    ∃ m', takeEvent m w lead box.ticket = (m', { w with count := w.count + 1 }, some .yielded) ∧
      m.Follows m' ∧
      m'.queueOf = Function.update m.queueOf lead box.queue.dequeue.state ∧
      m'.interpreterOf = Function.update m.interpreterOf lead
        (agent.interpreter.dispatch m.now event).state := by
  have hqueue := h.follows_setQueue hbox box.queue.dequeue.state
  have halike := alike_report (m.setQueue lead box.ticket box.queue.dequeue.state)
    box.queue.dequeue.signals
  have hfollows := hqueue.trans (halike.follows hqueue.orderly)
  have hagent' : ((m.setQueue lead box.ticket box.queue.dequeue.state).report
      box.queue.dequeue.signals).agent? lead = some agent := hagent
  obtain ⟨hdeliver, snapshot, hok⟩ :=
    hfollows.orderly.deliver_spec (hfollows.calm hcalm) hagent' hshows
  have hcall := hfollows.orderly.follows_setInterpreter hagent'
    (agent.interpreter.dispatch m.now event).state
  refine ⟨_, ?_, (hfollows.trans hcall).trans (hdeliver.follows hcall.orderly), ?_, ?_⟩
  · unfold takeEvent
    simp only [h.mailboxOf?_eq hbox, Option.map_some, hresult, h.putMailbox_eq hbox, hagent']
    rcases hresponse : deliver _ agent event with ⟨m', result⟩
    rw [hresponse] at hok
    obtain rfl : result = .ok snapshot := hok
    rfl
  · rw [hdeliver.queueOf_eq, ← queueOf_setQueue m lead box.ticket]
    exact halike.queueOf_eq
  · rw [hdeliver.interpreterOf_eq, interpreterOf_setInterpreter, halike.interpreterOf_eq]
    rfl

/-- Without a claim, a worker claims the first queue that is free and has an event, or is done. -/
theorem seek_cases (h : m.Orderly) {w : Worker} (hclaim : w.claim = none) (leads : List String) :
    seek leads m w = (m, { w with remaining := some [] }, .finished) ∨
      ∃ lead box rest, m.mailbox? lead = some box ∧ box.queue.processing = false ∧
        box.queue.items ≠ [] ∧
        ∀ m' w' turn, takeEvent
            (m.setQueue lead box.ticket { box.queue with processing := true })
            { w with claim := some (lead, box.ticket), remaining := some rest } lead box.ticket =
              (m', w', some turn) →
          seek leads m w = (m', w', turn) := by
  induction leads generalizing w with
  | nil => exact .inl rfl
  | cons lead rest ih =>
    rcases hbox : m.mailbox? lead with _ | box
    · simp only [seek, hbox]
      exact ih hclaim
    · by_cases hprocessing : box.queue.processing = true
      · simp only [seek, hbox, if_pos hprocessing]
        exact ih hclaim
      · have hfree : box.queue.processing = false := Bool.eq_false_iff.mpr hprocessing
        by_cases hitems : box.queue.items = []
        · -- The queue is claimed and given back at once, which leaves the manager as it was.
          have hmarked := h.follows_setQueue hbox { box.queue with processing := true }
          have hbox' := (mailbox?_setQueue m lead lead box.ticket
            { box.queue with processing := true }).trans (if_pos rfl)
          have htake := takeEvent_of_nil hmarked.orderly hbox' hitems
            { w with claim := some (lead, box.ticket), remaining := some rest }
          have hback : (m.setQueue lead box.ticket { box.queue with processing := true }).setQueue
              lead box.ticket { box.queue with processing := false } = m := by
            rw [setQueue, setQueue, Entries.set_set, ← hfree, Entries.set_self hbox]
          dsimp only at htake
          simp only [seek, hbox, if_neg hprocessing, h.mark_eq hbox, htake, hback]
          have hnext : Worker.claim { w with claim := none, remaining := some rest } = none := rfl
          exact (ih hnext).imp_left fun hdone => by rw [hdone, hclaim]
        · refine .inr ⟨lead, box, rest, hbox, hfree, hitems, fun m' w' turn htake => ?_⟩
          simp only [seek, hbox, if_neg hprocessing, h.mark_eq hbox, htake]

end Lifecycle.Worker
