import Lifecycle.Proofs.Lead.Pausing

/-!
# After an opt-out

That a lead has opted out is kept in its leaf alone. As long as the lead does not write, events lead
from there beyond qualification, to stages from which none leads back (`Standing.isBeyond_move`), or
to a pause. A pause puts the branch on record and not the leaf, so its end leads to the first stage
of qualification, where outreach begins anew (`outreach_again`). This is the only way there
(`outreach_of_optedOut`).
-/

namespace Lifecycle.Lead

open LeadEvent (leadMessageSent conversationPaused conversationResumed)

namespace Standing

variable {standing : Standing} {event : LeadEvent} {goal : Stage} {text : String}
  {before between later : List Call} {pause call : Call}

/-! ## Steps -/

/-- Whether a lead is past qualification, or paused there. -/
def isBeyond (standing : Standing) : Bool :=
  match standing.stage with
  | .idle | .outreach | .engaged | .cold | .optedOut => false
  | .paused => standing.kept == some .intervention || standing.kept == some .conversion
  | _ => true

/-- The events from beyond qualification and from an opt-out, checked at all stages and records. -/
theorem beyond_table : ∀ stage ∈ Stage.all, ∀ kept ∈ none :: Branch.all.map some,
    ∀ event ∈ LeadEvent.all, event ≠ leadMessageSent →
      ∀ goal ∈ (Standing.mk stage false kept).goal? event,
        (Standing.mk stage false kept).isBeyond = true ∨ stage = .optedOut ∧ goal ≠ .paused →
          ((Standing.mk stage false kept).move event goal).isBeyond = true := by
  decide +kernel

/-- Unless the lead writes it stays beyond qualification; and unless it is paused it comes there
when it has opted out. -/
theorem isBeyond_move (hgoal : standing.goal? event = some goal) (hne : event ≠ leadMessageSent)
    (hfrom : standing.isBeyond = true ∨ standing.stage = .optedOut ∧ goal ≠ .paused) :
    (standing.move event goal).isBeyond = true := by
  obtain ⟨stage, muted, kept⟩ := standing
  exact beyond_table stage stage.mem_all kept (Branch.mem_all_kept kept) event event.mem_all hne
    goal hgoal hfrom

theorem isBeyond_hears (h : standing.isBeyond = true) (hne : text ≠ leadMessageSent.word) :
    (standing.hears text).isBeyond = true := by
  rcases standing.hears_cases text with hsame | ⟨event, goal, rfl, hgoal, hmove⟩
  · rwa [hsame]
  · rw [hmove]
    exact isBeyond_move hgoal (ne_of_apply_ne _ hne) (.inl h)

/-- A lead that has opted out stays so, is paused, or comes beyond qualification. -/
theorem hears_optedOut (h : standing.stage = .optedOut) (hne : text ≠ leadMessageSent.word) :
    standing.hears text = standing ∨
      (text = conversationPaused.word ∧
        standing.hears text = ⟨.paused, standing.muted, some .qualification⟩) ∨
      (standing.hears text).isBeyond = true := by
  rcases standing.hears_cases text with hsame | ⟨event, goal, rfl, hgoal, hmove⟩
  · exact .inl hsame
  · by_cases hpaused : goal = .paused
    · have hstage : (standing.hears event.word).stage = .paused := by rw [hmove]; exact hpaused
      rcases hears_eq_paused hstage with ⟨hbefore, -⟩ | ⟨hevent, branch, hbranch, hheard⟩
      · rw [h] at hbefore
        cases hbefore
      · rw [h] at hbranch
        obtain rfl := Option.some.inj hbranch
        exact .inr (.inl ⟨hevent, hheard⟩)
    · rw [hmove]
      exact .inr (.inr (isBeyond_move hgoal (ne_of_apply_ne _ hne) (.inr ⟨h, hpaused⟩)))

/-! ## Runs -/

/-- A lead that has opted out stays so for some calls, is paused, and stays so for others. -/
structure Interrupted (standing : Standing) (before : List Call) (pause : Call)
    (between : List Call) : Prop where
  event_eq : pause.event = conversationPaused.word
  out {front : List Call} : front <+: before → (standing.along front).stage = .optedOut
  waits {front : List Call} : front <+: between →
    (standing.along (before ++ pause :: front)).stage = .paused ∧
      (standing.along (before ++ pause :: front)).kept = some .qualification

/-- What can have become of a lead since it opted out. -/
inductive Since (standing : Standing) : List Call → Prop
  | out {later : List Call} :
    (∀ front, front <+: later → (standing.along front).stage = .optedOut) → Since standing later
  | paused {before between : List Call} {pause : Call} :
    standing.Interrupted before pause between → Since standing (before ++ pause :: between)
  | beyond {later : List Call} : (standing.along later).isBeyond = true → Since standing later
  | resumed {before between : List Call} {pause resume : Call} (after : List Call) :
    standing.Interrupted before pause between → resume.event = conversationResumed.word →
      (standing.along (before ++ pause :: (between ++ [resume]))).stage = .idle →
      Since standing (before ++ pause :: (between ++ resume :: after))

theorem Interrupted.wait (h : standing.Interrupted before pause between)
    (hsame : standing.along (before ++ pause :: (between ++ [call])) =
      standing.along (before ++ pause :: between)) :
    standing.Interrupted before pause (between ++ [call]) where
  event_eq := h.event_eq
  out := h.out
  waits hfront := by
    rcases List.prefix_concat_iff.mp hfront with rfl | hfront
    · rw [hsame]
      exact h.waits (List.prefix_refl between)
    · exact h.waits hfront

/-- One more call that is no message of the lead. -/
theorem Since.step (h : standing.Since later) (hne : call.event ≠ leadMessageSent.word) :
    standing.Since (later ++ [call]) := by
  -- An opt-out is left for a pause or for what is beyond it, and a pause for its end alone; the two
  -- other cases are closed under all calls.
  cases h with
  | out hout =>
    have hlast := hout later (List.prefix_refl later)
    have hstep := standing.along_concat later call
    rcases hears_optedOut hlast hne with hsame | ⟨hevent, hpaused⟩ | hbeyond
    · refine .out fun front hfront => ?_
      rcases List.prefix_concat_iff.mp hfront with rfl | hfront
      · rw [hstep, hsame, hlast]
      · exact hout front hfront
    · refine .paused ⟨hevent, hout _, fun hfront => ?_⟩
      rw [List.prefix_nil.mp hfront, hstep, hpaused]
      exact ⟨rfl, rfl⟩
    · exact .beyond (by rwa [hstep])
  | paused hinterrupted =>
    rename_i before between pause
    obtain ⟨hstage, hkept⟩ := hinterrupted.waits (List.prefix_refl between)
    have hstep := standing.along_concat (before ++ pause :: between) call
    rw [List.append_assoc, List.cons_append] at hstep ⊢
    by_cases hresume : call.event = conversationResumed.word
    · refine .resumed [] hinterrupted hresume ?_
      have hpaused : standing.along (before ++ pause :: between) =
          ⟨.paused, (standing.along (before ++ pause :: between)).muted, some .qualification⟩ := by
        rw [← hstage, ← hkept]
      rw [hstep, hresume, hpaused]
      exact congrArg Standing.stage (hears_resumed _ _)
    · exact .paused (hinterrupted.wait (hstep.trans (hears_of_paused hstage hresume)))
  | beyond hbeyond =>
    refine .beyond ?_
    rw [along_concat]
    exact isBeyond_hears hbeyond hne
  | resumed after hinterrupted hresume hidle =>
    rw [List.append_assoc, List.cons_append, List.append_assoc, List.cons_append]
    exact .resumed (after ++ [call]) hinterrupted hresume hidle

theorem since_along (h : standing.stage = .optedOut)
    (hsilent : ∀ call ∈ later, call.event ≠ leadMessageSent.word) : standing.Since later := by
  induction later using List.reverseRecOn with
  | nil => exact .out fun front hfront => by rw [List.prefix_nil.mp hfront]; exact h
  | append_singleton front call ih =>
    rw [List.forall_mem_append] at hsilent
    exact (ih hsilent.1).step (hsilent.2 call List.mem_cons_self)

/-- Outreach is come to from an opt-out by a pause alone. -/
theorem exists_interrupted (h : standing.stage = .optedOut)
    (hsilent : ∀ call ∈ later, call.event ≠ leadMessageSent.word)
    (hreached : (standing.along later).stage = .outreach) :
    ∃ before pause between resume after,
      later = before ++ pause :: (between ++ resume :: after) ∧
      standing.Interrupted before pause between ∧ resume.event = conversationResumed.word ∧
      (standing.along (before ++ pause :: (between ++ [resume]))).stage = .idle := by
  cases since_along h hsilent with
  | out hout =>
    rw [hout later (List.prefix_refl later)] at hreached
    cases hreached
  | paused hinterrupted =>
    rw [(hinterrupted.waits (List.prefix_refl _)).1] at hreached
    cases hreached
  | beyond hbeyond =>
    rw [isBeyond, hreached] at hbeyond
    cases hbeyond
  | resumed after hinterrupted hresume hidle =>
    exact ⟨_, _, _, _, after, rfl, hinterrupted, hresume, hidle⟩

end Standing

section Runs

variable {fresh : Interpreter} {given : Json} {name : Option String} {calls later : List Call}

/-- **Opt-outs.** A lead that has opted out, and does not write, is not in outreach again, whatever
else is sent, unless it is paused while it is still opted out and this pause is ended: then it
starts again as a lead that nothing has happened to. -/
theorem outreach_of_optedOut (hcreate : Interpreter.create chart given name = .ok fresh)
    (hout : (fresh.start.state.run calls).leafShown? = some "opted_out")
    (hsilent : ∀ call ∈ later, call.event ≠ "lead.message_sent")
    (hreached : (fresh.start.state.run (calls ++ later)).leafShown? = some "outreach") :
    ∃ before pause between resume after,
      later = before ++ pause :: (between ++ resume :: after) ∧
      pause.event = "conversation.paused" ∧ resume.event = "conversation.resumed" ∧
      (∀ front, front <+: before →
        (fresh.start.state.run (calls ++ front)).leafShown? = some "opted_out") ∧
      (∀ front, front <+: between →
        (fresh.start.state.run (calls ++ (before ++ pause :: front))).leafShown? =
          some "conversation_paused") ∧
      (fresh.start.state.run (calls ++ (before ++ pause :: (between ++ [resume])))).leafShown? =
        some "idle" := by
  obtain ⟨muted, hrests⟩ := exists_rests hcreate
  have hshows (more : List Call) (stage : Stage) :
      (fresh.start.state.run (calls ++ more)).leafShown? = some stage.key ↔
        (((Standing.new muted).along calls).along more).stage = stage := by
    rw [leafShown?_iff (hrests (calls ++ more)), Standing.along_append]
  have hstage : ((Standing.new muted).along calls).stage = .optedOut :=
    (leafShown?_iff (hrests calls)).mp hout
  obtain ⟨before, pause, between, resume, after, rfl, hinterrupted, hresume, hidle⟩ :=
    Standing.exists_interrupted hstage hsilent ((hshows later .outreach).mp hreached)
  exact ⟨before, pause, between, resume, after, rfl, hinterrupted.event_eq, hresume,
    fun front hfront => (hshows _ .optedOut).mpr (hinterrupted.out hfront),
    fun front hfront => (hshows _ .paused).mpr (hinterrupted.waits hfront).1,
    (hshows _ .idle).mpr hidle⟩

end Runs

/-- A lead writes, and opts out. -/
def optingOut : List Call := [⟨.int 0, "lead.message_sent"⟩, ⟨.int 0, "lead.opted_out"⟩]

/-- A pause, its end, and a message of the agent. -/
def interruption : List Call :=
  [⟨.int 0, "conversation.paused"⟩, ⟨.int 0, "conversation.resumed"⟩,
    ⟨.int 0, "agent.message_sent"⟩]

set_option maxRecDepth 10000 in
theorem interruption_shows : ((Interpreter.create chart .null none).toOption.map fun fresh =>
    ((fresh.start.state.run optingOut).leafShown?,
      (fresh.start.state.run (optingOut ++ interruption)).leafShown?)) =
    some (some "opted_out", some "outreach") := by
  decide +kernel

/-- Outreach that is come to by a pause. -/
theorem outreach_of_optedOut_interruption :
    ∃ fresh, Interpreter.create chart .null none = .ok fresh ∧
      (fresh.start.state.run optingOut).leafShown? = some "opted_out" ∧
      (∀ call ∈ interruption, call.event ≠ "lead.message_sent") ∧
      (fresh.start.state.run (optingOut ++ interruption)).leafShown? = some "outreach" ∧
      ∃ before pause between resume after,
        interruption = before ++ pause :: (between ++ resume :: after) ∧
        (fresh.start.state.run
          (optingOut ++ (before ++ pause :: (between ++ [resume])))).leafShown? = some "idle" := by
  obtain ⟨fresh, hcreate, hshown⟩ := Option.map_eq_some_iff.mp interruption_shows
  obtain ⟨hout, hreached⟩ := Prod.mk.inj hshown
  have hsilent : ∀ call ∈ interruption, call.event ≠ "lead.message_sent" := by decide
  obtain ⟨before, pause, between, resume, after, heq, -, -, -, -, hidle⟩ :=
    outreach_of_optedOut (eq_ok_of_toOption hcreate) hout hsilent hreached
  exact ⟨fresh, eq_ok_of_toOption hcreate, hout, hsilent, hreached, before, pause, between, resume,
    after, heq, hidle⟩

/-- A lead that has opted out and has not written since is in outreach again. -/
theorem outreach_again :
    ∃ fresh, Interpreter.create chart .null none = .ok fresh ∧
      (fresh.start.state.run optingOut).leafShown? = some "opted_out" ∧
      (∀ call ∈ interruption, call.event ≠ "lead.message_sent") ∧
      (fresh.start.state.run (optingOut ++ interruption)).leafShown? = some "outreach" := by
  obtain ⟨fresh, hcreate, hshown⟩ := Option.map_eq_some_iff.mp interruption_shows
  obtain ⟨hout, hreached⟩ := Prod.mk.inj hshown
  exact ⟨fresh, eq_ok_of_toOption hcreate, hout, by decide, hreached⟩

end Lifecycle.Lead
