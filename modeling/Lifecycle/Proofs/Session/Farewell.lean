import Lifecycle.Proofs.Session.Acting

/-!
# Who is called after a stop

To stop a run takes away its observers, but not from the notifications that are under way: these go
over the observers who were registered when they began. So who stops the run from inside a
notification, or from inside one that an observer has brought about, does not keep those who stand
behind from being called. The notifications under way are read off the trace (`underWay`). Whatever
observers and callbacks do, those called after a stop are those whom the notifications under way
still owe a call, the innermost first, each once (`called_after_stop`); with a stop from outside
nobody is.
-/

namespace Lifecycle

/-- The observer that is called, with the snapshot that it is shown. -/
def Happening.called? : Happening → Option (String × Snapshot)
  | .calls label snapshot _ => some (label, snapshot)
  | _ => none

/-- Whether something else happens than a stop. -/
def Happening.isOther : Happening → Bool
  | .stops => false
  | _ => true

namespace Session

/-- Observers that are called, or are to be, each with the snapshot that it is shown. -/
abbrev Calls := List (String × Snapshot)

/-- Calls with a snapshot, one for each label. -/
def owed (snapshot : Snapshot) (labels : List String) : Calls :=
  labels.map fun label => (label, snapshot)

/-- The notifications under way after something has happened, by the calls that they still owe. -/
def track (stack : List Calls) : Happening → List Calls
  | .calls _ snapshot others => owed snapshot others :: stack
  | .returns => stack.tail
  | .stops | .cutOff => stack

/-- The notifications under way after all this has happened, the innermost first. -/
def underWay (stack : List Calls) (T : List Happening) : List Calls := T.foldl track stack

/-- The calls of observers, in order. -/
def called (T : List Happening) : Calls := T.filterMap Happening.called?

/-- What there is to be noted of the calls of a label. -/
def notedOf (label : String) (T : List Happening) : List (String × Nat) :=
  ((called T).filter (·.1 == label)).map fun call => noted call.2

variable {conduct : Conduct} {send : Sender} {trace : Tracer} {levels : Nat}
  {s s' s₁ s₂ : Session} {label : String} {snapshot : Snapshot} {others : List String}
  {stack : List Calls} {due : Calls}
  {T T' A N earlier later : List Happening}

@[simp] theorem called_nil : called [] = [] := rfl

@[simp] theorem called_calls : called (.calls label snapshot others :: T) =
    (label, snapshot) :: called T := rfl

@[simp] theorem called_returns : called (.returns :: T) = called T := rfl

@[simp] theorem called_append : called (T ++ T') = called T ++ called T' :=
  List.filterMap_append

@[simp] theorem underWay_append : underWay stack (T ++ T') = underWay (underWay stack T) T' :=
  List.foldl_append

theorem notedOf_append : notedOf label (T ++ T') = notedOf label T ++ notedOf label T' := by
  rw [notedOf, called_append, List.filter_append, List.map_append]
  rfl

theorem append_eq_append_stops (h : T ++ T' = earlier ++ .stops :: later) :
    (∃ inner, T = earlier ++ .stops :: inner ∧ later = inner ++ T') ∨
      ∃ inner, earlier = T ++ inner ∧ T' = inner ++ .stops :: later := by
  rcases List.append_eq_append_iff.mp h with h | ⟨inner, hT, hlater⟩
  · exact .inr h
  · rcases List.cons_eq_append_iff.mp hlater with ⟨rfl, hT'⟩ | ⟨inner, rfl, hrest⟩
    · exact .inr ⟨[], by rw [hT, List.append_nil, List.append_nil], hT'⟩
    · exact .inl ⟨inner, hT, hrest⟩

/-! ## Calls that are owed -/

/-- Who is called are some of those that are owed a call, in order, and all of them unless a
notification ends early. -/
structure Settles (due : Calls) (T : List Happening) : Prop where
  sublist : (called T).Sublist due
  all : .cutOff ∉ T → called T = due

namespace Settles

theorem nil : Settles [] [] := ⟨.slnil, fun _ => rfl⟩

theorem append {due' : Calls} (h : Settles due T) (h' : Settles due' T') :
    Settles (due ++ due') (T ++ T') := by
  refine ⟨?_, fun hcut => ?_⟩
  · rw [called_append]
    exact h.sublist.append h'.sublist
  · obtain ⟨hcut, hcut'⟩ := not_or.mp (List.mem_append.not.mp hcut)
    rw [called_append, h.all hcut, h'.all hcut']

theorem called_eq_nil (h : Settles [] T) : called T = [] := List.sublist_nil.mp h.sublist

theorem cons (h : Settles due T) {happening : Happening} (hnobody : happening.called? = none) :
    Settles due (happening :: T) := by
  have hcalled : called (happening :: T) = called T := List.filterMap_cons_none hnobody
  exact ⟨hcalled ▸ h.sublist, fun hcut =>
    hcalled.trans (h.all fun hmem => hcut (List.mem_cons_of_mem _ hmem))⟩

theorem calls (h : Settles due T) : Settles ((label, snapshot) :: due)
    (.calls label snapshot others :: T) := by
  refine ⟨h.sublist.cons_cons _, fun hcut => ?_⟩
  rw [called_calls, h.all fun hmem => hcut (List.mem_cons_of_mem _ hmem)]

end Settles

/-! ## Stretches of a run -/

/-- What is known of a stretch of a run, whatever happens in it. Each call that begins in it ends in
it. A run that is stopped, before or meanwhile, stays so; if it has been stopped before, those who
are called are those that are owed a call; and after a stop meanwhile they are those whom the
notifications under way owe one. -/
structure Proceeds (s : Session) (due : Calls) (T : List Happening)
    (s' : Session) : Prop where
  balanced (stack : List Calls) : underWay stack T = stack
  stopped : s.interpreter.status = .stopped ∨ .stops ∈ T → s'.interpreter.status = .stopped
  rest : s.interpreter.status = .stopped → Settles due T
  farewell {earlier later : List Happening} : T = earlier ++ .stops :: later →
    (∀ stack, underWay stack earlier = underWay [] earlier ++ stack) ∧
      Settles (underWay [] earlier).flatten later
  heard (label : String) : s'.heard label = s.heard label ++ notedOf label T

namespace Proceeds

/-- A step of which nobody hears. -/
theorem quiet (hstatus : s.interpreter.status = .stopped → s'.interpreter.status = .stopped)
    (hheard : ∀ label, s'.heard label = s.heard label) : Proceeds s [] [] s' where
  balanced _ := rfl
  stopped h := hstatus (h.resolve_right List.not_mem_nil)
  rest _ := .nil
  farewell h := by simp at h
  heard label := (hheard label).trans (List.append_nil _).symm

theorem refl (s : Session) : Proceeds s [] [] s := quiet id fun _ => rfl

theorem unsubscribe (s : Session) (label : String) : Proceeds s [] [] (s.unsubscribe label).1 :=
  quiet (fun h => (s.interpreter_unsubscribe label).symm ▸ h) fun _ => s.heard_unsubscribe label

theorem stop (s : Session) : Proceeds s [] s.traceStop s.stop := by
  have hstopped : s.stop.interpreter.status = .stopped := by
    rw [interpreter_stop, s.interpreter.stop_status]
  unfold traceStop
  split
  · exact quiet (fun _ => hstopped) fun _ => s.heard_stop
  · refine ⟨fun _ => rfl, fun _ => hstopped, fun _ => .cons .nil rfl, fun h => ?_, fun label => ?_⟩
    · rcases List.cons_eq_append_iff.mp h with ⟨rfl, hlater⟩ | ⟨inner, -, hlater⟩
      · obtain rfl := (List.cons.inj hlater).2
        exact ⟨fun _ => rfl, .nil⟩
      · simp at hlater
    · exact s.heard_stop.trans (List.append_nil _).symm

theorem trans (h : Proceeds s [] T s₁) (h' : Proceeds s₁ [] T' s₂) :
    Proceeds s [] (T ++ T') s₂ where
  balanced stack := by rw [underWay_append, h.balanced, h'.balanced]
  stopped hstopped := by
    rw [List.mem_append, ← or_assoc] at hstopped
    exact h'.stopped (hstopped.imp_left h.stopped)
  rest hstopped := (h.rest hstopped).append (h'.rest (h.stopped (.inl hstopped)))
  farewell hsplit := by
    rcases append_eq_append_stops hsplit with ⟨inner, rfl, rfl⟩ | ⟨inner, rfl, hT'⟩
    · obtain ⟨hstack, hsettles⟩ := h.farewell rfl
      have hall := hsettles.append
        (h'.rest (h.stopped (.inr (List.mem_append_right _ List.mem_cons_self))))
      rw [List.append_nil] at hall
      exact ⟨hstack, hall⟩
    · obtain ⟨hstack, hsettles⟩ := h'.farewell hT'
      simp only [underWay_append, h.balanced]
      exact ⟨hstack, hsettles⟩
  heard label := by rw [h'.heard, h.heard, notedOf_append, List.append_assoc]

/-- An observer is called and acts, and then the others are called. -/
theorem call (h : Proceeds { s with
      notes := s.notes ++ [.changed label snapshot.value snapshot.version] } [] A s₁)
    (h' : Proceeds s₁ (owed snapshot others) N s') :
    Proceeds s (owed snapshot (label :: others))
      (.calls label snapshot others :: A ++ .returns :: N) s' := by
  have hbalanced (stack : List Calls) :
      underWay stack (.calls label snapshot others :: A) = owed snapshot others :: stack :=
    h.balanced _
  exact {
    balanced stack := by
      rw [underWay_append, hbalanced]
      exact h'.balanced stack
    stopped hstopped := by
      refine h'.stopped ?_
      simp only [List.cons_append, List.mem_cons, List.mem_append, reduceCtorEq, false_or,
        ← or_assoc] at hstopped
      exact hstopped.imp_left h.stopped
    rest hstopped := by
      have hrest : Settles (owed snapshot others) (.returns :: N) :=
        (h'.rest (h.stopped (.inl hstopped))).cons rfl
      exact ((h.rest hstopped).append hrest).calls
    farewell hsplit := by
      rcases append_eq_append_stops hsplit with ⟨inner, hA, rfl⟩ | ⟨inner, rfl, hN⟩
      -- The observer itself stops the run, or what it brings about does.
      · rcases List.cons_eq_append_iff.mp hA with ⟨-, hcalls⟩ | ⟨inside, rfl, rfl⟩
        · simp at hcalls
        · obtain ⟨hstack, hsettles⟩ := h.farewell rfl
          have hrest := h'.rest (h.stopped (.inr (List.mem_append_right _ List.mem_cons_self)))
          have hinside (stack : List Calls) :
              underWay stack (.calls label snapshot others :: inside) =
                underWay [] inside ++ owed snapshot others :: stack := hstack _
          refine ⟨fun stack => ?_, ?_⟩
          · rw [hinside, hinside, List.append_assoc]
            rfl
          · rw [hinside, List.flatten_append, List.flatten_singleton]
            exact hsettles.append (hrest.cons rfl)
      -- The run is stopped when the others are called.
      · rcases List.cons_eq_append_iff.mp hN with ⟨-, hreturns⟩ | ⟨behind, rfl, rfl⟩
        · simp at hreturns
        · obtain ⟨hstack, hsettles⟩ := h'.farewell rfl
          have hbehind (stack : List Calls) :
              underWay stack (.calls label snapshot others :: A ++ .returns :: behind) =
                underWay stack behind := by
            rw [underWay_append, hbalanced]
            rfl
          simp only [hbehind]
          exact ⟨hstack, hsettles⟩
    heard other := by
      rw [h'.heard, h.heard, heard_changed, notedOf_append, List.append_assoc, List.append_assoc]
      by_cases hother : label = other <;> simp [notedOf, hother] }

/-- A notification that ends early calls nobody any more. -/
theorem cutOff (s : Session) (due : Calls) :
    Proceeds s due [.cutOff] s where
  balanced _ := rfl
  stopped h := h.resolve_right (by simp)
  rest _ := ⟨List.nil_sublist _, fun hcut => absurd List.mem_cons_self hcut⟩
  farewell h := by
    rcases List.cons_eq_append_iff.mp h with ⟨-, hlater⟩ | ⟨inner, -, hlater⟩ <;> simp at hlater
  heard _ := (List.append_nil _).symm

theorem report (h : Proceeds s due T s') (signals : List Signal) :
    Proceeds s due T (s'.report signals) :=
  ⟨h.balanced, h.stopped, h.rest, h.farewell, h.heard⟩

theorem of_report {signals : List Signal} (h : Proceeds (s.report signals) due T s') :
    Proceeds s due T s' :=
  ⟨h.balanced, h.stopped, h.rest, h.farewell, h.heard⟩

/-- Where an event is handled on a run that is not stopped, the calls that are owed after it are
those that the event brings about. -/
theorem of_handled {event : String} (h : Proceeds (s.handled event) due T s')
    (hstatus : s.interpreter.status ≠ .stopped) : Proceeds s [] T s' :=
  ⟨h.balanced, fun hstopped => h.stopped (.inr (hstopped.resolve_left hstatus)),
    fun hstopped => absurd hstopped hstatus, h.farewell, h.heard⟩

end Proceeds

/-! ## Events and requests -/

theorem heard_noteIgnored (s : Session) (diagnostic : Diagnostic) (label : String) :
    (s.noteIgnored diagnostic).heard label = s.heard label := by
  simp [heard, noteIgnored]

section Acting

variable (hsend : ∀ (event : String) (s : Session),
  Proceeds s [] (trace event s) (send event s).1)

include hsend

theorem proceeds_perform (commands : List Command) (s : Session) :
    Proceeds s [] (tracePerform send trace commands s) (perform send commands s).1 := by
  induction commands generalizing s with
  | nil => exact .refl s
  | cons command rest ih =>
    cases command with
    | fail text => exact .refl s
    | leave label =>
      have hleave := Proceeds.unsubscribe s label
      rw [perform, tracePerform]
      generalize s.unsubscribe label = left at hleave ⊢
      obtain ⟨after, _ | fault⟩ := left
      · exact hleave.trans (ih after)
      · exact hleave
    | send event =>
      have hsent := hsend event s
      rw [perform, tracePerform]
      generalize send event s = sent at hsent ⊢
      obtain ⟨after, fault | shown⟩ := sent
      · exact hsent.trans (.refl after)
      · exact hsent.trans (ih after)
    | stop => exact (Proceeds.stop s).trans (ih s.stop)

theorem proceeds_notify (levels : Nat) (snapshot : Snapshot) (labels : List String) (s : Session) :
    Proceeds s (owed snapshot labels) (traceNotify send trace levels snapshot labels s)
      (notify send levels snapshot labels s).1 := by
  induction labels generalizing s with
  | nil => exact .refl s
  | cons label rest ih =>
    have htold : Proceeds { s with
        notes := s.notes ++ [.changed label snapshot.value snapshot.version] } []
        (traceTell send trace snapshot label s) (tell send snapshot label s).1 :=
      proceeds_perform hsend (s.commandsOf snapshot label) _
    rw [notify, traceNotify]
    generalize tell send snapshot label s = told at htold ⊢
    obtain ⟨after, _ | fault⟩ := told
    · exact htold.call (ih after)
    · dsimp only
      split
      · exact htold.call (ih _).of_report
      · exact htold.call (.cutOff after _)

theorem proceeds_tellActing (conduct : Conduct) (levels : Nat) (s : Session)
    (diagnostic : Diagnostic) :
    Proceeds s [] (traceUnhandled conduct send trace s diagnostic)
      (tellActing conduct send levels s diagnostic).1 := by
  have hnoted : Proceeds s [] [] (s.noteIgnored diagnostic) :=
    .quiet id (s.heard_noteIgnored diagnostic)
  have hacted := hnoted.trans
    (proceeds_perform hsend (conduct diagnostic) (s.noteIgnored diagnostic))
  unfold traceUnhandled tellActing
  generalize perform send (conduct diagnostic) (s.noteIgnored diagnostic) = performed at hacted ⊢
  obtain ⟨acted, fault⟩ := performed
  rcases s.onUnhandled with _ | callback
  · exact .refl s
  · dsimp only
    rcases fault.or (callback diagnostic) with _ | fault
    · exact hacted
    · dsimp only
      split
      · exact hacted.report _
      · exact hacted

end Acting

/-- What happens in the course of an event. -/
theorem proceeds_sendActing (conduct : Conduct) (levels : Nat) (event : String) (s : Session) :
    Proceeds s [] (traceSend conduct levels event s) (sendActing conduct levels event s).1 := by
  induction levels generalizing event s with
  | zero =>
    refine .quiet (fun hstopped => ?_) fun _ => rfl
    show (s.interpreter.strain s.telemetry.heard event).1.status = .stopped
    unfold Interpreter.strain
    split
    · exact hstopped
    · rw [if_pos (by rw [hstopped]; exact Status.noConfusion)]
      exact hstopped
  | succ levels ih =>
    have hhandled : Proceeds s [] [] (s.handled event) :=
      .quiet (fun h => s.interpreter.serve_of_stopped h (.send ⟨s.now, event⟩)) fun _ => rfl
    rw [traceSend, sendActing]
    rcases hresult : (s.interpreter.dispatch s.now event).result with
      fault | ⟨snapshot, _ | _⟩ | ⟨snapshot, diagnostic⟩
    · exact hhandled
    · exact hhandled
    · have hrunning : s.interpreter.status ≠ .stopped := fun hstopped =>
        Interpreter.not_idle_of_handled hresult (.inl (by rw [hstopped]; exact Status.noConfusion))
      have hnotified :=
        proceeds_notify ih levels snapshot (s.handled event).observers (s.handled event)
      dsimp only
      exact hnotified.of_handled hrunning
    · have hacted := hhandled.trans (proceeds_tellActing ih conduct levels _ diagnostic)
      dsimp only
      generalize tellActing conduct _ levels (s.handled event) diagnostic = told at hacted ⊢
      obtain ⟨after, _ | fault⟩ := told
      · exact hacted
      · exact hacted

theorem proceeds_serveActing (levels : Nat) (s : Session) (asked : Conduct × Request) :
    Proceeds s [] (s.traceServe levels asked) (s.serveActing levels asked) := by
  obtain ⟨conduct, request⟩ := asked
  cases request with
  | start => exact .quiet (fun h => s.interpreter.serve_of_stopped h .start) fun _ => rfl
  | send event => exact proceeds_sendActing conduct levels event s
  | stop => exact .stop s
  | unsubscribe label => exact .unsubscribe s label
  | _ => exact .quiet id fun _ => rfl

theorem proceeds_serveAllActing (levels : Nat) (s : Session) (asked : List (Conduct × Request)) :
    Proceeds s [] (traceServeAll levels s asked) (s.serveAllActing levels asked) := by
  induction asked generalizing s with
  | nil => exact .refl s
  | cons first rest ih => exact (proceeds_serveActing levels s first).trans (ih _)

/-- **Who is called after a stop.** Observers and callbacks for ignored events may fail, cancel
registrations, send events and stop the run, with any number of levels of events nested. Observers
hear of what they are called with. After a run that had begun has been stopped, at whatever point of
whichever requests, those who are called are those whom the notifications then under way still owe a
call, the innermost first, each once and with the snapshot of its notification; all of them are,
unless there is no room for a message. If the stop is one of the requests nobody is. -/
theorem called_after_stop (levels : Nat) (s : Session) (asked : List (Conduct × Request)) :
    (∀ label, (s.serveAllActing levels asked).heard label =
      s.heard label ++ notedOf label (traceServeAll levels s asked)) ∧
    (∀ earlier later, traceServeAll levels s asked = earlier ++ .stops :: later →
      (called later).Sublist (underWay [] earlier).flatten ∧
        (.cutOff ∉ later → called later = (underWay [] earlier).flatten)) ∧
    ∀ (conduct : Conduct) (later : List (Conduct × Request)),
      called (traceServeAll levels (s.serveAllActing levels (asked ++ [(conduct, .stop)])) later) =
        [] := by
  have h := proceeds_serveAllActing levels s asked
  refine ⟨h.heard, fun earlier later hsplit => ?_, fun conduct later => ?_⟩
  · obtain ⟨-, hsettles⟩ := h.farewell hsplit
    exact ⟨hsettles.sublist, hsettles.all⟩
  · refine ((proceeds_serveAllActing levels _ later).rest ?_).called_eq_nil
    rw [serveAllActing, List.foldl_concat]
    show (Session.stop _).interpreter.status = .stopped
    rw [interpreter_stop, Interpreter.stop_status]

/-- What happens before the first stop. -/
def untilStop (T : List Happening) : List Happening := T.takeWhile Happening.isOther

/-- What happens after the first stop. -/
def sinceStop (T : List Happening) : List Happening := (T.dropWhile Happening.isOther).tail

theorem eq_untilStop_append (h : T.all Happening.isOther = false) :
    T = untilStop T ++ .stops :: sinceStop T := by
  induction T with
  | nil => cases h
  | cons first rest ih =>
    cases first with
    | stops => rfl
    | _ => exact congrArg _ (ih h)

/-- Calls by labels and the values of snapshots. -/
def byValue (calls : Calls) : List (String × String) :=
  calls.map fun call => (call.1, call.2.value)

/-- A run in the course of which an observer who is told first sends the event again, and ignored
events are noticed. -/
def dismissed : Session := { relaying ["relay", "clerk"] with onUnhandled := some fun _ => none }

/-- What happens where the callback for ignored events stops the run. -/
def dismissal : List Happening :=
  traceServeAll nestingLimit dismissed [(fun _ => [.stop], .send "go")]

set_option maxRecDepth 10000 in
/-- The event that the observer sends the second time is ignored, and the run is stopped. Two
notifications are under way, and the other observer hears of the inner change and of the outer
one. -/
theorem called_after_stop_dismissed :
    ∃ earlier later, dismissal = earlier ++ .stops :: later ∧ .cutOff ∉ later ∧
      byValue (called later) = [("clerk", "c"), ("clerk", "b")] := by
  have hsplit : dismissal = untilStop dismissal ++ .stops :: sinceStop dismissal :=
    eq_untilStop_append (by decide +kernel)
  have hcut : (sinceStop dismissal).all (fun happening => !happening matches .cutOff) = true := by
    decide +kernel
  have hroom : .cutOff ∉ sinceStop dismissal :=
    fun hmem => absurd (List.all_eq_true.mp hcut _ hmem) Bool.false_ne_true
  obtain ⟨-, hstop, -⟩ :=
    called_after_stop nestingLimit dismissed [(fun _ => [.stop], .send "go")]
  have hcalled := (hstop _ _ hsplit).2 hroom
  have howed : byValue (underWay [] (untilStop dismissal)).flatten =
      [("clerk", "c"), ("clerk", "b")] := by decide +kernel
  exact ⟨_, _, hsplit, hroom, (congrArg byValue hcalled).trans howed⟩

/-- A run that an observer stops who is told first. -/
def dissolved : Session :=
  { relaying ["chair", "clerk"] with reactions := [("chair", fun _ => [.stop])] }

/-- What happens where the run is stopped by the observer who is told first. -/
def dissolution : List Happening := traceSend (fun _ => []) nestingLimit "go" dissolved

set_option maxRecDepth 10000 in
/-- Two observers are registered, of whom the first stops the run. Once it is stopped, the second is
called. -/
theorem stop_spares_clerk :
    passing.Built ∧ dissolved.interpreter.status = .running ∧
      dissolved.observers = ["chair", "clerk"] ∧
      (∃ earlier later, dissolution = earlier ++ .stops :: later ∧
        byValue (called later) = [("clerk", "b")]) ∧
      (dissolved.send "go").1.interpreter.status = .stopped ∧
      (dissolved.send "go").1.heard "clerk" = [("b", 0)] := by
  have hsplit : dissolution = untilStop dissolution ++ .stops :: sinceStop dissolution :=
    eq_untilStop_append (by decide +kernel)
  have hcalled : byValue (called (sinceStop dissolution)) = [("clerk", "b")] := by decide +kernel
  exact ⟨Chart.built_ofDeclaration (by decide +kernel) (by decide +kernel), by decide +kernel, rfl,
    ⟨_, _, hsplit, hcalled⟩, by decide +kernel, by decide +kernel⟩

end Session

end Lifecycle
