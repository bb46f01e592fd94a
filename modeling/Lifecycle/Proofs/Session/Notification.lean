import Lifecycle.Proofs.Interpreter.Settling
import Lifecycle.Session
import Mathlib.Data.List.Induction
import Mathlib.Data.List.Perm.Basic

/-!
# In which order observers hear of changes

An event that an observer sends is handled before the notification goes on, and brings about a
notification of its own. What happens in the course of an event is told by its chronicle: which
changed snapshots became current, and which observer was shown which. Observers who stay hear of
every change, once for each time they are registered; those who have nobody who sends events before
them hear of the changes in the order in which they came about (`sendWithin_hears`). An observer who
stands behind one who sends hears of an inner change before the outer one (`hears_backwards`).
-/

namespace Lifecycle

/-- What happens in the course of an event. -/
inductive Occurrence where
  /-- A changed snapshot has become current. -/
  | shown (snapshot : Snapshot)
  /-- An observer is shown a snapshot. -/
  | told (label : String) (snapshot : Snapshot)
  /-- Events are nested too deeply for a notification to begin or to go on. -/
  | cutOff

namespace Occurrence

/-- The snapshot that has become current. -/
def shown? : Occurrence → Option Snapshot
  | .shown snapshot => some snapshot
  | _ => none

/-- The snapshot that a label is shown. -/
def toldTo? (label : String) : Occurrence → Option Snapshot
  | .told other snapshot => if other = label then some snapshot else none
  | _ => none

end Occurrence

namespace Session

/-! ## Chronicles -/

/-- What happens when an event is sent. -/
abbrev Chronicler := String → Session → List Occurrence

/-- What an observer does on hearing of a snapshot. -/
def commandsOf (s : Session) (snapshot : Snapshot) (label : String) : List Command :=
  ((Entries.get? s.reactions label).map fun reaction => reaction snapshot).getD []

/-- What happens while commands are carried out. -/
def chroniclePerform (send : Sender) (chronicle : Chronicler) :
    List Command → Session → List Occurrence
  | [], _ => []
  | .fail _ :: _, _ => []
  | .leave label :: rest, s =>
    match s.unsubscribe label with
    | (s, none) => chroniclePerform send chronicle rest s
    | (_, some _) => []
  | .send event :: rest, s =>
    chronicle event s ++
      match send event s with
      | (s, .ok _) => chroniclePerform send chronicle rest s
      | (_, .error _) => []
  | .stop :: rest, s => chroniclePerform send chronicle rest s.stop

/-- What happens when an observer is shown a snapshot. -/
def chronicleTell (send : Sender) (chronicle : Chronicler) (snapshot : Snapshot) (label : String)
    (s : Session) : List Occurrence :=
  .told label snapshot :: chroniclePerform send chronicle (s.commandsOf snapshot label)
    { s with notes := s.notes ++ [.changed label snapshot.value snapshot.version] }

/-- What happens while observers are shown a snapshot. -/
def chronicleNotify (send : Sender) (chronicle : Chronicler) (levels : Nat) (snapshot : Snapshot) :
    List String → Session → List Occurrence
  | [], _ => []
  | label :: rest, s =>
    chronicleTell send chronicle snapshot label s ++
      match tell send snapshot label s with
      | (s, none) => chronicleNotify send chronicle levels snapshot rest s
      | (s, some fault) =>
        if s.canLog levels then
          chronicleNotify send chronicle levels snapshot rest
            (s.report [.log (.observerFailed s.interpreter.name fault.message)])
        else [.cutOff]

/-- The session when the interpreter has handled an event and nobody has heard of it. -/
def handled (s : Session) (event : String) : Session :=
  { s with interpreter := (s.interpreter.dispatch s.now event).state }.report
    (s.interpreter.dispatch s.now event).signals

/-- What happens in the course of an event, with at most this many levels of events nested. -/
def chronicle : Nat → Chronicler
  | 0, _, _ => [.cutOff]
  | levels + 1, event, s =>
    match (s.interpreter.dispatch s.now event).result with
    | .ok (.handled snapshot true) =>
      .shown snapshot :: chronicleNotify (sendWithin levels) (chronicle levels) levels snapshot
        (s.handled event).observers (s.handled event)
    | _ => []

/-- The changed snapshots, in the order in which they became current. -/
def changes (occurrences : List Occurrence) : List Snapshot :=
  occurrences.filterMap Occurrence.shown?

/-- The snapshots that a label is shown, in order. -/
def toldTo (label : String) (occurrences : List Occurrence) : List Snapshot :=
  occurrences.filterMap (Occurrence.toldTo? label)

/-- What a label has heard of: values and versions of snapshots. -/
def heard (label : String) (s : Session) : List (String × Nat) :=
  s.notes.filterMap fun
    | .changed other value version => if other = label then some (value, version) else none
    | .unhandled .. => none

variable {send : Sender} {chronicler : Chronicler} {s s' s₁ s₂ s₃ : Session} {label : String}
  {snapshot : Snapshot} {levels k n : Nat} {P : Prop} {T T' : List Occurrence}

@[simp] theorem changes_nil : changes [] = [] := rfl

@[simp] theorem toldTo_nil : toldTo label [] = [] := rfl

@[simp] theorem changes_append : changes (T ++ T') = changes T ++ changes T' :=
  List.filterMap_append

@[simp] theorem toldTo_append : toldTo label (T ++ T') = toldTo label T ++ toldTo label T' :=
  List.filterMap_append

@[simp] theorem changes_told (other : String) :
    changes (.told other snapshot :: T) = changes T := rfl

@[simp] theorem changes_shown : changes (.shown snapshot :: T) = snapshot :: changes T := rfl

@[simp] theorem toldTo_shown : toldTo label (.shown snapshot :: T) = toldTo label T := rfl

theorem toldTo_told (other : String) : toldTo label (.told other snapshot :: T) =
    (if other = label then [snapshot] else []) ++ toldTo label T := by
  rw [toldTo, List.filterMap_cons, Occurrence.toldTo?]
  split <;> rename_i h <;> split at h <;> simp_all [toldTo]

/-! ## Observers only leave -/

/-- Nobody registers, and everybody reacts as before. -/
structure Dwindles (s s' : Session) : Prop where
  observers : s'.observers.Sublist s.observers
  reactions : s'.reactions = s.reactions

namespace Dwindles

theorem refl (s : Session) : s.Dwindles s := ⟨.refl _, rfl⟩

theorem trans (h : s₁.Dwindles s₂) (h' : s₂.Dwindles s₃) : s₁.Dwindles s₃ :=
  ⟨h'.observers.trans h.observers, h'.reactions.trans h.reactions⟩

/-- Who is registered as often as before in the end has been so all the time. -/
theorem count_eq (h : s₁.Dwindles s₂) (h' : s₂.Dwindles s₃) (hfirst : s₁.observers.count label = k)
    (hlast : s₃.observers.count label = k) : s₂.observers.count label = k :=
  Nat.le_antisymm (hfirst ▸ h.observers.count_le label) (hlast ▸ h'.observers.count_le label)

end Dwindles

theorem dwindles_unsubscribe (s : Session) (label : String) :
    s.Dwindles (s.unsubscribe label).1 := by
  unfold unsubscribe
  split
  · exact .refl s
  · split
    · exact ⟨List.erase_sublist, rfl⟩
    · exact .refl s

theorem dwindles_stop (s : Session) : s.Dwindles s.stop := by
  unfold stop
  dsimp only
  split
  · exact ⟨.refl _, rfl⟩
  · exact ⟨List.nil_sublist _, rfl⟩

section Dwindling

variable (hsend : ∀ (event : String) (s : Session), s.Dwindles (send event s).1)

include hsend

theorem dwindles_perform (commands : List Command) (s : Session) :
    s.Dwindles (perform send commands s).1 := by
  induction commands generalizing s with
  | nil => exact .refl s
  | cons command rest ih =>
    cases command with
    | fail text => exact .refl s
    | leave label =>
      have h := s.dwindles_unsubscribe label
      rw [perform]
      split <;> rename_i heq <;> rw [heq] at h
      · exact h.trans (ih _)
      · exact h
    | send event =>
      have h := hsend event s
      rw [perform]
      split <;> rename_i heq <;> rw [heq] at h
      · exact h.trans (ih _)
      · exact h
    | stop => exact s.dwindles_stop.trans (ih _)

theorem dwindles_tell (snapshot : Snapshot) (label : String) (s : Session) :
    s.Dwindles (tell send snapshot label s).1 := by
  have h := dwindles_perform hsend (s.commandsOf snapshot label)
    { s with notes := s.notes ++ [.changed label snapshot.value snapshot.version] }
  exact ⟨h.observers, h.reactions⟩

theorem dwindles_notify (levels : Nat) (snapshot : Snapshot) (labels : List String) (s : Session) :
    s.Dwindles (notify send levels snapshot labels s).1 := by
  induction labels generalizing s with
  | nil => exact .refl s
  | cons label rest ih =>
    have h := dwindles_tell hsend snapshot label s
    rw [notify]
    split <;> rename_i heq <;> rw [heq] at h
    · exact h.trans (ih _)
    · split
      · exact h.trans ⟨(ih _).observers, (ih _).reactions⟩
      · exact h

end Dwindling

theorem dwindles_tellUnhandled (levels : Nat) (s : Session) (diagnostic : Diagnostic) :
    s.Dwindles (s.tellUnhandled levels diagnostic).1 := by
  unfold tellUnhandled
  split
  · exact .refl s
  · dsimp only
    split
    · exact ⟨.refl _, rfl⟩
    · split <;> exact ⟨.refl _, rfl⟩

theorem dwindles_handled (s : Session) (event : String) : s.Dwindles (s.handled event) :=
  ⟨.refl _, rfl⟩

theorem heard_tellUnhandled (levels : Nat) (s : Session) (diagnostic : Diagnostic)
    (label : String) :
    (s.tellUnhandled levels diagnostic).1.heard label = s.heard label := by
  unfold tellUnhandled
  split
  · rfl
  · have hnoted (note : Note) (hnote : ∃ event path reason, note = .unhandled event path reason) :
        ({ s with notes := s.notes ++ [note] } : Session).heard label = s.heard label := by
      obtain ⟨event, path, reason, rfl⟩ := hnote
      simp [heard]
    dsimp only
    split
    · exact hnoted _ ⟨_, _, _, rfl⟩
    · split <;> exact hnoted _ ⟨_, _, _, rfl⟩

/-- An event brings about a change of which observers are notified, or nobody hears of it. -/
theorem sendWithin_cases (levels : Nat) (event : String) (s : Session) :
    (∃ snapshot, chronicle (levels + 1) event s = .shown snapshot :: chronicleNotify
          (sendWithin levels) (chronicle levels) levels snapshot (s.handled event).observers
            (s.handled event) ∧
        sendWithin (levels + 1) event s = notify (sendWithin levels) levels snapshot
          (s.handled event).observers (s.handled event)) ∨
      (chronicle (levels + 1) event s = [] ∧ s.Dwindles (sendWithin (levels + 1) event s).1 ∧
        ∀ label, (sendWithin (levels + 1) event s).1.heard label = s.heard label) := by
  have hhandled := s.dwindles_handled event
  rw [chronicle, sendWithin, ← handled]
  rcases hresult : (s.interpreter.dispatch s.now event).result with
    fault | ⟨snapshot, _ | _⟩ | ⟨snapshot, diagnostic⟩
  · exact .inr ⟨rfl, hhandled, fun _ => rfl⟩
  · exact .inr ⟨rfl, hhandled, fun _ => rfl⟩
  · exact .inl ⟨snapshot, rfl, rfl⟩
  · have htell := (s.handled event).dwindles_tellUnhandled levels diagnostic
    have hheard := (s.handled event).heard_tellUnhandled levels diagnostic
    refine .inr ⟨rfl, ?_⟩
    dsimp only
    split <;> rename_i heq <;> rw [heq] at htell hheard <;> exact ⟨hhandled.trans htell, hheard⟩

/-- In the course of an event nobody registers. -/
theorem dwindles_sendWithin (levels : Nat) (event : String) (s : Session) :
    s.Dwindles (sendWithin levels event s).1 := by
  induction levels generalizing event s with
  | zero => exact ⟨.refl _, rfl⟩
  | succ levels ih =>
    rcases sendWithin_cases levels event s with ⟨snapshot, -, hnotify⟩ | ⟨-, hless, -⟩
    · rw [hnotify]
      exact (s.dwindles_handled event).trans (dwindles_notify ih _ _ _ _)
    · exact hless

/-! ## What observers hear -/

/-- An observer sends no event, whatever it is shown. -/
def Silent (s : Session) (label : String) : Prop :=
  ∀ snapshot event, Command.send event ∉ s.commandsOf snapshot label

/-- Nobody who sends events is registered before a label. -/
def Ahead (s : Session) (label : String) : Prop :=
  ∀ other, [other, label].Sublist s.observers → s.Silent other

theorem Silent.dwindles (h : s.Silent label) (hless : s.Dwindles s') : s'.Silent label := by
  intro snapshot event
  rw [commandsOf, hless.reactions]
  exact h snapshot event

theorem Ahead.dwindles (h : s.Ahead label) (hless : s.Dwindles s') : s'.Ahead label :=
  fun other hother => (h other (hother.trans hless.observers)).dwindles hless

/-- A label that is registered `k` times is shown each changed snapshot as often, and provided
something holds in the order in which they became current. -/
structure Hears (label : String) (k : Nat) (P : Prop) (T : List Occurrence) : Prop where
  all : (toldTo label T).Perm ((changes T).flatMap (List.replicate k))
  inOrder : P → toldTo label T = (changes T).flatMap (List.replicate k)

namespace Hears

theorem nil : Hears label k P [] := ⟨.refl _, fun _ => rfl⟩

theorem imp {Q : Prop} (h : Hears label k P T) (himp : Q → P) : Hears label k Q T :=
  ⟨h.all, fun hQ => h.inOrder (himp hQ)⟩

theorem append (h : Hears label k P T) (h' : Hears label k P T') : Hears label k P (T ++ T') := by
  refine ⟨?_, fun hP => ?_⟩
  · rw [toldTo_append, changes_append, List.flatMap_append]
    exact h.all.append h'.all
  · rw [toldTo_append, changes_append, List.flatMap_append, h.inOrder hP, h'.inOrder hP]

end Hears

/-- A label is shown a snapshot a number of times, and hears of all changes; provided something
holds it is shown the snapshot first. -/
structure HearsFirst (label : String) (k : Nat) (snapshot : Snapshot) (n : Nat) (P : Prop)
    (T : List Occurrence) : Prop where
  all : (toldTo label T).Perm
    (List.replicate n snapshot ++ (changes T).flatMap (List.replicate k))
  inOrder : P → toldTo label T =
    List.replicate n snapshot ++ (changes T).flatMap (List.replicate k)

/-- An observer is shown the snapshot before the others. If it brings about changes, the label is
not among the others, or the order is lost. -/
theorem HearsFirst.cons {other : String} {rest : List String} (h : Hears label k P T)
    (hsilent : P → label ∈ rest → T = [])
    (hrest : HearsFirst label k snapshot (rest.count label) P T') :
    HearsFirst label k snapshot ((other :: rest).count label) P
      (.told other snapshot :: T ++ T') := by
  have hcount : List.replicate ((other :: rest).count label) snapshot =
      (if other = label then [snapshot] else []) ++
        List.replicate (rest.count label) snapshot := by
    rw [List.count_cons, Nat.add_comm, ← List.replicate_append_replicate]
    congr 1
    by_cases heq : other = label <;> simp [heq]
  have htold : toldTo label (.told other snapshot :: T ++ T') =
      (if other = label then [snapshot] else []) ++ (toldTo label T ++ toldTo label T') := by
    rw [List.cons_append, toldTo_told, toldTo_append]
  have hchanges : changes (.told other snapshot :: T ++ T') = changes T ++ changes T' := by
    rw [List.cons_append, changes_told, changes_append]
  refine ⟨?_, fun hP => ?_⟩
  · rw [htold, hchanges, hcount, List.flatMap_append, List.append_assoc (ite _ _ _)]
    refine List.Perm.append_left _ ((h.all.append hrest.all).trans ?_)
    exact List.perm_append_comm_assoc ..
  · rw [htold, hchanges, hcount, List.flatMap_append, h.inOrder hP, hrest.inOrder hP]
    by_cases hmem : label ∈ rest
    · simp [hsilent hP hmem]
    · simp [List.count_eq_zero_of_not_mem hmem]

/-- A way of sending events lets a label hear of all changes. -/
def Reaches (send : Sender) (chronicler : Chronicler) (label : String) (k : Nat) : Prop :=
  ∀ (event : String) (s : Session), s.observers.count label = k →
    (send event s).1.observers.count label = k → .cutOff ∉ chronicler event s →
    Hears label k (s.Ahead label) (chronicler event s)

theorem chroniclePerform_of_silent {commands : List Command} (s : Session)
    (h : ∀ event, Command.send event ∉ commands) :
    chroniclePerform send chronicler commands s = [] := by
  induction commands generalizing s with
  | nil => rfl
  | cons command rest ih =>
    have hrest : ∀ event, Command.send event ∉ rest :=
      fun event hmem => h event (List.mem_cons_of_mem _ hmem)
    cases command with
    | fail text => rfl
    | leave label =>
      rw [chroniclePerform]
      split
      · exact ih _ hrest
      · rfl
    | send event => exact absurd List.mem_cons_self (h event)
    | stop => exact ih _ hrest

section Reaching

variable (hless : ∀ (event : String) (s : Session), s.Dwindles (send event s).1)
  (hreach : Reaches send chronicler label k)

include hless hreach

/-- The commands of an observer let a label hear of all changes that they bring about. -/
theorem hears_perform (commands : List Command) (s : Session)
    (hfirst : s.observers.count label = k)
    (hlast : (perform send commands s).1.observers.count label = k)
    (hcut : .cutOff ∉ chroniclePerform send chronicler commands s) :
    Hears label k (s.Ahead label) (chroniclePerform send chronicler commands s) := by
  induction commands generalizing s with
  | nil => exact .nil
  | cons command rest ih =>
    cases command with
    | fail text => exact .nil
    | leave other =>
      have hleave := s.dwindles_unsubscribe other
      rw [chroniclePerform] at hcut ⊢
      rw [perform] at hlast
      rcases hunsubscribe : s.unsubscribe other with ⟨after, _ | fault⟩ <;>
        simp only [hunsubscribe] at hleave hcut hlast ⊢
      · have hmiddle := hleave.count_eq (dwindles_perform hless rest after) hfirst hlast
        exact (ih after hmiddle hlast hcut).imp fun h => h.dwindles hleave
      · exact .nil
    | send event =>
      have hsent := hless event s
      rw [chroniclePerform] at hcut ⊢
      rw [perform] at hlast
      obtain ⟨hcut, hcutRest⟩ := not_or.mp (List.mem_append.not.mp hcut)
      rcases hsend : send event s with ⟨after, fault | shown⟩ <;>
        simp only [hsend] at hsent hcutRest hlast ⊢
      · have := hreach event s hfirst (by rw [hsend]; exact hlast) hcut
        exact this.append .nil
      · have hmiddle := hsent.count_eq (dwindles_perform hless rest after) hfirst hlast
        have := hreach event s hfirst (by rw [hsend]; exact hmiddle) hcut
        exact this.append ((ih after hmiddle hlast hcutRest).imp fun h => h.dwindles hsent)
    | stop =>
      have hstopped := s.dwindles_stop
      have hmiddle := hstopped.count_eq (dwindles_perform hless rest s.stop) hfirst hlast
      exact (ih s.stop hmiddle hlast hcut).imp fun h => h.dwindles hstopped

/-- A label that some of these observers stand for is shown the snapshot as often, and hears of all
changes that they bring about. -/
theorem hears_notify (levels : Nat) (snapshot : Snapshot) (labels : List String) (s : Session)
    (hfirst : s.observers.count label = k)
    (hlast : (notify send levels snapshot labels s).1.observers.count label = k)
    (hcut : .cutOff ∉ chronicleNotify send chronicler levels snapshot labels s)
    (hP : P → s.Ahead label)
    (hsilent : P → ∀ other, [other, label].Sublist labels → s.Silent other) :
    HearsFirst label k snapshot (labels.count label) P
      (chronicleNotify send chronicler levels snapshot labels s) := by
  induction labels generalizing s with
  | nil => exact ⟨.refl _, fun _ => rfl⟩
  | cons other rest ih =>
    have htold := dwindles_tell hless snapshot other s
    rw [chronicleNotify] at hcut ⊢
    rw [notify] at hlast
    obtain ⟨hcut, hcutRest⟩ := not_or.mp (List.mem_append.not.mp hcut)
    -- What the others hear of, where the notification goes on.
    have hothers {after : Session} (hafter : s.Dwindles after)
        (hend : (notify send levels snapshot rest after).1.observers.count label = k)
        (hrest : .cutOff ∉ chronicleNotify send chronicler levels snapshot rest after) :=
      ih after (hafter.count_eq (dwindles_notify hless levels snapshot rest after) hfirst hend) hend
        hrest (fun h => (hP h).dwindles hafter)
        fun h o ho => (hsilent h o (ho.trans (List.sublist_cons_self _ _))).dwindles hafter
    have hsilentHere : P → label ∈ rest → chroniclePerform send chronicler
        (s.commandsOf snapshot other)
        { s with notes := s.notes ++ [.changed other snapshot.value snapshot.version] } = [] :=
      fun h hmem => chroniclePerform_of_silent _
        (hsilent h other ((List.singleton_sublist.mpr hmem).cons_cons other) snapshot)
    have hperform (hend : (tell send snapshot other s).1.observers.count label = k) :=
      (hears_perform hless hreach (s.commandsOf snapshot other)
        { s with notes := s.notes ++ [.changed other snapshot.value snapshot.version] } hfirst hend
        fun h => hcut (List.mem_cons_of_mem _ h)).imp hP
    rcases htell : tell send snapshot other s with ⟨after, _ | fault⟩ <;>
      simp only [htell] at htold hlast hcutRest hperform ⊢
    · have hrest := hothers htold hlast hcutRest
      have hend := htold.count_eq (dwindles_notify hless levels snapshot rest after) hfirst hlast
      exact .cons (hperform hend) hsilentHere hrest
    · cases hlog : after.canLog levels with
      | false =>
        rw [hlog] at hcutRest
        exact absurd (List.mem_singleton_self _) hcutRest
      | true =>
        simp only [hlog, if_true] at hlast hcutRest ⊢
        have hlogged : s.Dwindles
            (after.report [.log (.observerFailed after.interpreter.name fault.message)]) :=
          htold.trans ⟨.refl _, rfl⟩
        have hrest := hothers hlogged hlast hcutRest
        have hend := hlogged.count_eq (dwindles_notify hless levels snapshot rest _) hfirst hlast
        exact .cons (hperform hend) hsilentHere hrest

end Reaching

/-- Events let a label hear of all changes that they bring about. -/
theorem reaches_sendWithin (label : String) (k levels : Nat) :
    Reaches (sendWithin levels) (chronicle levels) label k := by
  induction levels with
  | zero => exact fun _ _ _ _ hcut => absurd (List.mem_singleton_self _) hcut
  | succ levels ih =>
    intro event s hfirst hlast hcut
    rcases sendWithin_cases levels event s with ⟨snapshot, hchronicle, hsend⟩ | ⟨hchronicle, -⟩
    · rw [hsend] at hlast
      rw [hchronicle] at hcut ⊢
      have hnotify := hears_notify (dwindles_sendWithin levels) ih levels snapshot
        (s.handled event).observers (s.handled event) (P := s.Ahead label) hfirst hlast
        (fun h => hcut (List.mem_cons_of_mem _ h)) id id
      have hcount : (s.handled event).observers.count label = k := hfirst
      rw [hcount] at hnotify
      exact ⟨hnotify.all, hnotify.inOrder⟩
    · rw [hchronicle]
      exact .nil

/-! ## What is noted -/

/-- What is noted of a snapshot. -/
def noted (snapshot : Snapshot) : String × Nat := (snapshot.value, snapshot.version)

theorem heard_unsubscribe (s : Session) (other : String) :
    (s.unsubscribe other).1.heard label = s.heard label := by
  unfold unsubscribe
  split
  · rfl
  · split <;> rfl

theorem heard_stop (s : Session) : s.stop.heard label = s.heard label := by
  unfold stop
  dsimp only
  split <;> rfl

theorem heard_changed (s : Session) (other : String) (snapshot : Snapshot) :
    ({ s with notes := s.notes ++ [.changed other snapshot.value snapshot.version] } :
      Session).heard label =
      s.heard label ++ (if other = label then [snapshot] else []).map noted := by
  by_cases heq : other = label <;> simp [heard, heq, noted]

section Noting

variable (hnotes : ∀ (event : String) (s : Session),
  (send event s).1.heard label = s.heard label ++ (toldTo label (chronicler event s)).map noted)

include hnotes

theorem heard_perform (commands : List Command) (s : Session) :
    (perform send commands s).1.heard label =
      s.heard label ++ (toldTo label (chroniclePerform send chronicler commands s)).map noted := by
  induction commands generalizing s with
  | nil => exact (List.append_nil _).symm
  | cons command rest ih =>
    cases command with
    | fail text => exact (List.append_nil _).symm
    | leave other =>
      have hleave : (s.unsubscribe other).1.heard label = s.heard label :=
        s.heard_unsubscribe other
      rw [perform, chroniclePerform]
      rcases hunsubscribe : s.unsubscribe other with ⟨after, _ | fault⟩ <;>
        simp only [hunsubscribe] at hleave ⊢
      · rw [ih, hleave]
      · rw [hleave]
        exact (List.append_nil _).symm
    | send event =>
      have hsent := hnotes event s
      rw [perform, chroniclePerform, toldTo_append, List.map_append, ← List.append_assoc, ← hsent]
      rcases hsend : send event s with ⟨after, fault | shown⟩
      · exact (List.append_nil _).symm
      · exact ih after
    | stop =>
      rw [perform, chroniclePerform, ih, heard_stop]

theorem heard_tell (snapshot : Snapshot) (other : String) (s : Session) :
    (tell send snapshot other s).1.heard label = s.heard label ++
      (toldTo label (chronicleTell send chronicler snapshot other s)).map noted := by
  have h := heard_perform hnotes (s.commandsOf snapshot other)
    { s with notes := s.notes ++ [.changed other snapshot.value snapshot.version] }
  rw [heard_changed, List.append_assoc, ← List.map_append] at h
  rw [chronicleTell, toldTo_told]
  exact h

theorem heard_notify (levels : Nat) (snapshot : Snapshot) (labels : List String) (s : Session) :
    (notify send levels snapshot labels s).1.heard label = s.heard label ++
      (toldTo label (chronicleNotify send chronicler levels snapshot labels s)).map noted := by
  induction labels generalizing s with
  | nil => exact (List.append_nil _).symm
  | cons other rest ih =>
    have htold := heard_tell hnotes snapshot other s
    rw [notify, chronicleNotify, toldTo_append, List.map_append, ← List.append_assoc, ← htold]
    rcases tell send snapshot other s with ⟨after, _ | fault⟩
    · exact ih after
    · dsimp only
      split
      · exact ih _
      · exact (List.append_nil _).symm

end Noting

/-- What a label has heard of is noted in the order in which it was shown. -/
theorem heard_sendWithin (levels : Nat) (event : String) (s : Session) :
    (sendWithin levels event s).1.heard label =
      s.heard label ++ (toldTo label (chronicle levels event s)).map noted := by
  induction levels generalizing event s with
  | zero => exact (List.append_nil _).symm
  | succ levels ih =>
    rcases sendWithin_cases levels event s with ⟨snapshot, hchronicle, hsend⟩ |
      ⟨hchronicle, -, hheard⟩
    · rw [hsend, hchronicle, heard_notify ih, toldTo_shown]
      rfl
    · rw [hheard, hchronicle]
      exact (List.append_nil _).symm

theorem getLast?_flatMap_replicate {α : Type} (xs : List α) {k : Nat} (hk : 0 < k) :
    (xs.flatMap (List.replicate k)).getLast? = xs.getLast? := by
  induction xs using List.reverseRecOn with
  | nil => rfl
  | append_singleton xs x =>
    rw [List.flatMap_append, List.flatMap_singleton, List.getLast?_append, List.getLast?_replicate,
      if_neg hk.ne', List.getLast?_concat]
    rfl

/-- **What observers hear.** While an event is handled that brings about others, to any depth that
there is room for, a label that stays registered is shown every changed snapshot, as many times as
it is registered, and all this is noted. If nobody who sends events is registered before it, the
snapshots come in the order in which they became current, and the last one that it is shown is the
last one that there was. -/
theorem sendWithin_hears (levels : Nat) (event : String) (s : Session) (label : String)
    (hroom : Occurrence.cutOff ∉ chronicle levels event s)
    (hstays : (sendWithin levels event s).1.observers.count label = s.observers.count label) :
    (sendWithin levels event s).1.heard label =
        s.heard label ++ (toldTo label (chronicle levels event s)).map noted ∧
      (toldTo label (chronicle levels event s)).Perm
        ((changes (chronicle levels event s)).flatMap
          (List.replicate (s.observers.count label))) ∧
      (s.Ahead label →
        toldTo label (chronicle levels event s) =
            (changes (chronicle levels event s)).flatMap
              (List.replicate (s.observers.count label)) ∧
          (label ∈ s.observers → (toldTo label (chronicle levels event s)).getLast? =
            (changes (chronicle levels event s)).getLast?)) := by
  have h := reaches_sendWithin label _ levels event s rfl hstays hroom
  refine ⟨heard_sendWithin levels event s, h.all, fun hahead => ⟨h.inOrder hahead, fun hmem => ?_⟩⟩
  rw [h.inOrder hahead, getLast?_flatMap_replicate _ (List.count_pos_iff.mpr hmem)]

/-- Three states that an event leads through. -/
def passing : Chart :=
  .ofDeclaration [] <| .obj [("id", .str "m"), ("initial", .str "a"),
    ("states", .obj [("a", .obj [("on", .obj [("go", .str "b")])]),
      ("b", .obj [("on", .obj [("go", .str "c")])]), ("c", .obj [])])]

/-- A run with observers of whom one sends the event again. -/
def relaying (labels : List String) : Session :=
  { fresh (Interpreter.started passing [] none) (.fresh true false) with
    observers := labels
    reactions := [("relay", fun _ => [.send "go"])] }

/-- Whether there has been room, and by their values the changes and what a label is shown. -/
def summary (label : String) (T : List Occurrence) : Bool × List String × List String :=
  (T.all fun occurrence => occurrence matches .shown _ | .told .., (changes T).map Snapshot.value,
    (toldTo label T).map Snapshot.value)

theorem cutOff_notMem_of_summary {values told : List String}
    (h : summary label T = (true, values, told)) : Occurrence.cutOff ∉ T := by
  intro hmem
  have hall := List.all_eq_true.mp (congrArg Prod.fst h) _ hmem
  cases hall

set_option maxRecDepth 10000 in
/-- An observer who sends the event again hears of both changes in their order, since the one before
it sends nothing. -/
theorem sendWithin_hears_relay :
    Occurrence.cutOff ∉ chronicle nestingLimit "go" (relaying ["clerk", "relay"]) ∧
      ((relaying ["clerk", "relay"]).send "go").1.observers.count "relay" =
        (relaying ["clerk", "relay"]).observers.count "relay" ∧
      (relaying ["clerk", "relay"]).Ahead "relay" ∧
      (toldTo "relay" (chronicle nestingLimit "go" (relaying ["clerk", "relay"]))).map
        Snapshot.value = ["b", "c"] := by
  have hsummary : summary "relay" (chronicle nestingLimit "go" (relaying ["clerk", "relay"])) =
      (true, ["b", "c"], ["b", "c"]) := by decide +kernel
  have hroom := cutOff_notMem_of_summary hsummary
  have hstays : ((relaying ["clerk", "relay"]).send "go").1.observers.count "relay" =
      (relaying ["clerk", "relay"]).observers.count "relay" := by decide +kernel
  have hahead : (relaying ["clerk", "relay"]).Ahead "relay" := by
    intro other hother snapshot event
    obtain rfl : other = "clerk" := by
      rcases hother with _ | h | h
      · exact absurd (List.Sublist.length_le ‹_›) (by simp)
      · rfl
    exact List.not_mem_nil
  have hone (xs : List Snapshot) : xs.flatMap (List.replicate 1) = xs :=
    List.flatMap_singleton' xs
  obtain ⟨-, -, hinOrder⟩ := sendWithin_hears nestingLimit "go" (relaying ["clerk", "relay"])
    "relay" hroom hstays
  refine ⟨hroom, hstays, hahead, ?_⟩
  rw [(hinOrder hahead).1, show (relaying ["clerk", "relay"]).observers.count "relay" = 1 from rfl,
    hone]
  exact congrArg (·.2.1) hsummary

set_option maxRecDepth 10000 in
/-- An observer who stands behind the one that sends the event again is shown the second change
before the first, and the first one last. -/
theorem hears_backwards :
    passing.Built ∧
      Occurrence.cutOff ∉ chronicle nestingLimit "go" (relaying ["relay", "clerk"]) ∧
      ((relaying ["relay", "clerk"]).send "go").1.observers = ["relay", "clerk"] ∧
      (changes (chronicle nestingLimit "go" (relaying ["relay", "clerk"]))).map Snapshot.value =
        ["b", "c"] ∧
      (toldTo "clerk" (chronicle nestingLimit "go" (relaying ["relay", "clerk"]))).map
        Snapshot.value = ["c", "b"] ∧
      ((relaying ["relay", "clerk"]).send "go").1.heard "clerk" = [("c", 0), ("b", 0)] := by
  have hsummary : summary "clerk" (chronicle nestingLimit "go" (relaying ["relay", "clerk"])) =
      (true, ["b", "c"], ["c", "b"]) := by decide +kernel
  have hends : ((relaying ["relay", "clerk"]).send "go").1.observers = ["relay", "clerk"] ∧
      ((relaying ["relay", "clerk"]).send "go").1.heard "clerk" = [("c", 0), ("b", 0)] := by
    decide +kernel
  exact ⟨Chart.built_ofDeclaration (by decide +kernel) (by decide +kernel),
    cutOff_notMem_of_summary hsummary, hends.1, congrArg (·.2.1) hsummary,
    congrArg (·.2.2) hsummary, hends.2⟩

end Session

end Lifecycle
