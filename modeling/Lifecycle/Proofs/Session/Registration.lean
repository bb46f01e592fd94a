import Lifecycle.Proofs.Session.Notification
import Mathlib.Data.List.Induction
import Mathlib.Data.List.Nodup
import Mathlib.Data.List.Perm.Basic

/-!
# Which registrations are left

To register with a session gives a cancellation of this registration, which may be called at any
time and any number of times. A cancellation does not look for the registration that it was given
for, though, but for the first one of the same observer. So the observers are those of registrations
in their order, of each observer the last ones (`Keeps`); who is registered once is there exactly as
long as its own cancellation is not called; and as long as none is called twice the observers are as
many times there as they should be (`observers_enrolAll`). With an observer that is registered twice
a cancellation may take away another registration than its own, and take away another one each time
that it is called (`cancels_another`).
-/

namespace Lifecycle.Session

/-- What is asked of a session: to register an observer, or to cancel a registration, by the
function that the registration of this number gave. -/
inductive Enrolment where
  | subscribe (label : String) (reaction : Reaction)
  | cancel (number : Nat)

/-- The number of the registration whose cancellation is called. -/
def Enrolment.cancelled? : Enrolment → Option Nat
  | .subscribe .. => none
  | .cancel number => some number

/-- A session with the labels that have been registered, in order, and with the registrations whose
own cancellation has not been called: labels and numbers. -/
structure Roll where
  session : Session
  granted : List String
  held : List (String × Nat)

namespace Roll

/-- A session on which nobody is registered. -/
def ofSession (s : Session) : Roll := ⟨{ s with observers := [] }, [], []⟩

/-- The roll after an enrolment. A cancellation that nobody has been given cannot be called. All
those that a label has been given do the same, so the session need not tell them apart. -/
def enrol (r : Roll) : Enrolment → Roll
  | .subscribe label reaction =>
    ⟨r.session.subscribe label reaction, r.granted ++ [label],
      r.held ++ [(label, r.granted.length)]⟩
  | .cancel number =>
    match r.granted[number]? with
    | none => r
    | some label => ⟨(r.session.unsubscribe label).1, r.granted, r.held.filter (·.2 != number)⟩

/-- The roll after some enrolments, one after the other. -/
def enrolAll (r : Roll) (enrolments : List Enrolment) : Roll := enrolments.foldl enrol r

theorem enrolAll_concat (r : Roll) (enrolments : List Enrolment) (enrolment : Enrolment) :
    r.enrolAll (enrolments ++ [enrolment]) = (r.enrolAll enrolments).enrol enrolment :=
  List.foldl_concat ..

end Roll

/-- The registrations of a label. -/
def ofLabel (label : String) (registrations : List (String × Nat)) : List (String × Nat) :=
  registrations.filter (·.1 == label)

variable {r : Roll} {live registrations : List (String × Nat)} {label other : String} {number : Nat}

@[simp] theorem ofLabel_nil : ofLabel label [] = [] := rfl

@[simp] theorem ofLabel_append (registrations' : List (String × Nat)) :
    ofLabel label (registrations ++ registrations') =
      ofLabel label registrations ++ ofLabel label registrations' :=
  List.filter_append ..

theorem length_ofLabel : (ofLabel label registrations).length =
    (registrations.map Prod.fst).count label := by
  rw [ofLabel, ← List.countP_eq_length_filter, List.count, List.countP_map]
  rfl

theorem mem_ofLabel {registration : String × Nat} : registration ∈ ofLabel label registrations ↔
    registration ∈ registrations ∧ registration.1 = label := by
  rw [ofLabel, List.mem_filter, beq_iff_eq]

/-- To take away the first registration of a label takes the first of its registrations. -/
theorem ofLabel_eraseP (label : String) (registrations : List (String × Nat)) :
    ofLabel label (registrations.eraseP (·.1 == label)) = (ofLabel label registrations).tail := by
  induction registrations with
  | nil => rfl
  | cons registration rest ih =>
    by_cases h : registration.1 = label <;> simp_all [ofLabel]

theorem ofLabel_eraseP_of_ne (h : label ≠ other) (registrations : List (String × Nat)) :
    ofLabel other (registrations.eraseP (·.1 == label)) = ofLabel other registrations := by
  induction registrations with
  | nil => rfl
  | cons registration rest ih =>
    by_cases h' : registration.1 = label <;> simp_all [ofLabel, List.filter_cons]

theorem zipIdx_concat {α : Type} (xs : List α) (x : α) :
    (xs ++ [x]).zipIdx = xs.zipIdx ++ [(x, xs.length)] := by
  rw [List.zipIdx_append, Nat.zero_add]
  rfl

/-- The observers are those of some registrations, in their order; of each label these are the last
ones, and if it has been registered once, just those whose own cancellation has not been called. -/
structure Keeps (r : Roll) (live : List (String × Nat)) : Prop where
  tokens : ∀ label ∈ r.granted, Entries.get? r.session.tokens label = some r.session.generation
  observers_eq : r.session.observers = live.map Prod.fst
  live_sublist : live.Sublist r.granted.zipIdx
  held_sublist : r.held.Sublist r.granted.zipIdx
  latest (label : String) : (ofLabel label live).IsSuffix (ofLabel label r.granted.zipIdx)
  single {label : String} : r.granted.count label ≤ 1 → ofLabel label live = ofLabel label r.held

theorem keeps_ofSession (s : Session) : Keeps (.ofSession s) [] :=
  ⟨nofun, rfl, .slnil, .slnil, fun _ => List.suffix_rfl, fun _ => rfl⟩

theorem Keeps.subscribe (h : Keeps r live) (label : String) (reaction : Reaction) :
    Keeps (r.enrol (.subscribe label reaction)) (live ++ [(label, r.granted.length)]) where
  tokens other hother := by
    show Entries.get? (Entries.set r.session.tokens label r.session.generation) other = _
    rw [Entries.get?_set]
    split
    · rfl
    · rename_i hne
      refine h.tokens other ((List.mem_append.mp hother).resolve_right fun hmem => hne ?_)
      rw [List.mem_singleton.mp hmem, beq_self_eq_true]
  observers_eq := by
    show r.session.observers ++ [label] = _
    rw [h.observers_eq, List.map_append]
    rfl
  live_sublist := by
    show List.Sublist _ (r.granted ++ [label]).zipIdx
    rw [zipIdx_concat]
    exact h.live_sublist.append (.refl _)
  held_sublist := by
    show List.Sublist _ (r.granted ++ [label]).zipIdx
    rw [zipIdx_concat]
    exact h.held_sublist.append (.refl _)
  latest other := by
    show List.IsSuffix _ (ofLabel other (r.granted ++ [label]).zipIdx)
    rw [zipIdx_concat, ofLabel_append, ofLabel_append]
    exact List.suffix_append_self_iff.mpr (h.latest other)
  single {other} hcount := by
    have hcount' : r.granted.count other ≤ 1 :=
      (List.Sublist.count_le other (List.sublist_append_left _ _)).trans hcount
    show _ = ofLabel other (r.held ++ [(label, r.granted.length)])
    rw [ofLabel_append, ofLabel_append, h.single hcount']

/-- The registrations of a label that has been registered once are one at most. -/
theorem eq_of_count_le_one (hcount : r.granted.count label ≤ 1) {i j : Nat}
    (hi : r.granted[i]? = some label) (hj : r.granted[j]? = some label) : i = j := by
  have hlength : (ofLabel label r.granted.zipIdx).length ≤ 1 := by
    rwa [length_ofLabel, List.zipIdx_map_fst]
  have hmem {k : Nat} (hk : r.granted[k]? = some label) :
      (label, k) ∈ ofLabel label r.granted.zipIdx :=
    mem_ofLabel.mpr ⟨List.mk_mem_zipIdx_iff_getElem?.mpr hk, rfl⟩
  have hi := hmem hi
  have hj := hmem hj
  clear hmem
  generalize ofLabel label r.granted.zipIdx = all at hlength hi hj
  rcases all with _ | ⟨only, _ | ⟨_, _⟩⟩
  · cases hi
  · exact congrArg Prod.snd ((List.mem_singleton.mp hi).trans (List.mem_singleton.mp hj).symm)
  · exact absurd hlength (by simp)

theorem unsubscribe_of_token {s : Session}
    (h : Entries.get? s.tokens label = some s.generation) :
    (s.unsubscribe label).1 = { s with observers := s.observers.erase label } := by
  simp only [unsubscribe, h, if_true]

theorem enrol_cancel (h : Keeps r live) (hgranted : r.granted[number]? = some label) :
    r.enrol (.cancel number) =
      ⟨{ r.session with observers := r.session.observers.erase label }, r.granted,
        r.held.filter (·.2 != number)⟩ := by
  simp only [Roll.enrol, hgranted]
  rw [unsubscribe_of_token (h.tokens label (List.mem_of_getElem? hgranted))]

theorem Keeps.granted_of_held (h : Keeps r live) {registration : String × Nat}
    (hmem : registration ∈ r.held) : r.granted[registration.2]? = some registration.1 :=
  List.mem_zipIdx_iff_getElem?.mp (h.held_sublist.subset hmem)

/-- The registrations of other labels are held as before. -/
theorem Keeps.ofLabel_held_of_ne (h : Keeps r live) (hgranted : r.granted[number]? = some label)
    (hne : label ≠ other) :
    ofLabel other (r.held.filter (·.2 != number)) = ofLabel other r.held := by
  rw [ofLabel, ofLabel, List.filter_filter]
  refine List.filter_congr fun registration hmem => ?_
  rw [Bool.and_eq_left_iff_imp]
  intro hlabel
  rw [bne_iff_ne]
  rintro rfl
  have hregistered := h.granted_of_held hmem
  rw [hgranted] at hregistered
  exact hne ((Option.some.inj hregistered).trans (beq_iff_eq.mp hlabel))

/-- A cancellation takes away the first registration of its label. -/
theorem Keeps.cancel (h : Keeps r live) (hgranted : r.granted[number]? = some label) :
    Keeps (r.enrol (.cancel number)) (live.eraseP (·.1 == label)) := by
  rw [enrol_cancel h hgranted]
  refine ⟨h.tokens, ?_, List.eraseP_sublist.trans h.live_sublist,
    List.filter_sublist.trans h.held_sublist, fun other => ?_, fun {other} hcount => ?_⟩
  · show r.session.observers.erase label = _
    rw [h.observers_eq, List.erase_eq_eraseP, List.eraseP_map]
    congr 2
    funext registration
    exact Bool.beq_comm
  · by_cases hother : label = other
    · subst hother
      rw [ofLabel_eraseP]
      exact (List.tail_suffix _).trans (h.latest label)
    · rw [ofLabel_eraseP_of_ne hother]
      exact h.latest other
  · by_cases hother : label = other
    -- The one registration of the label is gone, and so it is not held.
    · subst hother
      have hnone : ofLabel label (r.held.filter (·.2 != number)) = [] := by
        refine List.eq_nil_iff_forall_not_mem.mpr fun registration hmem => ?_
        obtain ⟨hmem, hlabel⟩ := mem_ofLabel.mp hmem
        obtain ⟨hmem, hne⟩ := List.mem_filter.mp hmem
        have hregistered := h.granted_of_held hmem
        rw [hlabel] at hregistered
        exact bne_iff_ne.mp hne (eq_of_count_le_one hcount hregistered hgranted)
      have hlength : (ofLabel label live).length ≤ 1 := by
        refine (h.latest label).length_le.trans ?_
        rwa [length_ofLabel, List.zipIdx_map_fst]
      rw [ofLabel_eraseP, hnone, ← List.length_eq_zero_iff, List.length_tail]
      omega
    · rw [ofLabel_eraseP_of_ne hother, h.single hcount, h.ofLabel_held_of_ne hgranted hother]

/-! ## Any number of enrolments -/

theorem nodup_zipIdx {α : Type} (xs : List α) : xs.zipIdx.Nodup := by
  refine List.Nodup.of_map Prod.snd ?_
  rw [List.zipIdx_map_snd]
  exact List.nodup_range'

/-- With different labels the registrations that are left are those that are held. -/
theorem Keeps.eq_held (h : Keeps r live) (hnodup : r.granted.Nodup) : live = r.held := by
  have hmem (registration : String × Nat) : registration ∈ live ↔ registration ∈ r.held := by
    have hone : r.granted.count registration.1 ≤ 1 := List.nodup_iff_count_le_one.mp hnodup _
    have hsame := h.single hone
    have hself (registrations : List (String × Nat)) :
        registration ∈ registrations ↔ registration ∈ ofLabel registration.1 registrations :=
      ⟨fun hmem => mem_ofLabel.mpr ⟨hmem, rfl⟩, fun hmem => (mem_ofLabel.mp hmem).1⟩
    rw [hself, hsame, ← hself]
  have hordered : r.granted.zipIdx.Pairwise fun a b => a.2 < b.2 := by
    rw [← List.pairwise_map, List.zipIdx_map_snd]
    exact List.pairwise_lt_range'
  have hnumbered := nodup_zipIdx r.granted
  have hperm : live.Perm r.held := (List.perm_ext_iff_of_nodup (hnumbered.sublist h.live_sublist)
    (hnumbered.sublist h.held_sublist)).mpr hmem
  exact hperm.eq_of_pairwise (fun _ _ _ _ hlt hgt => absurd hlt hgt.asymm)
    (hordered.sublist h.live_sublist) (hordered.sublist h.held_sublist)

/-- As long as no cancellation is called twice, each label has as many registrations as are held. -/
structure Balances (r : Roll) (live : List (String × Nat)) (called : List Nat) : Prop where
  length_eq (label : String) : (ofLabel label live).length = (ofLabel label r.held).length
  held {registration : String × Nat} : registration ∈ r.granted.zipIdx →
    registration.2 ∉ called → registration ∈ r.held

theorem Balances.subscribe {called : List Nat} (h : Balances r live called) (label : String)
    (reaction : Reaction) : Balances (r.enrol (.subscribe label reaction))
      (live ++ [(label, r.granted.length)]) called := by
  refine ⟨fun other => ?_, fun hmem hcalled => ?_⟩
  · show _ = (ofLabel other (r.held ++ [(label, r.granted.length)])).length
    rw [ofLabel_append, ofLabel_append, List.length_append, List.length_append, h.length_eq]
  · rw [Roll.enrol, zipIdx_concat, List.mem_append] at hmem
    exact List.mem_append.mpr (hmem.imp_left fun hold => h.held hold hcalled)

/-- A cancellation that has not been called before takes one registration of its label away and one
of those that are held. -/
theorem Balances.cancel {called : List Nat} (hkeeps : Keeps r live) (h : Balances r live called)
    (hnew : number ∉ called) (hgranted : r.granted[number]? = some label) :
    Balances (r.enrol (.cancel number)) (live.eraseP (·.1 == label)) (called ++ [number]) := by
  rw [enrol_cancel hkeeps hgranted]
  refine ⟨fun other => ?_, fun {registration} hmem hcalled => ?_⟩
  · show _ = (ofLabel other (r.held.filter (·.2 != number))).length
    by_cases hother : label = other
    · subst hother
      have hheld : (label, number) ∈ ofLabel label r.held :=
        mem_ofLabel.mpr ⟨h.held (List.mk_mem_zipIdx_iff_getElem?.mpr hgranted) hnew, rfl⟩
      have hnodup : (ofLabel label r.held).Nodup :=
        ((nodup_zipIdx r.granted).sublist hkeeps.held_sublist).filter _
      have herase : ofLabel label (r.held.filter (·.2 != number)) =
          (ofLabel label r.held).erase (label, number) := by
        rw [hnodup.erase_eq_filter, ofLabel, ofLabel, List.filter_filter, List.filter_filter]
        refine List.filter_congr fun registration _ => ?_
        obtain ⟨l, k⟩ := registration
        rw [Bool.eq_iff_iff]
        simp only [Bool.and_eq_true, beq_iff_eq, bne_iff_ne, ne_eq, Prod.mk.injEq, not_and]
        constructor
        · rintro ⟨hl, hk⟩
          exact ⟨fun _ => hk, hl⟩
        · rintro ⟨hk, hl⟩
          exact ⟨hl, hk hl⟩
      rw [ofLabel_eraseP, List.length_tail, h.length_eq, herase, List.length_erase_of_mem hheld]
    · rw [ofLabel_eraseP_of_ne hother, hkeeps.ofLabel_held_of_ne hgranted hother, h.length_eq]
  · rw [List.mem_append, not_or, List.mem_singleton] at hcalled
    exact List.mem_filter.mpr ⟨h.held hmem hcalled.1, bne_iff_ne.mpr hcalled.2⟩

theorem exists_keeps (s : Session) (enrolments : List Enrolment) :
    ∃ live, Keeps ((Roll.ofSession s).enrolAll enrolments) live ∧
      ((enrolments.filterMap Enrolment.cancelled?).Nodup →
        Balances ((Roll.ofSession s).enrolAll enrolments) live
          (enrolments.filterMap Enrolment.cancelled?)) := by
  induction enrolments using List.reverseRecOn with
  | nil => exact ⟨[], keeps_ofSession s, fun _ => ⟨fun _ => rfl, nofun⟩⟩
  | append_singleton enrolments enrolment ih =>
    obtain ⟨live, hkeeps, hbalances⟩ := ih
    rw [Roll.enrolAll_concat, List.filterMap_append]
    generalize (Roll.ofSession s).enrolAll enrolments = r at hkeeps hbalances ⊢
    generalize enrolments.filterMap Enrolment.cancelled? = called at hbalances ⊢
    cases enrolment with
    | subscribe label reaction =>
      refine ⟨_, hkeeps.subscribe label reaction, fun hnodup => ?_⟩
      rw [show List.filterMap Enrolment.cancelled? [.subscribe label reaction] = [] from rfl,
        List.append_nil] at hnodup ⊢
      exact (hbalances hnodup).subscribe label reaction
    | cancel number =>
      rw [show List.filterMap Enrolment.cancelled? [.cancel number] = [number] from rfl]
      have hfirst (hnodup : (called ++ [number]).Nodup) :
          Balances r live called ∧ number ∉ called := by
        rw [← List.concat_eq_append, List.nodup_concat] at hnodup
        exact ⟨hbalances hnodup.2, hnodup.1⟩
      cases hgranted : r.granted[number]? with
      | none =>
        have hsame : r.enrol (.cancel number) = r := by rw [Roll.enrol, hgranted]
        rw [hsame]
        refine ⟨live, hkeeps, fun hnodup => ⟨(hfirst hnodup).1.length_eq, fun hmem hcalled => ?_⟩⟩
        exact (hfirst hnodup).1.held hmem fun h => hcalled (List.mem_append_left _ h)
      | some label =>
        refine ⟨_, hkeeps.cancel hgranted, fun hnodup => ?_⟩
        exact (hfirst hnodup).1.cancel hkeeps (hfirst hnodup).2 hgranted

/-- **Which registrations are left.** Whatever is asked of a session on which nobody is registered:
its observers are those of registrations in the order in which these were made, of each observer the
last ones, and of one that has been registered once just the one whose own cancellation has not been
called. So with different observers they are those whose own cancellations have not been called; and
as long as no cancellation is called twice they are so up to their order. -/
theorem observers_enrolAll (s : Session) (enrolments : List Enrolment) :
    (∃ live : List (String × Nat),
      live.Sublist ((Roll.ofSession s).enrolAll enrolments).granted.zipIdx ∧
      ((Roll.ofSession s).enrolAll enrolments).session.observers = live.map Prod.fst ∧
      ∀ label, (ofLabel label live).IsSuffix
          (ofLabel label ((Roll.ofSession s).enrolAll enrolments).granted.zipIdx) ∧
        (((Roll.ofSession s).enrolAll enrolments).granted.count label ≤ 1 →
          ofLabel label live =
            ofLabel label ((Roll.ofSession s).enrolAll enrolments).held)) ∧
    (((Roll.ofSession s).enrolAll enrolments).granted.Nodup →
      ((Roll.ofSession s).enrolAll enrolments).session.observers =
        ((Roll.ofSession s).enrolAll enrolments).held.map Prod.fst) ∧
    ((enrolments.filterMap Enrolment.cancelled?).Nodup →
      ((Roll.ofSession s).enrolAll enrolments).session.observers.Perm
        (((Roll.ofSession s).enrolAll enrolments).held.map Prod.fst)) := by
  obtain ⟨live, hkeeps, hbalances⟩ := exists_keeps s enrolments
  refine ⟨⟨live, hkeeps.live_sublist, hkeeps.observers_eq,
    fun label => ⟨hkeeps.latest label, hkeeps.single⟩⟩, fun hnodup => ?_, fun hcalled => ?_⟩
  · rw [hkeeps.observers_eq, hkeeps.eq_held hnodup]
  · rw [hkeeps.observers_eq, List.perm_iff_count]
    intro label
    rw [← length_ofLabel, ← length_ofLabel, (hbalances hcalled).length_eq]

/-- A session on which nobody is registered, of a run that has started. -/
def attended : Session := fresh (Interpreter.started passing [] none) (.fresh true false)

/-- An observer that records what it is shown. -/
def recorder (label : String) : Enrolment := .subscribe label fun _ => []

/-- Three observers are registered, and the cancellation of the second one is called twice. -/
def dismissing : List Enrolment :=
  [recorder "clerk", recorder "guest", recorder "chair", .cancel 1, .cancel 1]

set_option maxRecDepth 10000 in
/-- Among different observers only the one is gone whose cancellation is called. -/
theorem observers_enrolAll_dismissing :
    ((Roll.ofSession attended).enrolAll dismissing).granted.Nodup ∧
      ((Roll.ofSession attended).enrolAll dismissing).session.observers = ["clerk", "chair"] := by
  have hnodup : ((Roll.ofSession attended).enrolAll dismissing).granted.Nodup := by decide +kernel
  have hheld : ((Roll.ofSession attended).enrolAll dismissing).held.map Prod.fst =
      ["clerk", "chair"] := by decide +kernel
  obtain ⟨-, hdifferent, -⟩ := observers_enrolAll attended dismissing
  exact ⟨hnodup, (hdifferent hnodup).trans hheld⟩

set_option maxRecDepth 10000 in
/-- An observer is registered, another one, and the first again; this last registration is
cancelled, and the first one is gone. An observer is registered twice, the second registration is
cancelled twice, and both are gone. -/
theorem cancels_another :
    ((Roll.ofSession attended).enrolAll
        [recorder "clerk", recorder "guest", recorder "clerk", .cancel 2]).session.observers =
      ["guest", "clerk"] ∧
    ((Roll.ofSession attended).enrolAll
        [recorder "clerk", recorder "guest", recorder "clerk", .cancel 2]).held =
      [("clerk", 0), ("guest", 1)] ∧
    ((Roll.ofSession attended).enrolAll
        [recorder "clerk", recorder "clerk", .cancel 1, .cancel 1]).session.observers = [] ∧
    ((Roll.ofSession attended).enrolAll
        [recorder "clerk", recorder "clerk", .cancel 1, .cancel 1]).held = [("clerk", 0)] := by
  decide +kernel

end Lifecycle.Session
