import Lifecycle.Proofs.Store.LeadsFile
import Lifecycle.Proofs.Telemetry

/-!
# Saving leads

Leads are saved all or none. Saving succeeds where every step of it does (`Saves`), and then the new
file is the only one that differs; in every other case all files are as they were, and the failure
is counted (`saveMembers_atomic`). Leads that were saved are loaded again (`load_saveMembers`).
-/

namespace Lifecycle.LeadsFile

open Json

variable {disk left : Disk} {route : Route} {version savedAt leads : Json} {text : String}

/-- Every step succeeds by which leads are saved: they are the members of an object, each of them is
an object or describes one, there is a text of the file, and the disk takes it. -/
inductive Saves (disk : Disk) (route : Route) (version savedAt leads : Json) (text : String)
    (left : Disk) : Prop where
  | intro {members : Entries Json} {saved : Entries Saved}
      (members_found : leads = .obj members)
      (leads_read : eachLead Saved.ofJson members = .ok saved)
      (text_found : textOf version savedAt saved = .ok text)
      (file_replaced : disk.Replaces route text.toUTF8.toList left)

/-! ## All or none -/

/-- Saving succeeds with every step, or leaves all files as they were. -/
theorem saveMembers_cases (disk : Disk) (route : Route) (version savedAt leads : Json) :
    (∃ text left count, Saves disk route version savedAt leads text left ∧
      saveMembers disk route version savedAt leads =
        ⟨left, [.log (.saved count)], .ok true⟩) ∨
    ∃ left reason, (¬∃ text left, Saves disk route version savedAt leads text left) ∧
      left.file? = disk.file? ∧
      saveMembers disk route version savedAt leads = unsaved left reason := by
  unfold saveMembers
  split
  · rename_i members
    split
    · rename_i saved hsaved
      unfold save store
      rcases htext : textOf version savedAt saved with flaw | text
      · refine .inr ⟨disk, flaw.message, ?_, rfl, rfl⟩
        rintro ⟨text, left, ⟨hmembers, hread, hfound, -⟩⟩
        obtain rfl := Json.obj.inj hmembers
        obtain rfl := Except.ok.inj (hsaved.symm.trans hread)
        rw [htext] at hfound
        cases hfound
      · dsimp only
        rcases hreplace : disk.replace route text.toUTF8.toList with ⟨left, _ | error⟩
        · exact .inl ⟨text, left, saved.length,
            ⟨rfl, hsaved, htext, Disk.replace_eq_none_iff.mp hreplace⟩, rfl⟩
        · refine .inr ⟨left, error.message, ?_, Disk.file?_of_replace_failed hreplace, rfl⟩
          rintro ⟨text', left', ⟨hmembers, hread, hfound, hreplaced⟩⟩
          obtain rfl := Json.obj.inj hmembers
          obtain rfl := Except.ok.inj (hsaved.symm.trans hread)
          obtain rfl := Except.ok.inj (htext.symm.trans hfound)
          rw [← Disk.replace_eq_none_iff, hreplace] at hreplaced
          cases hreplaced
    · rename_i flaw hflaw
      refine .inr ⟨disk, flaw.message, ?_, rfl, rfl⟩
      rintro ⟨text, left, ⟨hmembers, hread, -, -⟩⟩
      obtain rfl := Json.obj.inj hmembers
      rw [hflaw] at hread
      cases hread
  · rename_i hother
    refine .inr ⟨disk, _, ?_, rfl, rfl⟩
    rintro ⟨text, left, ⟨hmembers, -, -, -⟩⟩
    exact hother _ hmembers

/-- **Saving is atomic.** When every step succeeds, the text stands where the route leads, no other
file has changed and no metric. Whichever step fails, the result is `false`, all files are as they
were, that which was to be replaced among them, with no other beside them, and the failure is
counted once. -/
theorem saveMembers_atomic (disk : Disk) (route : Route) (version savedAt leads : Json) :
    let response := saveMembers disk route version savedAt leads
    (response.result = .ok true ∧
      (∃ text target, Saves disk route version savedAt leads text response.state ∧
        response.state.locate route = .ok target ∧
        response.state.file? = Function.update disk.file? target (some text.toUTF8.toList)) ∧
      ∀ t : Telemetry, (t.absorb response.signals).metrics = t.metrics) ∨
    (response.result = .ok false ∧
      (¬∃ text left, Saves disk route version savedAt leads text left) ∧
      response.state.file? = disk.file? ∧
      ∀ t : Telemetry, t.enabled = true → (t.absorb response.signals).metrics =
        t.metrics.increment "persist.error" [("op", "save")] (.int 1)) := by
  intro response
  rcases saveMembers_cases disk route version savedAt leads with
    ⟨text, left, count, hsaves, hresponse⟩ | ⟨left, reason, hfailed, hfiles, hresponse⟩
  · obtain ⟨-, -, -, hreplaces⟩ := id hsaves
    obtain ⟨target, hlocate, hfiles⟩ := hreplaces.spec
    have hstate : response.state = left := congrArg Response.state hresponse
    refine .inl ⟨congrArg Response.result hresponse, ⟨text, target, ?_, ?_, ?_⟩, fun t => ?_⟩
    · rwa [hstate]
    · rwa [hstate]
    · rw [hstate, hfiles]
    · rw [show response.signals = _ from congrArg Response.signals hresponse]
      exact t.metrics_absorb_log _
  · refine .inr ⟨congrArg Response.result hresponse, hfailed, ?_, fun t henabled => ?_⟩
    · rw [show response.state = left from congrArg Response.state hresponse, hfiles]
    · rw [show response.signals = _ from congrArg Response.signals hresponse]
      exact Telemetry.metrics_absorb_count henabled _ _ _

/-- A disk with a file that cannot be replaced, as nothing can be moved. -/
def immovable : Disk := ⟨"leads", [(["f"], .file [123, 125])], [.move]⟩

/-- A file that cannot be replaced stays, and the one that was to replace it is gone. -/
theorem saveMembers_immovable :
    let response := saveMembers immovable ["f"] (.int 1) (.int 0) (.obj [("ada", .obj [])])
    response.result = .ok false ∧ response.state.file? = immovable.file? ∧
      ((Telemetry.fresh true false).absorb response.signals).metrics.counter
        "persist.error" [("op", "save")] = .int 1 := by
  intro response
  have hrefused (bytes : List UInt8) : (immovable.replace ["f"] bytes).2 = some .refused := rfl
  rcases saveMembers_atomic immovable ["f"] (.int 1) (.int 0) (.obj [("ada", .obj [])]) with
    ⟨-, ⟨text, target, ⟨-, -, -, hreplaces⟩, -, -⟩, -⟩ | ⟨hresult, -, hfiles, hmetrics⟩
  · have hreplaced := congrArg Prod.snd (Disk.replace_eq_none_iff.mpr hreplaces)
    rw [hrefused] at hreplaced
    cases hreplaced
  · refine ⟨hresult, hfiles, ?_⟩
    rw [hmetrics (.fresh true false) rfl, Metrics.counter_increment, if_pos rfl]
    rfl

/-! ## What is loaded afterwards -/

/-- Leads that are objects are saved as they stand. -/
theorem values_of_eachLead {members : Entries Json} {saved : Entries Saved}
    (hobjects : ∀ lead ∈ members, lead.2.members?.isSome)
    (h : eachLead Saved.ofJson members = .ok saved) :
    values saved = members ∧ ∀ lead ∈ saved, lead.2.IsCanonical := by
  induction members generalizing saved with
  | nil =>
    obtain rfl := Except.ok.inj h
    exact ⟨rfl, List.forall_mem_nil _⟩
  | cons lead rest ih =>
    obtain ⟨hlead, hrest⟩ := List.forall_mem_cons.mp hobjects
    obtain ⟨key, value⟩ := lead
    cases value with
    | obj object =>
      rw [eachLead] at h
      split at h
      · cases h
      rename_i result hresult
      rcases hread : eachLead Saved.ofJson rest with flaw | results
      · rw [hread] at h
        cases h
      · rw [hread] at h
        obtain rfl := Except.ok.inj h
        obtain ⟨hvalue, hcanonical⟩ := Saved.isCanonical_ofJson hresult
        obtain ⟨hvalues, hcanonicals⟩ := ih hrest hread
        exact ⟨congrArg₂ List.cons (congrArg (Prod.mk key) hvalue) hvalues,
          List.forall_mem_cons.mpr ⟨hcanonical, hcanonicals⟩⟩
    | _ => cases hlead

/-- **What is saved is what is loaded.** Leads that are objects, and in which no key is repeated,
are loaded with the same values, kinds and order as they were saved, whatever was at their place
before, if the version is asked for that they were saved with; for any other version nothing is
loaded. The clock has to show a number. -/
theorem load_saveMembers {members : Entries Json} {v : Int} {signals : List Signal}
    (hobjects : ∀ lead ∈ members, lead.2.members?.isSome)
    (hunrepeated : (Json.obj members).unrepeated = true)
    (hnow : savedAt.isLenientDouble = true)
    (hsave : saveMembers disk route (.int v) savedAt (.obj members) = ⟨left, signals, .ok true⟩)
    (w : Int) :
    (load left route (.int w)).2 = .ok (if w = v then some members else none) := by
  rw [saveMembers] at hsave
  split at hsave
  · rename_i saved hread
    obtain ⟨rfl, hcanonical⟩ := values_of_eachLead hobjects hread
    exact load_save hcanonical hobjects hunrepeated hnow hsave w
  · cases hsave

/-- Leads with values of every kind, whose keys stand in no order. -/
def assorted : Entries Json :=
  [("zoë", .obj [("score", .float (Double.ofInt 2)), ("count", .int 2),
      ("tags", .arr [.str "a\"b", .null, .bool true])]),
    ("ada", .obj []),
    ("", .obj [("nested", .obj [("b", .int (-7)), ("a", .arr [])])])]

/-- A disk with a file, which refuses nothing. -/
def occupied : Disk := ⟨"leads", [(["f"], .file [123, 125])], []⟩

/-- The leads take the place of another file and are loaded from there. -/
theorem load_assorted : ∃ left signals,
    saveMembers occupied ["f"] (.int 3) (.float (Double.ofInt 5)) (.obj assorted) =
        ⟨left, signals, .ok true⟩ ∧
      (load left ["f"] (.int 3)).2 = .ok (some assorted) ∧
      (load left ["f"] (.int 1)).2 = .ok none := by
  obtain ⟨hobjects, hunrepeated, hwritable, hnesting⟩ :
      (∀ lead ∈ assorted, lead.2.members?.isSome) ∧ (Json.obj assorted).unrepeated = true ∧
        (assorted.all fun lead => lead.2.isWritable) = true ∧
        ∀ lead ∈ assorted, leadDepth + lead.2.nesting ≤ coverLimit := by
    decide +kernel
  obtain ⟨saved, hread⟩ : ∃ saved, eachLead Saved.ofJson assorted = .ok saved := ⟨_, rfl⟩
  obtain ⟨hvalues, hcanonical⟩ := values_of_eachLead hobjects hread
  rw [← hvalues] at hwritable hnesting
  have hsealed := isWritable_sealed (.int 3) (.float (Double.ofInt 5)) (values saved)
  rw [hwritable] at hsealed
  have htext := (textOf_eq_ok_iff hcanonical).mpr
    ⟨⟨hsealed.trans (by decide +kernel), List.forall_mem_map.mp hnesting⟩, rfl⟩
  have hplace (bytes : List UInt8) : (occupied.replace ["f"] bytes).2 = none := rfl
  have hsave := save_eq_true_iff.mpr ⟨_, htext, Prod.ext rfl (hplace _), rfl⟩
  have hmembers : saveMembers occupied ["f"] (.int 3) (.float (Double.ofInt 5)) (.obj assorted) =
      save occupied ["f"] (.int 3) (.float (Double.ofInt 5)) saved := by
    rw [saveMembers, hread]
  have hsaved := hmembers.trans hsave
  exact ⟨_, _, hsaved, load_saveMembers hobjects hunrepeated rfl hsaved 3,
    load_saveMembers hobjects hunrepeated rfl hsaved 1⟩

end Lifecycle.LeadsFile
