import Lifecycle.Proofs.Chart.Finishing

/-!
# What the second reading looks at

The type of a node and the object of its child states are looked at by the first reading alone; what
they say, the drafts have as their kinds and their children. So drafts may be taken without these
fields (`Draft.bare`), in the same table (`Outline.drafts_bare`), and are finished just as they were
(`Blueprint.finishAll_bare`).
-/

namespace Lifecycle

namespace Outline

/-- The fields without the type and the child states. -/
def bareFields (fields : Entries Json) : Entries Json :=
  fields.filter fun member => member.1 != "type" && member.1 != "states"

mutual

/-- The outline with bare fields at every node. -/
def bare : Outline → Outline
  | .node key kind fields children => .node key kind (bareFields fields) (bareAll children)

/-- The outlines with bare fields at every node. -/
def bareAll : List Outline → List Outline
  | [] => []
  | child :: rest => child.bare :: bareAll rest

end

section Fields

variable {name : String} (fields : Entries Json) (htype : name ≠ "type")
  (hstates : name ≠ "states")

include htype hstates

theorem get?_bareFields :
    Entries.get? (bareFields fields) name = Entries.get? fields name := by
  induction fields with
  | nil => rfl
  | cons member rest ih =>
    obtain ⟨other, value⟩ := member
    rw [bareFields, List.filter_cons, ← bareFields]
    by_cases hother : other = name
    · subst hother
      simp [htype, hstates, Entries.get?_cons]
    · split <;> simp [Entries.get?_cons, hother, ih]

theorem field_bareFields : field (bareFields fields) name = field fields name := by
  rw [field, field, get?_bareFields fields htype hstates]

theorem absent_bareFields : absent (bareFields fields) name = absent fields name := by
  rw [absent, absent, field_bareFields fields htype hstates]

end Fields

/-! ## The table -/

theorem key_bare (o : Outline) : o.bare.key = o.key := by
  cases o
  rfl

mutual

theorem size_bare : (o : Outline) → o.bare.size = o.size
  | .node key kind fields children => by rw [bare, size, size, sizeAll_bareAll]

theorem sizeAll_bareAll : (os : List Outline) → sizeAll (bareAll os) = sizeAll os
  | [] => rfl
  | child :: rest => by rw [bareAll, sizeAll, sizeAll, size_bare, sizeAll_bareAll]

end

theorem indices_bareAll (first : Nat) (os : List Outline) :
    indices first (bareAll os) = indices first os := by
  induction os generalizing first with
  | nil => rfl
  | cons child rest ih => rw [bareAll, indices, indices, size_bare, ih]

end Outline

/-- The draft with bare fields. -/
def Draft.bare (draft : Draft) : Draft :=
  { draft with fields := Outline.bareFields draft.fields }

section Fields

variable (draft : Draft) (name : String) (htype : name ≠ "type") (hstates : name ≠ "states")

include htype hstates

theorem Draft.field_bare :
    Outline.field draft.bare.fields name = Outline.field draft.fields name :=
  Outline.field_bareFields draft.fields htype hstates

theorem Draft.absent_bare :
    Outline.absent draft.bare.fields name = Outline.absent draft.fields name :=
  Outline.absent_bareFields draft.fields htype hstates

end Fields

namespace Outline

mutual

/-- The drafts of bare outlines are the bare drafts. -/
theorem drafts_bare (parent : Option Nat) (depth index : Nat) (id : String) :
    (o : Outline) → drafts parent depth index id o.bare =
      (drafts parent depth index id o).map Draft.bare
  | .node key kind fields children => by
    rw [bare, drafts, drafts, indices_bareAll, draftsAll_bareAll]
    rfl

theorem draftsAll_bareAll (parent depth index : Nat) (parentId : String) :
    (os : List Outline) → draftsAll parent depth index parentId (bareAll os) =
      (draftsAll parent depth index parentId os).map Draft.bare
  | [] => rfl
  | child :: rest => by
    rw [bareAll, draftsAll, draftsAll, List.map_append, key_bare, size_bare, drafts_bare,
      draftsAll_bareAll]

end

end Outline

/-! ## References -/

namespace Reference

variable (table : Array Draft)

theorem childAt?_bare (parent : Nat) (key : String) :
    childAt? (table.map Draft.bare) parent key = childAt? table parent key := by
  unfold childAt?
  rw [Array.getElem?_map]
  cases table[parent]? with
  | none => rfl
  | some draft =>
    simp only [Option.map_some, Array.getElem?_map, Option.any_map]
    rfl

theorem walk?_bare (start : Nat) (keys : List String) :
    walk? (table.map Draft.bare) start keys = walk? table start keys := by
  induction keys generalizing start with
  | nil => rfl
  | cons key rest ih => simp only [walk?, childAt?_bare, ih]

theorem resolve_bare (machine : String) (draft : Draft) (text : String) :
    resolve machine (table.map Draft.bare) draft.bare text =
      resolve machine table draft text := by
  unfold resolve
  simp only [walk?_bare]
  rfl

end Reference

/-! ## Finishing -/

namespace Blueprint

/-- The plan with a table of bare drafts. -/
def bare (plan : Blueprint) : Blueprint := { plan with table := plan.table.map Draft.bare }

variable (plan : Blueprint) (draft : Draft)

theorem kindAt?_bare (i : Nat) : plan.bare.kindAt? i = plan.kindAt? i := by
  rw [kindAt?, bare, Array.getElem?_map, Option.map_map]
  rfl

theorem within_bare (i ancestor : Nat) : plan.bare.within i ancestor = plan.within i ancestor := by
  refine within_congr (fun i => ?_) i ancestor
  rw [bare, Array.getElem?_map, Option.bind_map]
  rfl

theorem target_bare (declared : Json) :
    plan.bare.target draft.bare declared = plan.target draft declared := by
  cases declared with
  | str text => simp only [target, bare, Reference.resolve_bare]
  | _ => rfl

theorem transition_bare (event : String) (declared : Json) :
    plan.bare.transition draft.bare event declared = plan.transition draft event declared := by
  have hto : plan.bare.transitionTo draft.bare event = plan.transitionTo draft event := by
    funext reference names
    unfold transitionTo
    rw [target_bare]
    rfl
  unfold transition
  rw [hto]

theorem handler_bare : plan.bare.handler draft.bare = plan.handler draft := by
  funext member
  unfold handler
  rw [transition_bare]
  rfl

theorem onDone_bare : plan.bare.onDone draft.bare = plan.onDone draft := by
  unfold onDone
  rw [draft.absent_bare "on_done" (by decide) (by decide),
    draft.field_bare "on_done" (by decide) (by decide),
    transition_bare]
  simp only [within_bare]
  rfl

theorem initial_bare : plan.bare.initial draft.bare = plan.initial draft := by
  have hchild (parent : Nat) (key : String) : Reference.childAt? plan.bare.table parent key =
      Reference.childAt? plan.table parent key := Reference.childAt?_bare plan.table parent key
  unfold initial
  rw [draft.field_bare "initial" (by decide) (by decide)]
  simp only [kindAt?_bare, hchild]
  rfl

theorem defaults_bare : plan.bare.defaults draft.bare = plan.defaults draft := by
  unfold defaults
  rw [initial_bare, draft.absent_bare "initial" (by decide) (by decide)]
  simp only [kindAt?_bare]
  rfl

/-- A draft is finished as it is with bare fields. -/
theorem finish_bare : plan.bare.finish draft.bare = plan.finish draft := by
  have hdescription : Entries.get? draft.bare.fields "description" =
      Entries.get? draft.fields "description" :=
    Outline.get?_bareFields draft.fields (by decide) (by decide)
  unfold finish
  rw [defaults_bare, handler_bare, onDone_bare, hdescription,
    draft.field_bare "on" (by decide) (by decide),
    draft.field_bare "entry" (by decide) (by decide),
    draft.field_bare "exit" (by decide) (by decide),
    draft.field_bare "tags" (by decide) (by decide)]
  rfl

/-- Drafts are finished as they are with bare fields. -/
theorem finishAll_bare (drafts : List Draft) :
    plan.bare.finishAll (drafts.map Draft.bare) = plan.finishAll drafts := by
  induction drafts with
  | nil => rfl
  | cons draft rest ih =>
    rw [List.map_cons, finishAll, finishAll, finish_bare, ih]
    rfl

end Blueprint

end Lifecycle
