import Lifecycle.Proofs.Chart.Assignments
import Lifecycle.Proofs.Chart.Spelling
import Lifecycle.Proofs.Chart.Targets

/-!
# Well-formed declarations

What a declaration has to be to describe a chart, said of the declared states alone: of the fields
of each of them (`DeclaredState`), and of the states that are declared beside it
(`Scope.WellFormed`). Nothing here knows of tables and indices. The first reading finds nothing
wrong with such states (`exists_read`).
-/

namespace Lifecycle

open Outline (field absent)

/-- A value counts as absent, or is an object of objects. -/
def DeclaresObjects (value : Json) : Prop :=
  value.truthy = false ∨ ∃ members, value = .obj members ∧
    ∀ member ∈ members, ∃ fields, member.2 = .obj fields

/-- The names that a value lists: none, one, several, or the keys of an object. -/
inductive Lists : Json → List String → Prop
  | none : Lists .null []
  | one (name : String) : Lists (.str name) [name]
  | many (names : List String) : Lists (.arr (names.map .str)) names
  | keys (members : Entries Json) : Lists (.obj members) (Entries.keys members)

/-- A declared transition, the reference to its target, and the value that lists its actions. -/
inductive Parts : Json → Json → Json → Prop
  | none : Parts .null .null .null
  | reference (text : String) : Parts (.str text) (.str text) .null
  | object {fields : Entries Json} :
    (∀ name ∈ Entries.keys fields, name ∈ Blueprint.transitionFields) →
      Parts (.obj fields) (field fields "target") (field fields "actions")

namespace DeclaredState

/-- The kind that the type of a state says, or that its shape implies. -/
def kind (s : DeclaredState) : Kind :=
  ((field s.fields "type").string?.bind Kind.ofWord?).getD (Outline.impliedKind s.fields)

/-- The path to the state below which references lead that begin with a key: to the parent, and for
the root to itself. -/
def outerPath (s : DeclaredState) : List String :=
  if s.path.length = 1 then s.path else s.path.dropLast

/-- One state is declared among the child states of another. -/
def IsChildOf (t s : DeclaredState) : Prop := ∃ key, t.path = s.path ++ [key]

end DeclaredState

/-- What declared states are judged against: all states of the declaration, the actions and events
that there are, and the context. -/
structure Scope where
  machine : String
  states : List DeclaredState
  registry : Registry
  events : Option (List String)
  context : Context

namespace Scope

variable (scope : Scope) (s : DeclaredState)

/-- There is an action of a name, and the keys that it assigns are in the context. -/
def Registered (name : String) : Prop :=
  ∃ effect, Entries.get? scope.registry name = some effect ∧ ∀ updates, effect = .assign updates →
    ∀ key ∈ Entries.keys updates, Entries.has scope.context (.text key) = true

/-- A value lists names of actions that there are. -/
def Performable (declared : Json) : Prop :=
  ∃ names, Lists declared names ∧ ∀ name ∈ names, scope.Registered name

/-- A reference on a state denotes another state, which is not the root. -/
def Points (text : String) (t : DeclaredState) : Prop :=
  t ∈ scope.states ∧ t.path ≠ [scope.machine] ∧
    Reference.Denotes scope.machine (Text.dotted s.path) (Text.dotted s.outerPath) text
      (Text.dotted t.path)

/-- A transition of a state has no target or one that there is, and actions that there are. -/
def Moves (declared : Json) : Prop :=
  ∃ reference names, Parts declared reference names ∧ scope.Performable names ∧
    (reference = .null ∨ ∃ text t, reference = .str text ∧ scope.Points s text t)

/-- A completion of a state leads out of it. -/
def Leaves (declared : Json) : Prop :=
  ∃ text names t, Parts declared (.str text) names ∧ scope.Performable names ∧
    scope.Points s text t ∧ ¬ s.path <+: t.path

/-- A declared state is in order. -/
structure WellFormed : Prop where
  validKeys : ∀ key ∈ s.path, Outline.validKey key = true
  known : ∀ name ∈ Entries.keys s.fields, name ∈ Outline.nodeFields
  /-- Child states are declared by an object of objects. -/
  children : DeclaresObjects (field s.fields "states")
  /-- A type that is declared is one of the four, and fits the child states. -/
  typed : absent s.fields "type" = true ∨ field s.fields "type" = .str s.kind.word ∧
    (s.kind = .compound ↔ (field s.fields "states").truthy = true)
  /-- A compound state names one of its states as its initial one, and not a history. -/
  initial : s.kind = .compound → absent s.fields "initial" = false ∧ ∃ t ∈ scope.states,
    t.path = s.path ++ [(field s.fields "initial").display] ∧ t.kind ≠ .history
  oneHistory : ∀ t ∈ scope.states, ∀ t' ∈ scope.states, t.IsChildOf s → t'.IsChildOf s →
    t.kind = .history → t'.kind = .history → t.path = t'.path
  noInitial : s.kind ≠ .compound → absent s.fields "initial" = true
  noTransitions : s.kind = .final ∨ s.kind = .history → (field s.fields "on").truthy = false
  noActions : s.kind = .history →
    (field s.fields "entry").truthy = false ∧ (field s.fields "exit").truthy = false
  shallow : s.kind = .history → Entries.get? s.fields "history" = none ∨
    Entries.get? s.fields "history" = some (.str "shallow")
  noDepth : s.kind ≠ .history → absent s.fields "history" = true
  noCompletion : s.kind ≠ .compound → absent s.fields "on_done" = true
  /-- Events of the vocabulary have transitions. -/
  transitions : (field s.fields "on").truthy = false ∨ ∃ members,
    field s.fields "on" = .obj members ∧ ∀ member ∈ members,
      (∀ events, scope.events = some events → member.1 ∈ events) ∧ scope.Moves s member.2
  completion : absent s.fields "on_done" = true ∨ scope.Leaves s (field s.fields "on_done")
  entry : scope.Performable (field s.fields "entry")
  exit : scope.Performable (field s.fields "exit")
  tags : (field s.fields "tags").truthy = false ∨ ∃ names, Lists (field s.fields "tags") names

end Scope

/-- The fields of a declaration are in order, with this context. -/
structure Chart.WellFormed (registry : Registry) (events : Option (List String)) (context : Context)
    (fields : Entries Json) : Prop where
  unrepeated : (Json.obj fields).unrepeated = true
  context_eq : Chart.contextOf (field fields "context") = .ok context
  /-- The root has states, and no completion. -/
  states : (field fields "states").truthy = true
  root : absent fields "on_done" = true
  wellFormed : ∀ s ∈ Outline.declared [Chart.machineId fields] (.obj fields), Scope.WellFormed
    ⟨Chart.machineId fields, Outline.declared [Chart.machineId fields] (.obj fields), registry,
      events, context⟩ s

theorem Outline.field_eq_null {fields : Entries Json} {name : String}
    (h : absent fields name = true) : field fields name = .null := by
  unfold absent Json.isNull at h
  split at h
  · assumption
  · cases h

namespace Scope.WellFormed

open Outline

variable {scope : Scope} {s : DeclaredState} (h : scope.WellFormed s)

include h

/-! ## The first reading -/

theorem misfit?_eq_none (hfits : s.kind = .compound ↔ (field s.fields "states").truthy = true) :
    misfit? s.fields s.kind = none := by
  have hshallow : s.kind = .history →
      ((Entries.get? s.fields "history").getD (.str "shallow")).string? = some "shallow" := by
    intro hkind
    rcases h.shallow hkind with hnone | hsome
    · rw [hnone]
      rfl
    · rw [hsome]
      rfl
  have htransitions := h.noTransitions
  have hactions := h.noActions
  have hdepth := h.noDepth
  have hcompletion := h.noCompletion
  unfold misfit?
  grind

/-- The kind of a state is the one that the reading finds. -/
theorem kindOf_eq : kindOf s.fields = .ok s.kind := by
  unfold kindOf
  rcases h.typed with habsent | ⟨htype, hfits⟩
  · rw [if_pos habsent, DeclaredState.kind, field_eq_null habsent]
    rfl
  · have hpresent : absent s.fields "type" = false := by
      rw [absent, htype]
      rfl
    rw [hpresent, htype]
    simp only [Bool.false_eq_true, if_false, Json.string?, Option.bind_some, Kind.ofWord?_word,
      h.misfit?_eq_none hfits]

theorem unknownFields_eq_nil : unknownFields s.fields = [] := by
  rw [unknownFields, Blueprint.sortedDistinct_eq_nil_iff, List.filter_eq_nil_iff]
  intro name hname
  simpa using h.known name hname

/-- Nothing is wrong with the fields of a state. -/
theorem check_eq {root : Bool} {key : String} (hkey : s.path.getLast? = some key)
    (hroot : root = true → s.kind = .compound ∧ absent s.fields "on_done" = true) :
    check root key s.fields = .ok s.kind := by
  have hvalid : validKey key = true := h.validKeys key (List.mem_of_getLast? hkey)
  rw [check, h.kindOf_eq, hvalid, h.unknownFields_eq_nil]
  cases root with
  | false => rfl
  | true =>
    obtain ⟨hcompound, habsent⟩ := hroot rfl
    simp [hcompound, habsent]

end Scope.WellFormed

namespace Outline

variable {scope : Scope}

mutual

/-- States that are in order are read. -/
theorem exists_read (root : Bool) (id : String) {key : String} {path : List String}
    (hkey : path.getLast? = some key) : (value : Json) → (∃ fields, value = .obj fields) →
      (∀ fields, value = .obj fields → root = true →
        (DeclaredState.mk path fields).kind = .compound ∧ absent fields "on_done" = true) →
      (∀ s ∈ declared path value, scope.WellFormed s) → ∃ o, read root id key value = .ok o
  | .obj fields, _, hroot, h => by
    rw [declared] at h
    obtain ⟨hstate, hstates⟩ := List.forall_mem_cons.mp h
    obtain ⟨children, hchildren⟩ := exists_readStates id fields hstate.children hstates
    rw [read, hstate.check_eq hkey (hroot fields rfl), hchildren]
    exact ⟨_, rfl⟩
  | .null, ho, _, _ | .bool _, ho, _, _ | .int _, ho, _, _ | .float _, ho, _, _ | .str _, ho, _, _
  | .arr _, ho, _, _ => by
    obtain ⟨_, heq⟩ := ho
    cases heq

theorem exists_readStates (id : String) {path : List String} :
    (fields : List (String × Json)) → DeclaresObjects (field fields "states") →
      (∀ s ∈ declaredStates path fields, scope.WellFormed s) →
      ∃ os, readStates id fields = .ok os
  | [], _, _ => ⟨[], rfl⟩
  | (name, value) :: rest, hobjects, h => by
    rw [field_cons] at hobjects
    rw [declaredStates] at h
    rw [readStates]
    split at h
    · rename_i hname
      rw [if_pos hname] at hobjects ⊢
      exact exists_readChildren id value hobjects h
    · rename_i hname
      rw [if_neg hname] at hobjects ⊢
      exact exists_readStates id rest hobjects h

theorem exists_readChildren (id : String) {path : List String} :
    (value : Json) → DeclaresObjects value →
      (∀ s ∈ declaredChildren path value, scope.WellFormed s) →
      ∃ os, readChildren id value = .ok os
  | .obj members, hobjects, h => by
    rw [readChildren]
    refine exists_readMembers id members (fun member hmember => ?_) h
    rcases hobjects with habsent | ⟨others, heq, hall⟩
    · cases members with
      | nil => cases hmember
      | cons => cases habsent
    · obtain rfl := Json.obj.inj heq
      exact hall member hmember
  | .null, ho, _ | .bool _, ho, _ | .int _, ho, _ | .float _, ho, _ | .str _, ho, _
  | .arr _, ho, _ => by
    rcases ho with habsent | ⟨_, heq, -⟩
    · simp only [readChildren, habsent]
      exact ⟨[], rfl⟩
    · cases heq

theorem exists_readMembers (id : String) {path : List String} :
    (members : List (String × Json)) → (∀ member ∈ members, ∃ fields, member.2 = .obj fields) →
      (∀ s ∈ declaredMembers path members, scope.WellFormed s) →
      ∃ os, readMembers id members = .ok os
  | [], _, _ => ⟨[], rfl⟩
  | (key, value) :: rest, hobjects, h => by
    obtain ⟨hobject, hothers⟩ := List.forall_mem_cons.mp hobjects
    rw [declaredMembers] at h
    obtain ⟨hstate, hrest⟩ := List.forall_mem_append.mp h
    obtain ⟨child, hchild⟩ := exists_read false (id ++ "." ++ key) List.getLast?_concat value
      hobject (fun _ _ => nofun) hstate
    obtain ⟨others, hread⟩ := exists_readMembers id rest hothers hrest
    rw [readMembers, hchild, hread]
    exact ⟨_, rfl⟩

end

end Outline

end Lifecycle
