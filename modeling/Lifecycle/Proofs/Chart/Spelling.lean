import Lifecycle.Proofs.Chart.Bare
import Lifecycle.Proofs.Entries
import Lifecycle.Proofs.Outcome

/-!
# Types that are spelled out

A node without a type has the one that its shape implies: it is compound with child states, and
atomic without. That type may be spelled out (`Outline.SpelledAt`), at any node of a declaration.
Where the node has no field out of place the chart is the same, and so is the defect if there is
one. A field out of place is refused beside a type that is spelled out, and beside one that is
implied it is not looked at (`Chart.define_spelled`).
-/

namespace Lifecycle

/-- The second outcome is an error, unless the first has come to another error before it. -/
def RefusedFor {ε α : Type} (error : ε) (outcome outcome' : Except ε α) : Prop :=
  outcome' = .error error ∨ ∃ other, outcome' = .error other ∧ outcome = .error other

theorem RefusedFor.map {ε α β : Type} {error : ε} {outcome outcome' : Except ε α}
    (h : RefusedFor error outcome outcome') (f f' : α → β) :
    RefusedFor error (outcome.map f) (outcome'.map f') := by
  rcases h with h' | ⟨other, h', h⟩
  · exact .inl (by rw [h']; rfl)
  · exact .inr ⟨other, by rw [h']; rfl, by rw [h]; rfl⟩

theorem RefusedFor.bind {ε α β : Type} {error : ε} {outcome outcome' : Except ε α}
    (h : RefusedFor error outcome outcome') (next next' : α → Except ε β) :
    RefusedFor error (outcome >>= next) (outcome' >>= next') := by
  rcases h with h' | ⟨other, h', h⟩
  · exact .inl (by rw [h']; rfl)
  · exact .inr ⟨other, by rw [h']; rfl, by rw [h]; rfl⟩

namespace Outline

/-- The kind that the shape of a node implies. -/
def impliedKind (fields : Entries Json) : Kind :=
  if (field fields "states").truthy then .compound else .atomic

/-- Why a node of the implied kind may not have its fields: the depth of a history belongs to
history nodes, and a completion to compound ones. -/
def misplaced? (fields : Entries Json) : Option Defect :=
  if !absent fields "history" then some .historyField
  else if impliedKind fields = .atomic ∧ !absent fields "on_done" then some .onDoneField
  else none

/-- Fields without a type, and the same fields with the implied type spelled out among them. -/
inductive Spelled : Entries Json → Entries Json → Prop where
  | insert {before after : Entries Json} :
    "type" ∉ Entries.keys before → "type" ∉ Entries.keys after → Spelled (before ++ after)
      (before ++ ("type", .str (impliedKind (before ++ after)).word) :: after)

/-- The fields of a node with these child states, between others. -/
def withStates (first last states : Entries Json) : Entries Json :=
  first ++ ("states", .obj states) :: last

/-- A declaration of a node with an id, and the same declaration with the implied type spelled out
at one node, in it or below, which has these fields and this id. -/
inductive SpelledAt (node : String) (fields : Entries Json) : String → Json → Json → Prop where
  | here {fields' : Entries Json} :
    Spelled fields fields' → SpelledAt node fields node (.obj fields) (.obj fields')
  | inside {id key : String} {child child' : Json} {before after first last : Entries Json} :
    "states" ∉ Entries.keys first → SpelledAt node fields (id ++ "." ++ key) child child' →
      SpelledAt node fields id (.obj (withStates first last (before ++ (key, child) :: after)))
        (.obj (withStates first last (before ++ (key, child') :: after)))

variable {fields fields' before after first last : Entries Json} {name node id key : String}
  {value value' child child' declaration declaration' : Json} {defect : Defect} {root : Bool}

/-! ## The fields of a node -/

theorem readStates_eq (id : String) (fields : Entries Json) :
    readStates id fields = readChildren id (field fields "states") := by
  induction fields with
  | nil =>
    rw [readStates, field, Entries.get?_nil, Option.getD_none,
      readChildren.eq_2 _ _ (by rintro _ ⟨⟩)]
    rfl
  | cons member rest ih =>
    obtain ⟨other, value⟩ := member
    rw [readStates, field, Entries.get?_cons]
    by_cases hother : other = "states"
    · simp [hother]
    · simp only [hother, if_false, beq_iff_eq]
      exact ih

theorem unknownFields_bareFields (fields : Entries Json) :
    unknownFields (bareFields fields) = unknownFields fields := by
  have hkeys : (Entries.keys (bareFields fields)).filter (fun name => !nodeFields.contains name) =
      (Entries.keys fields).filter fun name => !nodeFields.contains name := by
    rw [Entries.keys, Entries.keys, bareFields, List.filter_map, List.filter_map,
      List.filter_filter]
    refine congrArg (List.map Prod.fst) (List.filter_congr fun member _ => ?_)
    simp only [nodeFields, Function.comp_apply, List.contains_cons]
    grind
  rw [unknownFields, unknownFields, hkeys]

theorem misfit?_impliedKind (fields : Entries Json) :
    misfit? fields (impliedKind fields) = misplaced? fields := by
  unfold misfit? misplaced? impliedKind
  by_cases hstates : (field fields "states").truthy = true <;> simp [hstates]

section Bare

variable (h : bareFields fields' = bareFields fields)

include h

theorem get?_of_bareFields_eq (name : String) (htype : name ≠ "type") (hstates : name ≠ "states") :
    Entries.get? fields' name = Entries.get? fields name := by
  rw [← get?_bareFields fields' htype hstates, h, get?_bareFields fields htype hstates]

theorem field_of_bareFields_eq (name : String) (htype : name ≠ "type") (hstates : name ≠ "states") :
    field fields' name = field fields name := by
  rw [field, field, get?_of_bareFields_eq h name htype hstates]

theorem absent_of_bareFields_eq (name : String) (htype : name ≠ "type")
    (hstates : name ≠ "states") : absent fields' name = absent fields name := by
  rw [absent, absent, field_of_bareFields_eq h name htype hstates]

theorem unknownFields_of_bareFields_eq : unknownFields fields' = unknownFields fields := by
  rw [← unknownFields_bareFields, h, unknownFields_bareFields]

/-- Of the child states only whether there are any matters to the other fields. -/
theorem misfit?_of_bareFields_eq
    (hstates : (field fields' "states").truthy = (field fields "states").truthy) (kind : Kind) :
    misfit? fields' kind = misfit? fields kind := by
  unfold misfit?
  rw [hstates, field_of_bareFields_eq h "on" (by decide) (by decide),
    field_of_bareFields_eq h "entry" (by decide) (by decide),
    field_of_bareFields_eq h "exit" (by decide) (by decide),
    field_of_bareFields_eq h "history" (by decide) (by decide),
    get?_of_bareFields_eq h "history" (by decide) (by decide),
    absent_of_bareFields_eq h "history" (by decide) (by decide),
    absent_of_bareFields_eq h "on_done" (by decide) (by decide)]

end Bare

namespace Spelled

variable (h : Spelled fields fields')

include h

theorem bareFields_eq : bareFields fields' = bareFields fields := by
  obtain ⟨-, -⟩ := h
  simp [bareFields]

theorem get?_eq (name : String) : Entries.get? fields' name =
    if "type" == name then some (.str (impliedKind fields).word)
    else Entries.get? fields name := by
  obtain ⟨hbefore, -⟩ := h
  exact Entries.get?_insert _ _ hbefore name

theorem states_eq : field fields' "states" = field fields "states" := by
  rw [field, field, h.get?_eq]
  rfl

theorem kindOf_implied : kindOf fields = .ok (impliedKind fields) := by
  have htype : absent fields "type" = true := by
    obtain @⟨before, after, hbefore, hafter⟩ := h
    rw [absent, field]
    rcases hget : Entries.get? (before ++ after) "type" with _ | value
    · rfl
    · have hmem := (Entries.get?_isSome_iff _ _).mp (Option.isSome_of_eq_some hget)
      rw [Entries.keys, List.map_append, List.mem_append] at hmem
      exact absurd hmem (not_or.mpr ⟨hbefore, hafter⟩)
  rw [kindOf, if_pos htype]
  rfl

/-- The type that is spelled out is the kind of the node, if no field is out of place. -/
theorem kindOf_spelled : kindOf fields' =
    match misplaced? fields with
    | some defect => .error defect
    | none => .ok (impliedKind fields) := by
  have hmisfit : misfit? fields' (impliedKind fields) = misplaced? fields := by
    rw [misfit?_of_bareFields_eq h.bareFields_eq (by rw [h.states_eq]), misfit?_impliedKind]
  have htype : field fields' "type" = .str (impliedKind fields).word := by
    rw [field, h.get?_eq]
    rfl
  have hpresent : absent fields' "type" = false := by
    rw [absent, htype]
    rfl
  have hword : (Json.str (impliedKind fields).word).string?.bind Kind.ofWord? =
      some (impliedKind fields) := Kind.ofWord?_word _
  unfold kindOf
  rw [hpresent, htype, hword]
  simp only [hmisfit]
  rcases misplaced? fields with _ | defect <;> rfl

theorem check_eq (hfit : misplaced? fields = none) (root : Bool) (key : String) :
    check root key fields' = check root key fields := by
  rw [check, check, unknownFields_of_bareFields_eq h.bareFields_eq, h.kindOf_spelled, hfit,
    h.kindOf_implied, absent_of_bareFields_eq h.bareFields_eq "on_done" (by decide) (by decide)]

theorem refusedFor_check (hmisplaced : misplaced? fields = some defect) (root : Bool)
    (key : String) : RefusedFor defect (check root key fields) (check root key fields') := by
  rw [check, check, unknownFields_of_bareFields_eq h.bareFields_eq, h.kindOf_spelled, hmisplaced]
  split
  · exact .inr ⟨_, rfl, rfl⟩
  · split
    · exact .inr ⟨_, rfl, rfl⟩
    · exact .inl rfl

theorem readStates_eq (id : String) : readStates id fields' = readStates id fields := by
  rw [Outline.readStates_eq, Outline.readStates_eq, h.states_eq]

end Spelled

/-! ## One of the child states -/

theorem readMembers_cons (id key : String) (value : Json) (rest : Entries Json) :
    readMembers id ((key, value) :: rest) =
      (read false (id ++ "." ++ key) key value >>= fun child =>
        (readMembers id rest).map (child :: ·)) := by
  rw [readMembers]
  rcases read false (id ++ "." ++ key) key value with e | child <;> rfl

theorem map_readMembers_cons (id key : String) (value : Json) (rest : Entries Json) :
    (readMembers id ((key, value) :: rest)).map bareAll =
      ((read false (id ++ "." ++ key) key value).map bare >>= fun child =>
        ((readMembers id rest).map bareAll).map (child :: ·)) := by
  rw [readMembers_cons]
  rcases read false (id ++ "." ++ key) key value with e | child
  · rfl
  · rcases readMembers id rest with e | children <;> rfl

theorem map_readMembers_of_child
    (h : (read false (id ++ "." ++ key) key child').map bare =
      (read false (id ++ "." ++ key) key child).map bare) (before after : Entries Json) :
    (readMembers id (before ++ (key, child') :: after)).map bareAll =
      (readMembers id (before ++ (key, child) :: after)).map bareAll := by
  induction before with
  | nil => rw [List.nil_append, List.nil_append, map_readMembers_cons, map_readMembers_cons, h]
  | cons member rest ih =>
    rw [List.cons_append, List.cons_append, map_readMembers_cons, map_readMembers_cons, ih]

theorem refusedFor_readMembers {error : DefinitionError}
    (h : RefusedFor error (read false (id ++ "." ++ key) key child)
      (read false (id ++ "." ++ key) key child')) (before after : Entries Json) :
    RefusedFor error (readMembers id (before ++ (key, child) :: after))
      (readMembers id (before ++ (key, child') :: after)) := by
  induction before with
  | nil =>
    rw [List.nil_append, List.nil_append, readMembers_cons, readMembers_cons]
    exact h.bind _ _
  | cons member rest ih =>
    rw [List.cons_append, List.cons_append, readMembers_cons, readMembers_cons]
    rcases read false (id ++ "." ++ member.1) member.1 member.2 with e | other
    · exact .inr ⟨e, rfl, rfl⟩
    · exact ih.map _ _

section Inside

variable (hfirst : "states" ∉ Entries.keys first)

include hfirst

theorem field_withStates (states : Entries Json) :
    field (withStates first last states) "states" = .obj states := by
  rw [field, withStates, Entries.get?_insert last _ hfirst]
  rfl

theorem readStates_withStates (id : String) (states : Entries Json) :
    readStates id (withStates first last states) = readMembers id states := by
  rw [readStates_eq, field_withStates hfirst, readChildren]

omit hfirst in
theorem bareFields_withStates (first last states states' : Entries Json) :
    bareFields (withStates first last states') = bareFields (withStates first last states) := by
  simp [bareFields, withStates]

/-- A node is checked alike whatever stands in one of its child states. -/
theorem check_withStates (root : Bool) (name : String) (child child' : Json) :
    check root name (withStates first last (before ++ (key, child') :: after)) =
      check root name (withStates first last (before ++ (key, child) :: after)) := by
  have hbare := bareFields_withStates first last
    (before ++ (key, child) :: after) (before ++ (key, child') :: after)
  have htruthy : (Json.obj (before ++ (key, child') :: after)).truthy =
      (Json.obj (before ++ (key, child) :: after)).truthy := by
    cases before <;> rfl
  have hmisfit := misfit?_of_bareFields_eq hbare
    (by rw [field_withStates hfirst, field_withStates hfirst, htruthy])
  have htype : field (withStates first last (before ++ (key, child') :: after)) "type" =
      field (withStates first last (before ++ (key, child) :: after)) "type" := by
    simp only [field, withStates, Entries.get?_insert last _ hfirst]
    rfl
  have hkind : kindOf (withStates first last (before ++ (key, child') :: after)) =
      kindOf (withStates first last (before ++ (key, child) :: after)) := by
    unfold kindOf absent
    simp only [htype, field_withStates hfirst, htruthy, hmisfit]
  rw [check, check, unknownFields_of_bareFields_eq hbare, hkind,
    absent_of_bareFields_eq hbare "on_done" (by decide) (by decide)]

end Inside

/-! ## The first reading -/

theorem map_bare_node (key : String) (kind : Kind) (fields : Entries Json)
    (children : Except DefinitionError (List Outline)) :
    (children.map (.node key kind fields)).map bare =
      (children.map bareAll).map (.node key kind (bareFields fields)) := by
  cases children <;> rfl

/-- If no field is out of place, the nodes are read as they were, but for the type. -/
theorem SpelledAt.read_eq (h : SpelledAt node fields id declaration declaration')
    (hfit : misplaced? fields = none) (root : Bool) (key : String) :
    (read root id key declaration').map bare = (read root id key declaration).map bare := by
  induction h generalizing root key with
  | here hspelled =>
    rw [read, read, hspelled.check_eq hfit, hspelled.readStates_eq]
    rcases check root key fields with defect | kind
    · rfl
    · simp only [map_bare_node, hspelled.bareFields_eq]
  | @inside id name child child' before after first last hfirst _ ih =>
    have hmembers := map_readMembers_of_child (ih false name) before after
    rw [read, read, check_withStates hfirst root key child child', readStates_withStates hfirst,
      readStates_withStates hfirst]
    split
    · rfl
    · have hbare := bareFields_withStates first last
        (before ++ (name, child) :: after) (before ++ (name, child') :: after)
      simp only [map_bare_node, hmembers, hbare]

/-- A field out of place is refused when its node is read. -/
theorem SpelledAt.refusedFor_read (h : SpelledAt node fields id declaration declaration')
    (hmisplaced : misplaced? fields = some defect) (root : Bool) (key : String) :
    RefusedFor ⟨defect, some node⟩ (read root id key declaration)
      (read root id key declaration') := by
  induction h generalizing root key with
  | here hspelled =>
    rw [read, read]
    rcases hspelled.refusedFor_check hmisplaced root key with hcheck' | ⟨other, hcheck', hcheck⟩
    · exact .inl (by rw [hcheck'])
    · exact .inr ⟨⟨other, some node⟩, by rw [hcheck'], by rw [hcheck]⟩
  | @inside id name child child' before after first last hfirst _ ih =>
    rw [read, read, check_withStates hfirst root key child child', readStates_withStates hfirst,
      readStates_withStates hfirst]
    split
    · exact .inr ⟨_, rfl, rfl⟩
    · exact (refusedFor_readMembers (ih false name) before after).map _ _

/-! ## The declaration -/

theorem SpelledAt.exists_fields (h : SpelledAt node fields id (.obj first) declaration') :
    ∃ first', declaration' = .obj first' ∧ bareFields first' = bareFields first ∧
      (field first' "states").truthy = (field first "states").truthy := by
  cases h with
  | here hspelled =>
    exact ⟨_, rfl, hspelled.bareFields_eq, by rw [hspelled.states_eq]⟩
  | @inside id name child child' before after first last hfirst _ =>
    refine ⟨_, rfl, bareFields_withStates _ _ _ _, ?_⟩
    rw [field_withStates hfirst, field_withStates hfirst]
    cases before <;> rfl

end Outline

namespace Chart

open Outline

/-- The chart of an outline. -/
def ofOutline (registry : Registry) (events : Option (List String)) (machine : String)
    (context : Context) (outline : Outline) : Except DefinitionError Chart :=
  let drafts := Outline.drafts none 0 0 machine outline
  (Blueprint.finishAll ⟨machine, drafts.toArray, registry, events, context⟩ drafts).map
    fun nodes => ⟨machine, nodes.toArray, context, events⟩

theorem ofOutline_bare (registry : Registry) (events : Option (List String)) (machine : String)
    (context : Context) (outline : Outline) :
    ofOutline registry events machine context outline.bare =
      ofOutline registry events machine context outline := by
  have hfinish := Blueprint.finishAll_bare
    ⟨machine, (Outline.drafts none 0 0 machine outline).toArray, registry, events, context⟩
    (Outline.drafts none 0 0 machine outline)
  simp only [ofOutline, drafts_bare, ← hfinish, Blueprint.bare, List.map_toArray]

theorem define_obj (registry : Registry) (events : Option (List String)) (fields : Entries Json) :
    define registry events (.obj fields) =
      match contextOf (field fields "context") with
      | .error cause => .error ⟨.unreadable cause, none⟩
      | .ok context =>
        if (field fields "states").truthy then
          read true (machineId fields) (machineId fields) (.obj fields) >>=
            ofOutline registry events (machineId fields) context
        else .error ⟨.rootWithoutStates, some (machineId fields)⟩ := by
  rfl

theorem bind_ofOutline_bare (registry : Registry) (events : Option (List String))
    (machine : String) (context : Context) (outcome : Except DefinitionError Outline) :
    (outcome.map Outline.bare >>= ofOutline registry events machine context) =
      (outcome >>= ofOutline registry events machine context) := by
  cases outcome with
  | error e => rfl
  | ok outline => exact ofOutline_bare registry events machine context outline

/-- **Types that are spelled out.** With the type that the shape of a node implies spelled out, a
declaration describes the same chart, or has the same defect, if the node has no field out of place.
With such a field it is refused at that node, if it has not been refused before. -/
theorem define_spelled (registry : Registry) (events : Option (List String)) {node : String}
    {fields members : Entries Json} {declaration' : Json}
    (h : SpelledAt node fields (machineId members) (.obj members) declaration') :
    (misplaced? fields = none →
      define registry events declaration' = define registry events (.obj members)) ∧
    ∀ defect, misplaced? fields = some defect →
      RefusedFor ⟨defect, some node⟩ (define registry events (.obj members))
        (define registry events declaration') := by
  obtain ⟨members', rfl, hbare, hstates⟩ := h.exists_fields
  have hmachine : machineId members' = machineId members := by
    rw [machineId, machineId, field_of_bareFields_eq hbare "id" (by decide) (by decide)]
  rw [define_obj, define_obj, hmachine, hstates,
    field_of_bareFields_eq hbare "context" (by decide) (by decide)]
  constructor
  · intro hfit
    have hread := h.read_eq hfit true (machineId members)
    split
    · rfl
    · split
      · rw [← bind_ofOutline_bare, hread, bind_ofOutline_bare]
      · rfl
  · intro defect hmisplaced
    have hread := h.refusedFor_read hmisplaced true (machineId members)
    split
    · exact .inr ⟨_, rfl, rfl⟩
    · split
      · exact hread.bind _ _
      · exact .inr ⟨_, rfl, rfl⟩

/-- A declaration of two states, of which the first has these fields. -/
def pair (fields : Entries Json) : Json :=
  .obj [("id", .str "m"), ("initial", .str "a"),
    ("states", .obj [("a", .obj fields), ("b", .obj [])])]

theorem spelledAt_pair {fields : Entries Json} (h : "type" ∉ Entries.keys fields) :
    SpelledAt "m.a" fields "m" (pair fields)
      (pair (("type", .str (impliedKind fields).word) :: fields)) := by
  have hspelled : Spelled ([] ++ fields)
      ([] ++ ("type", .str (impliedKind ([] ++ fields)).word) :: fields) :=
    .insert List.not_mem_nil h
  have hhere : SpelledAt "m.a" fields ("m" ++ "." ++ "a") (.obj fields)
      (.obj (("type", .str (impliedKind fields).word) :: fields)) := .here hspelled
  have hfirst : "states" ∉ Entries.keys [("id", Json.str "m"), ("initial", .str "a")] := by decide
  let around (child : Json) : Json :=
    .obj (withStates [("id", .str "m"), ("initial", .str "a")] []
      ([] ++ ("a", child) :: [("b", .obj [])]))
  have hinside : SpelledAt "m.a" fields "m" (around (.obj fields))
      (around (.obj (("type", .str (impliedKind fields).word) :: fields))) := .inside hfirst hhere
  exact hinside

set_option maxRecDepth 10000 in
/-- The type of a compound node is spelled out. -/
theorem define_spelled_compound :
    SpelledAt "m.a" [("initial", .str "c"), ("states", .obj [("c", .obj [])])] "m"
      (pair [("initial", .str "c"), ("states", .obj [("c", .obj [])])])
      (pair [("type", .str "compound"), ("initial", .str "c"),
        ("states", .obj [("c", .obj [])])]) ∧
    define [] none (pair [("type", .str "compound"), ("initial", .str "c"),
        ("states", .obj [("c", .obj [])])]) =
      define [] none (pair [("initial", .str "c"), ("states", .obj [("c", .obj [])])]) ∧
    ∃ chart, define [] none
      (pair [("initial", .str "c"), ("states", .obj [("c", .obj [])])]) = .ok chart := by
  have htype : "type" ∉
      Entries.keys [("initial", Json.str "c"), ("states", .obj [("c", .obj [])])] := by decide
  have h := spelledAt_pair htype
  exact ⟨h, (define_spelled [] none h).1 rfl, exists_ok_of_isSome (by decide +kernel)⟩

set_option maxRecDepth 10000 in
/-- On a node without a type, a field out of place is accepted; beside the type that is implied it
is refused. -/
theorem implied_not_checked :
    (SpelledAt "m.a" [("history", .str "shallow")] "m" (pair [("history", .str "shallow")])
        (pair [("type", .str "atomic"), ("history", .str "shallow")]) ∧
      (∃ chart, define [] none (pair [("history", .str "shallow")]) = .ok chart) ∧
      define [] none (pair [("type", .str "atomic"), ("history", .str "shallow")]) =
        .error ⟨.historyField, some "m.a"⟩) ∧
    (SpelledAt "m.a" [("on_done", .str "b")] "m" (pair [("on_done", .str "b")])
        (pair [("type", .str "atomic"), ("on_done", .str "b")]) ∧
      (∃ chart, define [] none (pair [("on_done", .str "b")]) = .ok chart) ∧
      define [] none (pair [("type", .str "atomic"), ("on_done", .str "b")]) =
        .error ⟨.onDoneField, some "m.a"⟩) :=
  ⟨⟨spelledAt_pair (by decide), exists_ok_of_isSome (by decide +kernel), by cbv⟩,
    spelledAt_pair (by decide), exists_ok_of_isSome (by decide +kernel), by cbv⟩

end Chart

end Lifecycle
