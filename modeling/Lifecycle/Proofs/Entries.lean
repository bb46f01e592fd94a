import Lifecycle.Entries
import Mathlib.Data.List.Nodup

/-!
# Entries as mappings

Reads after `Entries.overlay`: a key that the updates give one value has that value, and a key that
they do not name keeps the old one. Where keys are only equal by value, entries are a mapping when
no two of their keys are equal (`Entries.IsMap`). Writing keeps mappings (`IsMap.overlay`), and
mappings that agree at every key are of one length (`IsMap.length_eq`).
-/

namespace Lifecycle.Entries

section Lawful

variable {α κ : Type} [BEq κ] [LawfulBEq κ]

omit [LawfulBEq κ] in
theorem overlay_cons (m updates : Entries α κ) (entry : κ × α) :
    overlay m (entry :: updates) = overlay (set m entry.1 entry.2) updates := rfl

/-- An entry between others is read at its key, and nowhere else. -/
theorem get?_insert {before : Entries α κ} (after : Entries α κ) {key : κ} (value : α)
    (h : key ∉ keys before) (other : κ) : get? (before ++ (key, value) :: after) other =
      if key == other then some value else get? (before ++ after) other := by
  induction before with
  | nil => exact get?_cons ..
  | cons entry rest ih =>
    obtain ⟨k, v⟩ := entry
    obtain ⟨hne, hrest⟩ : key ≠ k ∧ key ∉ keys rest := by simpa [keys] using h
    rw [List.cons_append, List.cons_append, get?_cons, get?_cons, ih hrest]
    by_cases hk : k = other
    · subst hk
      simp [hne]
    · simp [hk]

theorem get?_overlay_of_notMem {m updates : Entries α κ} {key : κ}
    (h : ∀ value, (key, value) ∉ updates) : get? (overlay m updates) key = get? m key := by
  induction updates generalizing m with
  | nil => rfl
  | cons entry rest ih =>
    have hne : entry.1 ≠ key := fun heq => h entry.2 (heq ▸ List.mem_cons_self)
    rw [overlay_cons, ih fun value hmem => h value (List.mem_cons_of_mem _ hmem), get?_set,
      if_neg (by simpa using hne)]

theorem get?_overlay_of_mem {m updates : Entries α κ} {key : κ} {value : α}
    (h : (key, value) ∈ updates) (hall : ∀ other, (key, other) ∈ updates → other = value) :
    get? (overlay m updates) key = some value := by
  induction updates generalizing m with
  | nil => cases h
  | cons entry rest ih =>
    rw [overlay_cons]
    by_cases hrest : ∃ other, (key, other) ∈ rest
    · obtain ⟨other, hother⟩ := hrest
      obtain rfl := hall other (List.mem_cons_of_mem _ hother)
      exact ih hother fun o ho => hall o (List.mem_cons_of_mem _ ho)
    · rw [not_exists] at hrest
      obtain rfl := (List.mem_cons.mp h).resolve_right (hrest value)
      rw [get?_overlay_of_notMem hrest, get?_set]
      simp

/-- Writing over entries of different keys leaves the keys different. -/
theorem nodup_keys_overlay {m : Entries α κ} (updates : Entries α κ) (h : (keys m).Nodup) :
    (keys (overlay m updates)).Nodup := by
  induction updates generalizing m with
  | nil => exact h
  | cons entry rest ih =>
    refine ih ?_
    rw [keys_set]
    split
    · exact h
    · rename_i hnew
      exact List.nodup_append.mpr ⟨h, List.nodup_singleton _, fun key hkey other hother heq =>
        hnew (List.mem_singleton.mp hother ▸ heq ▸ hkey)⟩

omit [LawfulBEq κ] in
theorem set_of_get?_none {m : Entries α κ} {key : κ} (value : α) (h : get? m key = none) :
    set m key value = m ++ [(key, value)] := by
  induction m with
  | nil => rfl
  | cons entry rest ih =>
    rw [get?_cons] at h
    split at h
    · cases h
    · rename_i hne
      rw [set, if_neg hne, ih h]; rfl

/-- Entries of different keys are added as they stand. -/
theorem overlay_of_nodup {m updates : Entries α κ} (h : (keys (m ++ updates)).Nodup) :
    overlay m updates = m ++ updates := by
  induction updates generalizing m with
  | nil => exact (List.append_nil m).symm
  | cons entry rest ih =>
    rw [List.append_cons] at h
    have hnew : get? m entry.1 = none := by
      rw [← Option.not_isSome_iff_eq_none, get?_isSome_iff]
      intro hmem
      simp only [keys, List.map_append, List.append_assoc] at h
      exact (List.nodup_append.mp h).2.2 _ hmem _ (by simp) rfl
    rw [overlay_cons, set_of_get?_none _ hnew, ih h, List.append_assoc]
    rfl

/-- Entries of different keys stay as they are when they are made a map. -/
theorem ofList_of_nodup {m : Entries α κ} (h : (keys m).Nodup) : ofList m = m :=
  overlay_of_nodup h

theorem get?_of_mem {m : Entries α κ} (h : (keys m).Nodup) {entry : κ × α} (hmem : entry ∈ m) :
    get? m entry.1 = some entry.2 := by
  induction m with
  | nil => cases hmem
  | cons first rest ih =>
    obtain ⟨hnew, hrest⟩ := List.nodup_cons.mp h
    rw [get?_cons]
    rcases List.mem_cons.mp hmem with rfl | hmem
    · rw [if_pos (beq_self_eq_true _)]
    · rw [if_neg, ih hrest hmem]
      intro heq
      exact hnew (eq_of_beq heq ▸ List.mem_map_of_mem hmem)

end Lawful

/-! ## Keys that are equal by value -/

variable {α κ : Type} [BEq κ] [PartialEquivBEq κ] {m m' updates : Entries α κ} {key key' : κ}
  {value : α}

theorem get?_congr (h : (key == key') = true) : get? m key = get? m key' := by
  induction m with
  | nil => rfl
  | cons entry rest ih => rw [get?_cons, get?_cons, ih, BEq.congr_right h]

omit [PartialEquivBEq κ] in
theorem exists_mem_of_get? (h : get? m key = some value) :
    ∃ k, (k, value) ∈ m ∧ (k == key) = true := by
  induction m with
  | nil => cases h
  | cons entry rest ih =>
    rw [get?_cons] at h
    split at h
    · rename_i hkey
      obtain rfl := Option.some.inj h
      exact ⟨entry.1, List.mem_cons_self, hkey⟩
    · obtain ⟨k, hk, hkey⟩ := ih h
      exact ⟨k, List.mem_cons_of_mem _ hk, hkey⟩

omit [PartialEquivBEq κ] in
/-- What stands in entries after a write stood there before or was written. -/
theorem mem_set {value : α} {entry : κ × α} (h : entry ∈ set m key value) :
    entry ∈ m ∨ entry.2 = value := by
  induction m with
  | nil =>
    rw [List.mem_singleton.mp h]
    exact .inr rfl
  | cons first rest ih =>
    rw [set] at h
    split at h <;> rcases List.mem_cons.mp h with rfl | hmem
    · exact .inr rfl
    · exact .inl (List.mem_cons_of_mem _ hmem)
    · exact .inl List.mem_cons_self
    · exact (ih hmem).imp_left (List.mem_cons_of_mem _)

omit [PartialEquivBEq κ] in
theorem has_cons (entry : κ × α) (rest : Entries α κ) :
    has (entry :: rest) key = ((entry.1 == key) || has rest key) := by
  rw [has, get?_cons]
  by_cases hkey : (entry.1 == key) = true <;> simp [hkey, has]

omit [PartialEquivBEq κ] in
theorem has_iff : has m key = true ↔ ∃ k ∈ keys m, (k == key) = true := by
  induction m with
  | nil => simp [has, keys]
  | cons entry rest ih =>
    rw [has_cons, Bool.or_eq_true, ih]
    simp [keys]

theorem has_set (k : κ) (v : α) : has (set m k v) key = ((k == key) || has m key) := by
  rw [has, get?_set]
  split
  · rename_i hkey
    rw [hkey]; rfl
  · rename_i hkey
    rw [Bool.not_eq_true] at hkey
    rw [hkey, Bool.false_or]; rfl

theorem has_overlay : has (overlay m updates) key = (has updates key || has m key) := by
  induction updates generalizing m with
  | nil => rfl
  | cons entry rest ih =>
    rw [overlay_cons, ih, has_set, has_cons, ← Bool.or_assoc, Bool.or_comm (has rest key)]

/-- What stands at a key after an overlay was written by it or stood there before. -/
theorem get?_overlay_cases (h : get? (overlay m updates) key = some value) :
    (∃ k, (k, value) ∈ updates ∧ (k == key) = true) ∨ get? m key = some value := by
  induction updates generalizing m with
  | nil => exact .inr h
  | cons entry rest ih =>
    rcases ih h with ⟨k, hk, hkey⟩ | h
    · exact .inl ⟨k, List.mem_cons_of_mem _ hk, hkey⟩
    · rw [get?_set] at h
      split at h
      · rename_i hkey
        obtain rfl := Option.some.inj h
        exact .inl ⟨entry.1, List.mem_cons_self, hkey⟩
      · exact .inr h

omit [PartialEquivBEq κ] in
theorem keys_set_eq (k : κ) (v : α) :
    keys (set m k v) = if has m k then keys m else keys m ++ [k] := by
  induction m with
  | nil => rfl
  | cons entry rest ih =>
    by_cases hk : (entry.1 == k) = true
    · simp [set, has_cons, keys, hk]
    · have ih' : List.map Prod.fst (set rest k v)
          = if has rest k then List.map Prod.fst rest else List.map Prod.fst rest ++ [k] := ih
      by_cases hrest : has rest k = true <;> simp [set, has_cons, keys, hk, ih', hrest]

/-- Entries of which no two keys are equal: each of them can be read back. -/
structure IsMap (m : Entries α κ) : Prop where
  refl {k : κ} : k ∈ keys m → (k == k) = true
  distinct : (keys m).Pairwise fun k l => (k == l) = false

/-- Entries give the same values at the same keys, in whatever order they stand. -/
def Agrees (m m' : Entries α κ) : Prop := ∀ key, get? m key = get? m' key

omit [PartialEquivBEq κ] in
theorem distinct_set (h : (keys m).Pairwise fun k l => (k == l) = false) (k : κ) (v : α) :
    (keys (set m k v)).Pairwise fun k l => (k == l) = false := by
  rw [keys_set_eq]
  split
  · exact h
  · rename_i hnew
    refine List.pairwise_append.mpr ⟨h, List.pairwise_singleton _ _, fun l hl _ hk => ?_⟩
    rw [List.mem_singleton.mp hk, ← Bool.not_eq_true]
    exact fun heq => hnew (has_iff.mpr ⟨l, hl, heq⟩)

omit [PartialEquivBEq κ] in
theorem IsMap.set (h : IsMap m) {k : κ} (hk : (k == k) = true) (v : α) :
    IsMap (Entries.set m k v) := by
  refine ⟨fun {l} hl => ?_, distinct_set h.distinct k v⟩
  rw [keys_set_eq] at hl
  split at hl
  · exact h.refl hl
  · rcases List.mem_append.mp hl with hl | hl
    · exact h.refl hl
    · rwa [List.mem_singleton.mp hl]

omit [PartialEquivBEq κ] in
theorem IsMap.overlay (h : IsMap m) (hkeys : ∀ k ∈ keys updates, (k == k) = true) :
    IsMap (Entries.overlay m updates) := by
  induction updates generalizing m with
  | nil => exact h
  | cons entry rest ih =>
    exact ih (h.set (hkeys _ List.mem_cons_self) _) fun k hk => hkeys k (List.mem_cons_of_mem _ hk)

omit [PartialEquivBEq κ] in
theorem IsMap.get?_of_mem (h : IsMap m) {entry : κ × α} (hmem : entry ∈ m) :
    get? m entry.1 = some entry.2 := by
  induction m with
  | nil => cases hmem
  | cons first rest ih =>
    obtain ⟨hfirst, hrest⟩ := List.pairwise_cons.mp h.distinct
    rw [get?_cons]
    rcases List.mem_cons.mp hmem with rfl | hmem
    · rw [if_pos (h.refl List.mem_cons_self)]
    · rw [if_neg, ih ⟨fun hk => h.refl (List.mem_cons_of_mem _ hk), hrest⟩ hmem]
      rw [Bool.not_eq_true]
      exact hfirst entry.1 (List.mem_map_of_mem hmem)

/-- Updates of different keys are read before what they are written over. -/
theorem IsMap.get?_overlay (h : IsMap updates) :
    get? (Entries.overlay m updates) key = (get? updates key).or (get? m key) := by
  induction updates generalizing m with
  | nil => rfl
  | cons entry rest ih =>
    obtain ⟨hfirst, hrest⟩ := List.pairwise_cons.mp h.distinct
    rw [overlay_cons, ih ⟨fun hk => h.refl (List.mem_cons_of_mem _ hk), hrest⟩, get?_set,
      get?_cons]
    split
    · rename_i hkey
      rcases hget : get? rest key with _ | v
      · rfl
      · obtain ⟨k, hk, hkey'⟩ := exists_mem_of_get? hget
        have := hfirst k (List.mem_map_of_mem hk)
        rw [PartialEquivBEq.trans hkey (PartialEquivBEq.symm hkey')] at this
        cases this
    · rfl

/-- A list of different keys is no longer than one that has a key equal to each of them. -/
theorem length_le_of_forall_exists {xs ys : List κ} (hxs : xs.Pairwise fun k l => (k == l) = false)
    (h : ∀ x ∈ xs, ∃ y ∈ ys, (x == y) = true) : xs.length ≤ ys.length := by
  induction xs generalizing ys with
  | nil => exact Nat.zero_le _
  | cons x rest ih =>
    obtain ⟨hx, hrest⟩ := List.pairwise_cons.mp hxs
    obtain ⟨y, hy, hxy⟩ := h x List.mem_cons_self
    have hlength : (ys.eraseP (x == ·)).length = ys.length - 1 := List.length_eraseP_of_mem hy hxy
    have hpos := List.length_pos_of_mem hy
    have hle : rest.length ≤ (ys.eraseP (x == ·)).length := ih hrest fun x' hx' => by
      obtain ⟨y', hy', hxy'⟩ := h x' (List.mem_cons_of_mem _ hx')
      refine ⟨y', (List.mem_eraseP_of_neg fun hbeq => ?_).mpr hy', hxy'⟩
      have := hx x' hx'
      rw [PartialEquivBEq.trans hbeq (PartialEquivBEq.symm hxy')] at this
      cases this
    rw [List.length_cons]
    omega

omit [PartialEquivBEq κ] in
/-- Writing at keys that are there leaves the keys as they are. -/
theorem keys_overlay (h : ∀ k ∈ keys updates, has m k = true) :
    keys (Entries.overlay m updates) = keys m := by
  induction updates generalizing m with
  | nil => rfl
  | cons entry rest ih =>
    obtain ⟨hentry, hrest⟩ := List.forall_mem_cons.mp h
    have hset : keys (Entries.set m entry.1 entry.2) = keys m := by
      rw [keys_set_eq, if_pos hentry]
    rw [overlay_cons, ih fun k hk => ?_, hset]
    rw [has_iff, hset, ← has_iff]
    exact hrest k hk

omit [PartialEquivBEq κ] in
theorem set_append {before : Entries α κ} (k : κ) (v : α)
    (h : ∀ l ∈ keys before, (l == k) = false) :
    Entries.set (before ++ m) k v = before ++ Entries.set m k v := by
  induction before with
  | nil => rfl
  | cons entry rest ih =>
    obtain ⟨hentry, hrest⟩ := List.forall_mem_cons.mp h
    rw [List.cons_append, Entries.set, if_neg (by rw [hentry]; exact Bool.false_ne_true), ih hrest]
    rfl

omit [PartialEquivBEq κ] in
/-- The entries after others are overwritten one by one. -/
theorem overlay_append {before : Entries α κ} (hm : IsMap (before ++ m))
    (hkeys : keys updates = keys m) :
    Entries.overlay (before ++ m) updates = before ++ updates := by
  induction updates generalizing before m with
  | nil =>
    obtain rfl : m = [] := List.map_eq_nil_iff.mp hkeys.symm
    rfl
  | cons entry rest ih =>
    obtain ⟨k, v⟩ := entry
    obtain _ | ⟨⟨l, w⟩, m⟩ := m
    · cases hkeys
    · obtain ⟨rfl, hrest⟩ : k = l ∧ keys rest = keys m := List.cons.inj hkeys
      have hbefore : ∀ j ∈ keys before, (j == k) = false := fun j hj => by
        have hdistinct := hm.distinct
        rw [keys, List.map_append] at hdistinct
        exact (List.pairwise_append.mp hdistinct).2.2 j hj k List.mem_cons_self
      have hrefl : (k == k) = true := hm.refl (by simp [keys])
      have hsame : keys (before ++ [(k, v)] ++ m) = keys (before ++ (k, w) :: m) := by simp [keys]
      rw [overlay_cons, set_append k v hbefore, Entries.set, if_pos hrefl,
        List.append_cons before _ m, List.append_cons before _ rest]
      exact ih ⟨fun hj => hm.refl (hsame ▸ hj), hsame ▸ hm.distinct⟩ hrest

omit [PartialEquivBEq κ] in
/-- A mapping that is overwritten at each of its keys, in their order, is what is written. -/
theorem IsMap.overlay_eq (hm : IsMap m) (hkeys : keys updates = keys m) :
    Entries.overlay m updates = updates := by
  show Entries.overlay ([] ++ m) updates = [] ++ updates
  exact overlay_append hm hkeys

theorem Agrees.overlay (h : Agrees m m') (updates : Entries α κ) :
    Agrees (Entries.overlay m updates) (Entries.overlay m' updates) := by
  induction updates generalizing m m' with
  | nil => exact h
  | cons entry rest ih =>
    refine ih fun key => ?_
    rw [get?_set, get?_set, h key]

theorem Agrees.exists_key (h : Agrees m m') (hm : IsMap m) {k : κ} (hk : k ∈ keys m) :
    ∃ k' ∈ keys m', (k == k') = true := by
  have hhas : has m' k = true := by
    rw [has, ← h k]
    exact has_iff.mpr ⟨k, hk, hm.refl hk⟩
  obtain ⟨k', hk', hbeq⟩ := has_iff.mp hhas
  exact ⟨k', hk', PartialEquivBEq.symm hbeq⟩

/-- Mappings that agree are of one length. -/
theorem IsMap.length_eq (hm : IsMap m) (hm' : IsMap m') (h : Agrees m m') :
    m.length = m'.length := by
  have hle := length_le_of_forall_exists hm.distinct fun _ hk => h.exists_key hm hk
  have hge := length_le_of_forall_exists hm'.distinct fun _ hk =>
    Agrees.exists_key (fun key => (h key).symm) hm' hk
  simp only [keys, List.length_map] at hle hge
  exact Nat.le_antisymm hle hge

end Lifecycle.Entries
