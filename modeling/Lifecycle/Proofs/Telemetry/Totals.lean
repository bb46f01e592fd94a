import Lifecycle.Telemetry.Metrics
import Mathlib.Algebra.Ring.Int.Defs
import Mathlib.Data.List.Infix

/-!
# Totals of metrics

The counters of a metric are those whose keys are its name, or begin with it and a brace. No name
has a brace, so a key belongs to the metric that it is made for and to no other one, whatever is
written in its labels (`belongs_metricKey`). An increment therefore changes the counters of its own
metric only (`own_attempt_of_ne`), and a total is what the increments of its metric alone would make
it; if they are whole, it is their sum, however many of them share a key (`total_tally`).
-/

namespace Lifecycle

/-! ## Writes to some of the entries -/

namespace Entries

/-- A write keeps to the entries with keys of some kind, or does not touch them. -/
theorem filter_set {α : Type} (m : Entries α) (p : String → Bool) (key : String) (value : α) :
    (set m key value).filter (fun entry => p entry.1) =
      if p key then set (m.filter fun entry => p entry.1) key value
      else m.filter fun entry => p entry.1 := by
  induction m with
  | nil => by_cases hkey : p key = true <;> simp [set, hkey]
  | cons entry rest ih =>
    obtain ⟨k, v⟩ := entry
    by_cases hk : k = key
    · subst hk
      by_cases hp : p k = true <;> simp [set, hp]
    · by_cases hkey : p key = true <;> by_cases hp : p k = true <;>
        simp_all [set]

theorem get?_filter {α : Type} (m : Entries α) {p : String → Bool} {key : String}
    (h : p key = true) : get? (m.filter fun entry => p entry.1) key = get? m key := by
  induction m with
  | nil => rfl
  | cons entry rest ih =>
    obtain ⟨k, v⟩ := entry
    by_cases hk : k = key
    · subst hk
      simp [h, get?_cons]
    · by_cases hp : p k = true <;> simp [hp, hk, get?_cons, ih]

/-- Whole counts stay whole when one of them grows by a whole number, and so does their sum. -/
theorem exists_counts_set {m : Entries Number} {counts : List Int}
    (h : m.map Prod.snd = counts.map Number.int) (key : String) (k : Int) :
    ∃ count, (get? m key).getD (.int 0) = .int count ∧ ∃ others : List Int,
      (set m key (.int (count + k))).map Prod.snd = others.map Number.int ∧
        others.sum = counts.sum + k := by
  induction m generalizing counts with
  | nil =>
    obtain rfl : counts = [] := List.map_eq_nil_iff.mp h.symm
    exact ⟨0, rfl, [0 + k], rfl, by simp⟩
  | cons entry rest ih =>
    obtain ⟨first, v⟩ := entry
    obtain _ | ⟨c, counts⟩ := counts
    · cases h
    · obtain ⟨rfl, hrest⟩ : v = .int c ∧ rest.map Prod.snd = counts.map Number.int :=
        List.cons.inj h
      by_cases hkey : first = key
      · refine ⟨c, by simp [get?_cons, hkey], (c + k) :: counts, by simp [set, hkey, hrest], ?_⟩
        simp only [List.sum_cons]
        omega
      · obtain ⟨count, hcount, others, hothers, hsum⟩ := ih hrest
        refine ⟨count, by simp [get?_cons, hkey, hcount], c :: others, by simp [set, hkey, hothers],
          ?_⟩
        simp only [List.sum_cons, hsum]
        omega

end Entries

/-! ## Keys -/

/-- The key of a metric is its name, or goes on from it with a brace. -/
theorem metricKey_cases (name : String) (labels : Labels) :
    metricKey name labels = name ∨
      ∃ rest, (metricKey name labels).toList = name.toList ++ '\x7b' :: rest := by
  unfold metricKey
  split
  · exact .inl rfl
  · exact .inr ⟨_, by simp only [String.toList_append, List.append_assoc]; rfl⟩

namespace Metrics

variable {name other : String}

/-- A name without a brace is what stands before the first brace. -/
theorem takeWhile_name (h : '\x7b' ∉ name.toList) (rest : List Char) :
    (name.toList ++ '\x7b' :: rest).takeWhile (· != '\x7b') = name.toList := by
  rw [List.takeWhile_append_of_pos, List.takeWhile_cons_of_neg (by simp), List.append_nil]
  intro c hc
  rw [bne_iff_ne]
  rintro rfl
  exact h hc

/-- Of the metrics without a brace in their names, a key belongs to the one that it is made for. -/
theorem belongs_metricKey (hname : '\x7b' ∉ name.toList) (hother : '\x7b' ∉ other.toList)
    (labels : Labels) : belongs name (metricKey other labels) = true ↔ other = name := by
  have hbrace : (name ++ "\x7b").toList = name.toList ++ ['\x7b'] := String.toList_append
  rw [belongs, Bool.or_eq_true, beq_iff_eq, List.isPrefixOf_iff_prefix, hbrace]
  rcases metricKey_cases other labels with hkey | ⟨rest, hkey⟩
  · rw [hkey, or_iff_left]
    intro hstarts
    exact hother (hstarts.subset (by simp))
  · have hne : metricKey other labels ≠ name := by
      intro heq
      rw [heq] at hkey
      exact hname (hkey ▸ by simp)
    rw [or_iff_right hne, hkey]
    constructor
    · rintro ⟨others, hothers⟩
      rw [List.append_assoc, List.singleton_append] at hothers
      have hnames := congrArg (List.takeWhile (· != '\x7b')) hothers
      rw [takeWhile_name hname, takeWhile_name hother] at hnames
      exact (String.toList_inj.mp hnames).symm
    · rintro rfl
      exact ⟨rest, by rw [List.append_assoc, List.singleton_append]⟩

/-! ## Increments -/

/-- An increment of a counter. -/
structure Increment where
  name : String
  labels : Labels
  value : Number

/-- The metrics after an increment; one that has no sum is refused and leaves them as they were. -/
def attempt (m : Metrics) (call : Increment) : Metrics :=
  match m.add call.name call.labels call.value with
  | .ok next => next
  | .error _ => m

/-- The metrics after increments, one after the other. -/
def tally (m : Metrics) (calls : List Increment) : Metrics := calls.foldl attempt m

/-- The counters that belong to a metric. -/
def own (m : Metrics) (name : String) : Entries Number :=
  m.counters.filter fun entry => belongs name entry.1

variable {m m' : Metrics} {call : Increment} {calls : List Increment}

theorem total_eq (m : Metrics) (name : String) :
    m.total name = sumFrom (.int 0) ((m.own name).map Prod.snd) := rfl

/-- An increment writes a new count at its key, or does nothing. -/
theorem counters_attempt (m : Metrics) (call : Increment) : (m.attempt call).counters = m.counters ∨
    (m.attempt call).counters = Entries.set m.counters (metricKey call.name call.labels)
      ((m.counter call.name call.labels).add call.value) := by
  unfold attempt add
  split
  · rename_i hadd
    split at hadd
    · cases hadd
      exact .inr rfl
    · cases hadd
  · exact .inl rfl

/-! ## The counters of one metric -/

section Own

variable (hname : '\x7b' ∉ name.toList)

include hname

/-- An increment of another metric is none of this one. -/
theorem own_attempt_of_ne (hcall : '\x7b' ∉ call.name.toList) (hne : call.name ≠ name) :
    (m.attempt call).own name = m.own name := by
  rcases counters_attempt m call with h | h
  · rw [own, h, own]
  · rw [own, h, Entries.filter_set, if_neg ((belongs_metricKey hname hcall _).not.mpr hne), own]

theorem counter_eq (labels : Labels) : m.counter name labels =
    (Entries.get? (m.own name) (metricKey name labels)).getD (.int 0) := by
  rw [own, Entries.get?_filter _ ((belongs_metricKey hname hname labels).mpr rfl), counter]

/-- What an increment of a metric makes of its counters. -/
theorem own_attempt (hcall : call.name = name) : (m.attempt call).own name =
    match (m.counter name call.labels).add? call.value with
    | some _ => Entries.set (m.own name) (metricKey name call.labels)
        ((m.counter name call.labels).add call.value)
    | none => m.own name := by
  subst hcall
  unfold attempt add
  rcases (m.counter call.name call.labels).add? call.value with _ | sum
  · rfl
  · have hkey := (belongs_metricKey hname hname call.labels).mpr rfl
    exact (Entries.filter_set ..).trans (if_pos hkey)

/-- A metric is counted by its own increments alone. -/
theorem own_tally (hcalls : ∀ call ∈ calls, '\x7b' ∉ call.name.toList)
    (h : m.own name = m'.own name) : (m.tally calls).own name =
      (m'.tally (calls.filter fun call => call.name = name)).own name := by
  induction calls generalizing m m' with
  | nil => exact h
  | cons call rest ih =>
    obtain ⟨hcall, hrest⟩ := List.forall_mem_cons.mp hcalls
    by_cases heq : call.name = name
    · rw [List.filter_cons_of_pos (by simpa using heq)]
      refine ih hrest ?_
      rw [own_attempt hname heq, own_attempt hname heq, counter_eq hname, counter_eq hname, h]
    · rw [List.filter_cons_of_neg (by simpa using heq)]
      exact ih hrest ((own_attempt_of_ne hname hcall heq).trans h)

end Own

/-! ## Whole counts -/

/-- The counters of a metric are whole, with a sum. -/
def Sums (m : Metrics) (name : String) (total : Int) : Prop :=
  ∃ counts : List Int, (m.own name).map Prod.snd = counts.map Number.int ∧ counts.sum = total

theorem sumFrom_map_int (sum : Int) (counts : List Int) :
    sumFrom (.int sum) (counts.map Number.int) = .ok (.int (sum + counts.sum)) := by
  induction counts generalizing sum with
  | nil => simp [sumFrom]
  | cons count rest ih =>
    rw [List.map_cons, List.sum_cons, ← Int.add_assoc]
    exact ih (sum + count)

theorem Sums.total_eq {total : Int} (h : m.Sums name total) : m.total name = .ok (.int total) := by
  obtain ⟨counts, hcounts, rfl⟩ := h
  rw [Metrics.total_eq, hcounts, sumFrom_map_int, Int.zero_add]

/-- A whole increment of a metric is accepted and added to its sum. -/
theorem Sums.attempt {total k : Int} (h : m.Sums name total) (hname : '\x7b' ∉ name.toList)
    (hcall : call.name = name) (hvalue : call.value = .int k) :
    (∃ next, m.add call.name call.labels call.value = .ok next) ∧
      (m.attempt call).Sums name (total + k) := by
  obtain ⟨counts, hcounts, rfl⟩ := h
  obtain ⟨count, hcount, others, hothers, hsum⟩ :=
    Entries.exists_counts_set hcounts (metricKey name call.labels) k
  rw [← counter_eq hname] at hcount
  have hadds : (m.counter name call.labels).add? call.value = some (.int (count + k)) := by
    rw [hcount, hvalue]
    rfl
  refine ⟨⟨_, by rw [add, hcall, hadds]⟩, others, ?_, hsum⟩
  rw [own_attempt hname hcall, hadds, hcount, hvalue]
  exact hothers

/-- Whole increments of a metric are added to its sum, whatever others come between. -/
theorem Sums.tally {total : Int} (h : m.Sums name total) (hname : '\x7b' ∉ name.toList)
    (hcalls : ∀ call ∈ calls, '\x7b' ∉ call.name.toList) {values : List Int}
    (hvalues : (calls.filter fun call => call.name = name).map Increment.value =
      values.map Number.int) : (m.tally calls).Sums name (total + values.sum) := by
  induction calls generalizing m total values with
  | nil =>
    obtain rfl : values = [] := List.map_eq_nil_iff.mp hvalues.symm
    rwa [List.sum_nil, Int.add_zero]
  | cons call rest ih =>
    obtain ⟨hcall, hrest⟩ := List.forall_mem_cons.mp hcalls
    by_cases heq : call.name = name
    · rw [List.filter_cons_of_pos (by simpa using heq)] at hvalues
      obtain _ | ⟨k, values⟩ := values
      · cases hvalues
      · obtain ⟨hvalue, hvalues⟩ := List.cons.inj hvalues
        rw [List.sum_cons, ← Int.add_assoc]
        exact ih (h.attempt hname heq hvalue).2 hrest hvalues
    · rw [List.filter_cons_of_neg (by simpa using heq)] at hvalues
      refine ih ?_ hrest hvalues
      rw [Sums, own_attempt_of_ne hname hcall heq]
      exact h

/-- **Totals.** Whatever increments are made of metrics without a brace in their names, and with
whatever labels: the total of a metric is that of its own increments. If these are whole, all of
them are accepted, and the total is the sum of their values. -/
theorem total_tally (hcalls : ∀ call ∈ calls, '\x7b' ∉ call.name.toList)
    (hname : '\x7b' ∉ name.toList) : (empty.tally calls).total name =
        (empty.tally (calls.filter fun call => call.name = name)).total name ∧
      ∀ values : List Int, (calls.filter fun call => call.name = name).map Increment.value =
          values.map Number.int →
        (empty.tally calls).total name = .ok (.int values.sum) ∧
        ∀ before call after, calls = before ++ call :: after → call.name = name →
          ∃ next, (empty.tally before).add call.name call.labels call.value = .ok next := by
  have hnothing : empty.Sums name 0 := ⟨[], rfl, rfl⟩
  refine ⟨?_, fun values hvalues => ⟨?_, fun before call after hsplit hcall => ?_⟩⟩
  · rw [total_eq, total_eq, own_tally hname hcalls rfl]
  · rw [(hnothing.tally hname hcalls hvalues).total_eq, Int.zero_add]
  · subst hsplit
    rw [List.filter_append, List.map_append,
      List.filter_cons_of_pos (by simpa using hcall)] at hvalues
    obtain ⟨earlier, later, rfl, hearlier, hlater⟩ := List.map_eq_append_iff.mp hvalues.symm
    obtain _ | ⟨k, later⟩ := later
    · cases hlater
    · have hbefore := hnothing.tally hname (fun other hother => hcalls other
        (List.mem_append_left _ hother)) hearlier.symm
      exact (hbefore.attempt hname hcall (List.cons.inj hlater).1.symm).1

/-- Braces, commas and equality signs in labels, two sets of labels under one key, and a name that
begins another. -/
theorem total_tally_shared : (empty.tally [⟨"ok", [("a", "1,b=2")], .int 1⟩,
      ⟨"ok_extra", [], .float .zero⟩, ⟨"ok", [("a", "1"), ("b", "2")], .int 2⟩,
      ⟨"o", [("k", "ok\x7bx=y\x7d")], .int 4⟩, ⟨"ok", [], .int (-8)⟩]).total "ok" =
        .ok (.int (-5)) ∧
    metricKey "ok" [("a", "1,b=2")] = metricKey "ok" [("a", "1"), ("b", "2")] := by
  refine ⟨((total_tally (by decide) (by decide)).2 [1, 2, -8] (by decide)).1, ?_⟩
  rw [metricKey, metricKey, List.mergeSort_singleton,
    List.mergeSort_of_pairwise (by decide +kernel)]
  decide +kernel

end Metrics

end Lifecycle
