import Lifecycle.Proofs.Interpreter.Requests
import Lifecycle.Proofs.Interpreter.Revival
import Lifecycle.Proofs.Lead.Storage
import Lifecycle.Proofs.Telemetry

/-!
# Loading leads

What becomes of each lead when a file is loaded. A lead whose layout can be restored gets the
interpreter that is stored, one whose layout is corrupt a new one or none, as the policy says
(`Manager.successor?`). Each lead is taken over without touching any other (`loadLead_spec`,
`loadLeads_takesOver`), whatever the manager has and whatever the file holds (`load_spec`).
-/

namespace Lifecycle

namespace Interpreter

/-- Settling only logs. -/
theorem isLog_settleFrom (unseen : List Nat) (m : Interpreter) :
    ∀ signal ∈ (m.settleFrom unseen).signals, signal.isLog = true := by
  fun_induction settleFrom unseen m with
  | case3 _ _ _ _ _ _ _ _ _ _ ih => exact ih
  | case5 => exact List.forall_mem_singleton.mpr rfl
  | _ => exact List.forall_mem_nil _

/-- Starting only logs. -/
theorem isLog_start (m : Interpreter) : ∀ signal ∈ m.start.signals, signal.isLog = true := by
  unfold start
  split
  · exact List.forall_mem_nil _
  · split
    · exact List.forall_mem_nil _
    · dsimp only
      split
      · exact isLog_settleFrom _ _
      · refine List.forall_mem_append.mpr ⟨isLog_settleFrom _ _, ?_⟩
        exact List.forall_mem_singleton.mpr rfl

theorem isLog_stop (m : Interpreter) : ∀ signal ∈ m.stop.signals, signal.isLog = true := by
  unfold stop
  split
  · exact List.forall_mem_nil _
  · exact List.forall_mem_singleton.mpr rfl

end Interpreter

namespace Manager

variable {chart : Chart} {m m' m₁ m₂ m₃ : Manager} {lead : String} {layout : Json}
  {new new' : String → Option Interpreter} {n n' : Nat}

/-- Whether no interpreter can be restored from the layout of a lead. -/
def isCorrupt (m : Manager) (entry : String × Json) : Bool :=
  (revive m.chart entry.1 entry.2).toOption.isNone

/-- The interpreter that a lead of a file gets, if it gets one. -/
def successor? (m : Manager) (lead : String) (layout : Json) : Option Interpreter :=
  match revive m.chart lead layout, m.policy with
  | .ok interpreter, _ => some interpreter
  | .error _, .reset => some (Interpreter.started m.chart m.chart.context (some lead))
  | .error _, .reject => none

/-- The counter of leads whose layouts are corrupt. -/
def corruptions (m : Manager) : Number :=
  m.telemetry.metrics.counter "persist.error" [("op", "restore"), ("policy", m.policy.word)]

/-- Whether a signal counts a lead whose layout is corrupt. -/
def countsCorrupt (policy : Policy) : Signal → Bool :=
  Signal.counts "persist.error" [("op", "restore"), ("policy", policy.word)]

/-- Leads get new interpreters, some leads of which are corrupt. Those that get none keep the one
that they have. What is replaced is stopped, and no queue is touched. -/
structure TakesOver (m : Manager) (new : String → Option Interpreter) (corrupt : Nat)
    (m' : Manager) : Prop where
  chart_eq : m'.chart = m.chart
  policy_eq : m'.policy = m.policy
  installed {lead : String} {interpreter : Interpreter} : new lead = some interpreter →
    ∃ ticket, m'.agent? lead = some ⟨ticket, interpreter⟩
  kept {lead : String} : new lead = none → m'.agent? lead = m.agent? lead
  queue {lead : String} {box : Mailbox} : m.mailbox? lead = some box → m'.mailbox? lead = some box
  former {agent : Agent} : agent ∈ m.formerAgents → agent ∈ m'.formerAgents
  replaced {lead : String} {agent : Agent} : (new lead).isSome = true →
    m.agent? lead = some agent → ⟨agent.ticket, agent.interpreter.stop.state⟩ ∈ m'.formerAgents
  counted : ∃ signals, m'.telemetry = m.telemetry.absorb signals ∧
    signals.countP (countsCorrupt m.policy) = corrupt

namespace TakesOver

theorem refl (m : Manager) : m.TakesOver (fun _ => none) 0 m :=
  ⟨rfl, rfl, nofun, fun _ => rfl, id, id, nofun, [], rfl, rfl⟩

/-- Different leads are taken over one after the other. -/
theorem trans (h : m₁.TakesOver new n m₂) (h' : m₂.TakesOver new' n' m₃)
    (hapart : ∀ lead, new lead = none ∨ new' lead = none) :
    m₁.TakesOver (fun lead => (new lead).or (new' lead)) (n + n') m₃ where
  chart_eq := h'.chart_eq.trans h.chart_eq
  policy_eq := h'.policy_eq.trans h.policy_eq
  installed {lead interpreter} hnew := by
    rcases hapart lead with hnone | hnone
    · rw [hnone, Option.none_or] at hnew
      exact h'.installed hnew
    · rw [hnone, Option.or_none] at hnew
      rw [h'.kept hnone]
      exact h.installed hnew
  kept hnew := by
    obtain ⟨hnone, hnone'⟩ := Option.or_eq_none_iff.mp hnew
    rw [h'.kept hnone', h.kept hnone]
  queue hbox := h'.queue (h.queue hbox)
  former hagent := h'.former (h.former hagent)
  replaced {lead agent} hnew hagent := by
    rcases hapart lead with hnone | hnone
    · rw [hnone, Option.none_or] at hnew
      exact h'.replaced hnew ((h.kept hnone).trans hagent)
    · rw [hnone, Option.or_none] at hnew
      exact h'.former (h.replaced hnew hagent)
  counted := by
    obtain ⟨signals, htelemetry, hcount⟩ := h.counted
    obtain ⟨signals', htelemetry', hcount'⟩ := h'.counted
    refine ⟨signals ++ signals', ?_, ?_⟩
    · rw [htelemetry', htelemetry, Telemetry.absorb_append]
    · rw [List.countP_append, hcount, ← h.policy_eq, hcount']

/-- A report before is of no consequence but for what it counts. -/
theorem of_report {signals : List Signal} (h : (m.report signals).TakesOver new n m') :
    m.TakesOver new (signals.countP (countsCorrupt m.policy) + n) m' := by
  obtain ⟨later, htelemetry, hcount⟩ := h.counted
  refine ⟨h.chart_eq, h.policy_eq, h.installed, h.kept, h.queue, h.former, h.replaced,
    signals ++ later, ?_, ?_⟩
  · rw [htelemetry, report, Telemetry.absorb_append]
  · rw [List.countP_append]
    exact congrArg _ hcount

/-- What is logged afterwards is of no consequence. -/
theorem logged (h : m.TakesOver new n m') (notice : Notice) :
    m.TakesOver new n (m'.report [.log notice]) := by
  obtain ⟨signals, htelemetry, hcount⟩ := h.counted
  refine ⟨h.chart_eq, h.policy_eq, h.installed, h.kept, h.queue, h.former, h.replaced,
    signals ++ [.log notice], ?_, ?_⟩
  · rw [report, htelemetry, Telemetry.absorb_append]
  · rw [List.countP_append, hcount]
    rfl

/-- The counter has grown by one for each lead that is corrupt. -/
theorem corruptions_eq (h : m.TakesOver new n m') : m'.corruptions =
    if m.telemetry.enabled then (fun count => count.add (.int 1))^[n] m.corruptions
    else m.corruptions := by
  obtain ⟨signals, htelemetry, rfl⟩ := h.counted
  rw [corruptions, htelemetry, h.policy_eq]
  cases henabled : m.telemetry.enabled with
  | false => rw [Telemetry.metrics_absorb henabled]; rfl
  | true => exact Telemetry.counter_absorb henabled ..

end TakesOver

/-- The one lead that gets an interpreter. -/
def only (lead : String) (new : Option Interpreter) : String → Option Interpreter :=
  fun other => if other = lead then new else none

theorem only_none (lead : String) : only lead none = fun _ => none := by
  funext other
  rw [only, ite_self]

theorem only_some_eq_some {other : String} {new found : Interpreter} :
    only lead (some new) other = some found ↔ lead = other ∧ new = found := by
  rw [only, Option.ite_none_right_eq_some, Option.some.injEq, eq_comm]

theorem only_some_eq_none {other : String} {new : Interpreter} :
    only lead (some new) other = none ↔ lead ≠ other := by
  rw [only, ite_eq_right_iff, eq_comm]
  simp

/-- What the first lead of a file gets stands beside what the others get. -/
theorem only_or_get? {layout : Json} {rest : List (String × Json)}
    (hnone : Entries.get? rest lead = none) (new : String → Json → Option Interpreter) :
    (fun other => (only lead (new lead layout) other).or
        ((Entries.get? rest other).bind (new other))) =
      fun other => (Entries.get? ((lead, layout) :: rest) other).bind (new other) := by
  funext other
  rw [only, Entries.get?_cons]
  by_cases heq : other = lead
  · subst heq
    rw [if_pos rfl, if_pos (beq_self_eq_true other), hnone]
    exact Option.or_none
  · rw [if_neg heq, if_neg (by simpa using Ne.symm heq), Option.none_or]

/-- A lead is given an interpreter when the one that it had is among the former ones. -/
theorem takesOver_attach (interpreter : Interpreter) (hgone : ∀ agent, m.agent? lead = some agent →
    ⟨agent.ticket, agent.interpreter.stop.state⟩ ∈ m.formerAgents) :
    m.TakesOver (only lead (some interpreter)) 0 (m.attach lead interpreter) where
  chart_eq := by rw [attach_eq]
  policy_eq := by rw [attach_eq]
  installed hnew := by
    obtain ⟨rfl, rfl⟩ := only_some_eq_some.mp hnew
    exact ⟨m.nextTicket, (agent?_attach ..).trans (if_pos rfl)⟩
  kept hnew := (agent?_attach ..).trans (if_neg (only_some_eq_none.mp hnew))
  queue {other box} hbox := by
    rw [mailbox?_attach, if_neg]
    · exact hbox
    · rintro ⟨rfl, hnone⟩
      exact Option.some_ne_none _ (hbox.symm.trans hnone)
  former hagent := by
    rw [attach_eq]
    exact hagent
  replaced hnew hother := by
    obtain ⟨new, hnew⟩ := Option.isSome_iff_exists.mp hnew
    obtain ⟨rfl, -⟩ := only_some_eq_some.mp hnew
    rw [attach_eq]
    exact hgone _ hother
  counted := ⟨[], by rw [attach_eq]; rfl, rfl⟩

/-- A lead is given an interpreter in the place of the one that it has. -/
theorem takesOver_install (m : Manager) (lead : String) (interpreter : Interpreter) :
    m.TakesOver (only lead (some interpreter)) 0 (m.install lead interpreter) := by
  unfold install
  split
  · rename_i agent hagent
    let told := { m with
      formerAgents := ⟨agent.ticket, agent.interpreter.stop.state⟩ :: m.formerAgents }
    have hattach : (m.retire agent).TakesOver (only lead (some interpreter)) 0
        ((m.retire agent).attach lead interpreter) :=
      takesOver_attach interpreter fun other hother => by
        obtain rfl := Option.some.inj (hagent.symm.trans hother)
        exact List.mem_cons_self
    have htold := TakesOver.of_report (m := told) hattach
    rw [countsCorrupt, Signal.countP_counts_of_isLog agent.interpreter.isLog_stop] at htold
    exact ⟨htold.chart_eq, htold.policy_eq, htold.installed, htold.kept, htold.queue,
      fun h => htold.former (List.mem_cons_of_mem _ h), htold.replaced, htold.counted⟩
  · rename_i hagent
    exact takesOver_attach interpreter fun agent h => by rw [hagent] at h; cases h

section Storing

variable (storing : chart.Storing)

include storing

/-- A lead of a file is taken over. -/
theorem loadLead_spec (hchart : m.chart = chart) (lead : String) (layout : Json) :
    ∃ m', m.loadLead lead layout = (m', none) ∧
      m.TakesOver (only lead (m.successor? lead layout))
        (if m.isCorrupt (lead, layout) then 1 else 0) m' := by
  unfold loadLead successor? isCorrupt
  rcases hrevive : revive m.chart lead layout with corruption | interpreter
  · dsimp only
    generalize htold : m.report [.log (.leadCorrupt lead corruption.message),
      .count "persist.error" [("op", "restore"), ("policy", m.policy.word)]] = told
    have hcounted {new : String → Option Interpreter} {m' : Manager}
        (h : told.TakesOver new 0 m') : m.TakesOver new 1 m' := by
      subst htold
      simpa [countsCorrupt, Signal.counts] using h.of_report
    have htoldChart : told.chart = m.chart := by rw [← htold]; rfl
    cases m.policy with
    | reject => exact ⟨told, rfl, by rw [only_none]; exact hcounted (.refl told)⟩
    | reset =>
      have hlaunch := launch_eq_of_storing storing (htoldChart.trans hchart) lead
      have hlogs := (Interpreter.fresh chart chart.context (some lead)).isLog_start
      generalize (Interpreter.fresh chart chart.context (some lead)).start.signals = signals
        at hlaunch hlogs
      have hinstall := (takesOver_install (told.report signals) lead
        (Interpreter.started chart chart.context (some lead))).of_report
      rw [countsCorrupt, Signal.countP_counts_of_isLog hlogs] at hinstall
      simp only [hlaunch, hchart]
      exact ⟨_, rfl, hcounted hinstall⟩
  · exact ⟨_, rfl, (takesOver_install (m.report interpreter.restoredSignals) lead
      interpreter).of_report⟩

/-- The leads of a file are taken over, each on its own. -/
theorem loadLeads_takesOver {leads : List (String × Json)} (hkeys : (Entries.keys leads).Nodup)
    (hchart : m.chart = chart) : ∃ m', loadLeads leads m = (m', none) ∧
      m.TakesOver (fun lead => (Entries.get? leads lead).bind (m.successor? lead))
        (leads.countP m.isCorrupt) m' := by
  induction leads generalizing m with
  | nil => exact ⟨m, rfl, .refl m⟩
  | cons entry rest ih =>
    obtain ⟨lead, layout⟩ := entry
    obtain ⟨hnew, hrest⟩ := List.nodup_cons.mp hkeys
    obtain ⟨middle, hload, hfirst⟩ := loadLead_spec storing hchart lead layout
    obtain ⟨m', hloads, hothers⟩ := ih hrest (hfirst.chart_eq.trans hchart)
    have hsame : middle.successor? = m.successor? := by
      funext lead layout
      rw [successor?, successor?, hfirst.chart_eq, hfirst.policy_eq]
    have hcorrupt : middle.isCorrupt = m.isCorrupt := by
      funext entry
      rw [isCorrupt, isCorrupt, hfirst.chart_eq]
    rw [hsame, hcorrupt] at hothers
    have hnone : Entries.get? rest lead = none := by
      rw [← Option.not_isSome_iff_eq_none, Entries.get?_isSome_iff]
      exact hnew
    have hboth := hfirst.trans hothers fun other => by
      by_cases heq : other = lead
      · exact .inr (by rw [heq, hnone]; rfl)
      · exact .inl (if_neg heq)
    refine ⟨m', by rw [loadLeads, hload]; exact hloads, ?_⟩
    rw [only_or_get? hnone m.successor?] at hboth
    rw [List.countP_cons, Nat.add_comm]
    exact hboth

end Storing

/-! ## Loading a file -/

/-- A lead has an interpreter in the place of the one that it had before, which is stopped. -/
structure Replaces (m m' : Manager) (lead : String) (interpreter : Interpreter) : Prop where
  installed : ∃ ticket, m'.agent? lead = some ⟨ticket, interpreter⟩
  stopped {agent : Agent} : m.agent? lead = some agent → ∃ former ∈ m'.formerAgents,
    former.ticket = agent.ticket ∧ former.interpreter = agent.interpreter.stop.state ∧
      former.interpreter.status = .stopped

theorem TakesOver.replaces (h : m.TakesOver new n m') {interpreter : Interpreter}
    (hnew : new lead = some interpreter) : m.Replaces m' lead interpreter :=
  ⟨h.installed hnew, fun hagent => ⟨_, h.replaced (by rw [hnew]; rfl) hagent, rfl, rfl,
    Interpreter.stop_status _⟩⟩

/-- What keeps a layout from being restored is that it is corrupt, and nothing else. -/
theorem revive_ne_flawed {cause : Json.Flaw} :
    revive chart lead layout ≠ .error (.flawed cause) := by
  intro h
  rcases bind_eq_error.mp h with h | ⟨stored, hstored, h⟩
  · unfold Layout.check at h
    split at h <;> cases h
  · exact Interpreter.ofLayout_ne_flawed (Layout.plain_of_check hstored).isText h

/-- **Loading leads.** Whatever a manager of leads has and whatever a file holds, loading succeeds,
if the name of the file is not too long to be asked for. A file that is missing or rejected leaves
all interpreters and queues as they were. Otherwise each lead of the file whose layout can be
restored gets an interpreter in the state that is stored, and for a lead whose layout is corrupt the
policy decides: it gets an interpreter that has just been started, or stays as it was. Leads that
are not in the file stay as they were, no queue is touched, interpreters that are replaced are
stopped, and the corrupt leads are counted. -/
theorem load_spec (hchart : m.chart = Lead.chart) {disk : Disk} {route : Route} {there : Bool}
    (hthere : disk.exists? route = .ok there) :
    ((LeadsFile.load disk route (.int Settings.persistVersion)).2 = .ok none ∧
      ∃ m', m.load disk route = (m', .ok false) ∧ m'.agents = m.agents ∧
        m'.mailboxes = m.mailboxes) ∨
    ∃ leads m', (LeadsFile.load disk route (.int Settings.persistVersion)).2 = .ok (some leads) ∧
      m.load disk route = (m', .ok true) ∧
      (∀ lead layout, (lead, layout) ∈ leads →
        (∀ interpreter, revive Lead.chart lead layout = .ok interpreter →
          m.Replaces m' lead interpreter ∧ ∃ stored, Layout.check layout = .ok stored ∧
            interpreter.AsStored Lead.chart (some lead) stored) ∧
        ∀ corruption, revive Lead.chart lead layout = .error corruption →
          (∀ cause, corruption ≠ .flawed cause) ∧
          (m.policy = .reset → m.Replaces m' lead
            (Interpreter.started Lead.chart Lead.chart.context (some lead))) ∧
          (m.policy = .reject → m'.agent? lead = m.agent? lead)) ∧
      (∀ lead ∉ Entries.keys leads, m'.agent? lead = m.agent? lead) ∧
      (∀ lead box, m.mailbox? lead = some box → m'.mailbox? lead = some box) ∧
      (m.telemetry.enabled = true → ∀ count : Int, m.corruptions = .int count →
        m'.corruptions = .int (count + leads.countP m.isCorrupt)) ∧
      (m.telemetry.enabled = false → m'.corruptions = m.corruptions) := by
  rcases LeadsFile.load_cases hthere (.int Settings.persistVersion) with ⟨signals, hfile⟩ |
    ⟨leads, hfile⟩
  · refine .inl ⟨congrArg Prod.snd hfile, m.report signals, ?_, rfl, rfl⟩
    rw [load, hfile]
  have hkeys : (Entries.keys leads).Nodup := LeadsFile.nodup_keys_of_load (congrArg Prod.snd hfile)
  obtain ⟨loaded, hloads, htakes⟩ := loadLeads_takesOver
    (m := m.report [.log (.fileLoaded leads.length)]) Lead.chart_storing hkeys hchart
  have h := htakes.of_report.logged (.leadsLoaded loaded.agents.length)
  have hcount := h.corruptions_eq
  refine .inr ⟨leads, _, congrArg Prod.snd hfile, ?_, fun lead layout hmem => ?_,
    fun lead hlead => h.kept ?_, fun lead box => h.queue, fun henabled count hcount' => ?_,
    fun henabled => ?_⟩
  · rw [load, hfile]
    simp only [hloads]
  · have hget : Entries.get? leads lead = some layout := Entries.get?_of_mem hkeys hmem
    have hnew (new : Option Interpreter) (hsuccessor : m.successor? lead layout = new) :
        (Entries.get? leads lead).bind (m.successor? lead) = new := by
      rw [hget]
      exact hsuccessor
    refine ⟨fun interpreter hrevive => ⟨h.replaces (hnew _ ?_), ?_⟩,
      fun corruption hrevive => ⟨?_, fun hpolicy => h.replaces (hnew _ ?_),
        fun hpolicy => h.kept (hnew _ ?_)⟩⟩
    · rw [successor?, hchart, hrevive]
    · obtain ⟨stored, hstored, hlayout⟩ := bind_eq_ok.mp hrevive
      exact ⟨stored, hstored, Interpreter.asStored_ofLayout Lead.chart_built.arena hlayout⟩
    · rintro cause rfl
      exact revive_ne_flawed hrevive
    · rw [successor?, hchart, hrevive, hpolicy]
    · rw [successor?, hchart, hrevive, hpolicy]
  · rw [← Entries.get?_isSome_iff, Option.not_isSome_iff_eq_none] at hlead
    exact congrArg (Option.bind · _) hlead
  · rw [hcount, if_pos henabled, hcount', Telemetry.iterate_add_one]
    exact congrArg (fun number : Nat => Number.int (count + number)) (Nat.zero_add _)
  · rw [hcount, henabled, if_neg Bool.false_ne_true]

/-- A file with a lead that has reached its goal and one whose path is empty. -/
def mixed : Entries Json :=
  [("ada", .obj [("active_path", .arr [.str "lead", .str "goal_hit"])]),
    ("bob", .obj [("active_path", .arr [])])]

/-- A disk with this file. -/
def mixedDisk : Disk :=
  ⟨"leads", [(["f"], .file (Json.render .file
    (.obj (LeadsFile.body (.int 1) (.int 0) mixed))).toUTF8.toList)], []⟩

/-- A manager that starts corrupt leads again and has one of these leads. -/
def caring : Manager := ((fresh Lead.chart .reset (.fresh true false)).getOrCreate "bob").1

theorem load_mixed :
    (LeadsFile.load mixedDisk ["f"] (.int Settings.persistVersion)).2 = .ok (some mixed) := by
  have hparse : Json.parse .lastWins
      (Json.render .file (.obj (LeadsFile.body (.int 1) (.int 0) mixed))) =
        .ok (.obj (LeadsFile.body (.int 1) (.int 0) mixed)) :=
    Json.parse_render_of_le Json.Style.plain_file (by decide +kernel) (by decide +kernel)
      (by decide +kernel)
  refine LeadsFile.load_eq_some_iff.mpr ⟨_, _, _, rfl, Text.decodeAs?_toUTF8 _, hparse, ?_⟩
  exact ⟨by decide +kernel, nofun, by decide +kernel, rfl⟩

set_option maxRecDepth 10000 in
/-- The lead that has reached its goal is there, and the other one is started again and counted. -/
theorem load_spec_mixed :
    caring.chart = Lead.chart ∧ mixedDisk.exists? ["f"] = .ok true ∧
      ∃ m', caring.load mixedDisk ["f"] = (m', .ok true) ∧
        (∃ agent, m'.agent? "ada" = some agent ∧
          agent.interpreter.observe.path = ["lead", "goal_hit"]) ∧
        caring.Replaces m' "bob"
          (Interpreter.started Lead.chart Lead.chart.context (some "bob")) ∧
        m'.corruptions = .int 1 := by
  have hchart : caring.chart = Lead.chart :=
    ((storable_fresh Lead.chart .reset (.fresh true false)).getOrCreate Lead.chart_storing
      "bob").1.chart_eq
  have hthere : mixedDisk.exists? ["f"] = .ok true := rfl
  obtain ⟨henabled, hpolicy, hnone, hcount⟩ : caring.telemetry.enabled = true ∧
      caring.policy = .reset ∧ caring.corruptions = .int 0 ∧
      mixed.countP caring.isCorrupt = 1 := by decide +kernel
  obtain ⟨revived, hrevived⟩ := exists_ok_of_isSome (x := revive Lead.chart "ada"
    (.obj [("active_path", .arr [.str "lead", .str "goal_hit"])])) (by decide +kernel)
  rcases load_spec hchart hthere with ⟨hrejected, -⟩ |
    ⟨leads, m', hleads, hload, heach, -, -, hcounted, -⟩
  · rw [load_mixed] at hrejected
    cases hrejected
  obtain rfl : mixed = leads := Option.some.inj (Except.ok.inj (load_mixed.symm.trans hleads))
  obtain ⟨hada, -⟩ := heach "ada" _ List.mem_cons_self
  obtain ⟨-, hbob⟩ := heach "bob" _ (List.mem_cons_of_mem _ List.mem_cons_self)
  obtain ⟨hreplaces, stored, hstored, hasStored⟩ := hada revived hrevived
  obtain ⟨ticket, hagent⟩ := hreplaces.installed
  obtain rfl := Except.ok.inj hstored
  refine ⟨hchart, hthere, m', hload, ⟨_, hagent, hasStored.path_eq⟩, (hbob _ rfl).2.1 hpolicy, ?_⟩
  rw [hcounted henabled 0 hnone, hcount]
  rfl

end Manager

end Lifecycle
