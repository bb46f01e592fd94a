import Lifecycle.Lead.Manager
import Lifecycle.Store.LeadsFile

/-!
# Saving and loading leads

A manager saves the layouts of all its leads in one file. Loading takes the leads of a file over,
each on its own: one whose layout is corrupt starts again or is left as it was, as the policy says;
the interpreter that a lead had before is stopped, and its queue stays.
-/

namespace Lifecycle.Manager

/-- The layouts of all leads, as they are saved. -/
def layouts : Entries Agent → Except Fault (Entries LeadsFile.Saved)
  | [] => .ok []
  | (lead, agent) :: rest =>
    match agent.interpreter.shown with
    | .error fault => .error fault
    | .ok snapshot => (layouts rest).map ((lead, .ofLayout snapshot.layout) :: ·)

/-- Saves all leads in a file. -/
def save (m : Manager) (disk : Disk) (route : Route) : Manager × Disk × Except Fault Bool :=
  match layouts m.agents with
  | .error fault => (m, disk, .error fault)
  | .ok leads =>
    let response := LeadsFile.save disk route (.int Settings.persistVersion) m.now leads
    (m.report response.signals, response.state, response.result)

/-- The interpreter that a persisted layout describes. -/
def revive (chart : Chart) (lead : String) (layout : Json) : Except Corruption Interpreter := do
  let checked ← Layout.check layout
  Interpreter.ofLayout chart checked (some lead)

/-- Makes an interpreter that of a lead in the place of the one it had. -/
def install (m : Manager) (lead : String) (interpreter : Interpreter) : Manager :=
  let alone := match m.agent? lead with
    | some agent => m.retire agent
    | none => m
  alone.attach lead interpreter

/-- Takes over one lead of a file. -/
def loadLead (m : Manager) (lead : String) (layout : Json) : Manager × Option Fault :=
  match revive m.chart lead layout with
  | .ok interpreter => ((m.report interpreter.restoredSignals).install lead interpreter, none)
  | .error corruption =>
    let told := m.report
      [.log (.leadCorrupt lead corruption.message),
        .count "persist.error" [("op", "restore"), ("policy", m.policy.word)]]
    match m.policy with
    | .reject => (told, none)
    | .reset =>
      match told.launch lead with
      | (m, .error fault) => (m, some fault)
      | (m, .ok interpreter) => (m.install lead interpreter, none)

/-- Takes over the leads of a file, in order. -/
def loadLeads : List (String × Json) → Manager → Manager × Option Fault
  | [], m => (m, none)
  | (lead, layout) :: rest, m =>
    match m.loadLead lead layout with
    | (m, none) => loadLeads rest m
    | (m, some fault) => (m, some fault)

/-- Loads the leads of a file; the result tells whether there was one that could be read. -/
def load (m : Manager) (disk : Disk) (route : Route) : Manager × Except Fault Bool :=
  match LeadsFile.load disk route (.int Settings.persistVersion) with
  | (signals, .error fault) => (m.report signals, .error fault)
  | (signals, .ok none) => (m.report signals, .ok false)
  | (signals, .ok (some leads)) =>
    match loadLeads leads (m.report signals) with
    | (m, some fault) => (m, .error fault)
    | (m, none) => (m.report [.log (.leadsLoaded m.agents.length)], .ok true)

end Lifecycle.Manager
