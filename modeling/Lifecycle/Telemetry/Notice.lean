import Lifecycle.Telemetry.Level

/-!
# Notices

Everything the library logs. A notice holds what happened; its level and its wording are
`Notice.level` and `Notice.text`.
-/

namespace Lifecycle

/-- Something worth logging. -/
inductive Notice where
  | chartBuilt (chart : String) (nodes : Nat)
  | started (name value : String)
  | stopped (name : String)
  | restored (name value : String)
  | unknownEvent (name event : String)
  | noHandler (name event value : String)
  | moved (name before after event : String) (done : Bool)
  | doneCycle (name : String) (leaf : Nat)
  | unhandledCallbackFailed (name reason : String)
  | observerFailed (name reason : String)
  | queueGrowing (lead : String)
  | queueRejected (lead : String)
  | queueDropped (lead : String)
  | queueHigh (lead : String) (depth : Nat) (capacity : Json) (percent : String)
  | saved (leads : Nat)
  | saveFailed (reason : String)
  | fileMissing (path : String)
  | fileNotObject
  | fileVersion (found expected : Json)
  | fileChecksum
  | fileLayout (errors : Nat)
  | fileMalformed
  | loadFailed (reason : String)
  | fileLoaded (leads : Nat)
  | deleted (path : String)
  | deleteFailed (reason : String)
  | leadCreated (lead : String)
  | leadRemoved (lead : String)
  | leadCorrupt (lead reason : String)
  | leadsLoaded (leads : Nat)

namespace Notice

/-- The level on which a notice is logged. -/
def level : Notice → Level
  | .chartBuilt .. | .stopped .. | .restored .. | .noHandler .. | .queueHigh .. | .fileMissing ..
  | .leadCreated .. | .leadRemoved .. => .debug
  | .started .. | .moved .. | .saved .. | .fileLoaded .. | .deleted .. | .leadsLoaded .. => .info
  | .unknownEvent .. | .queueGrowing .. | .queueRejected .. | .queueDropped .. | .fileNotObject
  | .fileVersion .. | .fileChecksum | .fileLayout .. | .fileMalformed | .leadCorrupt .. => .warning
  | .doneCycle .. | .unhandledCallbackFailed .. | .observerFailed .. | .saveFailed ..
  | .loadFailed .. | .deleteFailed .. => .error

/-- The first eight characters of a lead's id, by which messages and metrics of queues name it. -/
def short (lead : String) : String := String.ofList (lead.toList.take 8)

/-- A message of an interpreter. -/
def ofInterpreter (name text : String) : String := "[Interpreter:" ++ name ++ "] " ++ text

/-- A message of a queue. -/
def ofQueue (lead text : String) : String := "[Queue:" ++ short lead ++ "] " ++ text

/-- The wording of a notice. -/
def text : Notice → String
  | .chartBuilt chart nodes => "[Chart:" ++ chart ++ "] Built " ++ toString nodes ++ " nodes"
  | .started name value => ofInterpreter name ("Started at " ++ value)
  | .stopped name => ofInterpreter name "Stopped"
  | .restored name value => ofInterpreter name ("Restored at " ++ value)
  | .unknownEvent name event => ofInterpreter name ("Unknown event: " ++ event)
  | .noHandler name event value =>
    ofInterpreter name ("No handler for " ++ event ++ " at " ++ value)
  | .moved name before after event done =>
    ofInterpreter name
      (before ++ " → " ++ after ++ " | event=" ++ event ++ (if done then " | done" else ""))
  | .doneCycle name leaf => ofInterpreter name ("on_done cycle at " ++ toString leaf)
  | .unhandledCallbackFailed name reason =>
    ofInterpreter name ("Unhandled-event callback failed: " ++ reason)
  | .observerFailed name reason => ofInterpreter name ("Observer failed: " ++ reason)
  | .queueGrowing lead => ofQueue lead "Queue full of protected events, growing"
  | .queueRejected lead => ofQueue lead "Rejected event (queue full)"
  | .queueDropped lead => ofQueue lead "Dropped oldest event (queue full)"
  | .queueHigh lead depth capacity percent =>
    ofQueue lead ("High watermark: " ++ toString depth ++ "/" ++ capacity.display ++ " ("
      ++ percent ++ "%)")
  | .saved leads => "[Persist] Saved " ++ toString leads ++ " leads"
  | .saveFailed reason => "[Persist] Save failed: " ++ reason
  | .fileMissing path => "[Persist] File not found: " ++ path
  | .fileNotObject => "[Persist] Snapshot file is not an object"
  | .fileVersion found expected =>
    "[Persist] Version mismatch: file=" ++ found.display ++ ", expected=" ++ expected.display
  | .fileChecksum => "[Persist] Checksum mismatch"
  | .fileLayout errors => "[Persist] Invalid snapshot file (" ++ toString errors ++ " errors)"
  | .fileMalformed => "[Persist] Invalid JSON"
  | .loadFailed reason => "[Persist] Load failed: " ++ reason
  | .fileLoaded leads => "[Persist] Loaded " ++ toString leads ++ " leads"
  | .deleted path => "[Persist] Deleted: " ++ path
  | .deleteFailed reason => "[Persist] Delete failed: " ++ reason
  | .leadCreated lead => "[LeadManager] Created lead: " ++ short lead
  | .leadRemoved lead => "[LeadManager] Removed lead: " ++ short lead
  | .leadCorrupt lead reason =>
    "[LeadManager] Corrupt snapshot for " ++ short lead ++ ": " ++ reason
  | .leadsLoaded leads => "[LeadManager] Loaded " ++ toString leads ++ " leads"

end Notice

end Lifecycle
