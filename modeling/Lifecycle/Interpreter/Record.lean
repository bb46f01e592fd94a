import Lifecycle.Fault
import Lifecycle.Settings

/-!
# Transition records

What an interpreter remembers of each event it was sent, for diagnosis: the values before and after,
and why an event was ignored. A record carries the moment of its event (`Record.stamp`). Only the
latest records are kept (`Record.append`).
-/

namespace Lifecycle

/-- The memory of one event. -/
structure Record where
  event : String
  before : String
  after : String
  handled : Bool
  reason : String
  time : Number

namespace Record

/-- The time that is recorded when the clock shows a value, which is a number of seconds. -/
def stamp (now : Json) : Except Fault Number :=
  match now.number?.map Moment.ofNumber with
  | some (.ok moment) => .ok (.float moment.toDouble)
  | some (.error error) => .error (.noMoment error)
  | none => .error (.notNumber now.kindName)

/-- A record on one line, which begins with the time of day. -/
def text (r : Record) : Except Fault String :=
  match Moment.ofNumber r.time with
  | .ok moment =>
    .ok (moment.clockText ++ " | " ++ (if r.handled then "✓" else "✗") ++ " " ++ r.event ++ " | "
      ++ r.before ++ " → " ++ r.after)
  | .error error => .error (.noMoment error)

/-- A record as an object. -/
def fields (r : Record) : Entries Json :=
  [("event", .str r.event), ("from_value", .str r.before), ("to_value", .str r.after),
    ("handled", .bool r.handled), ("description", .str r.reason),
    ("timestamp", Json.ofNumber r.time)]

/-- The records with one more at the end, the oldest dropped beyond the length that is kept. -/
def append (records : List Record) (r : Record) : List Record :=
  let all := records ++ [r]
  all.drop (all.length - Settings.logLength)

/-- The last records, all of them for none; the count may also be given from the other end. -/
def latest (records : List Record) (count : Option Int) : List Record :=
  match count with
  | none => records
  | some k =>
    if k = 0 then records
    else if 0 < k then records.drop (records.length - k.toNat)
    else records.drop (-k).toNat

/-- The records, each on a line. -/
def listing (records : List Record) : Except Fault String :=
  if records.isEmpty then .ok "  (no history)"
  else do
    let lines ← records.mapM text
    return String.intercalate "\n" (lines.map ("  " ++ ·))

theorem length_append_le (records : List Record) (r : Record) :
    (append records r).length ≤ Settings.logLength := by
  simp only [append, List.length_drop]
  omega

end Record

end Lifecycle
