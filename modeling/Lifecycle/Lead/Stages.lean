import Lifecycle.Chart.Build
import Lifecycle.Lead.Event

/-!
# The chart of a lead

A lead is worked on until its deal is closed, its goal is hit or its conversation is stopped. While
it is worked on it is being qualified, in the hands of a human, or on the way to a sale; a pause
remembers which of these it was and resumes there. Writing to a lead clears the mark that its
follow-ups have been stopped.
-/

namespace Lifecycle.Lead

open LeadEvent (agentMessageSent voiceCallInitiated leadMessageSent followUpSequenceCompleted
  followUpStopped leadOptedOut meetingBooked dealClosed humanIntervened meetingAttended
  meetingMissed goalHit conversationStopped conversationPaused conversationResumed)

/-- The actions of the chart. -/
def registry : Registry :=
  [("clear_follow_up_stop", .assign [("follow_ups_stopped", .bool false)]),
    ("stop_follow_ups", .assign [("follow_ups_stopped", .bool true)])]

/-- A handler that goes to a target. -/
def goes (event : LeadEvent) (target : String) : String × Json := (event.word, .str target)

/-- A handler that goes to a target and runs an action on the way. -/
def goesWith (event : LeadEvent) (target action : String) : String × Json :=
  (event.word, .obj [("target", .str target), ("actions", .arr [.str action])])

/-- The handlers of a node. -/
def on (handlers : List (String × Json)) : String × Json := ("on", .obj handlers)

/-- The child states of a node. -/
def states (children : List (String × Json)) : String × Json := ("states", .obj children)

/-- The description of a node. -/
def about (text : String) : String × Json := ("description", .str text)

/-- The initial child of a node. -/
def initially (key : String) : String × Json := ("initial", .str key)

/-- The tag of a node. -/
def tagged (tag : LeadTag) : String × Json := ("tags", .arr [.str tag.word])

/-- The type of a node. -/
def ofType (kind : Kind) : String × Json := ("type", .str kind.word)

/-- The states of a lead that is being qualified. -/
def qualification : List (String × Json) :=
  [("idle", .obj
      [about "Lead imported, no contact made yet",
        on [goes agentMessageSent "outreach", goes voiceCallInitiated "outreach",
          goes leadMessageSent "engaged"]]),
    ("outreach", .obj
      [about "Agent has reached out, awaiting lead response",
        on [goes leadMessageSent "engaged", goes followUpSequenceCompleted "cold",
          goesWith followUpStopped "outreach" "stop_follow_ups"]]),
    ("engaged", .obj
      [about "Active two-way conversation with lead",
        ("entry", .arr [.str "clear_follow_up_stop"]),
        on [goes followUpSequenceCompleted "cold",
          goesWith followUpStopped "engaged" "stop_follow_ups",
          goes leadOptedOut "opted_out"]]),
    ("cold", .obj
      [about "Lead unresponsive, in long-term nurturing",
        tagged .sparky,
        on [goes leadMessageSent "engaged"]]),
    ("opted_out", .obj
      [about "Lead has opted out of communications",
        on [goes leadMessageSent "engaged"]])]

/-- The states of a lead on the way to a sale. -/
def conversion : List (String × Json) :=
  [("meeting_booked", .obj
      [about "Meeting scheduled, awaiting attendance",
        tagged .checkIn,
        on [goes meetingAttended "meeting_attended", goes meetingMissed "meeting_missed"]]),
    ("meeting_attended", .obj
      [about "Lead attended meeting, awaiting deal outcome"]),
    ("meeting_missed", .obj
      [about "Lead missed meeting, attempting to rebook",
        tagged .noShow,
        on [goes leadMessageSent "#lead.active.lead_qualification.engaged",
          goes meetingBooked "meeting_booked"]])]

/-- The states of a lead that is worked on. -/
def active : List (String × Json) :=
  [("lead_qualification", .obj
      [initially "idle",
        about "Qualifying the lead through outreach and engagement",
        on [goes meetingBooked "#lead.active.conversion.meeting_booked",
          goes dealClosed "deal_closed", goes humanIntervened "human_intervention"],
        states qualification]),
    ("deal_closed", .obj
      [ofType .final, about "Deal closed successfully"]),
    ("human_intervention", .obj
      [about "Human has taken over, agent paused",
        on [goes meetingBooked "#lead.active.conversion.meeting_booked",
          goes dealClosed "deal_closed"]]),
    ("hist", .obj
      [ofType .history, ("history", .str "shallow"),
        about "Remembers the last active state."]),
    ("conversion", .obj
      [initially "meeting_booked",
        about "Lead is in the sales conversion process",
        on [goes dealClosed "deal_closed", goes humanIntervened "human_intervention"],
        states conversion])]

/-- The declaration of the chart. -/
def declaration : Json :=
  .obj
    [("id", .str "lead"),
      initially "active",
      ("context", .obj [("follow_ups_stopped", .bool false)]),
      states
        [("active", .obj
            [initially "lead_qualification",
              about "Lead is actively being worked",
              on [goes goalHit "goal_hit", goes conversationStopped "conversation_stopped",
                goes conversationPaused "conversation_paused"],
              states active]),
          ("goal_hit", .obj
            [ofType .final, about "Lead achieved configured goal"]),
          ("conversation_stopped", .obj
            [ofType .final, about "Conversation permanently stopped"]),
          ("conversation_paused", .obj
            [about "Conversation temporarily paused",
              on [goes conversationResumed "#lead.active.hist"]])]]

/-- The chart of the declaration, over the vocabulary of lead events. -/
def built : Except DefinitionError Chart :=
  Chart.define registry (some LeadEvent.words) declaration

/-- The chart that all leads share. -/
def chart : Chart :=
  match built with
  | .ok chart => chart
  | .error _ => ⟨"lead", #[], [], none⟩

end Lifecycle.Lead
