import Lifecycle.Fault

/-!
# Events and tags of leads

The vocabulary in which messaging, scheduling and sales systems tell what happened to a lead, and
the tags by which workflows find the leads that concern them.
-/

namespace Lifecycle

/-- What can happen to a lead. -/
inductive LeadEvent where
  | agentMessageSent
  | voiceCallInitiated
  | leadMessageSent
  | followUpSequenceCompleted
  | followUpStopped
  | leadOptedOut
  | meetingBooked
  | dealClosed
  | humanIntervened
  | meetingAttended
  | meetingMissed
  | goalHit
  | conversationStopped
  | conversationPaused
  | conversationResumed
deriving DecidableEq

namespace LeadEvent

/-- All events. -/
def all : List LeadEvent :=
  [.agentMessageSent, .voiceCallInitiated, .leadMessageSent, .followUpSequenceCompleted,
    .followUpStopped, .leadOptedOut, .meetingBooked, .dealClosed, .humanIntervened,
    .meetingAttended, .meetingMissed, .goalHit, .conversationStopped, .conversationPaused,
    .conversationResumed]

/-- The word that is sent. -/
def word : LeadEvent → String
  | agentMessageSent => "agent.message_sent"
  | voiceCallInitiated => "voice_call.initiated"
  | leadMessageSent => "lead.message_sent"
  | followUpSequenceCompleted => "follow_up.sequence_completed"
  | followUpStopped => "follow_up.stopped"
  | leadOptedOut => "lead.opted_out"
  | meetingBooked => "meeting.booked"
  | dealClosed => "deal.closed"
  | humanIntervened => "human.intervened"
  | meetingAttended => "meeting.attended"
  | meetingMissed => "meeting.missed"
  | goalHit => "goal.hit"
  | conversationStopped => "conversation.stopped"
  | conversationPaused => "conversation.paused"
  | conversationResumed => "conversation.resumed"

/-- The name in listings of the vocabulary. -/
def name : LeadEvent → String
  | agentMessageSent => "AGENT_MESSAGE_SENT"
  | voiceCallInitiated => "VOICE_CALL_INITIATED"
  | leadMessageSent => "LEAD_MESSAGE_SENT"
  | followUpSequenceCompleted => "FOLLOW_UP_SEQUENCE_COMPLETED"
  | followUpStopped => "FOLLOW_UP_STOPPED"
  | leadOptedOut => "LEAD_OPTED_OUT"
  | meetingBooked => "MEETING_BOOKED"
  | dealClosed => "DEAL_CLOSED"
  | humanIntervened => "HUMAN_INTERVENED"
  | meetingAttended => "MEETING_ATTENDED"
  | meetingMissed => "MEETING_MISSED"
  | goalHit => "GOAL_HIT"
  | conversationStopped => "CONVERSATION_STOPPED"
  | conversationPaused => "CONVERSATION_PAUSED"
  | conversationResumed => "CONVERSATION_RESUMED"

/-- The words of all events. -/
def words : List String := all.map word

/-- The event of a word. -/
def ofWord? (text : String) : Option LeadEvent := all.find? fun event => event.word == text

/-- The event that a value names by its word. -/
def choose (value : Json) : Except Fault LeadEvent :=
  match value.string?.bind ofWord? with
  | some event => .ok event
  | none => .error (.raised (value.literal ++ " is not a valid LeadEvent"))

theorem mem_all (event : LeadEvent) : event ∈ all := by
  cases event <;> decide

end LeadEvent

/-- What a workflow looks for. -/
inductive LeadTag where
  | sparky
  | checkIn
  | noShow
deriving DecidableEq

namespace LeadTag

/-- All tags. -/
def all : List LeadTag := [.sparky, .checkIn, .noShow]

/-- The word on the nodes of the chart. -/
def word : LeadTag → String
  | sparky => "sparky"
  | checkIn => "check_in"
  | noShow => "no_show"

/-- The name in listings. -/
def name : LeadTag → String
  | sparky => "SPARKY"
  | checkIn => "CHECK_IN"
  | noShow => "NO_SHOW"

/-- The workflow that the tag is for. -/
def workflow : LeadTag → String
  | sparky => "nurture_dashboard"
  | checkIn => "meeting_reminder"
  | noShow => "rebooking"

/-- The tag of a word. -/
def ofWord? (text : String) : Option LeadTag := all.find? fun tag => tag.word == text

/-- The tag that a value names by its word. -/
def choose (value : Json) : Except Fault LeadTag :=
  match value.string?.bind ofWord? with
  | some tag => .ok tag
  | none => .error (.raised (value.literal ++ " is not a valid LeadTag"))

end LeadTag

end Lifecycle
