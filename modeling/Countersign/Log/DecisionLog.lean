import Countersign.Event
import Countersign.GateError
import Countersign.Log.Chain

namespace Countersign

-- Whether the log takes the next write.
inductive WriteAccess
  | granted
  | refused (reason : String)
  deriving DecidableEq, Repr

-- The decisions of one webhook, in a chain that only grows.
structure DecisionLog where
  webhook : String
  -- The entries; none once the log is poisoned.
  entries? : Option (List LogEntry)
  deriving DecidableEq, Repr

namespace DecisionLog

def empty (webhook : String) : DecisionLog :=
  ⟨webhook, some []⟩

def poisonedError : GateError :=
  .auditWriteFailed "decision log lock poisoned: poisoned lock: another task failed inside"

variable (log : DecisionLog)

def isPoisoned : Bool :=
  log.entries?.isNone

-- A writer fails while it holds the log. From then on nothing can be written to the log or read
-- from it.
def poison : DecisionLog :=
  { log with entries? := none }

def length : Nat :=
  (log.entries?.map List.length).getD 0

def isEmpty : Bool :=
  log.length == 0

def trail (now : Timestamp) : Except GateError DecisionTrail :=
  match log.entries? with
  | some entries => .ok ⟨log.webhook, entries, now, Chain.head entries⟩
  | none => .error poisonedError

-- Whether the chain is intact; a poisoned log is not.
def verify : Bool :=
  match log.entries? with
  | some entries => Chain.verify log.webhook entries
  | none => false

-- The entry that a record gets behind the given ones.
def nextEntry (entries : List LogEntry) (r : DecisionRecord) : LogEntry :=
  Chain.link log.webhook entries.length ((Chain.lastDigest? entries).getD Chain.genesis) r

def recordedEvent (entries : List LogEntry) (r : DecisionRecord) : Event :=
  ⟨.debug, .log, "decision recorded",
    [("webhook", .shown log.webhook), ("sequence", .count entries.length),
      ("request_uid", .shown r.requestUid.text), ("allowed", .flag r.decision.isAllowed)]⟩

def record (access : WriteAccess) (r : DecisionRecord) : Traced (Except GateError DecisionLog) :=
  match access, log.entries? with
  | .refused reason, _ => pure (.error (.auditWriteFailed reason))
  | .granted, none => pure (.error poisonedError)
  | .granted, some entries => do
    .report (log.recordedEvent entries r)
    return .ok { log with entries? := some (entries ++ [log.nextEntry entries r]) }

end DecisionLog
end Countersign
