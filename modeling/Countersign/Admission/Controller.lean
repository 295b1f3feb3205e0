import Countersign.Admission.Review
import Countersign.Judge
import Countersign.Log.DecisionLog
import Countersign.Settings.Basic
import Countersign.Task.Decoder

namespace Countersign

namespace AdmissionRequest

variable (q : AdmissionRequest)

def requester : Requester :=
  q.userInfo.toRequester

-- What the request is about: its object's name, or else the name in the decoded body.
def subject (task? : Option ApprovalTask) : String :=
  match q.space, q.name with
  | some space, some name => space ++ "/" ++ name
  | none, some name => name
  | _, none => (task?.map ApprovalTask.qualifiedName).getD ""

end AdmissionRequest

-- The code that goes with a reason: only a body that could not be read has one.
def DenyReason.code? : DenyReason → Option Nat
  | malformed _ => some 400
  | _ => none

namespace AdmissionResponse

def ofDecision (uid : Uuid) (d : Decision) : AdmissionResponse :=
  ⟨uid, d.isAllowed, d.reason?.map fun reason => ⟨reason.message, reason.code?⟩⟩

def ofLogError (uid : Uuid) (e : GateError) : AdmissionResponse :=
  ⟨uid, false, some ⟨e.message, some 500⟩⟩

end AdmissionResponse

namespace GateConfig

variable (c : GateConfig)

def decoder : TaskDecoder :=
  ⟨c.webhook.disallowUnknownFields⟩

section Events

variable (q : AdmissionRequest)

def unhandledKindEvents : List Event :=
  if q.kind = c.resource then []
  else [⟨.error, .controller, "unhandled kind",
    [("uid", .shown q.uid.text), ("kind", .shown q.kind.text), ("expected", .shown c.resource.text)]⟩]

def receivedEvent : Event :=
  ⟨.debug, .controller, "admission request received",
    [("uid", .shown q.uid.text), ("operation", .shown q.operation.describe),
      ("username", .shown q.requester.username), ("groups", .count q.requester.groups.length)]⟩

def unrecordedEvent (e : GateError) : Event :=
  ⟨.error, .controller, "decision could not be recorded",
    [("uid", .shown q.uid.text), ("error", .shown e.message)]⟩

def decidedEvent (r : DecisionRecord) : Event :=
  ⟨.info, .controller, "admission decision",
    [("uid", .shown q.uid.text), ("task", .shown r.task), ("username", .shown r.requester),
      ("allowed", .flag r.decision.isAllowed)]⟩

end Events

-- Decodes both bodies of a request, the stored object's first.
def decodePair (q : AdmissionRequest) :
    Traced (Except GateError (ApprovalTask × ApprovalTask)) := do
  match ← c.decoder.decode .old (q.oldObject.map Symbols.ofString) with
  | .error e => return .error e
  | .ok old =>
    match ← c.decoder.decode .new (q.object.map Symbols.ofString) with
    | .error e => return .error e
    | .ok new => return .ok (old, new)

-- What a request is about and the decision on it; bodies that cannot be read are denied.
def judgeRequest (q : AdmissionRequest) : Traced (String × Decision) := do
  match ← c.decodePair q with
  | .error e => return (q.subject none, .deny (.malformed e.message))
  | .ok (old, new) =>
    let decision ← judge old.toState new.toState q.requester
    return (q.subject (some new), decision)

-- Answers a request at the given time, and the log with its decision. Only a decision that has been
-- recorded is given as the answer.
def respond (access : WriteAccess) (now : Timestamp) (log : DecisionLog) (q : AdmissionRequest) :
    Traced (AdmissionResponse × DecisionLog) := do
  ⟨(), c.unhandledKindEvents q⟩
  .report (receivedEvent q)
  let (subject, decision) ← c.judgeRequest q
  let record := ⟨q.uid, subject, q.requester.username, decision, now⟩
  match ← log.record access record with
  | .error e =>
    .report (unrecordedEvent q e)
    return (.ofLogError q.uid e, log)
  | .ok log =>
    .report (decidedEvent q record)
    return (.ofDecision q.uid decision, log)

def noRequestError : GateError :=
  .decode "admission review carries no request"

-- Answers a review; one without a request has no answer.
def review (access : WriteAccess) (now : Timestamp) (log : DecisionLog) (r : AdmissionReview) :
    Traced (Except GateError AdmissionReview × DecisionLog) := do
  match r.request with
  | none => return (.error noRequestError, log)
  | some q =>
    let (response, log) ← c.respond access now log q
    return (.ok (.ofResponse response), log)

end GateConfig
end Countersign
