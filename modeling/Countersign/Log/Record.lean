import Countersign.Admission.Review
import Countersign.Codec.Writer
import Countersign.Decision
import Countersign.Timestamp.Reader
import Countersign.Uuid

namespace Countersign

def Timestamp.codec : Codec Timestamp :=
  .formatted "an RFC 3339 formatted date and time string" Timestamp.read Timestamp.text

def Vote.codec : Codec Vote :=
  .via (fun | .inl () => .approve | .inr (.inl ()) => .reject)
    (fun | .approve => .inl () | .reject => .inr (.inl ())) (fun v => by cases v <;> rfl) <|
  .choice <| .cons "approve" .unit <| .cons "reject" .unit .nil

def ApproverType.codec : Codec ApproverType :=
  .via (fun | .inl () => .user | .inr (.inl ()) => .group)
    (fun | .user => .inl () | .group => .inr (.inl ())) (fun t => by cases t <;> rfl) <|
  .choice <| .cons "User" .unit <| .cons "Group" .unit .nil

def positionCodec : Codec Nat :=
  .natural UInt64.size "usize"

def Target.codec : Codec Target :=
  .via
    (fun
      | .inl () => .userInput
      | .inr (.inl ()) => .groupInput
      | .inr (.inr (.inl (position, ()))) => .memberAdded position
      | .inr (.inr (.inr (.inl (position, ())))) => .memberInput position)
    (fun
      | .userInput => .inl ()
      | .groupInput => .inr (.inl ())
      | .memberAdded position => .inr (.inr (.inl (position, ())))
      | .memberInput position => .inr (.inr (.inr (.inl (position, ())))))
    (fun t => by cases t <;> rfl) <|
  .choice <|
  .cons "UserInput" .unit <|
  .cons "GroupInput" .unit <|
  .cons "MemberAdded" (.record "struct variant ChangeTarget::MemberAdded"
    (.cons "position" .required positionCodec .nil)) <|
  .cons "MemberInput" (.record "struct variant ChangeTarget::MemberInput"
    (.cons "position" .required positionCodec .nil)) .nil

def ChangeSite.codec : Codec ChangeSite :=
  .via (fun (index, target, value, ()) => ⟨index, target, value⟩)
    (fun s => (s.index, s.target, s.value, ())) (fun _ => rfl) <|
  .record "ChangeSite" <|
  .cons "index" .required positionCodec <|
  .cons "target" .required Target.codec <|
  .cons "value" .required Vote.codec .nil

def UnsupportedInput.codec : Codec UnsupportedInput :=
  .via (fun (value, ()) => ⟨value⟩) (fun u => (u.value, ())) (fun _ => rfl) <|
  .record "InvalidInputValue" <|
  .cons "value" .required .text .nil

def DenyReason.codec : Codec DenyReason :=
  .via
    (fun
      | .inl (reason, ()) => .malformed reason
      | .inr (.inl ()) => .taskClosed
      | .inr (.inr (.inl ())) => .notAnApprover
      | .inr (.inr (.inr (.inl input))) => .invalidInput input
      | .inr (.inr (.inr (.inr (.inl ())))) => .outOfScope)
    (fun
      | .malformed reason => .inl (reason, ())
      | .taskClosed => .inr (.inl ())
      | .notAnApprover => .inr (.inr (.inl ()))
      | .invalidInput input => .inr (.inr (.inr (.inl input)))
      | .outOfScope => .inr (.inr (.inr (.inr (.inl ())))))
    (fun r => by cases r <;> rfl) <|
  .choice <|
  .cons "Malformed" (.record "struct variant DenyReason::Malformed"
    (.cons "reason" .required .text .nil)) <|
  .cons "TaskClosed" .unit <|
  .cons "NotAnApprover" .unit <|
  .cons "InvalidInput" (.wrapped UnsupportedInput.codec) <|
  .cons "OutOfScope" .unit .nil

def Decision.codec : Codec Decision :=
  .via
    (fun
      | .inl () => .allow
      | .inr (.inl (reason, ())) => .deny reason)
    (fun
      | .allow => .inl ()
      | .deny reason => .inr (.inl (reason, ())))
    (fun d => by cases d <;> rfl) <|
  .choice <|
  .cons "Allow" .unit <|
  .cons "Deny" (.record "struct variant Decision::Deny"
    (.cons "reason" .required DenyReason.codec .nil)) .nil

-- A decision with the request it answers.
structure DecisionRecord where
  requestUid : Uuid
  task : String
  requester : String
  decision : Decision
  timestamp : Timestamp
  deriving DecidableEq, Repr

def DecisionRecord.codec [Wording] : Codec DecisionRecord :=
  .via (fun (requestUid, task, requester, decision, timestamp, ()) =>
      ⟨requestUid, task, requester, decision, timestamp⟩)
    (fun r => (r.requestUid, r.task, r.requester, r.decision, r.timestamp, ())) (fun _ => rfl) <|
  .record "DecisionRecord" <|
  .cons "request_uid" .required Uuid.codec <|
  .cons "task" .required .text <|
  .cons "requester" .required .text <|
  .cons "decision" .required Decision.codec <|
  .cons "timestamp" .required Timestamp.codec .nil

-- The record as compact JSON. Only reading needs words, so it does not matter whose are used here.
def DecisionRecord.text (r : DecisionRecord) : String :=
  (@codec .brief).compact r

end Countersign
