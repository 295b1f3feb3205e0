import Countersign.Codec.Writer
import Countersign.TaskState

namespace Countersign

-- A group member in the specification of a task.
structure UserDetails where
  name : String
  input : String
  deriving DecidableEq, Repr

namespace UserDetails

def codec : Codec UserDetails :=
  .via (fun (name, input, ()) => ⟨name, input⟩) (fun u => (u.name, u.input, ())) (fun _ => rfl) <|
  .record "UserDetails" <|
  .cons "name" .required .text <|
  .cons "input" (.written "") .text .nil

end UserDetails

-- An approver in the specification of a task.
structure ApproverDetails where
  name : String
  input : String
  typeName : String
  users : List UserDetails
  deriving DecidableEq, Repr

namespace ApproverDetails

def codec : Codec ApproverDetails :=
  .via (fun (name, input, typeName, users, ()) => ⟨name, input, typeName, users⟩)
    (fun a => (a.name, a.input, a.typeName, a.users, ())) (fun _ => rfl) <|
  .record "ApproverDetails" <|
  .cons "name" .required .text <|
  .cons "input" (.written "") .text <|
  .cons "type" .text .text <|
  .cons "users" .list (.list UserDetails.codec) .nil

-- The type the approver counts as; one without a type is a user.
def defaultedType (a : ApproverDetails) : String :=
  ApproverType.nameOr a.typeName

def toApprover (a : ApproverDetails) : Approver where
  name := a.name
  input := a.input
  kind :=
    match ApproverType.ofName? a.defaultedType with
    | some .user => .user
    | some .group => .group (a.users.map fun u => ⟨u.name, u.input⟩)
    | none => .other a.defaultedType

end ApproverDetails

structure TaskSpec where
  approvers : List ApproverDetails
  approvalsRequired : Nat
  description : String
  deriving DecidableEq, Repr

namespace TaskSpec

def empty : TaskSpec :=
  ⟨[], 0, ""⟩

def codec : Codec TaskSpec :=
  .via (fun (approvers, approvalsRequired, description, ()) =>
      ⟨approvers, approvalsRequired, description⟩)
    (fun s => (s.approvers, s.approvalsRequired, s.description, ())) (fun _ => rfl) <|
  .record "ApprovalTaskSpec" <|
  .cons "approvers" (.written []) (.list ApproverDetails.codec) <|
  .cons "numberOfApprovalsRequired" (.written 0) (.natural UInt64.size "usize") <|
  .cons "description" .text .text .nil

end TaskSpec

-- A group member's response in the status of a task.
structure MemberResponse where
  name : String
  response : String
  deriving DecidableEq, Repr

namespace MemberResponse

def codec : Codec MemberResponse :=
  .via (fun (name, response, ()) => ⟨name, response⟩) (fun m => (m.name, m.response, ()))
    (fun _ => rfl) <|
  .record "GroupMemberState" <|
  .cons "name" .required .text <|
  .cons "response" (.written "") .text .nil

end MemberResponse

-- An approver's response in the status of a task.
structure ApproverResponse where
  name : String
  typeName : String
  response : String
  members : List MemberResponse
  deriving DecidableEq, Repr

namespace ApproverResponse

def codec : Codec ApproverResponse :=
  .via (fun (name, typeName, response, members, ()) => ⟨name, typeName, response, members⟩)
    (fun a => (a.name, a.typeName, a.response, a.members, ())) (fun _ => rfl) <|
  .record "ApproverState" <|
  .cons "name" .required .text <|
  .cons "type" (.written "") .text <|
  .cons "response" (.written "") .text <|
  .cons "groupMembers" .list (.list MemberResponse.codec) .nil

end ApproverResponse

structure TaskStatus where
  approvers : List String
  responses : List ApproverResponse
  state : String
  startTime : Option String
  deriving DecidableEq, Repr

namespace TaskStatus

def empty : TaskStatus :=
  ⟨[], [], "", none⟩

def codec : Codec TaskStatus :=
  .via (fun (approvers, responses, state, startTime, ()) =>
      ⟨approvers, responses, state, startTime⟩)
    (fun s => (s.approvers, s.responses, s.state, s.startTime, ())) (fun _ => rfl) <|
  .record "ApprovalTaskStatus" <|
  .cons "approvers" .list (.list .text) <|
  .cons "approversResponse" .list (.list ApproverResponse.codec) <|
  .cons "state" (.written "") .text <|
  .cons "startTime" .option (.option .text) .nil

end TaskStatus

structure ApprovalTask where
  apiVersion : String
  kind : String
  metadata : Json
  spec : TaskSpec
  status : TaskStatus

namespace ApprovalTask

def empty : ApprovalTask :=
  ⟨"", "", .null, .empty, .empty⟩

def codec : Codec ApprovalTask :=
  .via (fun (apiVersion, kind, metadata, spec, status, ()) =>
      ⟨apiVersion, kind, metadata, spec, status⟩)
    (fun t => (t.apiVersion, t.kind, t.metadata, t.spec, t.status, ())) (fun _ => rfl) <|
  .record "ApprovalTask" <|
  .cons "apiVersion" (.written "") .text <|
  .cons "kind" (.written "") .text <|
  .cons "metadata" (.written .null) .json <|
  .cons "spec" (.written .empty) TaskSpec.codec <|
  .cons "status" (.written .empty) TaskStatus.codec .nil

-- A text in the metadata; empty when there is none.
def metadataText (t : ApprovalTask) (key : String) : String :=
  ((t.metadata.get? key).bind Json.str?).getD ""

-- The task's name, behind its namespace if it has one.
def qualifiedName (t : ApprovalTask) : String :=
  let name := t.metadataText "name"
  let space := t.metadataText "namespace"
  if space = "" then name else space ++ "/" ++ name

def toState (t : ApprovalTask) : TaskState where
  approvers := t.spec.approvers.map ApproverDetails.toApprover
  phase := .ofName t.status.state
  received := t.status.responses.length
  required := t.spec.approvalsRequired

end ApprovalTask
end Countersign
