import Countersign.Codec.Writer
import Countersign.Requester
import Countersign.Uuid

namespace Countersign

def Uuid.codec [Wording] : Codec Uuid :=
  .formatted "a formatted UUID string" Uuid.read Uuid.text

structure GroupVersionKind where
  group : String
  version : String
  kind : String
  deriving DecidableEq, Repr

namespace GroupVersionKind

def codec : Codec GroupVersionKind :=
  .via (fun (group, version, kind, ()) => ⟨group, version, kind⟩)
    (fun g => (g.group, g.version, g.kind, ())) (fun _ => rfl) <|
  .record "GroupVersionKind" <|
  .cons "group" (.written "") .text <|
  .cons "version" (.written "") .text <|
  .cons "kind" (.written "") .text .nil

def text (g : GroupVersionKind) : String :=
  g.group ++ "/" ++ g.version ++ ", Kind=" ++ g.kind

end GroupVersionKind

inductive Operation
  | create
  | update
  | delete
  | connect
  deriving DecidableEq, Repr

namespace Operation

def codec : Codec Operation :=
  .via
    (fun
      | .inl () => create
      | .inr (.inl ()) => update
      | .inr (.inr (.inl ())) => delete
      | .inr (.inr (.inr (.inl ()))) => connect)
    (fun
      | create => .inl ()
      | update => .inr (.inl ())
      | delete => .inr (.inr (.inl ()))
      | connect => .inr (.inr (.inr (.inl ()))))
    (fun o => by cases o <;> rfl) <|
  .choice <|
  .cons "CREATE" .unit <| .cons "UPDATE" .unit <| .cons "DELETE" .unit <|
  .cons "CONNECT" .unit .nil

def describe : Operation → String
  | create => "Create"
  | update => "Update"
  | delete => "Delete"
  | connect => "Connect"

end Operation

structure UserInfo where
  username : String
  groups : List String
  deriving DecidableEq, Repr

namespace UserInfo

def empty : UserInfo :=
  ⟨"", []⟩

def codec : Codec UserInfo :=
  .via (fun (username, groups, ()) => ⟨username, groups⟩) (fun u => (u.username, u.groups, ()))
    (fun _ => rfl) <|
  .record "UserInfo" <|
  .cons "username" (.written "") .text <|
  .cons "groups" (.written []) (.list .text) .nil

def toRequester (u : UserInfo) : Requester :=
  .ofClaims u.username u.groups

end UserInfo

-- The bodies of the objects are kept as the texts they came as, so that a body that cannot be read
-- spoils only its own request.
structure AdmissionRequest where
  uid : Uuid
  kind : GroupVersionKind
  name : Option String
  space : Option String
  operation : Operation
  userInfo : UserInfo
  -- The text of the updated object.
  object : Option String
  -- The text of the stored object.
  oldObject : Option String
  deriving DecidableEq, Repr

namespace AdmissionRequest

def codec [Wording] : Codec AdmissionRequest :=
  .via (fun (uid, kind, name, space, operation, userInfo, object, oldObject, ()) =>
      ⟨uid, kind, name, space, operation, userInfo, object, oldObject⟩)
    (fun q => (q.uid, q.kind, q.name, q.space, q.operation, q.userInfo, q.object, q.oldObject, ()))
    (fun _ => rfl) <|
  .record "AdmissionRequest" <|
  .cons "uid" .required Uuid.codec <|
  .cons "kind" .required GroupVersionKind.codec <|
  .cons "name" .option (.option .text) <|
  .cons "namespace" .option (.option .text) <|
  .cons "operation" .required Operation.codec <|
  .cons "userInfo" (.written .empty) UserInfo.codec <|
  .cons "object" .option (.option .raw) <|
  .cons "oldObject" .option (.option .raw) .nil

end AdmissionRequest

structure DenialStatus where
  message : String
  code : Option Nat
  deriving DecidableEq, Repr

namespace DenialStatus

def codec : Codec DenialStatus :=
  .via (fun (message, code, ()) => ⟨message, code⟩) (fun s => (s.message, s.code, ()))
    (fun _ => rfl) <|
  .record "Status" <|
  .cons "message" .required .text <|
  .cons "code" .option (.option (.natural UInt16.size "u16")) .nil

end DenialStatus

structure AdmissionResponse where
  uid : Uuid
  allowed : Bool
  result : Option DenialStatus
  deriving DecidableEq, Repr

namespace AdmissionResponse

def codec [Wording] : Codec AdmissionResponse :=
  .via (fun (uid, allowed, result, ()) => ⟨uid, allowed, result⟩)
    (fun r => (r.uid, r.allowed, r.result, ())) (fun _ => rfl) <|
  .record "AdmissionResponse" <|
  .cons "uid" .required Uuid.codec <|
  .cons "allowed" .required .flag <|
  .cons "result" .option (.option DenialStatus.codec) .nil

def message? (r : AdmissionResponse) : Option String :=
  r.result.map DenialStatus.message

end AdmissionResponse

structure AdmissionReview where
  apiVersion : String
  kind : String
  request : Option AdmissionRequest
  response : Option AdmissionResponse
  deriving DecidableEq, Repr

namespace AdmissionReview

def codec [Wording] : Codec AdmissionReview :=
  .via (fun (apiVersion, kind, request, response, ()) => ⟨apiVersion, kind, request, response⟩)
    (fun r => (r.apiVersion, r.kind, r.request, r.response, ())) (fun _ => rfl) <|
  .record "AdmissionReview" <|
  .cons "apiVersion" (.written "") .text <|
  .cons "kind" (.written "") .text <|
  .cons "request" .option (.option AdmissionRequest.codec) <|
  .cons "response" .option (.option AdmissionResponse.codec) .nil

def ofResponse (r : AdmissionResponse) : AdmissionReview :=
  ⟨"admission.k8s.io/v1", "AdmissionReview", none, some r⟩

end AdmissionReview
end Countersign
