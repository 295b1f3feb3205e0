import Countersign.Event
import Countersign.GateError
import Countersign.Json.Reader
import Countersign.Task.Document
import Countersign.Task.Schema

namespace Countersign

-- Which side of an update a body is on.
inductive ObjectRole
  | old
  | new
  deriving DecidableEq, Repr

def ObjectRole.name : ObjectRole → String
  | old => "old"
  | new => "new"

structure TaskDecoder where
  strict : Bool
  deriving DecidableEq, Repr

namespace TaskDecoder

def describe (d : TaskDecoder) : String :=
  "TaskDecoder \x7b strict: " ++ toString d.strict ++ " \x7d"

def decodeError (role : ObjectRole) (cause : String) : GateError :=
  .decode ("cannot decode incoming " ++ role.name ++ " object: " ++ cause)

def absentEvent (role : ObjectRole) : Event :=
  ⟨.debug, .decoder, "object body absent; using an empty task", [("role", .shown role.name)]⟩

-- All violations of the schema in one line.
def summary (violations : List Schema.Violation) : String :=
  "; ".intercalate (violations.map Schema.Violation.describe)

def violationsEvent (role : ObjectRole) (violations : List Schema.Violation) : Event :=
  ⟨.warn, .decoder, "object body violates ApprovalTask schema",
    [("role", .shown role.name), ("violations", .shown (summary violations))]⟩

-- The task that a value is.
def ofJson (role : ObjectRole) (j : Json) : Except GateError ApprovalTask :=
  (ApprovalTask.codec.ofJson j).mapError fun m => decodeError role m.message

variable (d : TaskDecoder)

-- What a value violates; in lenient mode, nothing.
def violations (j : Json) : List Schema.Violation :=
  if d.strict then Schema.approvalTask.violations [] j else []

def decodeJson (role : ObjectRole) (j : Json) : Traced (Except GateError ApprovalTask) :=
  if (d.violations j).isEmpty then pure (ofJson role j)
  else do
    .report (violationsEvent role (d.violations j))
    return .error (decodeError role (summary (d.violations j)))

-- A missing body stands for an empty task. In strict mode the body has to satisfy the schema before
-- it is read as a task.
def decode (role : ObjectRole) (body : Option Symbols) : Traced (Except GateError ApprovalTask) :=
  match body with
  | none | some [] => do
    .report (absentEvent role)
    return .ok .empty
  | some text =>
    match Json.read text with
    | .error fault => pure (.error (decodeError role (fault.messageIn text)))
    | .ok j => d.decodeJson role j

end TaskDecoder
end Countersign
