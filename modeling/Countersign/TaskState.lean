import Countersign.Approver

namespace Countersign

inductive Phase
  | pending
  | approved
  | rejected
  deriving DecidableEq, Repr

namespace Phase

def name : Phase → String
  | pending => "pending"
  | approved => "approved"
  | rejected => "rejected"

-- Every text that names no final phase counts as pending.
def ofName (name : String) : Phase :=
  if name = approved.name then approved
  else if name = rejected.name then rejected
  else pending

def isFinal : Phase → Bool
  | pending => false
  | approved | rejected => true

end Phase

-- What the gate looks at in an approval task.
structure TaskState where
  approvers : List Approver
  phase : Phase
  -- How many approvals have been counted.
  received : Nat
  -- How many approvals are needed.
  required : Nat
  deriving DecidableEq, Repr

-- A task takes no more input in a final phase or once exactly the needed approvals are in.
def TaskState.isClosed (s : TaskState) : Bool :=
  s.phase.isFinal || s.received == s.required

end Countersign
