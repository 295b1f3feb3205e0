namespace Countersign

-- A person listed in a group, with the input the group records for them.
structure Member where
  name : String
  input : String
  deriving DecidableEq, Repr

inductive ApproverType
  | user
  | group
  deriving DecidableEq, Repr

namespace ApproverType

def name : ApproverType → String
  | user => "User"
  | group => "Group"

def ofName? (name : String) : Option ApproverType :=
  if name = user.name then some user
  else if name = group.name then some group
  else none

-- The name that an entry without one goes by.
def nameOr (name : String) : String :=
  if name = "" then user.name else name

end ApproverType

inductive Approver.Kind
  | user
  | group (members : List Member)
  | other (typeName : String)
  deriving DecidableEq, Repr

-- An entry of a task's approver list.
structure Approver where
  name : String
  input : String
  kind : Approver.Kind
  deriving DecidableEq, Repr

namespace Approver

variable (a : Approver)

def isUser : Bool :=
  match a.kind with
  | .user => true
  | _ => false

def isGroup : Bool :=
  match a.kind with
  | .group _ => true
  | _ => false

def typeName : String :=
  match a.kind with
  | .user => ApproverType.user.name
  | .group _ => ApproverType.group.name
  | .other typeName => typeName

-- The members of a group; no other entry has any.
def members : List Member :=
  match a.kind with
  | .group members => members
  | _ => []

-- Where a name is first listed among the members.
def memberPosition? (name : String) : Option Nat :=
  a.members.findIdx? (·.name = name)

-- The input first listed for a name among the members.
def memberInput? (name : String) : Option String :=
  (a.members.find? (·.name = name)).map Member.input

end Approver
end Countersign
