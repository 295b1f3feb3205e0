import Countersign.Approver

namespace Countersign

-- A user and the groups they claim, each group once and in ascending order.
structure Requester where
  username : String
  groups : List String
  deriving DecidableEq, Repr

namespace Requester

-- Adds a name to a sorted list without repetition.
def addGroup (name : String) : List String → List String
  | [] => [name]
  | g :: rest =>
    if g < name then g :: addGroup name rest
    else if g = name then g :: rest
    else name :: g :: rest

def sortedGroups (groups : List String) : List String :=
  groups.foldr addGroup []

def ofClaims (username : String) (groups : List String) : Requester :=
  ⟨username, sortedGroups groups⟩

def inGroup (r : Requester) (name : String) : Bool :=
  r.groups.contains name

-- Whether an entry is a group of the requester: they claim its name, or it lists theirs.
def isMemberOf (r : Requester) (a : Approver) : Bool :=
  match a.kind with
  | .group members => r.inGroup a.name || members.any (·.name = r.username)
  | _ => false

end Requester

-- Whether the entry stands for the requester, by name or through a group.
def Approver.designates (a : Approver) (r : Requester) : Bool :=
  match a.kind with
  | .user => a.name = r.username
  | .group _ => r.isMemberOf a
  | .other _ => false

end Countersign
