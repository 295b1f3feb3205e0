import Countersign.Decision
import Countersign.Event
import Countersign.Requester

namespace Countersign

inductive Violation
  | renamed
  | inputChanged
  | memberChanged
  | memberAddedForOther
  | memberAddedToForeignGroup
  | memberAddedElsewhere
  deriving DecidableEq, Repr

def Violation.message : Violation → String
  | renamed => "approver entry renamed or retyped"
  | inputChanged => "approver input changed"
  | memberChanged => "group member input changed"
  | memberAddedForOther => "group member added for someone else"
  | memberAddedToForeignGroup => "requester added to a group they do not belong to"
  | memberAddedElsewhere => "group member added outside the located change"

namespace Target

def isMemberInput : Target → Bool
  | memberInput _ => true
  | _ => false

def isMemberAdded : Target → Bool
  | memberAdded _ => true
  | _ => false

end Target

namespace Approver

-- The target of a change of the entry's own input.
def inputTarget? (a : Approver) : Option Target :=
  match a.kind with
  | .user => some .userInput
  | .group _ => some .groupInput
  | .other _ => none

end Approver

namespace Requester

variable (r : Requester) (before after : Approver) (site? : Option Target)

-- What is wrong with a member that the stored group lists.
def storedMemberViolation? (m : Member) : Option Violation :=
  match after.memberInput? m.name with
  | none => none
  | some current =>
    if current = (before.memberInput? m.name).getD "" then none
    else if m.name = r.username ∧ site?.any Target.isMemberInput then none
    else some .memberChanged

-- What is wrong with a member that the updated group lists.
def updatedMemberViolation? (m : Member) : Option Violation :=
  if (before.memberPosition? m.name).isSome then none
  else if m.name ≠ r.username then some .memberAddedForOther
  else if !r.isMemberOf before then some .memberAddedToForeignGroup
  else if !site?.any Target.isMemberAdded then some .memberAddedElsewhere
  else none

-- The first thing wrong with an entry, `site?` being the target of the change located in it.
def violation? : Option Violation :=
  if before.name ≠ after.name ∨ before.typeName ≠ after.typeName then some .renamed
  else if before.input ≠ after.input ∧ (before.inputTarget?.isNone ∨ site? ≠ before.inputTarget?) then
    some .inputChanged
  else if before.isGroup then
    (before.members.findSome? (r.storedMemberViolation? before after site?)).or
      (after.members.findSome? (r.updatedMemberViolation? before site?))
  else none

end Requester

inductive Breach
  | lengths (old new : Nat)
  | entry (index : Nat) (name : String) (violation : Violation)
  deriving DecidableEq, Repr

namespace Requester

variable (r : Requester) (site : ChangeSite)

-- The first entry with something wrong, from the one at `index` on.
def breachFrom? (index : Nat) : (old new : List Approver) → Option Breach
  | before :: old, after :: new =>
    match r.violation? before after (if site.index = index then some site.target else none) with
    | some violation => some (.entry index before.name violation)
    | none => breachFrom? (index + 1) old new
  | _, _ => none

def breach? (old new : List Approver) : Option Breach :=
  if old.length ≠ new.length then some (.lengths old.length new.length)
  else r.breachFrom? site 0 old new

-- Whether the update makes the change at the site and no other. Members that the updated group no
-- longer lists are not looked at.
def isolated (old new : List Approver) : Bool :=
  (r.breach? site old new).isNone

def breachEvent : Breach → Event
  | .lengths old new =>
    ⟨.debug, .isolation, "approver list length changed",
      [("old_len", .count old), ("new_len", .count new)]⟩
  | .entry index name violation =>
    ⟨.debug, .isolation, "update changes more than the requester's own input",
      [("index", .count index), ("approver", .shown name), ("username", .shown r.username),
        ("violation", .quoted violation.message)]⟩

def isolationEvents (old new : List Approver) : List Event :=
  (r.breach? site old new).toList.map r.breachEvent

end Requester
end Countersign
