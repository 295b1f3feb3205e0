import Countersign.Decision
import Countersign.Event
import Countersign.Requester

namespace Countersign

-- A changed input, not yet read as a vote.
structure Proposal where
  target : Target
  input : String
  deriving DecidableEq, Repr

namespace Requester

variable (r : Requester)

-- What the update makes of the requester's user entry.
def userProposal? (before : Approver) (after? : Option Approver) : Option Proposal :=
  match after? with
  | some after =>
    if after.name = before.name ∧ after.input ≠ before.input then some ⟨.userInput, after.input⟩
    else none
  | none => none

-- What the update makes of the requester's share in a group.
def groupProposal? (before after : Approver) : Option Proposal :=
  if before.input ≠ after.input then some ⟨.groupInput, after.input⟩
  else
    match before.memberInput? r.username, after.memberPosition? r.username,
      after.memberInput? r.username with
    | none, some position, some current => some ⟨.memberAdded position, current⟩
    | some previous, some position, some current =>
      if current ≠ previous then some ⟨.memberInput position, current⟩ else none
    | _, _, _ => none

-- What the scan makes of one entry: nothing, or a proposal or none to settle on. The requester's
-- user entry settles the scan even when nothing has changed there, a group of theirs only when
-- their share has changed.
def settles? (before : Approver) (after? : Option Approver) : Option (Option Proposal) :=
  match before.kind with
  | .user => if before.name = r.username then some (userProposal? before after?) else none
  | .group _ =>
    if r.isMemberOf before then (after?.bind (r.groupProposal? before)).map some else none
  | .other _ => none

-- Where the scan settles, and on what.
structure Settlement where
  index : Nat
  entry : Approver
  proposal? : Option Proposal
  deriving DecidableEq, Repr

-- Scans the entries from the one at `index` on.
def settleFrom (index : Nat) : (old new : List Approver) → Option Settlement
  | [], _ => none
  | before :: old, new =>
    match r.settles? before new.head? with
    | some proposal? => some ⟨index, before, proposal?⟩
    | none => settleFrom (index + 1) old new.tail

def settle (old new : List Approver) : Option Settlement :=
  r.settleFrom 0 old new

-- The requester's change, if there is one.
def locate (old new : List Approver) : Except UnsupportedInput (Option ChangeSite) :=
  match r.settle old new with
  | some ⟨index, _, some ⟨target, input⟩⟩ =>
    (Vote.read input).map fun value => some ⟨index, target, value⟩
  | _ => .ok none

def locateEvents (old new : List Approver) : List Event :=
  match r.settle old new with
  | some ⟨index, entry, _⟩ =>
    if entry.isUser then
      [⟨.debug, .locator, "requester's user entry found",
        [("index", .count index), ("username", .shown r.username)]⟩]
    else []
  | none => []

end Requester
end Countersign
