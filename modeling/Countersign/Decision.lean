import Countersign.Vote

namespace Countersign

inductive Target
  | userInput
  | groupInput
  -- A member that the group did not list before.
  | memberAdded (position : Nat)
  | memberInput (position : Nat)
  deriving DecidableEq, Repr

namespace Target

def describe : Target → String
  | userInput => "UserInput"
  | groupInput => "GroupInput"
  | memberAdded position => "MemberAdded \x7b position: " ++ toString position ++ " \x7d"
  | memberInput position => "MemberInput \x7b position: " ++ toString position ++ " \x7d"

end Target

-- The change of one input of the entry at `index`.
structure ChangeSite where
  index : Nat
  target : Target
  value : Vote
  deriving DecidableEq, Repr

inductive DenyReason
  | malformed (reason : String)
  | taskClosed
  | notAnApprover
  | invalidInput (input : UnsupportedInput)
  | outOfScope
  deriving DecidableEq, Repr

namespace DenyReason

def message : DenyReason → String
  | malformed reason => reason
  | taskClosed => "ApprovalTask has already reached its final state"
  | notAnApprover => "User does not exist in the approval list"
  | invalidInput input => "Invalid input change: " ++ input.message
  | outOfScope => "User can only update their own approval input"

-- Whether another value at the same place could be admitted.
def isRetryable : DenyReason → Bool
  | invalidInput _ => true
  | _ => false

end DenyReason

inductive Decision
  | allow
  | deny (reason : DenyReason)
  deriving DecidableEq, Repr

namespace Decision

def reason? : Decision → Option DenyReason
  | allow => none
  | deny reason => some reason

def isAllowed : Decision → Bool
  | allow => true
  | deny _ => false

def message? (d : Decision) : Option String :=
  d.reason?.map DenyReason.message

end Decision
end Countersign
