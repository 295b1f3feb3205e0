namespace Countersign

inductive Vote
  | approve
  | reject
  deriving DecidableEq, Repr

-- A text that is no vote.
structure UnsupportedInput where
  value : String
  deriving DecidableEq, Repr

namespace Vote

def text : Vote → String
  | approve => "approve"
  | reject => "reject"

-- Reads a vote; letter case and blanks count.
def read (input : String) : Except UnsupportedInput Vote :=
  if input = approve.text then .ok approve
  else if input = reject.text then .ok reject
  else .error ⟨input⟩

end Vote

def UnsupportedInput.message (u : UnsupportedInput) : String :=
  "invalid input value: '" ++ u.value ++ "'. Supported values are 'approve' or 'reject'"

end Countersign
