import Countersign.Decision
import Countersign.Event
import Countersign.Requester
import Countersign.TaskState

namespace Countersign.TaskState

-- Why the requester may not act on the task, if they may not. An open task with an empty approver
-- list refuses no one.
def refusal? (s : TaskState) (r : Requester) : Option DenyReason :=
  if s.isClosed then some .taskClosed
  else if s.approvers.isEmpty then none
  else if s.approvers.any (·.designates r) then none
  else some .notAnApprover

def isEligible (s : TaskState) (r : Requester) : Bool :=
  (s.refusal? r).isNone

def eligibilityEvents (s : TaskState) (r : Requester) : List Event :=
  if !s.isClosed && s.approvers.isEmpty then
    [⟨.debug, .eligibility, "approver list is empty; requester is eligible by default",
      [("username", .shown r.username)]⟩]
  else []

end Countersign.TaskState
