import Countersign.Requester
import Countersign.TaskState

namespace Countersign

structure Scenario where
  title : String
  old : TaskState
  new : TaskState
  requester : Requester
  expectAllowed : Bool

namespace Scenario

def pending (approvers : List Approver) (required : Nat) : TaskState :=
  ⟨approvers, .pending, 0, required⟩

def user (name input : String) : Approver :=
  ⟨name, input, .user⟩

def group (name input : String) (members : List Member) : Approver :=
  ⟨name, input, .group members⟩

def alicePending : TaskState :=
  pending [user "alice" ""] 1

def aliceApproved : TaskState :=
  pending [user "alice" "approve"] 1

-- Updates whose outcome is known.
def reference : List Scenario := [
  { title := "approver records their own approval"
    old := alicePending
    new := aliceApproved
    requester := .ofClaims "alice" []
    expectAllowed := true },
  { title := "stranger approves on someone's behalf"
    old := alicePending
    new := aliceApproved
    requester := .ofClaims "bob" []
    expectAllowed := false },
  { title := "approver also answers for a colleague"
    old := pending [user "alice" "", user "bob" ""] 2
    new := pending [user "alice" "approve", user "bob" "reject"] 2
    requester := .ofClaims "alice" []
    expectAllowed := false },
  { title := "group member adds their own approval"
    old := pending [group "qa" "" [⟨"carol", ""⟩]] 1
    new := pending [group "qa" "" [⟨"carol", "approve"⟩]] 1
    requester := .ofClaims "carol" ["qa"]
    expectAllowed := true },
  { title := "update after the threshold was met"
    old := { alicePending with received := 1 }
    new := aliceApproved
    requester := .ofClaims "alice" []
    expectAllowed := false },
  { title := "approver answers with an unsupported value"
    old := alicePending
    new := pending [user "alice" "maybe"] 1
    requester := .ofClaims "alice" []
    expectAllowed := false }]

end Scenario
end Countersign
