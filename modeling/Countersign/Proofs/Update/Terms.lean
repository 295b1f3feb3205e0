import Countersign.Proofs.Update.Provenance

namespace Countersign

def TaskState.withTerms (s : TaskState) (phase : Phase) (required : Nat) : TaskState :=
  { s with phase, required }

-- The document with another state and number of approvals.
def ApprovalTask.withTerms (t : ApprovalTask) (state : String) (required : Nat) : ApprovalTask :=
  { t with
    spec := { t.spec with approvalsRequired := required }
    status := { t.status with state } }

def Submission.withTerms (u : Submission) (state : String) (required : Nat) : Submission :=
  { u with task := u.task.withTerms state required }

variable {s old new : TaskState} {r : Requester} {u : Submission} {state : String} {phase : Phase}
  {required : Nat}

@[simp]
theorem ApprovalTask.toState_withTerms {t : ApprovalTask} :
    (t.withTerms state required).toState = t.toState.withTerms (.ofName state) required :=
  rfl

theorem decideUpdate_terms_agnostic :
    decideUpdate old (new.withTerms phase required) r = decideUpdate old new r :=
  rfl

namespace TaskState

theorem isClosed_withTerms_of_isFinal (h : phase.isFinal) :
    (s.withTerms phase required).isClosed := by
  simp [isClosed, withTerms, h]

theorem submit_withTerms (h : decideUpdate s u.task.toState u.requester = .allow) :
    s.submit (u.withTerms state required) =
      u.task.toState.withTerms (.ofName state) required := by
  simp [submit, Submission.withTerms, decideUpdate_terms_agnostic, h]

end TaskState

-- Whatever update is admitted in the course of a run, it is admitted with any terms, and they are
-- stored with it. A final phase among them keeps out everything that comes after.
theorem allow_sets_terms {us : List Submission}
    (h : decideUpdate (s.run us) u.task.toState u.requester = .allow) (state : String)
    (required : Nat) :
    s.run (us ++ [u.withTerms state required]) =
        u.task.toState.withTerms (.ofName state) required ∧
      ((Phase.ofName state).isFinal → ∀ vs, s.run (us ++ u.withTerms state required :: vs) =
        u.task.toState.withTerms (.ofName state) required) := by
  have hs : s.run (us ++ [u.withTerms state required]) =
      u.task.toState.withTerms (.ofName state) required := by
    rw [TaskState.run_concat, TaskState.submit_withTerms h]
  refine ⟨hs, fun hf vs => ?_⟩
  rw [List.append_cons, TaskState.run_append, hs,
    TaskState.run_eq_of_isClosed (TaskState.isClosed_withTerms_of_isFinal hf)]

def Submission.ofCarol : Submission :=
  ⟨⟨"carol", []⟩, .carolApproves⟩

-- The case of a group member who lowers the threshold and closes the task with their vote.
theorem carol_closes_task :
    decideUpdate (ApprovalTask.unvoted.toState.run []) ApprovalTask.carolApproves.toState
        ⟨"carol", []⟩ = .allow ∧
      ApprovalTask.unvoted.toState.run [Submission.ofCarol.withTerms "approved" 1] =
        ApprovalTask.carolApproves.toState.withTerms .approved 1 ∧
      (Phase.approved.isFinal → ∀ vs,
        ApprovalTask.unvoted.toState.run (Submission.ofCarol.withTerms "approved" 1 :: vs) =
          ApprovalTask.carolApproves.toState.withTerms .approved 1) := by
  have h : decideUpdate (ApprovalTask.unvoted.toState.run []) Submission.ofCarol.task.toState
      Submission.ofCarol.requester = .allow := by
    decide
  exact ⟨h, allow_sets_terms h "approved" 1⟩

-- A vote may lower the threshold and set the final phase.
theorem allow_lowers_threshold :
    ¬∀ (old new : TaskState) (r : Requester), decideUpdate old new r = .allow →
      new.required = old.required ∧ new.phase = old.phase := by
  intro h
  have ht := h ApprovalTask.unvoted.toState
    (ApprovalTask.carolApproves.toState.withTerms .approved 1) ⟨"carol", []⟩ (by decide)
  exact absurd ht (by decide)

end Countersign
