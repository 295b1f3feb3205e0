import Countersign.Proofs.Update.Refusal

namespace Countersign

namespace TaskState

-- The task when `n` responses have been counted.
def withReceived (s : TaskState) (n : Nat) : TaskState :=
  { s with received := n }

variable {s t new : TaskState} {r : Requester} {n : Nat}

theorem isClosed_withReceived_of_isFinal (h : s.phase.isFinal) : (s.withReceived n).isClosed := by
  simp [isClosed, withReceived, h]

theorem isClosed_withReceived_eq_false (hp : ¬s.phase.isFinal) (hn : n ≠ s.required) :
    (s.withReceived n).isClosed = false := by
  simp [isClosed, withReceived, hp, hn]

-- Of the stored task, the decision reads the approvers and whether the task is closed.
theorem decideUpdate_counts_agnostic (hc : s.isClosed = t.isClosed)
    (ha : s.approvers = t.approvers) : decideUpdate s new r = decideUpdate t new r := by
  simp [decideUpdate, refusal?, hc, ha]

end TaskState

variable {s : TaskState} {n : Nat}

-- When more responses are counted, a closed task stays closed if and only if its phase is final. If
-- it is not, updates are decided as with any number of responses but the one needed.
theorem taskClosed_withReceived_iff (h : s.isClosed) (hn : s.received < n) (new : TaskState)
    (r : Requester) :
    (decideUpdate (s.withReceived n) new r = .deny .taskClosed ↔ s.phase.isFinal) ∧
      (¬s.phase.isFinal → ∀ k ≠ s.required,
        decideUpdate (s.withReceived n) new r = decideUpdate (s.withReceived k) new r) := by
  have ho (hp : ¬s.phase.isFinal) : (s.withReceived n).isClosed = false := by
    have hr : s.received = s.required := by simpa [TaskState.isClosed, hp] using h
    exact TaskState.isClosed_withReceived_eq_false hp (by omega)
  refine ⟨⟨fun hd => ?mp, fun hp => ?mpr⟩, fun hp k hk => ?again⟩
  case mp =>
    have hc := grounds_of_decideUpdate hd |>.isClosed
    by_contra hp
    simp [ho hp] at hc
  case mpr => exact decideUpdate_of_isClosed <| TaskState.isClosed_withReceived_of_isFinal hp
  case again =>
    refine TaskState.decideUpdate_counts_agnostic ?_ rfl
    rw [ho hp, TaskState.isClosed_withReceived_eq_false hp hk]

-- A pending task that needs one approval, Alice's, when some responses have been counted.
def TaskState.ofAlice (input : String) (received : Nat) : TaskState :=
  ⟨[⟨"alice", input, .user⟩], .pending, received, 1⟩

-- The case of a task that has its one approval and gets a second response: Alice can vote again.
theorem alice_reopens_task :
    (TaskState.ofAlice "" 1).isClosed ∧ (TaskState.ofAlice "" 1).received < 2 ∧
      (decideUpdate (.ofAlice "" 2) (.ofAlice "approve" 2) ⟨"alice", []⟩ = .deny .taskClosed ↔
        Phase.pending.isFinal) ∧
      (¬Phase.pending.isFinal → ∀ k ≠ 1,
        decideUpdate (.ofAlice "" 2) (.ofAlice "approve" 2) ⟨"alice", []⟩ =
          decideUpdate (.ofAlice "" k) (.ofAlice "approve" 2) ⟨"alice", []⟩) :=
  ⟨by decide, by decide,
    taskClosed_withReceived_iff (s := .ofAlice "" 1) (by decide) (by decide) _ _⟩

-- A task whose threshold has been met takes a vote once a response more is counted.
theorem allow_past_threshold :
    ¬∀ (s new : TaskState) (r : Requester) (n : Nat), s.isClosed → s.received < n →
      decideUpdate (s.withReceived n) new r = .deny .taskClosed := by
  intro h
  have hd := h (.ofAlice "" 1) (.ofAlice "approve" 2) ⟨"alice", []⟩ 2 (by decide) (by decide)
  exact absurd hd (by decide)

end Countersign
