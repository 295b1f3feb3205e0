import Mathlib.Data.List.Induction
import Countersign.Proofs.Update.Admission
import Countersign.Proofs.Update.Kind

namespace Countersign

structure Submission where
  requester : Requester
  task      : ApprovalTask

namespace TaskState

-- What is stored after a submission: the task as it was submitted if that is admitted.
def submit (s : TaskState) (u : Submission) : TaskState :=
  if decideUpdate s u.task.toState u.requester = .allow then u.task.toState else s

def run (s : TaskState) (us : List Submission) : TaskState :=
  us.foldl submit s

variable {s : TaskState} {us vs : List Submission} {u : Submission}

@[simp]
theorem run_nil : s.run [] = s :=
  rfl

@[simp]
theorem run_append : s.run (us ++ vs) = (s.run us).run vs :=
  List.foldl_append

theorem run_concat : s.run (us ++ [u]) = (s.run us).submit u := by
  simp [run]

end TaskState

-- A step that is admitted in the course of a run from `s`.
structure AdmittedStep (s : TaskState) (us : List Submission) where
  earlier  : List Submission
  u        : Submission
  later    : List Submission
  eq       : us = earlier ++ u :: later
  admitted : decideUpdate (s.run earlier) u.task.toState u.requester = .allow

namespace AdmittedStep

variable {s : TaskState} {us : List Submission}

-- What is stored before the step.
def before (e : AdmittedStep s us) : TaskState :=
  s.run e.earlier

-- What is stored from the step on.
def after (e : AdmittedStep s us) : TaskState :=
  e.u.task.toState

def requester (e : AdmittedStep s us) : Requester :=
  e.u.requester

-- Whether the step casts the vote that reads as the given text, at the slot and nowhere else.
structure Writes (e : AdmittedStep s us) (x : Slot) (input : String) : Prop where
  cast  : x.Cast e.before.approvers e.after.approvers e.requester
  value : x.value? e.after.approvers = some input

-- The step as one of a longer run.
def extend (e : AdmittedStep s us) (u : Submission) : AdmittedStep s (us ++ [u]) where
  earlier  := e.earlier
  u        := e.u
  later    := e.later ++ [u]
  eq       := by simp [e.eq]
  admitted := e.admitted

-- The last step of a run.
def last (u : Submission) (h : decideUpdate (s.run us) u.task.toState u.requester = .allow) :
    AdmittedStep s (us ++ [u]) where
  earlier  := us
  u        := u
  later    := []
  eq       := rfl
  admitted := h

end AdmittedStep

namespace TaskState

variable {s : TaskState} {us : List Submission}

-- A run that starts from a task document stays with task documents.
theorem proper_run (h : s.Proper) : (s.run us).Proper := by
  induction us using List.reverseRecOn
  case nil => exact h
  case append_singleton us u hi =>
    rw [run_concat]
    unfold submit
    split
    · exact u.task.proper_toState
    · exact hi

end TaskState

namespace TaskState

variable {s n : TaskState} {r : Requester} {us : List Submission} {x : Slot} {input : String}

theorem sameEntries_run : SameEntries s.approvers (s.run us).approvers := by
  induction us using List.reverseRecOn
  case nil => exact .refl _
  case append_singleton us u hi =>
    rw [run_concat]
    unfold submit
    split
    case isTrue h  => exact hi.trans (admissible_of_allow h).entries
    case isFalse   => exact hi

-- What stands at a slot after an admitted update stood there before, or is the vote that is cast.
theorem value?_source_of_allow (hs : s.Proper) (hn : n.Proper) (h : decideUpdate s n r = .allow)
    (hv : x.value? n.approvers = some input) :
    x.value? s.approvers = some input ∨ x.Cast s.approvers n.approvers r := by
  by_cases hd : x.Disturbed s.approvers n.approvers
  case pos => exact .inr (cast_of_allow h hd)
  case neg =>
    rw [Slot.disturbed_iff (admissible_of_allow h).entries hs hn, hv] at hd
    simp only [ne_eq, reduceCtorEq, not_false_eq_true, true_and, not_not] at hd
    exact .inl hd.symm

theorem value?_source (hs : s.Proper) (hv : x.value? (s.run us).approvers = some input) :
    x.value? s.approvers = some input ∨ ∃ e : AdmittedStep s us, e.Writes x input := by
  induction us using List.reverseRecOn generalizing input
  case nil => exact .inl hv
  case append_singleton us u hi =>
    have hk (hv : x.value? (s.run us).approvers = some input) :
        x.value? s.approvers = some input ∨ ∃ e : AdmittedStep s (us ++ [u]), e.Writes x input :=
      hi hv |>.imp_right fun ⟨e, he⟩ => ⟨e.extend u, he.cast, he.value⟩
    rw [run_concat] at hv
    unfold submit at hv
    split at hv
    case isFalse => exact hk hv
    case isTrue h =>
      cases value?_source_of_allow (proper_run hs) u.task.proper_toState h hv
      case inl hv => exact hk hv
      case inr hc => exact .inr ⟨.last u h, hc, hv⟩

-- A name that a group lists at the end of a run was listed at its start, or its first input after
-- it was last missing is a vote of that name's own.
theorem listed_source (hs : s.Proper) (hl : (x.value? (s.run us).approvers).isSome) :
    (x.value? s.approvers).isSome ∨
      ∃ (e : AdmittedStep s us) (input : String),
        e.Writes x input ∧ x.value? e.before.approvers = none := by
  induction us using List.reverseRecOn
  case nil => exact .inl hl
  case append_singleton us u hi =>
    by_cases hb : (x.value? (s.run us).approvers).isSome
    case pos =>
      refine hi hb |>.imp_right fun ⟨e, v, he, hn⟩ => ?_
      exact ⟨e.extend u, v, ⟨he.cast, he.value⟩, hn⟩
    case neg =>
      have hb := Option.not_isSome_iff_eq_none.mp hb
      rw [run_concat] at hl
      unfold submit at hl
      split at hl
      case isFalse => simp [hb] at hl
      case isTrue h =>
        have ⟨input, hv⟩ := Option.isSome_iff_exists.mp hl
        cases value?_source_of_allow (proper_run hs) u.task.proper_toState h hv
        case inl hv => simp [hb] at hv
        case inr hc => exact .inr ⟨.last u h, input, ⟨hc, hv⟩, hb⟩

theorem not_allow_of_isClosed (h : s.isClosed) : decideUpdate s n r ≠ .allow := by
  intro ha
  have := admissible_of_allow ha
  simp [isClosed_eq_false_iff.mpr ⟨this.pending, this.unmet⟩] at h

theorem run_eq_of_isClosed (h : s.isClosed) : s.run us = s := by
  induction us
  case nil => rfl
  case cons u us hi => simpa [run, submit, not_allow_of_isClosed h] using hi

end TaskState

namespace AdmittedStep

variable {s : TaskState} {us : List Submission} {e : AdmittedStep s us} {x : Slot} {input : String}

-- Whoever writes to a slot owns it in the state before, where the entry has its first name and
-- kind.
theorem Writes.owns {i : Nat} {share : Share} {a : Approver} (hs : s.Proper)
    (ha : s.approvers[i]? = some a) (h : e.Writes ⟨i, share⟩ input) :
    ∃ g, e.before.approvers[i]? = some g ∧ e.requester.Owns g share ∧ g.name = a.name ∧
      a.SameKind g := by
  have ⟨g, hg, ho⟩ := h.cast.owned
  have he : SameEntries s.approvers e.before.approvers := TaskState.sameEntries_run
  exact ⟨g, hg, ho, (he.entry ha hg).left.symm, he.sameKind hs (TaskState.proper_run hs) ha hg⟩

theorem Writes.isVote (h : e.Writes x input) : input = "approve" ∨ input = "reject" := by
  have hv := h.value ▸ h.cast.value
  simpa only [Option.some.injEq] using hv

end AdmittedStep

-- Where the votes of an entry come from, `a` being the entry at index `i` when the run starts and
-- `b` the one when it ends. A vote that is written comes from an admitted step.
structure Approver.Provenance (s : TaskState) (us : List Submission) (i : Nat) (a b : Approver) :
    Prop where
  name   : b.name = a.name
  kind   : b.SameKind a
  other  : ¬b.isUser → ¬b.isGroup → b.input = a.input
  user   : b.isUser → b.input = a.input ∨
    (b.input = "approve" ∨ b.input = "reject") ∧
      ∃ e : AdmittedStep s us, e.Writes ⟨i, .own⟩ b.input ∧ e.requester.username = b.name
  group  : b.isGroup → b.input = a.input ∨
    (b.input = "approve" ∨ b.input = "reject") ∧
      ∃ e : AdmittedStep s us, e.Writes ⟨i, .own⟩ b.input ∧
        ∃ g, e.before.approvers[i]? = some g ∧ e.requester.isMemberOf g
  member : ∀ name input, b.memberInput? name = some input →
    a.memberInput? name = some input ∨
      (input = "approve" ∨ input = "reject") ∧
        ∃ e : AdmittedStep s us, e.Writes ⟨i, .member name⟩ input ∧ e.requester.username = name
  joined : ∀ name, (b.memberInput? name).isSome → (a.memberInput? name).isSome ∨
    ∃ (e : AdmittedStep s us) (input : String), e.Writes ⟨i, .member name⟩ input ∧
      e.requester.username = name ∧ e.requester.inGroup b.name

structure TaskState.Provenance (s : TaskState) (us : List Submission) : Prop where
  length  : (s.run us).approvers.length = s.approvers.length
  entries : ∀ i a b, s.approvers[i]? = some a → (s.run us).approvers[i]? = some b →
    Approver.Provenance s us i a b
  closed  : ∀ earlier later, us = earlier ++ later → (s.run earlier).isClosed →
    s.run us = s.run earlier

namespace Approver

variable {s : TaskState} {us : List Submission} {i : Nat} {a b : Approver}

theorem run_name_eq (ha : s.approvers[i]? = some a) (hb : (s.run us).approvers[i]? = some b) :
    b.name = a.name :=
  have he : SameEntries s.approvers (s.run us).approvers := TaskState.sameEntries_run
  he.entry ha hb |>.left.symm

theorem run_sameKind (hs : s.Proper) (ha : s.approvers[i]? = some a)
    (hb : (s.run us).approvers[i]? = some b) : b.SameKind a :=
  have he : SameEntries s.approvers (s.run us).approvers := TaskState.sameEntries_run
  he.sameKind hs (TaskState.proper_run hs) ha hb |>.symm

theorem own_source (hs : s.Proper) (ha : s.approvers[i]? = some a)
    (hb : (s.run us).approvers[i]? = some b) :
    b.input = a.input ∨ (b.input = "approve" ∨ b.input = "reject") ∧
      ∃ e : AdmittedStep s us, e.Writes ⟨i, .own⟩ b.input ∧
        ∃ g, e.before.approvers[i]? = some g ∧ e.requester.Owns g .own ∧ g.name = b.name ∧
          g.SameKind b := by
  have hv : Slot.value? ⟨i, .own⟩ (s.run us).approvers = some b.input := by
    simp [Slot.value?, hb, input?]
  cases TaskState.value?_source hs hv
  case inl h =>
    simp only [Slot.value?, ha, Option.bind_some, input?, Option.some.injEq] at h
    exact .inl h.symm
  case inr h =>
    obtain ⟨e, he⟩ := h
    obtain ⟨g, hg, ho, hn, hk⟩ := he.owns hs ha
    exact .inr ⟨he.isVote, e, he, g, hg, ho, hn.trans (run_name_eq ha hb).symm,
      hk.symm.trans (run_sameKind hs ha hb).symm⟩

theorem provenance (hs : s.Proper) (ha : s.approvers[i]? = some a)
    (hb : (s.run us).approvers[i]? = some b) : Provenance s us i a b where
  name := run_name_eq ha hb
  kind := run_sameKind hs ha hb
  other hu hg := by
    refine own_source hs ha hb |>.resolve_right fun h => ?_
    obtain ⟨_, _, _, g, _, ho, _, hk⟩ := h
    cases ho
    case inl ho => exact hu (hk.isUser.symm.trans ho.left)
    case inr ho => exact hg (hk.isGroup.symm.trans <| Requester.isGroup_of_isMemberOf ho)
  user hu := by
    refine own_source hs ha hb |>.imp_right fun h => ?_
    obtain ⟨hv, e, he, g, _, ho, hn, hk⟩ := h
    refine ⟨hv, e, he, ?_⟩
    cases ho
    case inl ho => exact ho.right.symm.trans hn
    case inr ho =>
      have hg := hk.isGroup.symm.trans <| Requester.isGroup_of_isMemberOf ho
      exact absurd hg (not_isGroup_of_isUser hu)
  group hg := by
    refine own_source hs ha hb |>.imp_right fun h => ?_
    obtain ⟨hv, e, he, g, hm, ho, _, hk⟩ := h
    refine ⟨hv, e, he, g, hm, ho.resolve_left fun ho => ?_⟩
    exact not_isGroup_of_isUser (hk.isUser.symm.trans ho.left) hg
  member name input hi := by
    have hv : Slot.value? ⟨i, .member name⟩ (s.run us).approvers = some input := by
      simp [Slot.value?, hb, input?, hi]
    cases TaskState.value?_source hs hv
    case inl h => exact .inl <| by simpa [Slot.value?, ha, input?] using h
    case inr h =>
      obtain ⟨e, he⟩ := h
      obtain ⟨_, _, ho, _⟩ := he.owns hs ha
      exact .inr ⟨he.isVote, e, he, ho.left.symm⟩
  joined name hl := by
    have hv : (Slot.value? ⟨i, .member name⟩ (s.run us).approvers).isSome := by
      simp [Slot.value?, hb, input?, hl]
    cases TaskState.listed_source hs hv
    case inl h => exact .inl <| by simpa [Slot.value?, ha, input?] using h
    case inr h =>
      obtain ⟨e, input, he, hm⟩ := h
      obtain ⟨g, hg, ho, hn, _⟩ := he.owns hs ha
      have hm : g.memberInput? e.requester.username = none := by
        simpa [Slot.value?, hg, input?, ho.left] using hm
      -- A group that does not list its new member has to be claimed by name.
      have hi := Requester.isMemberOf_iff_inGroup
        (Requester.isGroup_of_isMemberOf ho.right) hm |>.mp ho.right
      exact .inr ⟨e, input, he, ho.left.symm, (hn.trans (run_name_eq ha hb).symm) ▸ hi⟩

end Approver

-- Where the votes that stand at the end of a run come from.
theorem run_provenance (t : ApprovalTask) (us : List Submission) : t.toState.Provenance us where
  length  := TaskState.sameEntries_run.length.symm
  entries _ _ _ ha hb := Approver.provenance t.proper_toState ha hb
  closed earlier later h hc := by
    rw [h, TaskState.run_append, TaskState.run_eq_of_isClosed hc]

end Countersign
