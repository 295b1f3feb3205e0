import Countersign.Proofs.Update.Admission

namespace Countersign

namespace Requester

variable (r : Requester)

-- Whether the search for the requester's change ends at an entry: at their user entry in any case,
-- at a group of theirs if the update has an entry there and changes their share in it.
def Settles (before : Approver) (after? : Option Approver) : Prop :=
  before.IsUserOf r ∨ r.isMemberOf before ∧ ∃ after, after? = some after ∧
    (before.Disturbed after .own ∨ before.Disturbed after (.member r.username))

-- The first index at which the search ends.
structure SettlesAt (old new : List Approver) (i : Nat) (before : Approver) : Prop where
  entry   : old[i]? = some before
  settles : r.Settles before new[i]?
  least   : ∀ j < i, ∀ b, old[j]? = some b → ¬r.Settles b new[j]?

-- The text that counts as the requester's change in the entry where the search ends.
inductive SettledValue (before after : Approver) : String → Prop
  | user : before.IsUserOf r → after.name = before.name → before.Disturbed after .own →
      SettledValue before after after.input
  | group : r.isMemberOf before → before.Disturbed after .own →
      SettledValue before after after.input
  | member {input : String} : r.isMemberOf before → ¬before.Disturbed after .own →
      before.Disturbed after (.member r.username) → after.memberInput? r.username = some input →
      SettledValue before after input

-- The requester's change, if it is no vote.
structure Unsupported (old new : List Approver) (input : String) : Prop where
  settled : ∃ i before after, r.SettlesAt old new i before ∧ new[i]? = some after ∧
    r.SettledValue before after input
  approve : input ≠ "approve"
  reject  : input ≠ "reject"

end Requester

theorem Vote.read_eq_error_iff {input : String} {u : UnsupportedInput} :
    read input = .error u ↔ u.value = input ∧ input ≠ "approve" ∧ input ≠ "reject" := by
  by_cases ha : input = "approve"
  case pos => simp [read, text, ha]
  case neg =>
    by_cases hr : input = "reject"
    case pos => simp [read, text, hr]
    case neg => cases u; simp [read, text, ha, hr, eq_comm]

namespace Requester

variable {r : Requester} {before after : Approver} {after? : Option Approver} {input : String}

theorem settles?_none (hu : ¬before.IsUserOf r) : r.settles? before none = none := by
  simp only [settles?]
  split <;> simp_all [Approver.IsUserOf, Approver.isUser]

theorem settles?_isSome_iff : (r.settles? before after?).isSome ↔ r.Settles before after? := by
  by_cases hu : before.IsUserOf r
  case pos => simp [settles?_of_isUserOf hu, Settles, hu]
  case neg =>
    by_cases hm : r.isMemberOf before
    case neg => simp [settles?_of_not_designates hu hm, Settles, hu, hm]
    case pos =>
      cases after?
      case none => simp [settles?_none hu, Settles, hu]
      case some after =>
        have hn : r.groupProposal? before after = none ↔ _ :=
          groupProposal?_eq_none_iff (isGroup_of_isMemberOf hm)
        simp [settles?_of_isMemberOf hm, Settles, hu, hm, Option.isSome_iff_ne_none, hn,
          Classical.or_iff_not_imp_left]

theorem settledValue_of_groupProposal? {p : Proposal} (hm : r.isMemberOf before)
    (h : r.groupProposal? before after = some p) : r.SettledValue before after p.input := by
  have hp := proposes_of_groupProposal? hm h
  simp only [groupProposal?] at h
  split at h
  case isTrue hd =>
    cases h
    exact .group hm hd
  case isFalse hd =>
    split at h
    case h_1 => cases h; exact .member hm hd hp.disturbed hp.input
    case h_2 => split at h <;> cases h; exact .member hm hd hp.disturbed hp.input
    case h_3 => cases h

theorem settledValue_of_settles? {p : Proposal}
    (h : r.settles? before (some after) = some (some p)) : r.SettledValue before after p.input := by
  by_cases hu : before.IsUserOf r
  case pos =>
    simp only [settles?_of_isUserOf hu, userProposal?] at h
    split at h <;> cases h
    case isTrue hc => exact .user hu hc.left hc.right.symm
  case neg =>
    by_cases hm : r.isMemberOf before
    case neg => simp [settles?_of_not_designates hu hm] at h
    case pos =>
      exact settledValue_of_groupProposal? hm <| by simpa [settles?_of_isMemberOf hm] using h

theorem SettledValue.unique {v w : String} (hv : r.SettledValue before after v)
    (hw : r.SettledValue before after w) : v = w := by
  cases hv <;> cases hw <;> simp_all

theorem exists_groupProposal (hm : r.isMemberOf before)
    (hd : before.Disturbed after .own ∨ before.Disturbed after (.member r.username)) :
    ∃ p, r.groupProposal? before after = some p := by
  refine Option.ne_none_iff_exists'.mp fun hn => ?_
  have ⟨ho, hs⟩ := groupProposal?_eq_none_iff (isGroup_of_isMemberOf hm) |>.mp hn
  exact hd.elim ho hs

-- A change in the entry where the search ends is what the search proposes there.
theorem exists_target_of_settledValue (h : r.SettledValue before after input) :
    ∃ target, r.settles? before (some after) = some (some ⟨target, input⟩) := by
  obtain ⟨p, hp⟩ : ∃ p, r.settles? before (some after) = some (some p) := by
    cases h
    case user hu hn hd =>
      exact ⟨_, by simp [settles?_of_isUserOf hu, userProposal?, hn, Ne.symm hd]; rfl⟩
    case group hm hd =>
      obtain ⟨p, hp⟩ := exists_groupProposal hm (.inl hd)
      exact ⟨p, by simp [settles?_of_isMemberOf hm, hp]⟩
    case member hm _ hd _ =>
      obtain ⟨p, hp⟩ := exists_groupProposal hm (.inr hd)
      exact ⟨p, by simp [settles?_of_isMemberOf hm, hp]⟩
  cases (settledValue_of_settles? hp).unique h
  exact ⟨p.target, hp⟩

theorem exists_after_of_settles? {p : Proposal} (h : r.settles? before after? = some (some p)) :
    ∃ after, after? = some after := by
  cases after?
  case some after => exact ⟨after, rfl⟩
  case none =>
    by_cases hu : before.IsUserOf r
    case pos => simp [settles?_of_isUserOf hu, userProposal?] at h
    case neg => simp [settles?_none hu] at h

section Search

variable {old new : List Approver} {s : Settlement} {u : UnsupportedInput}

theorem settles?_eq_none_iff : r.settles? before after? = none ↔ ¬r.Settles before after? := by
  rw [← settles?_isSome_iff, Option.not_isSome_iff_eq_none]

theorem settle_eq_some_iff :
    r.settle old new = some s ↔
      r.SettlesAt old new s.index s.entry ∧
        r.settles? s.entry new[s.index]? = some s.proposal? := by
  simp only [settle, settleFrom_eq_some_iff, Nat.zero_add, settles?_eq_none_iff]
  constructor
  case mp =>
    intro ⟨i, hi, he, hs, hl⟩
    subst hi
    exact ⟨⟨he, settles?_isSome_iff.mp (Option.isSome_of_eq_some hs), hl⟩, hs⟩
  case mpr =>
    intro ⟨⟨he, _, hl⟩, hs⟩
    exact ⟨s.index, rfl, he, hs, hl⟩

theorem locate_eq_error_iff : r.locate old new = .error u ↔ r.Unsupported old new u.value := by
  constructor
  case mp =>
    intro h
    simp only [locate] at h
    split at h
    case h_2 => cases h
    case h_1 i before target input hs =>
      obtain ⟨hi, hp⟩ := settle_eq_some_iff.mp hs
      obtain ⟨after, ha⟩ := exists_after_of_settles? hp
      cases hr : Vote.read input <;> rw [hr] at h <;> cases h
      obtain ⟨rfl, hv⟩ := Vote.read_eq_error_iff.mp hr
      exact ⟨⟨i, before, after, hi, ha, settledValue_of_settles? (ha ▸ hp)⟩, hv.left, hv.right⟩
  case mpr =>
    rintro ⟨⟨i, before, after, hi, ha, hv⟩, hna, hnr⟩
    obtain ⟨target, hp⟩ := exists_target_of_settledValue hv
    have hs : r.settle old new = some ⟨i, before, some ⟨target, u.value⟩⟩ :=
      settle_eq_some_iff.mpr ⟨hi, ha ▸ hp⟩
    simp [locate, hs, Vote.read_eq_error_iff.mpr ⟨rfl, hna, hnr⟩, Except.map]

-- The change belongs to the requester: no one else's input is ever read as a vote.
theorem Unsupported.owned (h : r.Unsupported old new input) :
    ∃ x : Slot, x.OwnedBy old r ∧ x.Disturbed old new ∧ x.value? new = some input := by
  have ⟨i, before, after, hi, ha, hv⟩ := h.settled
  have ⟨target, hs⟩ := exists_target_of_settledValue hv
  have hp := proposes_of_settles? hs
  refine ⟨⟨i, target.share r⟩, ⟨before, hi.entry, hp.owned⟩,
    ⟨before, after, hi.entry, ha, hp.disturbed⟩, ?_⟩
  simpa [Slot.value?, ha] using hp.input

end Search

end Requester

-- The task names approvers, and the requester is none of them.
def TaskState.Excludes (s : TaskState) (r : Requester) : Prop :=
  s.approvers ≠ [] ∧ ∀ a ∈ s.approvers, ¬a.designates r

namespace TaskState

variable {s : TaskState} {r : Requester}

theorem refusal?_of_isClosed (h : s.isClosed) : s.refusal? r = some .taskClosed := by
  simp [refusal?, h]

theorem refusal?_of_excludes (hc : s.isClosed = false) (h : s.Excludes r) :
    s.refusal? r = some .notAnApprover := by
  have ha : s.approvers.any (·.designates r) = false := by simpa using h.right
  simp [refusal?, hc, h.left, ha]

theorem refusal?_of_not_excludes (hc : s.isClosed = false) (h : ¬s.Excludes r) :
    s.refusal? r = none := by
  by_cases he : s.approvers = []
  case pos => simp [refusal?, hc, he]
  case neg =>
    have ha : s.approvers.any (·.designates r) := by simpa [Excludes, he] using h
    simp [refusal?, hc, ha]

end TaskState

section

variable {old new : TaskState} {r : Requester} {input : String}

theorem decideUpdate_of_isClosed (h : old.isClosed) :
    decideUpdate old new r = .deny .taskClosed := by
  simp [decideUpdate, TaskState.refusal?_of_isClosed h]

theorem decideUpdate_of_excludes (hc : old.isClosed = false) (h : old.Excludes r) :
    decideUpdate old new r = .deny .notAnApprover := by
  simp [decideUpdate, TaskState.refusal?_of_excludes hc h]

theorem decideUpdate_of_unsupported (hc : old.isClosed = false)
    (h : r.Unsupported old.approvers new.approvers input) :
    decideUpdate old new r = .deny (.invalidInput ⟨input⟩) := by
  have ⟨_, ho, _⟩ := h.owned
  have hl : r.locate old.approvers new.approvers = .error ⟨input⟩ :=
    Requester.locate_eq_error_iff.mpr h
  simp [decideUpdate, TaskState.refusal?_eq_none_of_ownedBy hc ho, hl]

theorem decideUpdate_of_supported (hc : old.isClosed = false) (he : ¬old.Excludes r)
    (h : ∀ input, ¬r.Unsupported old.approvers new.approvers input) :
    decideUpdate old new r = .allow ∨ decideUpdate old new r = .deny .outOfScope := by
  simp only [decideUpdate, TaskState.refusal?_of_not_excludes hc he]
  split
  case h_1 u hl => exact absurd (Requester.locate_eq_error_iff.mp hl) (h u.value)
  case h_2 => exact .inr rfl
  case h_3 =>
    split
    · exact .inl rfl
    · exact .inr rfl

end

-- What each decision rests on.
inductive Grounds (old new : TaskState) (r : Requester) : Decision → Prop
  | closed : old.isClosed → Grounds old new r (.deny .taskClosed)
  | excluded : old.isClosed = false → old.Excludes r → Grounds old new r (.deny .notAnApprover)
  | unsupported {input : String} : old.isClosed = false →
      r.Unsupported old.approvers new.approvers input →
      Grounds old new r (.deny (.invalidInput ⟨input⟩))
  | allowed : Grounds old new r .allow
  | outOfScope : Grounds old new r (.deny .outOfScope)

theorem grounds_of_decideUpdate {old new : TaskState} {r : Requester} {d : Decision}
    (h : decideUpdate old new r = d) : Grounds old new r d := by
  subst h
  by_cases hc : old.isClosed
  case pos => exact decideUpdate_of_isClosed hc ▸ .closed hc
  case neg =>
    have hc : old.isClosed = false := by simpa using hc
    by_cases he : old.Excludes r
    case pos => exact decideUpdate_of_excludes hc he ▸ .excluded hc he
    case neg =>
      by_cases hu : ∃ input, r.Unsupported old.approvers new.approvers input
      case pos =>
        have ⟨_, hu⟩ := hu
        exact decideUpdate_of_unsupported hc hu ▸ .unsupported hc hu
      case neg =>
        cases decideUpdate_of_supported hc he (not_exists.mp hu)
        case inl h => exact h ▸ .allowed
        case inr h => exact h ▸ .outOfScope

namespace Grounds

variable {old new : TaskState} {r : Requester}

theorem isClosed : Grounds old new r (.deny .taskClosed) → old.isClosed
  | closed hc => hc

theorem excludes : Grounds old new r (.deny .notAnApprover) →
    old.isClosed = false ∧ old.Excludes r
  | excluded hc he => ⟨hc, he⟩

theorem isUnsupported {input : String} : Grounds old new r (.deny (.invalidInput ⟨input⟩)) →
    old.isClosed = false ∧ r.Unsupported old.approvers new.approvers input
  | unsupported hc hu => ⟨hc, hu⟩

end Grounds

-- The reasons an update is refused for, each with what it takes.
structure RefusalLaw (old new : TaskState) (r : Requester) : Prop where
  closed      : decideUpdate old new r = .deny .taskClosed ↔ old.isClosed
  excluded    : decideUpdate old new r = .deny .notAnApprover ↔
    old.isClosed = false ∧ old.Excludes r
  unsupported : ∀ input, decideUpdate old new r = .deny (.invalidInput ⟨input⟩) ↔
    old.isClosed = false ∧ r.Unsupported old.approvers new.approvers input
  malformed   : ∀ text, decideUpdate old new r ≠ .deny (.malformed text)
  otherwise   : old.isClosed = false → ¬old.Excludes r →
    (∀ input, ¬r.Unsupported old.approvers new.approvers input) →
    decideUpdate old new r = .allow ∨ decideUpdate old new r = .deny .outOfScope
  -- What stands at no slot of the requester's is never called unsupported.
  owned       : ∀ input, decideUpdate old new r = .deny (.invalidInput ⟨input⟩) →
    ∃ x : Slot, x.OwnedBy old.approvers r ∧ x.Disturbed old.approvers new.approvers ∧
      x.value? new.approvers = some input

theorem refusal_law (old new : TaskState) (r : Requester) : RefusalLaw old new r where
  closed        := ⟨fun h => grounds_of_decideUpdate h |>.isClosed, decideUpdate_of_isClosed⟩
  excluded      := ⟨fun h => grounds_of_decideUpdate h |>.excludes,
    fun ⟨hc, he⟩ => decideUpdate_of_excludes hc he⟩
  unsupported _ := ⟨fun h => grounds_of_decideUpdate h |>.isUnsupported,
    fun ⟨hc, hu⟩ => decideUpdate_of_unsupported hc hu⟩
  malformed _ h := nomatch grounds_of_decideUpdate h
  otherwise     := decideUpdate_of_supported
  owned _ h     := grounds_of_decideUpdate h |>.isUnsupported.right.owned

-- The search ends at Alice's unchanged user entry, so what she lists behind it is not read at all.
example :
    decideUpdate
      ⟨[⟨"alice", "", .user⟩, ⟨"qa", "", .group [⟨"alice", ""⟩]⟩], .pending, 0, 1⟩
      ⟨[⟨"alice", "", .user⟩, ⟨"qa", "", .group [⟨"alice", "maybe"⟩]⟩], .pending, 0, 1⟩
      ⟨"alice", []⟩ = .deny .outOfScope := by
  decide

end Countersign
