import Countersign.Locate
import Countersign.Proofs.Update.Isolation

namespace Countersign

theorem Vote.read_eq_ok_iff {input : String} {v : Vote} : read input = .ok v ↔ input = v.text := by
  have hne : approve.text ≠ reject.text := by decide
  unfold read
  cases v <;> split <;> (try split) <;> simp_all [Ne.symm hne]

namespace Requester

variable {r : Requester} {before after : Approver}

-- What a proposal says of the entry it is found in.
structure Proposes (r : Requester) (before after : Approver) (p : Proposal) : Prop where
  owned     : r.Owns before (p.target.share r)
  disturbed : before.Disturbed after (p.target.share r)
  input     : after.input? (p.target.share r) = some p.input
  licensed  : r.Licenses before (some p.target) (p.target.share r)

theorem proposes_of_userProposal? {p : Proposal} (hu : before.IsUserOf r)
    (h : userProposal? before (some after) = some p) : r.Proposes before after p := by
  simp only [userProposal?] at h
  split at h <;> cases h
  case isTrue hc =>
    exact ⟨.inl hu, hc.right.symm, rfl, _, Approver.inputTarget?_of_isUser hu.left, rfl⟩

theorem proposes_of_groupProposal? {p : Proposal} (hm : r.isMemberOf before)
    (h : r.groupProposal? before after = some p) : r.Proposes before after p := by
  have hg := isGroup_of_isMemberOf hm
  simp only [groupProposal?] at h
  split at h
  case isTrue hi =>
    cases h
    exact ⟨.inr hm, hi, rfl, _, Approver.inputTarget?_of_isGroup hg, rfl⟩
  case isFalse =>
    split at h
    case h_1 hb _ ha =>
      cases h
      refine ⟨⟨rfl, hm⟩, ⟨hg, ?_, ?_⟩, ha, rfl, hm, ?_⟩ <;> simp [ha, hb, Target.isMemberAdded]
    case h_2 hb _ ha =>
      split at h <;> cases h
      case isTrue hne =>
        refine ⟨⟨rfl, hm⟩, ⟨hg, ?_, ?_⟩, ha, rfl, hm, ?_⟩ <;>
          simp [ha, hb, hne, Target.isMemberInput]
    case h_3 => cases h

-- An entry is either the requester's own, or a group of theirs, or nothing of theirs.
theorem settles?_of_isUserOf {after? : Option Approver} (h : before.IsUserOf r) :
    r.settles? before after? = some (userProposal? before after?) := by
  have ⟨hu, hn⟩ := h
  unfold Approver.isUser at hu
  unfold settles?
  split at hu <;> simp_all

theorem settles?_of_isMemberOf (h : r.isMemberOf before) :
    r.settles? before (some after) = (r.groupProposal? before after).map some := by
  have hg := isGroup_of_isMemberOf h
  unfold Approver.isGroup at hg
  unfold settles?
  split at hg <;> simp_all

theorem settles?_of_not_designates {after? : Option Approver} (hu : ¬before.IsUserOf r)
    (hm : ¬r.isMemberOf before) : r.settles? before after? = none := by
  unfold settles?
  split
  case h_1 hk => simp_all [Approver.IsUserOf, Approver.isUser]
  case h_2    => simp [hm]
  case h_3    => rfl

theorem proposes_of_settles? {p : Proposal}
    (h : r.settles? before (some after) = some (some p)) : r.Proposes before after p := by
  by_cases hu : before.IsUserOf r
  case pos =>
    rw [settles?_of_isUserOf hu] at h
    exact proposes_of_userProposal? hu (Option.some.inj h)
  case neg =>
    by_cases hm : r.isMemberOf before
    case neg => simp [settles?_of_not_designates hu hm] at h
    case pos =>
      rw [settles?_of_isMemberOf hm] at h
      exact proposes_of_groupProposal? hm (by simpa using h)

-- Of the requester's two shares in a group, none may be disturbed if there is to be no proposal.
theorem groupProposal?_eq_none_iff (hg : before.isGroup) :
    r.groupProposal? before after = none ↔
      ¬before.Disturbed after .own ∧ ¬before.Disturbed after (.member r.username) := by
  have hp : (after.memberPosition? r.username).isSome = (after.memberInput? r.username).isSome :=
    Approver.memberPosition?_isSome
  simp only [groupProposal?, Approver.Disturbed, hg]
  by_cases hi : before.input = after.input
  case neg => simp [hi]
  case pos =>
    simp only [hi, ne_eq, not_true_eq_false, not_false_eq_true, if_false, true_and]
    cases hb : before.memberInput? r.username <;> cases ha : after.memberInput? r.username <;>
      cases hq : after.memberPosition? r.username <;> simp_all

theorem settles?_eq_none_of_undisturbed (hu : ¬before.IsUserOf r)
    (h : ∀ share, r.Owns before share → ¬before.Disturbed after share) :
    r.settles? before (some after) = none := by
  by_cases hm : r.isMemberOf before
  case neg => exact settles?_of_not_designates hu hm
  case pos =>
    have hn := groupProposal?_eq_none_iff (isGroup_of_isMemberOf hm) |>.mpr
      ⟨h .own (.inr hm), h (.member _) ⟨rfl, hm⟩⟩
    simp [settles?_of_isMemberOf hm, hn]

theorem settles?_eq_some_of_disturbed {share : Share} (hn : before.name = after.name)
    (ho : r.Owns before share) (hd : before.Disturbed after share) :
    ∃ p, r.settles? before (some after) = some (some p) := by
  by_cases hu : before.IsUserOf r
  case pos =>
    -- A user entry has no members, so its own input is what is disturbed.
    have hi : before.input ≠ after.input := by
      cases share
      case own    => exact hd
      case member => exact absurd hd.left (Approver.not_isGroup_of_isUser hu.left)
    rw [settles?_of_isUserOf hu]
    exact ⟨_, by simp [userProposal?, hn.symm, hi.symm]; rfl⟩
  case neg =>
    have hm : r.isMemberOf before := by
      cases share
      case own    => exact ho.resolve_left hu
      case member => exact ho.right
    rw [settles?_of_isMemberOf hm]
    cases hp : r.groupProposal? before after
    case some p => exact ⟨p, rfl⟩
    case none =>
      have ⟨h₁, h₂⟩ := groupProposal?_eq_none_iff (isGroup_of_isMemberOf hm) |>.mp hp
      cases share
      case own    => exact absurd hd h₁
      case member => exact absurd (ho.left ▸ hd) h₂

-- A scan that does not settle at an entry has passed no user entry of the requester's.
theorem not_isUserOf_of_settles?_eq_none {after? : Option Approver}
    (h : r.settles? before after? = none) : ¬before.IsUserOf r := by
  intro hu
  simp [settles?_of_isUserOf hu] at h

section Scan

variable {old new : List Approver} {k : Nat} {s : Settlement}

-- The scan settles at the first entry that settles it.
theorem settleFrom_eq_some_iff :
    r.settleFrom k old new = some s ↔
      ∃ i, s.index = k + i ∧ old[i]? = some s.entry ∧
        r.settles? s.entry new[i]? = some s.proposal? ∧
        ∀ j < i, ∀ before, old[j]? = some before → r.settles? before new[j]? = none := by
  induction old generalizing k new <;> simp only [settleFrom, List.head?_eq_getElem?]
  case nil => simp
  case cons hd tl hi =>
    split
    case h_1 proposal? hs =>
      constructor
      case mp =>
        intro h
        cases h
        exact ⟨0, rfl, rfl, hs, by simp⟩
      case mpr =>
        intro ⟨i, hk, he, hp, hf⟩
        cases i
        case succ i => simp [hf 0 (by omega) hd rfl] at hs
        case zero =>
          cases Option.some.inj he
          cases hs.symm.trans hp
          exact congrArg some (by cases s; simp_all)
    case h_2 hs =>
      rw [hi]
      constructor
      case mp =>
        intro ⟨i, hk, he, hp, hf⟩
        refine ⟨i + 1, by omega, he, by simpa using hp, fun j hj before hb => ?_⟩
        cases j
        case zero   => exact Option.some.inj hb ▸ hs
        case succ j => simpa using hf j (by omega) before hb
      case mpr =>
        intro ⟨i, hk, he, hp, hf⟩
        cases i
        case zero => simp [Option.some.inj he, hp] at hs
        case succ i =>
          refine ⟨i, by omega, he, by simpa using hp, fun j hj before hb => ?_⟩
          simpa using hf (j + 1) (by omega) before hb

theorem locate_eq_some_iff {site : ChangeSite} :
    r.locate old new = .ok (some site) ↔
      ∃ entry, r.settle old new =
        some ⟨site.index, entry, some ⟨site.target, site.value.text⟩⟩ := by
  constructor
  case mp =>
    intro h
    unfold locate at h
    split at h
    case h_2 => cases h
    case h_1 index entry target input hs =>
      cases hv : Vote.read input <;> rw [hv] at h <;> cases h
      exact ⟨entry, Vote.read_eq_ok_iff.mp hv ▸ hs⟩
  case mpr =>
    intro ⟨_, hs⟩
    simp [locate, hs, Vote.read_eq_ok_iff.mpr rfl, Except.map]

end Scan

end Requester
end Countersign
