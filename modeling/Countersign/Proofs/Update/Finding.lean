import Countersign.Proofs.Update.Explanation
import Countersign.Proofs.Update.Refusal

namespace Countersign

namespace Approver

-- The position at which a name is first listed among the members, and the member there.
structure FirstLists (a : Approver) (name : String) (p : Nat) (m : Member) : Prop where
  member : a.members[p]? = some m
  named  : m.name = name
  least  : ∀ q < p, ∀ m', a.members[q]? = some m' → m'.name ≠ name

variable {a : Approver} {name : String} {p : Nat} {m : Member}

theorem memberPosition?_eq_some_iff :
    a.memberPosition? name = some p ↔ ∃ m, a.FirstLists name p m := by
  unfold memberPosition?
  rw [List.findIdx?_eq_some_iff_getElem]
  constructor
  case mp =>
    intro ⟨hp, hn, hl⟩
    refine ⟨a.members[p], List.getElem?_eq_getElem hp, by simpa using hn, fun q hq m' hm => ?_⟩
    have ⟨_, hm⟩ := List.getElem?_eq_some_iff.mp hm
    simpa [hm] using hl q hq
  case mpr =>
    intro ⟨m, hm, hn, hl⟩
    have ⟨hp, hm⟩ := List.getElem?_eq_some_iff.mp hm
    refine ⟨hp, by simpa [hm] using hn, fun q hq => ?_⟩
    simpa using hl q hq _ <| List.getElem?_eq_getElem (Nat.lt_trans hq hp)

namespace FirstLists

theorem position (h : a.FirstLists name p m) : a.memberPosition? name = some p :=
  memberPosition?_eq_some_iff.mpr ⟨m, h⟩

theorem input (h : a.FirstLists name p m) : a.memberInput? name = some m.input := by
  have ⟨hp, hm⟩ := List.getElem?_eq_some_iff.mp h.member
  have hf : a.members.find? (·.name = name) = some m := by
    refine List.find?_eq_some_iff_getElem.mpr ⟨by simpa using h.named, p, hp, hm, fun q hq => ?_⟩
    simpa using h.least q hq _ <| List.getElem?_eq_getElem (Nat.lt_trans hq hp)
  simp [memberInput?, hf]

end FirstLists

-- Position and input are found by separate searches, which stop at the same member.
theorem exists_firstLists {input : String} (hp : a.memberPosition? name = some p)
    (hi : a.memberInput? name = some input) : ∃ m, a.FirstLists name p m ∧ m.input = input := by
  have ⟨m, hm⟩ := memberPosition?_eq_some_iff.mp hp
  exact ⟨m, hm, Option.some.inj <| hm.input.symm.trans hi⟩

end Approver

namespace Requester

-- A change of the requester's from an entry to its update: its target, and the text that the update
-- has there.
inductive Changes (r : Requester) (before after : Approver) : Target → String → Prop
  | userInput (hk : before.isUser) (hn : after.name = before.name)
    (hd : after.input ≠ before.input) : Changes r before after .userInput after.input
  | groupInput (hk : before.isGroup) (hd : after.input ≠ before.input) :
    Changes r before after .groupInput after.input
  | memberAdded {p : Nat} {m : Member} (hk : before.isGroup) (hi : after.input = before.input)
    (hl : ¬before.Lists r.username) (hm : after.FirstLists r.username p m) :
    Changes r before after (.memberAdded p) m.input
  | memberInput {p : Nat} {m : Member} {previous : String} (hk : before.isGroup)
    (hi : after.input = before.input) (hl : before.memberInput? r.username = some previous)
    (hm : after.FirstLists r.username p m) (hd : m.input ≠ previous) :
    Changes r before after (.memberInput p) m.input

-- A change that stands in an entry of the requester's, in both lists, with nothing before it at
-- which the search would end.
structure Finds (r : Requester) (old new : List Approver) (i : Nat) (target : Target)
    (text : String) : Prop where
  change : ∃ before after, old[i]? = some before ∧ new[i]? = some after ∧ before.designates r ∧
    r.Changes before after target text
  least  : ∀ j < i, ∀ b, old[j]? = some b → ¬r.Settles b new[j]?

variable {r : Requester} {before after : Approver} {target : Target} {text : String}

theorem userProposal?_eq_some_iff (hu : before.isUser) :
    userProposal? before (some after) = some ⟨target, text⟩ ↔ r.Changes before after target text := by
  constructor
  case mp =>
    intro h
    simp only [userProposal?] at h
    split at h <;> cases h
    case isTrue hc => exact .userInput hu hc.left hc.right
  case mpr =>
    intro h
    cases h
    case userInput hn hd => simp [userProposal?, hn, hd]
    all_goals exact absurd ‹before.isGroup› <| Approver.not_isGroup_of_isUser hu

theorem groupProposal?_eq_some_iff (hg : before.isGroup) :
    r.groupProposal? before after = some ⟨target, text⟩ ↔ r.Changes before after target text := by
  constructor
  case mp =>
    intro h
    simp only [groupProposal?] at h
    split at h
    case isTrue hd => cases h; exact .groupInput hg (Ne.symm hd)
    case isFalse hi =>
      have hi := (not_not.mp hi).symm
      split at h
      case h_1 hl hp hc =>
        cases h
        obtain ⟨m, hm, he⟩ := Approver.exists_firstLists hp hc
        exact he ▸ .memberAdded hg hi (Approver.not_lists_iff.mpr hl) hm
      case h_2 hl hp hc =>
        split at h <;> cases h
        case isTrue hd =>
          obtain ⟨m, hm, he⟩ := Approver.exists_firstLists hp hc
          exact he ▸ .memberInput hg hi hl hm (he ▸ hd)
      case h_3 => cases h
  case mpr =>
    intro h
    cases h
    case userInput hu _ _   => exact absurd hg <| Approver.not_isGroup_of_isUser hu
    case groupInput hd      => simp [groupProposal?, Ne.symm hd]
    case memberAdded hi hl hm =>
      simp [groupProposal?, hi, Approver.not_lists_iff.mp hl, hm.position, hm.input]
    case memberInput hi hl hm hd => simp [groupProposal?, hi, hl, hm.position, hm.input, hd]

-- The search ends at an entry with a change if and only if the entry is the requester's and that is
-- a change of theirs.
theorem settles?_eq_change_iff : r.settles? before (some after) = some (some ⟨target, text⟩) ↔
    before.designates r ∧ r.Changes before after target text := by
  by_cases hu : before.IsUserOf r
  case pos =>
    have hd : before.designates r := Approver.designates_iff.mpr (.inl hu)
    rw [settles?_of_isUserOf hu, ← userProposal?_eq_some_iff hu.left]
    simp [hd]
  case neg =>
    by_cases hm : r.isMemberOf before
    case pos =>
      have hd : before.designates r := Approver.designates_iff.mpr (.inr hm)
      rw [settles?_of_isMemberOf hm, ← groupProposal?_eq_some_iff (isGroup_of_isMemberOf hm)]
      simp [hd]
    case neg =>
      have hd : ¬before.designates r := by simp [Approver.designates_iff, hu, hm]
      simp [settles?_of_not_designates hu hm, hd]

variable {old new : List Approver} {i : Nat}

theorem finds_iff : r.Finds old new i target text ↔
    ∃ before, r.settle old new = some ⟨i, before, some ⟨target, text⟩⟩ := by
  simp only [settle_eq_some_iff]
  constructor
  case mp =>
    intro ⟨⟨before, after, hb, ha, hc⟩, hl⟩
    have hs := settles?_eq_change_iff.mpr hc
    rw [← ha] at hs
    exact ⟨before, ⟨hb, settles?_isSome_iff.mp (Option.isSome_of_eq_some hs), hl⟩, hs⟩
  case mpr =>
    intro ⟨before, hi, hs⟩
    have ⟨after, ha⟩ := exists_after_of_settles? hs
    exact ⟨⟨before, after, hi.entry, ha, settles?_eq_change_iff.mp (ha ▸ hs)⟩, hi.least⟩

theorem locate_of_finds (h : r.Finds old new i target text) :
    r.locate old new = (Vote.read text).map fun value => some ⟨i, target, value⟩ := by
  have ⟨_, hs⟩ := finds_iff.mp h
  simp [locate, hs]

theorem locate_of_not_finds (h : ∀ i target text, ¬r.Finds old new i target text) :
    r.locate old new = .ok none := by
  unfold locate
  split
  case h_1 hs => exact absurd (finds_iff.mpr ⟨_, hs⟩) (h _ _ _)
  case h_2    => rfl

-- No two changes are found.
theorem Finds.unique {j : Nat} {target' : Target} {text' : String}
    (h : r.Finds old new i target text) (h' : r.Finds old new j target' text') :
    i = j ∧ target = target' ∧ text = text' := by
  have ⟨_, hs⟩ := finds_iff.mp h
  have ⟨_, hs'⟩ := finds_iff.mp h'
  cases Option.some.inj <| hs.symm.trans hs'
  exact ⟨rfl, rfl, rfl⟩

theorem locate_eq_unsupported_iff : r.locate old new = .error ⟨text⟩ ↔
    (∃ i target, r.Finds old new i target text) ∧ text ≠ "approve" ∧ text ≠ "reject" := by
  constructor
  case mp =>
    intro h
    by_cases hf : ∃ i target text', r.Finds old new i target text'
    case neg =>
      rw [locate_of_not_finds (by simpa using hf)] at h
      cases h
    case pos =>
      have ⟨i, target, text', hf⟩ := hf
      rw [locate_of_finds hf] at h
      cases hr : Vote.read text' <;> rw [hr] at h <;> cases h
      case error.refl =>
        have ⟨he, hv⟩ := Vote.read_eq_error_iff.mp hr
        cases he
        exact ⟨⟨i, target, hf⟩, hv⟩
  case mpr =>
    intro ⟨⟨i, target, hf⟩, hv⟩
    rw [locate_of_finds hf, Vote.read_eq_error_iff.mpr ⟨rfl, hv⟩]
    rfl

theorem locate_eq_none_iff :
    r.locate old new = .ok none ↔ ∀ i target text, ¬r.Finds old new i target text := by
  refine ⟨fun h i target text hf => ?_, locate_of_not_finds⟩
  rw [locate_of_finds hf] at h
  cases hr : Vote.read text <;> rw [hr] at h <;> cases h

end Requester

-- What the search for the requester's change comes to.
structure LocationLaw (r : Requester) (old new : List Approver) : Prop where
  found       : ∀ site, r.locate old new = .ok (some site) ↔
    r.Finds old new site.index site.target site.value.text
  unsupported : ∀ text, r.locate old new = .error ⟨text⟩ ↔
    (∃ i target, r.Finds old new i target text) ∧ text ≠ "approve" ∧ text ≠ "reject"
  nothing     : r.locate old new = .ok none ↔ ∀ i target text, ¬r.Finds old new i target text
  -- There is at most one change to find.
  unique      : ∀ i target text j target' text', r.Finds old new i target text →
    r.Finds old new j target' text' → i = j ∧ target = target' ∧ text = text'

theorem location_law (r : Requester) (old new : List Approver) : LocationLaw r old new where
  found _            := Requester.locate_eq_some_iff.trans Requester.finds_iff.symm
  unsupported _      := Requester.locate_eq_unsupported_iff
  nothing            := Requester.locate_eq_none_iff
  unique _ _ _ _ _ _ := Requester.Finds.unique

end Countersign
