import Countersign.Proofs.Update.Isolation
import Countersign.Proofs.Update.Kind

namespace Countersign

-- Targets that differ at most in where the member stands.
inductive Target.SameForm : Target → Target → Prop
  | userInput : SameForm .userInput .userInput
  | groupInput : SameForm .groupInput .groupInput
  | memberAdded (p q : Nat) : SameForm (.memberAdded p) (.memberAdded q)
  | memberInput (p q : Nat) : SameForm (.memberInput p) (.memberInput q)

namespace Target

variable {t : Target}

theorem isMemberInput_iff : t.isMemberInput ↔ ∃ p, t = .memberInput p := by
  cases t <;> simp [isMemberInput]

theorem isMemberAdded_iff : t.isMemberAdded ↔ ∃ p, t = .memberAdded p := by
  cases t <;> simp [isMemberAdded]

namespace SameForm

variable {t t' : Target} (h : t.SameForm t')

include h

theorem symm : t'.SameForm t := by
  cases h <;> constructor

theorem userInput_iff : t = .userInput ↔ t' = .userInput := by
  cases h <;> simp

theorem groupInput_iff : t = .groupInput ↔ t' = .groupInput := by
  cases h <;> simp

theorem memberAdded_iff : (∃ p, t = .memberAdded p) ↔ ∃ p, t' = .memberAdded p := by
  cases h <;> simp

theorem memberInput_iff : (∃ p, t = .memberInput p) ↔ ∃ p, t' = .memberInput p := by
  cases h <;> simp

end SameForm

end Target

theorem Requester.inGroup_iff {r : Requester} {name : String} :
    r.inGroup name ↔ name ∈ r.groups := by
  simp [inGroup]

namespace Approver

def Lists (a : Approver) (name : String) : Prop :=
  ∃ m ∈ a.members, m.name = name

theorem lists_iff {a : Approver} {name : String} :
    a.Lists name ↔ (a.memberInput? name).isSome :=
  mem_members_iff_listed

theorem not_lists_iff {a : Approver} {name : String} :
    ¬a.Lists name ↔ a.memberInput? name = none := by
  simp [lists_iff]

-- Stored entries that an update cannot tell apart: they differ at most in members whose names the
-- updated entry does not list.
structure AlikeFor (after a b : Approver) : Prop where
  name   : a.name = b.name
  kind   : a.SameKind b
  input  : a.input = b.input
  member : ∀ name, after.Lists name → a.memberInput? name = b.memberInput? name

theorem AlikeFor.symm {after a b : Approver} (h : AlikeFor after a b) : AlikeFor after b a :=
  ⟨h.name.symm, h.kind.symm, h.input.symm, fun name hl => (h.member name hl).symm⟩

end Approver

namespace ChangeSite

-- The site explains a difference in the own input of the entry at `i`.
structure ExplainsInput (site : ChangeSite) (i : Nat) (before : Approver) : Prop where
  index  : i = site.index
  target : before.isUser ∧ site.target = .userInput ∨ before.isGroup ∧ site.target = .groupInput

-- The site explains a difference in what the group at `i` lists for a name.
structure ExplainsMember (site : ChangeSite) (r : Requester) (i : Nat) (before : Approver)
    (name : String) : Prop where
  own    : name = r.username
  index  : i = site.index
  target : (before.Lists name ∧ ∃ p, site.target = .memberInput p) ∨
    (¬before.Lists name ∧ (∃ p, site.target = .memberAdded p) ∧ before.name ∈ r.groups)

-- The site explains every difference between the entry at `i` and its update.
structure Explains (site : ChangeSite) (r : Requester) (i : Nat) (before after : Approver) :
    Prop where
  name     : before.name = after.name
  typeName : before.typeName = after.typeName
  input    : before.input = after.input ∨ site.ExplainsInput i before
  member   : before.isGroup → ∀ name, after.Lists name →
    before.memberInput? name = after.memberInput? name ∨ site.ExplainsMember r i before name

-- The target of a change in the entry at `i`.
def targetAt? (site : ChangeSite) (i : Nat) : Option Target :=
  if site.index = i then some site.target else none

variable {site site' : ChangeSite} {r : Requester} {i : Nat} {before before' after : Approver}
variable {name : String}

theorem licenses_own_iff :
    r.Licenses before (site.targetAt? i) .own ↔ site.ExplainsInput i before := by
  unfold Requester.Licenses targetAt?
  constructor
  case mp =>
    intro ⟨target, hb, ht⟩
    split at ht <;> cases ht
    case isTrue hi =>
      refine ⟨hi.symm, ?_⟩
      unfold Approver.inputTarget? at hb
      unfold Approver.isUser Approver.isGroup
      split at hb <;> simp_all
  case mpr =>
    intro ⟨hi, ht⟩
    rw [if_pos hi.symm]
    cases ht
    case inl h => exact ⟨_, Approver.inputTarget?_of_isUser h.left, congrArg some h.right⟩
    case inr h => exact ⟨_, Approver.inputTarget?_of_isGroup h.left, congrArg some h.right⟩

theorem licenses_member_iff (hg : before.isGroup) :
    r.Licenses before (site.targetAt? i) (.member name) ↔ site.ExplainsMember r i before name := by
  unfold Requester.Licenses targetAt?
  constructor
  case mp =>
    intro ⟨hn, hm, ht⟩
    by_cases hi : site.index = i
    case neg => simp [hi] at ht
    case pos =>
      refine ⟨hn, hi.symm, ?_⟩
      simp only [hi, if_true, Option.any_some] at ht
      split at ht
      case isTrue hl => exact .inl ⟨Approver.lists_iff.mpr hl, Target.isMemberInput_iff.mp ht⟩
      case isFalse hl =>
        -- Whom a group does not list belongs to it only by claiming its name.
        have hl := mt Approver.lists_iff.mp hl
        have hc := Requester.isMemberOf_iff_inGroup hg (hn ▸ Approver.not_lists_iff.mp hl) |>.mp hm
        exact .inr ⟨hl, Target.isMemberAdded_iff.mp ht, Requester.inGroup_iff.mp hc⟩
  case mpr =>
    intro ⟨hn, hi, ht⟩
    rw [if_pos hi.symm]
    cases ht
    case inl h =>
      have hl := Approver.lists_iff.mp h.left
      refine ⟨hn, Requester.isMemberOf_of_listed (hn ▸ hl), ?_⟩
      simp [hl, Target.isMemberInput_iff.mpr h.right]
    case inr h =>
      have ⟨hl, ht, hc⟩ := h
      have hl := Approver.not_lists_iff.mp hl
      have hm := Requester.isMemberOf_iff_inGroup hg (hn ▸ hl) |>.mpr (Requester.inGroup_iff.mpr hc)
      exact ⟨hn, hm, by simp [hl, Target.isMemberAdded_iff.mpr ht]⟩

-- The check of one entry finds nothing wrong if and only if the site explains every difference.
theorem explains_iff :
    r.violation? before after (site.targetAt? i) = none ↔ site.Explains r i before after := by
  rw [Requester.violation?_eq_none_iff]
  constructor
  case mp =>
    intro ⟨hn, ht, hs⟩
    refine ⟨hn, ht, ?input, fun hg name hl => ?member⟩
    case input =>
      exact Classical.or_iff_not_imp_left.mpr fun hd => licenses_own_iff.mp (hs .own hd)
    case member =>
      refine Classical.or_iff_not_imp_left.mpr fun hd => licenses_member_iff hg |>.mp ?_
      exact hs (.member name) ⟨hg, mt Approver.not_lists_iff.mpr (not_not.mpr hl), Ne.symm hd⟩
  case mpr =>
    intro h
    refine ⟨h.name, h.typeName, fun share hd => ?_⟩
    cases share
    case own => exact licenses_own_iff.mpr <| h.input.resolve_left hd
    case member name =>
      have ⟨hg, hl, hd⟩ := hd
      have hl := not_not.mp <| mt Approver.not_lists_iff.mp hl
      exact licenses_member_iff hg |>.mpr <| h.member hg name hl |>.resolve_left (Ne.symm hd)

theorem Explains.of_sameForm (hi : site'.index = site.index)
    (hf : site.target.SameForm site'.target) (h : site.Explains r i before after) :
    site'.Explains r i before after where
  name     := h.name
  typeName := h.typeName
  input    := h.input.imp_right fun ⟨hx, ht⟩ => by
    refine ⟨hx.trans hi.symm, ht.imp ?_ ?_⟩
    · exact fun ht => ⟨ht.left, hf.userInput_iff.mp ht.right⟩
    · exact fun ht => ⟨ht.left, hf.groupInput_iff.mp ht.right⟩
  member hg name hl := (h.member hg name hl).imp_right fun ⟨hn, hx, ht⟩ => by
    refine ⟨hn, hx.trans hi.symm, ht.imp ?_ ?_⟩
    · exact fun ht => ⟨ht.left, hf.memberInput_iff.mp ht.right⟩
    · exact fun ht => ⟨ht.left, hf.memberAdded_iff.mp ht.right.left, ht.right.right⟩

theorem Explains.of_alikeFor (ha : Approver.AlikeFor after before before')
    (h : site.Explains r i before after) : site.Explains r i before' after where
  name     := ha.name.symm.trans h.name
  typeName := ha.kind.typeName.symm.trans h.typeName
  input    := by
    rw [← ha.input]
    refine h.input.imp_right fun ⟨hx, ht⟩ => ⟨hx, ?_⟩
    rw [← ha.kind.isUser, ← ha.kind.isGroup]
    exact ht
  member hg name hl := by
    have hm := ha.member name hl
    rw [← hm]
    refine (h.member (ha.kind.isGroup ▸ hg) name hl).imp_right fun ⟨hn, hx, ht⟩ => ⟨hn, hx, ?_⟩
    rwa [Approver.lists_iff, ← hm, ← Approver.lists_iff, ← ha.name]

end ChangeSite

namespace Requester

variable {r : Requester} {site : ChangeSite} {old new : List Approver} {k : Nat}

-- The scan over the entries stops at the first one with a difference that is not explained.
theorem exists_of_breachFrom? {b : Breach} (h : r.breachFrom? site k old new = some b) :
    ∃ i before after v, b = .entry (k + i) before.name v ∧ old[i]? = some before ∧
      new[i]? = some after ∧ ¬site.Explains r (k + i) before after ∧
      ∀ j < i, ∀ b a, old[j]? = some b → new[j]? = some a → site.Explains r (k + j) b a := by
  induction old generalizing new k <;> cases new <;> simp only [breachFrom?, reduceCtorEq] at h
  case cons.cons before old hi after new =>
    split at h
    case h_1 v hv =>
      cases h
      refine ⟨0, before, after, v, rfl, rfl, rfl, fun he => ?_, by simp⟩
      have hn := ChangeSite.explains_iff.mpr he
      rw [ChangeSite.targetAt?, Nat.add_zero, hv] at hn
      cases hn
    case h_2 hv =>
      obtain ⟨i, b, a, v, rfl, hb, ha, hd, hf⟩ := hi h
      rw [Nat.add_assoc, Nat.add_comm 1] at *
      refine ⟨i + 1, b, a, v, rfl, hb, ha, hd, fun j hj b' a' hb' ha' => ?_⟩
      cases j
      case zero =>
        cases hb'
        cases ha'
        exact ChangeSite.explains_iff.mp hv
      case succ j =>
        have := hf j (Nat.lt_of_succ_lt_succ hj) b' a' hb' ha'
        rwa [Nat.add_assoc, Nat.add_comm 1] at this

-- What a failed check reports: the lengths if they differ, else the first entry with a difference
-- that the site does not explain.
inductive Reports (r : Requester) (site : ChangeSite) (old new : List Approver) : Breach → Prop
  | lengths (h : old.length ≠ new.length) : Reports r site old new (.lengths old.length new.length)
  | entry {i : Nat} {before after : Approver} {v : Violation} (hl : old.length = new.length)
    (hb : old[i]? = some before) (ha : new[i]? = some after)
    (hd : ¬site.Explains r i before after)
    (hf : ∀ j < i, ∀ b a, old[j]? = some b → new[j]? = some a → site.Explains r j b a) :
    Reports r site old new (.entry i before.name v)

theorem reports_of_breach? {b : Breach} (h : r.breach? site old new = some b) :
    r.Reports site old new b := by
  unfold breach? at h
  split at h
  case isTrue hl =>
    cases h
    exact .lengths hl
  case isFalse hl =>
    obtain ⟨i, before, after, v, rfl, hb, ha, hd, hf⟩ := exists_of_breachFrom? h
    simp only [Nat.zero_add] at *
    exact .entry (not_not.mp hl) hb ha hd hf

theorem isolated_iff_explains : r.isolated site old new ↔ old.length = new.length ∧
    ∀ i before after, old[i]? = some before → new[i]? = some after →
      site.Explains r i before after := by
  unfold isolated breach?
  split
  case isTrue hl => simp [hl]
  case isFalse hl =>
    rw [Option.isNone_iff_eq_none, breachFrom?_eq_none_iff]
    simp only [Nat.zero_add, ← ChangeSite.explains_iff, ChangeSite.targetAt?]
    simp [not_not.mp hl]

theorem isolated_of_sameForm {site' : ChangeSite} (hi : site'.index = site.index)
    (hf : site.target.SameForm site'.target) (h : r.isolated site old new) :
    r.isolated site' old new := by
  have ⟨hl, he⟩ := isolated_iff_explains.mp h
  exact isolated_iff_explains.mpr ⟨hl, fun i before after hb ha =>
    he i before after hb ha |>.of_sameForm hi hf⟩

theorem isolated_of_alikeFor {old' : List Approver} (hl : old'.length = old.length)
    (ha : ∀ (i : Nat) (a b after : Approver), old[i]? = some a → old'[i]? = some b →
      new[i]? = some after → Approver.AlikeFor after a b)
    (h : r.isolated site old new) : r.isolated site old' new := by
  have ⟨hn, he⟩ := isolated_iff_explains.mp h
  refine isolated_iff_explains.mpr ⟨hl.trans hn, fun i b after hb hc => ?_⟩
  have ⟨hi, _⟩ := List.getElem?_eq_some_iff.mp hb
  have hd := List.getElem?_eq_getElem (hl ▸ hi)
  exact he i _ after hd hc |>.of_alikeFor (ha i _ b after hd hb hc)

end Requester

-- What isolation comes to, for any site.
structure IsolationLaw (r : Requester) (site : ChangeSite) (old new : List Approver) : Prop where
  exact   : r.isolated site old new ↔ old.length = new.length ∧
    ∀ (i : Nat) (before after : Approver), old[i]? = some before → new[i]? = some after →
      site.Explains r i before after
  -- The site's value and the position of its member make no difference.
  form    : ∀ site' : ChangeSite, site'.index = site.index → site.target.SameForm site'.target →
    r.isolated site' old new = r.isolated site old new
  -- Members whose names the updated groups do not list make no difference.
  dropped : ∀ old' : List Approver, old'.length = old.length →
    (∀ (i : Nat) (a b after : Approver), old[i]? = some a → old'[i]? = some b →
      new[i]? = some after → Approver.AlikeFor after a b) →
    r.isolated site old' new = r.isolated site old new

theorem isolation_law (r : Requester) (site : ChangeSite) (old new : List Approver) :
    IsolationLaw r site old new where
  exact := Requester.isolated_iff_explains
  form _ hi hf := Bool.eq_iff_iff.mpr
    ⟨Requester.isolated_of_sameForm hi.symm hf.symm, Requester.isolated_of_sameForm hi hf⟩
  dropped _ hl h := Bool.eq_iff_iff.mpr
    ⟨Requester.isolated_of_alikeFor hl.symm fun i b a after hb ha hc => (h i a b after ha hb hc).symm,
      Requester.isolated_of_alikeFor hl h⟩

-- No search finds this site: the member stands at another position and gives another vote.
example :
    Requester.isolated ⟨"carol", ["qa"]⟩ ⟨0, .memberAdded 7, .reject⟩
      [⟨"qa", "", .group []⟩] [⟨"qa", "", .group [⟨"carol", "approve"⟩]⟩] := by
  decide

end Countersign
