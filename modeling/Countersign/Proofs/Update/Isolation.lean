import Mathlib.Tactic.ByContra
import Countersign.Isolation
import Countersign.Proofs.Update.Slot

namespace Countersign

namespace Target

-- The share that a change at the target is made to.
def share (r : Requester) : Target → Share
  | userInput | groupInput           => .own
  | memberAdded _ | memberInput _ => .member r.username

end Target

namespace Approver

variable {a : Approver}

theorem inputTarget?_of_isUser (h : a.isUser) : a.inputTarget? = some .userInput := by
  unfold isUser at h
  unfold inputTarget?
  split at h <;> simp_all

theorem inputTarget?_of_isGroup (h : a.isGroup) : a.inputTarget? = some .groupInput := by
  unfold isGroup at h
  unfold inputTarget?
  split at h <;> simp_all

end Approver

namespace Requester

-- Whether a change located at the target accounts for a disturbed share of the entry.
def Licenses (r : Requester) (before : Approver) (target? : Option Target) : Share → Prop
  | .own => ∃ target, before.inputTarget? = some target ∧ target? = some target
  | .member name => name = r.username ∧ r.isMemberOf before ∧
      if (before.memberInput? name).isSome then target?.any Target.isMemberInput
      else target?.any Target.isMemberAdded

variable {r : Requester} {before after : Approver} {target? : Option Target} {target : Target}

theorem not_licenses_none {share : Share} : ¬r.Licenses before none share := by
  cases share
  case own    => simp [Licenses]
  case member => intro h; have := h.right.right; split at this <;> simp at this

theorem Licenses.share_eq {share : Share} (h : r.Licenses before (some target) share) :
    share = target.share r := by
  cases share
  case own =>
    have ⟨t, ht, he⟩ := h
    cases he
    unfold Approver.inputTarget? at ht
    split at ht <;> cases ht <;> rfl
  case member name =>
    have ⟨hn, _, ht⟩ := h
    subst hn
    cases target
    case memberAdded => rfl
    case memberInput => rfl
    all_goals split at ht <;> simp [Target.isMemberInput, Target.isMemberAdded] at ht

theorem inputChanged_iff (r : Requester) :
    (before.input ≠ after.input ∧ (before.inputTarget?.isNone ∨ target? ≠ before.inputTarget?)) ↔
      ¬(before.Disturbed after .own → r.Licenses before target? .own) := by
  simp only [Approver.Disturbed, Licenses, Classical.not_imp]
  refine and_congr_right fun _ => ?_
  cases before.inputTarget? <;> simp

-- The first loop over members looks at every name that both groups list.
theorem storedMembers_accepted_iff (hg : before.isGroup) :
    before.members.findSome? (r.storedMemberViolation? before after target?) = none ↔
      ∀ name, (before.memberInput? name).isSome → before.Disturbed after (.member name) →
        r.Licenses before target? (.member name) := by
  simp only [List.findSome?_eq_none_iff]
  constructor
  case mp =>
    intro h name hl hd
    have ⟨m, hm, hn⟩ := Approver.mem_members_iff_listed.mpr hl
    subst hn
    have ⟨current, hc⟩ := Option.ne_none_iff_exists'.mp hd.right.left
    have ⟨previous, hp⟩ := Option.isSome_iff_exists.mp hl
    have hne : current ≠ previous := by simpa [hc, hp] using hd.right.right
    have := h m hm
    simp only [storedMemberViolation?, hc, hp, Option.getD_some, hne, if_false] at this
    split at this <;> cases this
    case isTrue ho => exact ⟨ho.left, isMemberOf_of_listed (ho.left ▸ hl), by simp [hl, ho.right]⟩
  case mpr =>
    intro h m hm
    have hl := Approver.listed_of_mem hm
    have ⟨previous, hp⟩ := Option.isSome_iff_exists.mp hl
    unfold storedMemberViolation?
    split
    · rfl
    case h_2 current hc =>
      simp only [hp, Option.getD_some]
      split
      · rfl
      case isFalse hne =>
        have ho := h m.name hl ⟨hg, by simp [hc], by simpa [hc, hp] using hne⟩
        simp [ho.left, by simpa [hl] using ho.right.right]

-- The second loop looks at every name that only the updated group lists.
theorem updatedMembers_accepted_iff (hg : before.isGroup) :
    after.members.findSome? (r.updatedMemberViolation? before target?) = none ↔
      ∀ name, before.memberInput? name = none → before.Disturbed after (.member name) →
        r.Licenses before target? (.member name) := by
  simp only [List.findSome?_eq_none_iff]
  constructor
  case mp =>
    intro h name hl hd
    have ha := Option.isSome_iff_ne_none.mpr hd.right.left
    have ⟨m, hm, hn⟩ := Approver.mem_members_iff_listed.mpr ha
    subst hn
    have := h m hm
    simp only [updatedMemberViolation?, Approver.memberPosition?_isSome, hl] at this
    have hn : m.name = r.username := by by_contra hn; simp [hn] at this
    have hm : r.isMemberOf before := by by_contra hm; simp_all
    have ht : target?.any Target.isMemberAdded := by by_contra ht; simp_all
    exact ⟨hn, hm, by simpa [hl] using ht⟩
  case mpr =>
    intro h m hm
    unfold updatedMemberViolation?
    rw [Approver.memberPosition?_isSome]
    split
    · rfl
    case isFalse hl =>
      have hl : before.memberInput? m.name = none := by simpa using hl
      have ha : after.memberInput? m.name ≠ none :=
        Option.isSome_iff_ne_none.mp (Approver.listed_of_mem hm)
      have ⟨hn, hm, ht⟩ := h m.name hl ⟨hg, ha, hl ▸ ha⟩
      simp_all

theorem violation?_eq_none_iff :
    r.violation? before after target? = none ↔
      before.name = after.name ∧ before.typeName = after.typeName ∧
        ∀ share, before.Disturbed after share → r.Licenses before target? share := by
  unfold violation?
  split
  case isTrue hr =>
    simp only [reduceCtorEq, false_iff]
    exact fun h => hr.elim (· h.left) (· h.right.left)
  case isFalse hr =>
    have ⟨hn, ht⟩ := not_or.mp hr
    simp only [not_not.mp hn, not_not.mp ht, true_and]
    split
    case isTrue hi =>
      simp only [reduceCtorEq, false_iff]
      exact fun h => (inputChanged_iff r).mp hi (h .own)
    case isFalse hi =>
      have ho := Classical.not_not.mp <| mt (inputChanged_iff r).mpr hi
      split
      case isTrue hg =>
        rw [Option.or_eq_none_iff, storedMembers_accepted_iff hg, updatedMembers_accepted_iff hg]
        constructor
        case mpr => exact fun h => ⟨fun name _ => h (.member name), fun name _ => h (.member name)⟩
        case mp =>
          intro ⟨hs, hu⟩ share hd
          cases share
          case own => exact ho hd
          case member name =>
            cases hl : before.memberInput? name
            case none => exact hu name hl hd
            case some => exact hs name (by simp [hl]) hd
      case isFalse hg =>
        simp only [true_iff]
        intro share hd
        cases share
        case own    => exact ho hd
        case member => exact absurd hd.left hg

variable {site : ChangeSite} {old new : List Approver} {k : Nat}

theorem breachFrom?_eq_none_iff :
    r.breachFrom? site k old new = none ↔
      ∀ i before after, old[i]? = some before → new[i]? = some after →
        r.violation? before after
          (if site.index = k + i then some site.target else none) = none := by
  induction old generalizing new k <;> cases new <;> simp only [breachFrom?]
  case cons.cons before old hi after new =>
    constructor
    case mp =>
      intro h i
      split at h
      · cases h
      case h_2 hv =>
        cases i
        case zero   => simpa using hv
        case succ i => simpa [Nat.add_assoc, Nat.add_comm 1] using hi.mp h i
    case mpr =>
      intro h
      have hv := h 0 before after rfl rfl
      simp only [Nat.add_zero] at hv
      rw [hv]
      refine hi.mpr fun i b a hb ha => ?_
      simpa [Nat.add_assoc, Nat.add_comm 1] using h (i + 1) b a hb ha
  all_goals simp

-- Isolation holds for a site if and only if no entry is renamed, retyped, added or removed and the
-- site accounts for every disturbed slot.
theorem isolated_iff :
    r.isolated site old new ↔ SameEntries old new ∧
      ∀ x : Slot, x.Disturbed old new → x.index = site.index ∧
        ∃ before, old[x.index]? = some before ∧ r.Licenses before (some site.target) x.share := by
  unfold isolated breach?
  split
  case isTrue hl => simpa using fun h => absurd h.length hl
  case isFalse hl =>
    rw [Option.isNone_iff_eq_none, breachFrom?_eq_none_iff]
    simp only [violation?_eq_none_iff, Nat.zero_add]
    constructor
    case mp =>
      intro h
      refine ⟨⟨not_not.mp hl, fun hb ha => ?_⟩, fun x ⟨before, after, hb, ha, hd⟩ => ?_⟩
      · have ⟨hn, ht, _⟩ := h _ _ _ hb ha
        exact ⟨hn, ht⟩
      · have hs := (h _ _ _ hb ha).right.right _ hd
        split at hs
        case isTrue hi  => exact ⟨hi.symm, before, hb, hs⟩
        case isFalse hi => exact absurd hs not_licenses_none
    case mpr =>
      intro ⟨he, hs⟩ i before after hb ha
      have ⟨hn, ht⟩ := he.entry hb ha
      refine ⟨hn, ht, fun share hd => ?_⟩
      have ⟨hi, _, hb', hl⟩ := hs ⟨i, share⟩ ⟨before, after, hb, ha, hd⟩
      cases Option.some.inj (hb.symm.trans hb')
      simpa [show site.index = i from hi.symm] using hl

end Requester
end Countersign
