import Countersign.Proofs.Update.Provenance

namespace Countersign

-- What an admitted update does not change reads as before, if it is still there.
theorem value?_eq_of_ne {old new : TaskState} {r : Requester} {x y : Slot}
    (h : decideUpdate old new r = .allow) (ho : old.Proper) (hn : new.Proper)
    (hd : x.Disturbed old.approvers new.approvers) (hy : y ≠ x)
    (hl : y.value? new.approvers ≠ none) : y.value? new.approvers = y.value? old.approvers := by
  have ⟨_, hv⟩ := Option.ne_none_iff_exists'.mp hl
  cases TaskState.value?_source_of_allow ho hn h hv
  case inl hs => exact hv.trans hs.symm
  case inr hc => exact absurd (hc.only x |>.mp hd).symm hy

-- Two updates of one task that are both admitted, and the different slots they change.
structure Race (t t₁ t₂ : ApprovalTask) (r₁ r₂ : Requester) (x₁ x₂ : Slot) : Prop where
  allowed₁ : decideUpdate t.toState t₁.toState r₁ = .allow
  allowed₂ : decideUpdate t.toState t₂.toState r₂ = .allow
  changes₁ : x₁.Disturbed t.toState.approvers t₁.toState.approvers
  changes₂ : x₂.Disturbed t.toState.approvers t₂.toState.approvers
  ne       : x₁ ≠ x₂

namespace Race

variable {t t₁ t₂ : ApprovalTask} {r₁ r₂ : Requester} {x₁ x₂ y : Slot}

theorem entries₁ (h : Race t t₁ t₂ r₁ r₂ x₁ x₂) :
    SameEntries t.toState.approvers t₁.toState.approvers :=
  admissible_of_allow h.allowed₁ |>.entries

theorem entries₂ (h : Race t t₁ t₂ r₁ r₂ x₁ x₂) :
    SameEntries t.toState.approvers t₂.toState.approvers :=
  admissible_of_allow h.allowed₂ |>.entries

theorem entries (h : Race t t₁ t₂ r₁ r₂ x₁ x₂) :
    SameEntries t₁.toState.approvers t₂.toState.approvers :=
  h.entries₁.symm.trans h.entries₂

theorem disturbed_iff (h : Race t t₁ t₂ r₁ r₂ x₁ x₂) :
    y.Disturbed t₁.toState.approvers t₂.toState.approvers ↔
      y.value? t₂.toState.approvers ≠ none ∧
        y.value? t₂.toState.approvers ≠ y.value? t₁.toState.approvers :=
  Slot.disturbed_iff h.entries t₁.proper_toState t₂.proper_toState

theorem value?_eq₁ (h : Race t t₁ t₂ r₁ r₂ x₁ x₂) (hy : y ≠ x₁)
    (hl : y.value? t₁.toState.approvers ≠ none) :
    y.value? t₁.toState.approvers = y.value? t.toState.approvers :=
  value?_eq_of_ne h.allowed₁ t.proper_toState t₁.proper_toState h.changes₁ hy hl

theorem value?_eq₂ (h : Race t t₁ t₂ r₁ r₂ x₁ x₂) (hy : y ≠ x₂)
    (hl : y.value? t₂.toState.approvers ≠ none) :
    y.value? t₂.toState.approvers = y.value? t.toState.approvers :=
  value?_eq_of_ne h.allowed₂ t.proper_toState t₂.proper_toState h.changes₂ hy hl

-- The second update is a change of the stored task as well: the first has left its slot alone.
theorem disturbed₂ (h : Race t t₁ t₂ r₁ r₂ x₁ x₂) :
    x₂.Disturbed t₁.toState.approvers t₂.toState.approvers := by
  have ⟨hl, hv⟩ := Slot.disturbed_iff h.entries₂ t.proper_toState t₂.proper_toState |>.mp h.changes₂
  refine h.disturbed_iff.mpr ⟨hl, fun he => hv ?_⟩
  exact he.trans <| h.value?_eq₁ h.ne.symm (he ▸ hl)

-- It takes back the first vote, unless it no longer lists the member who cast it.
theorem disturbed₁ (h : Race t t₁ t₂ r₁ r₂ x₁ x₂) (hl : x₁.value? t₂.toState.approvers ≠ none) :
    x₁.Disturbed t₁.toState.approvers t₂.toState.approvers := by
  have ⟨_, hv⟩ := Slot.disturbed_iff h.entries₁ t.proper_toState t₁.proper_toState |>.mp h.changes₁
  refine h.disturbed_iff.mpr ⟨hl, fun he => hv ?_⟩
  exact he.symm.trans <| h.value?_eq₂ h.ne hl

-- A task has all entries of its rival, so an entry's own input is never missing.
theorem value?_ne_none_of_own (h : Race t t₁ t₂ r₁ r₂ x₁ x₂) (ho : x₁.share = .own) :
    x₁.value? t₂.toState.approvers ≠ none := by
  have ⟨before, _, hb, _⟩ := h.changes₁
  have ⟨after, ha⟩ := h.entries₂.counterpart hb
  simp [Slot.value?, ha, ho, Approver.input?]

-- No user entry of the second requester's stands before their slot in the stored task either.
theorem not_isUserOf_of_lt (h : Race t t₁ t₂ r₁ r₂ x₁ x₂) {i : Nat} (hi : i < x₂.index)
    {a : Approver} (ha : t₁.toState.approvers[i]? = some a) : ¬a.IsUserOf r₂ := by
  intro ⟨hu, hn⟩
  have ⟨b, hb⟩ := h.entries₁.symm.counterpart ha
  have hk := h.entries₁.sameKind t.proper_toState t₁.proper_toState hb ha
  refine (cast_of_allow h.allowed₂ h.changes₂).first i hi b hb ⟨hk.isUser.trans hu, ?_⟩
  exact (h.entries₁.entry hb ha).left.trans hn

-- When the second update is still admitted after the first: the task is open, the slot is still the
-- second requester's, and their update neither lists the first voter any more nor anyone else whom
-- the first update has dropped.
theorem allowed_after_iff (h : Race t t₁ t₂ r₁ r₂ x₁ x₂) :
    decideUpdate t₁.toState t₂.toState r₂ = .allow ↔
      t₁.toState.isClosed = false ∧ x₂.OwnedBy t₁.toState.approvers r₂ ∧
        x₁.value? t₂.toState.approvers = none ∧
        ∀ y ≠ x₂, y.value? t₂.toState.approvers ≠ none → y.value? t₁.toState.approvers ≠ none := by
  constructor
  case mp =>
    intro ha
    have hc := cast_of_allow ha h.disturbed₂
    have ⟨hp, hu, _, _⟩ := admissible_of_allow ha
    refine ⟨TaskState.isClosed_eq_false_iff.mpr ⟨hp, hu⟩, hc.owned, ?dropped, fun y hy hl he => ?kept⟩
    case dropped =>
      by_contra hl
      exact h.ne <| hc.only x₁ |>.mp <| h.disturbed₁ hl
    case kept =>
      have hd := h.disturbed_iff.mpr ⟨hl, fun hv => hl (hv.trans he)⟩
      exact hy <| hc.only y |>.mp hd
  case mpr =>
    intro ⟨ho, hw, hx, hk⟩
    have ⟨hp, hu⟩ := TaskState.isClosed_eq_false_iff.mp ho
    refine allow_of_admissible ⟨hp, hu, h.entries, x₂, fun y => ⟨fun hd => ?only, fun hy => ?cast⟩,
      (cast_of_allow h.allowed₂ h.changes₂).value, hw, fun i hi a ha => h.not_isUserOf_of_lt hi ha⟩
    case cast => exact hy ▸ h.disturbed₂
    case only =>
      by_contra hy
      have ⟨hl, hv⟩ := h.disturbed_iff.mp hd
      have hy₁ : y ≠ x₁ := fun he => hl (he ▸ hx)
      exact hv <| (h.value?_eq₂ hy hl).trans (h.value?_eq₁ hy₁ (hk y hy hl)).symm

end Race

-- First committer wins: once the first of two rival updates is stored, the second is refused, as it
-- would put back the input that the first has changed.
theorem first_committer_wins {t t₁ t₂ : ApprovalTask} {r₁ r₂ : Requester} {x₁ x₂ : Slot}
    (h : Race t t₁ t₂ r₁ r₂ x₁ x₂)
    (hl : x₁.share = .own ∨ (x₁.value? t₂.toState.approvers).isSome) :
    decideUpdate t₁.toState t₂.toState r₂ ≠ .allow := by
  intro ha
  have ⟨_, _, hn, _⟩ := h.allowed_after_iff.mp ha
  cases hl
  case inl ho => exact h.value?_ne_none_of_own ho hn
  case inr hs => simp [hn] at hs

namespace ApprovalTask

def daveRejects : ApprovalTask :=
  ofGroup [⟨"dave", "reject"⟩, ⟨"carol", ""⟩]

-- Dave's vote without Carol.
def daveAlone : ApprovalTask :=
  ofGroup [⟨"dave", "reject"⟩]

end ApprovalTask

-- The case of two members of one group.
theorem second_member_refused :
    Race .unvoted .carolApproves .daveRejects ⟨"carol", []⟩ ⟨"dave", []⟩
        ⟨0, .member "carol"⟩ ⟨0, .member "dave"⟩ ∧
      (Slot.value? ⟨0, .member "carol"⟩ ApprovalTask.daveRejects.toState.approvers).isSome ∧
      decideUpdate ApprovalTask.carolApproves.toState ApprovalTask.daveRejects.toState
        ⟨"dave", []⟩ ≠ .allow :=
  have hr : Race .unvoted .carolApproves .daveRejects ⟨"carol", []⟩ ⟨"dave", []⟩
      ⟨0, .member "carol"⟩ ⟨0, .member "dave"⟩ := {
    allowed₁ := by decide
    allowed₂ := by decide
    changes₁ := ⟨_, _, rfl, rfl, rfl, by decide, by decide⟩
    changes₂ := ⟨_, _, rfl, rfl, rfl, by decide, by decide⟩
    ne       := by decide }
  have hl : (Slot.value? ⟨0, .member "carol"⟩ ApprovalTask.daveRejects.toState.approvers).isSome :=
    by decide
  ⟨hr, hl, first_committer_wins hr (.inr hl)⟩

-- What is left open is an update that does not list the first voter any more.
example : decideUpdate ApprovalTask.carolApproves.toState ApprovalTask.daveAlone.toState
    ⟨"dave", []⟩ = .allow := by
  decide

end Countersign
