import Countersign.Task.Document
import Countersign.Proofs.Update.Slot

namespace Countersign

-- No entry of a kind without meaning goes by the type name of a user or a group.
def Approver.Proper (a : Approver) : Prop :=
  ∀ typeName, a.kind = .other typeName → ApproverType.ofName? typeName = none

def TaskState.Proper (s : TaskState) : Prop :=
  ∀ a ∈ s.approvers, a.Proper

theorem ApproverDetails.proper_toApprover (d : ApproverDetails) : d.toApprover.Proper := by
  intro typeName h
  simp only [toApprover] at h
  split at h <;> cases h
  assumption

theorem ApprovalTask.proper_toState (t : ApprovalTask) : t.toState.Proper := by
  intro a ha
  have ⟨d, _, hd⟩ := List.mem_map.mp ha
  exact hd ▸ d.proper_toApprover

namespace ApprovalTask

-- A task that waits for two approvals of a group.
def ofGroup (members : List UserDetails) : ApprovalTask :=
  ⟨"", "", .null, ⟨[⟨"qa", "", ApproverType.group.name, members⟩], 2, ""⟩, .empty⟩

def unvoted : ApprovalTask :=
  ofGroup [⟨"carol", ""⟩, ⟨"dave", ""⟩]

def carolApproves : ApprovalTask :=
  ofGroup [⟨"carol", "approve"⟩, ⟨"dave", ""⟩]

end ApprovalTask

-- The same kind, whatever the members of a group.
structure Approver.SameKind (a b : Approver) : Prop where
  typeName : a.typeName = b.typeName
  isUser   : a.isUser = b.isUser
  isGroup  : a.isGroup = b.isGroup

namespace Approver

variable {a b : Approver}

theorem SameKind.symm (h : a.SameKind b) : b.SameKind a :=
  ⟨h.typeName.symm, h.isUser.symm, h.isGroup.symm⟩

theorem SameKind.trans {c : Approver} (h₁ : a.SameKind b) (h₂ : b.SameKind c) : a.SameKind c :=
  ⟨h₁.typeName.trans h₂.typeName, h₁.isUser.trans h₂.isUser, h₁.isGroup.trans h₂.isGroup⟩

theorem sameKind_of_typeName_eq (ha : a.Proper) (hb : b.Proper) (h : a.typeName = b.typeName) :
    a.SameKind b := by
  suffices a.isUser = b.isUser ∧ a.isGroup = b.isGroup from ⟨h, this.left, this.right⟩
  unfold Proper at ha hb
  unfold typeName at h
  unfold isUser isGroup
  cases hk : a.kind <;> cases hl : b.kind <;> simp_all [ApproverType.ofName?, ApproverType.name]
  case group.other => split at hb <;> simp at hb

end Approver

theorem SameEntries.sameKind {old new : TaskState} {i : Nat} {a b : Approver}
    (h : SameEntries old.approvers new.approvers) (ho : old.Proper) (hn : new.Proper)
    (ha : old.approvers[i]? = some a) (hb : new.approvers[i]? = some b) : a.SameKind b :=
  have ha' := ho a <| List.mem_of_getElem? ha
  have hb' := hn b <| List.mem_of_getElem? hb
  Approver.sameKind_of_typeName_eq ha' hb' (h.entry ha hb).right

theorem Approver.disturbed_iff {before after : Approver} {share : Share}
    (hk : before.SameKind after) : before.Disturbed after share ↔
      after.input? share ≠ none ∧ after.input? share ≠ before.input? share := by
  cases share
  case own => simp [Disturbed, input?, eq_comm]
  case member name =>
    have hg (hl : after.memberInput? name ≠ none) : before.isGroup :=
      hk.isGroup.trans <| isGroup_of_listed <| Option.isSome_iff_ne_none.mpr hl
    exact ⟨And.right, fun h => ⟨hg h.left, h⟩⟩

-- Between tasks with the same entries, a slot is disturbed if and only if it is still there and
-- reads otherwise than before.
theorem Slot.disturbed_iff {old new : TaskState} {x : Slot}
    (he : SameEntries old.approvers new.approvers) (ho : old.Proper) (hn : new.Proper) :
    x.Disturbed old.approvers new.approvers ↔
      x.value? new.approvers ≠ none ∧ x.value? new.approvers ≠ x.value? old.approvers := by
  cases hb : old.approvers[x.index]?
  case none =>
    have ha : new.approvers[x.index]? = none := by
      simpa [List.getElem?_eq_none_iff, he.length] using hb
    simp [Disturbed, value?, hb, ha]
  case some before =>
    have ⟨after, ha⟩ := he.counterpart hb
    simp [Disturbed, value?, hb, ha, Approver.disturbed_iff (he.sameKind ho hn hb ha)]

end Countersign
