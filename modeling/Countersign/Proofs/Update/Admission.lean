import Countersign.Judge
import Countersign.Proofs.Update.Location

namespace Countersign

-- A vote cast at a slot: it is the only slot that the update disturbs, it then holds a proper vote,
-- it is the requester's own, and no user entry of theirs stands before it.
structure Slot.Cast (x : Slot) (old new : List Approver) (r : Requester) : Prop where
  only  : ∀ y : Slot, y.Disturbed old new ↔ y = x
  value : x.value? new = some "approve" ∨ x.value? new = some "reject"
  owned : x.OwnedBy old r
  first : ∀ i < x.index, ∀ before, old[i]? = some before → ¬before.IsUserOf r

structure Admissible (old new : TaskState) (r : Requester) : Prop where
  pending : old.phase = .pending
  unmet   : old.received ≠ old.required
  entries : SameEntries old.approvers new.approvers
  vote    : ∃ x : Slot, x.Cast old.approvers new.approvers r

namespace TaskState

variable {s : TaskState} {r : Requester}

theorem isClosed_eq_false_iff :
    s.isClosed = false ↔ s.phase = .pending ∧ s.received ≠ s.required := by
  unfold isClosed
  cases s.phase <;> simp [Phase.isFinal]

theorem isClosed_eq_false_of_refusal?_eq_none (h : s.refusal? r = none) : s.isClosed = false := by
  unfold refusal? at h
  split at h <;> simp_all

theorem refusal?_eq_none_of_ownedBy {x : Slot} (hc : s.isClosed = false)
    (ho : x.OwnedBy s.approvers r) : s.refusal? r = none := by
  have ⟨a, ha, ho⟩ := ho
  have hm : s.approvers.any (·.designates r) :=
    List.any_eq_true.mpr ⟨a, List.mem_of_getElem? ha, ho.designates⟩
  simp [refusal?, hc, hm]

end TaskState

namespace Requester

variable {r : Requester} {old new : List Approver}

theorem cast_of_located {site : ChangeSite} (hl : r.locate old new = .ok (some site))
    (hi : r.isolated site old new) : Slot.Cast ⟨site.index, site.target.share r⟩ old new r := by
  have ⟨before, hs⟩ := locate_eq_some_iff.mp hl
  have ⟨i, hk, hb, hp, hf⟩ := settleFrom_eq_some_iff.mp hs
  simp only [Nat.zero_add] at hk
  subst hk
  have ⟨he, hd⟩ := isolated_iff.mp hi
  have ⟨after, ha⟩ := he.counterpart hb
  have p := proposes_of_settles? (ha ▸ hp)
  refine ⟨fun y => ⟨fun hy => ?only, fun hy => ?disturbed⟩, ?value, ⟨before, hb, p.owned⟩, ?first⟩
  case only =>
    have ⟨hk, _, _, hl⟩ := hd y hy
    exact Slot.ext hk hl.share_eq
  case disturbed => exact hy ▸ ⟨before, after, hb, ha, p.disturbed⟩
  case value =>
    have hv : Slot.value? ⟨site.index, site.target.share r⟩ new = some site.value.text := by
      simp [Slot.value?, ha, p.input]
    cases hw : site.value
    all_goals simp [hv, hw, Vote.text]
  case first =>
    intro j hj before hb
    exact not_isUserOf_of_settles?_eq_none (hf j hj before hb)

theorem located_of_cast {x : Slot} (he : SameEntries old new) (hc : x.Cast old new r) :
    ∃ site, r.locate old new = .ok (some site) ∧ r.isolated site old new := by
  have ⟨before, hb, ho⟩ := hc.owned
  have ⟨after, ha⟩ := he.counterpart hb
  have ⟨_, _, hb', ha', hd⟩ := hc.only x |>.mpr rfl
  cases Option.some.inj (hb.symm.trans hb')
  cases Option.some.inj (ha.symm.trans ha')
  have ⟨q, hq⟩ := settles?_eq_some_of_disturbed (he.entry hb ha).left ho hd
  have p := proposes_of_settles? hq
  have hx : ⟨x.index, q.target.share r⟩ = x :=
    hc.only _ |>.mp ⟨before, after, hb, ha, p.disturbed⟩
  have hv : ∃ v : Vote, q.input = v.text := by
    have hi : x.value? new = some q.input := by
      simp only [Slot.value?, ha, Option.bind_some, ← congrArg Slot.share hx, p.input]
    cases hc.value
    case inl h => exact ⟨.approve, Option.some.inj (hi.symm.trans h)⟩
    case inr h => exact ⟨.reject, Option.some.inj (hi.symm.trans h)⟩
  have ⟨v, hv⟩ := hv
  refine ⟨⟨x.index, q.target, v⟩, locate_eq_some_iff.mpr ⟨before, ?_⟩, isolated_iff.mpr ⟨he, ?_⟩⟩
  · refine settleFrom_eq_some_iff.mpr ⟨x.index, by simp, hb, ?_, fun j hj before hb => ?_⟩
    · exact hv ▸ ha ▸ hq
    -- The scan passes over what stands before, as nothing is disturbed there.
    · have ⟨_, ha⟩ := he.counterpart hb
      rw [ha]
      refine settles?_eq_none_of_undisturbed (hc.first j hj before hb) fun share _ hd => ?_
      have := hc.only ⟨j, share⟩ |>.mp ⟨_, _, hb, ha, hd⟩
      exact absurd (congrArg Slot.index this) (Nat.ne_of_lt hj)
  · intro y hy
    cases hc.only y |>.mp hy
    exact ⟨rfl, before, hb, congrArg Slot.share hx ▸ p.licensed⟩

end Requester

variable {old new : TaskState} {r : Requester}

theorem admissible_of_allow (h : decideUpdate old new r = .allow) : Admissible old new r := by
  unfold decideUpdate at h
  split at h
  · cases h
  case h_2 hr =>
    have ⟨hp, hu⟩ := TaskState.isClosed_eq_false_iff.mp <|
      TaskState.isClosed_eq_false_of_refusal?_eq_none hr
    split at h
    · cases h
    · cases h
    case h_3 site hl =>
      split at h <;> cases h
      case isTrue hi =>
        have ⟨he, _⟩ := Requester.isolated_iff.mp hi
        exact ⟨hp, hu, he, _, Requester.cast_of_located hl hi⟩

-- The slot that an admitted update disturbs is the one its vote is cast at.
theorem cast_of_allow {x : Slot} (h : decideUpdate old new r = .allow)
    (hd : x.Disturbed old.approvers new.approvers) : x.Cast old.approvers new.approvers r := by
  have ⟨_, hc⟩ := admissible_of_allow h |>.vote
  exact hc.only x |>.mp hd ▸ hc

theorem allow_of_admissible (h : Admissible old new r) : decideUpdate old new r = .allow := by
  have ⟨x, hc⟩ := h.vote
  have hs := TaskState.isClosed_eq_false_iff.mpr ⟨h.pending, h.unmet⟩
  have ⟨site, hl, hi⟩ := Requester.located_of_cast h.entries hc
  simp [decideUpdate, TaskState.refusal?_eq_none_of_ownedBy hs hc.owned, hl, hi]

-- The law of admission. Eligibility, the search for the requester's change and the check for a
-- single change together admit an update if and only if it casts one vote of the requester's and
-- keeps everything else.
theorem decideUpdate_eq_allow_iff_admissible :
    decideUpdate old new r = .allow ↔ Admissible old new r :=
  ⟨admissible_of_allow, allow_of_admissible⟩

end Countersign
