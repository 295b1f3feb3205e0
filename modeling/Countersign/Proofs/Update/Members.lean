import Countersign.Proofs.Update.Provenance

namespace Countersign

namespace Approver

variable {a : Approver} {m : Member} {name input : String}

def timesListed (a : Approver) (name : String) : Nat :=
  a.members.countP (·.name = name)

theorem mem_members_of_memberInput? (h : a.memberInput? name = some input) :
    ⟨name, input⟩ ∈ a.members := by
  simp only [memberInput?, Option.map_eq_some_iff] at h
  obtain ⟨m, hm, rfl⟩ := h
  have hn : m.name = name := by simpa using List.find?_some hm
  exact hn ▸ List.mem_of_find?_eq_some hm

theorem count_le_timesListed : a.members.count m ≤ a.timesListed m.name := by
  refine List.countP_mono_left fun m' _ h => ?_
  simp_all

-- The only entry of a name is the first one.
theorem memberInput?_of_timesListed_le_one (hm : m ∈ a.members) (h : a.timesListed m.name ≤ 1) :
    a.memberInput? m.name = some m.input := by
  have ⟨input, hi⟩ := Option.isSome_iff_exists.mp (listed_of_mem hm)
  have hm' := mem_members_of_memberInput? hi
  have hl : (a.members.filter (·.name = m.name)).length ≤ 1 := List.countP_eq_length_filter ▸ h
  have h₁ : m ∈ a.members.filter (·.name = m.name) := by simp [hm]
  have h₂ : ⟨m.name, input⟩ ∈ a.members.filter (·.name = m.name) := by simp [hm']
  cases hf : a.members.filter (·.name = m.name)
  case nil => simp [hf] at h₁
  case cons m₁ rest =>
    have hr : rest = [] := by simpa [hf] using hl
    simp only [hf, hr, List.mem_singleton] at h₁ h₂
    rw [hi, h₁, ← h₂]

end Approver

section Allow

variable {t t' : ApprovalTask} {r : Requester} {i : Nat} {before after : Approver}

-- No name but the requester's is new to a group, and what is first listed for it stays.
theorem memberInput?_of_allow (h : decideUpdate t.toState t'.toState r = .allow)
    (hb : t.toState.approvers[i]? = some before) (ha : t'.toState.approvers[i]? = some after)
    {name input : String} (hn : name ≠ r.username) (hi : after.memberInput? name = some input) :
    before.memberInput? name = some input := by
  have hv : Slot.value? ⟨i, .member name⟩ t'.toState.approvers = some input := by
    simp [Slot.value?, ha, Approver.input?, hi]
  cases TaskState.value?_source_of_allow t.proper_toState t'.proper_toState h hv
  case inl hs => simpa [Slot.value?, hb, Approver.input?] using hs
  case inr hc =>
    obtain ⟨_, _, ho⟩ := hc.owned
    exact absurd ho.left hn

theorem count_le_of_allow (h : decideUpdate t.toState t'.toState r = .allow)
    (hb : t.toState.approvers[i]? = some before) (ha : t'.toState.approvers[i]? = some after)
    {m : Member} (hn : m.name ≠ r.username) (ho : after.timesListed m.name ≤ 1) :
    after.members.count m ≤ before.members.count m := by
  by_cases hm : m ∈ after.members
  case neg => simp [List.count_eq_zero_of_not_mem hm]
  case pos =>
    have hi := memberInput?_of_allow h hb ha hn <| Approver.memberInput?_of_timesListed_le_one hm ho
    calc
      after.members.count m ≤ after.timesListed m.name := Approver.count_le_timesListed
      _ ≤ 1 := ho
      _ ≤ before.members.count m :=
        List.one_le_count_iff.mpr <| Approver.mem_members_of_memberInput? hi

end Allow

-- Whether all entries of others in the updated group are entries of the stored one, counted with
-- repetition.
def Approver.NoneForged (r : Requester) (before after : Approver) : Prop :=
  ∀ m : Member, m.name ≠ r.username → after.members.count m ≤ before.members.count m

-- Whether the updated group keeps what is first listed for others, so that an entry that is not of
-- the stored group stands behind another one of its name.
structure Approver.ForgedBehindOnly (r : Requester) (before after : Approver) : Prop where
  first  : ∀ name input, name ≠ r.username → after.memberInput? name = some input →
    before.memberInput? name = some input
  behind : ∀ m : Member, m.name ≠ r.username →
    before.members.count m < after.members.count m → 1 < after.timesListed m.name

theorem forged_behind_only {t t' : ApprovalTask} {r : Requester} {i : Nat} {before after : Approver}
    (h : decideUpdate t.toState t'.toState r = .allow)
    (hb : t.toState.approvers[i]? = some before) (ha : t'.toState.approvers[i]? = some after) :
    Approver.ForgedBehindOnly r before after where
  first _ _       := memberInput?_of_allow h hb ha
  behind _ hn hm  := by
    by_contra ho
    exact Nat.not_le_of_lt hm <| count_le_of_allow h hb ha hn (Nat.le_of_not_lt ho)

-- Carol casts her vote, and behind the entry of Dave, who has not voted, lists one that approves.
def ApprovalTask.daveForged : ApprovalTask :=
  ofGroup [⟨"carol", "approve"⟩, ⟨"dave", ""⟩, ⟨"dave", "approve"⟩]

-- The case of an entry that is forged behind another.
theorem forged_behind_first_entry :
    decideUpdate ApprovalTask.unvoted.toState ApprovalTask.daveForged.toState ⟨"carol", []⟩ =
        .allow ∧
      ∃ before after, ApprovalTask.unvoted.toState.approvers[0]? = some before ∧
        ApprovalTask.daveForged.toState.approvers[0]? = some after ∧
        Approver.ForgedBehindOnly ⟨"carol", []⟩ before after :=
  have h : decideUpdate ApprovalTask.unvoted.toState ApprovalTask.daveForged.toState
      ⟨"carol", []⟩ = .allow := by
    decide
  ⟨h, _, _, rfl, rfl, forged_behind_only (i := 0) h rfl rfl⟩

-- An admitted update may list a vote for someone who has not cast it.
theorem allow_forges_entry :
    ¬∀ (t t' : ApprovalTask) (r : Requester), decideUpdate t.toState t'.toState r = .allow →
      ∀ (i : Nat) (before after : Approver), t.toState.approvers[i]? = some before →
        t'.toState.approvers[i]? = some after → before.isGroup →
        Approver.NoneForged r before after := by
  intro h
  have hf := h .unvoted .daveForged ⟨"carol", []⟩ (by decide) 0 _ _ rfl rfl (by decide)
    ⟨"dave", "approve"⟩ (by decide)
  exact absurd hf (by decide)

end Countersign
