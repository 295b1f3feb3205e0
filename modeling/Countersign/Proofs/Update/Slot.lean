import Countersign.Requester

namespace Countersign

-- A place in one entry: the entry's own input, or that of a member, told by name.
inductive Share
  | own
  | member (name : String)
  deriving DecidableEq

namespace Approver

variable {a before after : Approver} {name : String}

theorem mem_members_iff_listed :
    (∃ m ∈ a.members, m.name = name) ↔ (a.memberInput? name).isSome := by
  simp [memberInput?]

theorem listed_of_mem {m : Member} (h : m ∈ a.members) : (a.memberInput? m.name).isSome :=
  mem_members_iff_listed.mp ⟨m, h, rfl⟩

theorem memberPosition?_isSome :
    (a.memberPosition? name).isSome = (a.memberInput? name).isSome := by
  simp only [memberPosition?, memberInput?, Option.isSome_map, List.findIdx?_isSome]
  rw [Bool.eq_iff_iff, List.find?_isSome, List.any_eq_true]

theorem isGroup_of_mem {m : Member} (h : m ∈ a.members) : a.isGroup := by
  unfold members at h
  unfold isGroup
  split at h <;> simp_all

theorem not_isGroup_of_isUser (h : a.isUser) : ¬a.isGroup := by
  unfold isUser at h
  unfold isGroup
  split at h <;> simp_all

theorem isGroup_of_listed (h : (a.memberInput? name).isSome) : a.isGroup :=
  have ⟨_, hm, _⟩ := mem_members_iff_listed.mpr h
  isGroup_of_mem hm

-- The input at a share. Of several members of one name, the first one counts.
def input? (a : Approver) : Share → Option String
  | .own => some a.input
  | .member name => a.memberInput? name

-- Whether an update of the entry changes what stands at a share. Only a group has shares for its
-- members, and a member that the updated group no longer lists is not disturbed.
def Disturbed (before after : Approver) : Share → Prop
  | .own => before.input ≠ after.input
  | .member name => before.isGroup ∧ after.memberInput? name ≠ none ∧
      after.memberInput? name ≠ before.memberInput? name

end Approver

namespace Requester

variable {r : Requester} {a : Approver}

theorem isMemberOf_of_listed (h : (a.memberInput? r.username).isSome) : r.isMemberOf a := by
  have ⟨m, hm, hn⟩ := Approver.mem_members_iff_listed.mpr h
  unfold Approver.members at hm
  unfold isMemberOf
  cases hk : a.kind <;> simp only [hk, List.not_mem_nil] at hm
  case group members =>
    have hl : members.any (·.name = r.username) := List.any_eq_true.mpr ⟨m, hm, by simpa using hn⟩
    simp [hl]

theorem isGroup_of_isMemberOf (h : r.isMemberOf a) : a.isGroup := by
  unfold isMemberOf at h
  unfold Approver.isGroup
  split at h <;> simp_all

-- A group that does not list the requester is theirs by its name only.
theorem isMemberOf_iff_inGroup (hg : a.isGroup) (h : a.memberInput? r.username = none) :
    r.isMemberOf a ↔ r.inGroup a.name := by
  unfold Approver.isGroup at hg
  unfold Approver.memberInput? Approver.members at h
  unfold isMemberOf
  split <;> simp_all

end Requester

-- Without reading the members beyond what is first listed for the requester.
theorem Requester.isMemberOf_iff {r : Requester} {a : Approver} : r.isMemberOf a ↔
    a.isGroup ∧ (r.inGroup a.name ∨ (a.memberInput? r.username).isSome) := by
  constructor
  case mp =>
    intro hm
    have hg := isGroup_of_isMemberOf hm
    refine ⟨hg, ?_⟩
    cases hl : a.memberInput? r.username
    case none   => exact .inl <| isMemberOf_iff_inGroup hg hl |>.mp hm
    case some _ => exact .inr rfl
  case mpr =>
    intro ⟨hg, h⟩
    cases hl : a.memberInput? r.username
    case none   => exact isMemberOf_iff_inGroup hg hl |>.mpr <| by simpa [hl] using h
    case some _ => exact isMemberOf_of_listed <| by simp [hl]

-- Whether this is the requester's own entry, which goes by their name.
def Approver.IsUserOf (a : Approver) (r : Requester) : Prop :=
  a.isUser ∧ a.name = r.username

theorem Approver.designates_iff {a : Approver} {r : Requester} :
    a.designates r ↔ a.IsUserOf r ∨ r.isMemberOf a := by
  unfold designates IsUserOf isUser Requester.isMemberOf
  split <;> simp_all

namespace Requester

variable {r : Requester} {a : Approver}

-- The shares of an entry that are the requester's own.
def Owns (r : Requester) (a : Approver) : Share → Prop
  | .own => a.IsUserOf r ∨ r.isMemberOf a
  | .member name => name = r.username ∧ r.isMemberOf a

theorem Owns.designates {share : Share} (h : r.Owns a share) : a.designates r := by
  have hm : r.isMemberOf a → a.designates r := by
    unfold isMemberOf Approver.designates
    split <;> simp_all [isMemberOf]
  cases share
  case member => exact hm h.right
  case own =>
    cases h
    case inr h => exact hm h
    case inl h =>
      have ⟨hu, hn⟩ := h
      unfold Approver.isUser at hu
      unfold Approver.designates
      split at hu <;> simp_all

end Requester

-- The same entries in the same order, by name and type.
structure SameEntries (old new : List Approver) : Prop where
  length : old.length = new.length
  entry  : ∀ {i : Nat} {before after : Approver}, old[i]? = some before → new[i]? = some after →
    before.name = after.name ∧ before.typeName = after.typeName

namespace SameEntries

variable {old new : List Approver} {i : Nat}

theorem counterpart (h : SameEntries old new) {before : Approver} (hb : old[i]? = some before) :
    ∃ after, new[i]? = some after :=
  have ⟨hi, _⟩ := List.getElem?_eq_some_iff.mp hb
  ⟨_, List.getElem?_eq_getElem (h.length ▸ hi)⟩

theorem refl (as : List Approver) : SameEntries as as where
  length := rfl
  entry hb ha := by cases Option.some.inj (hb.symm.trans ha); exact ⟨rfl, rfl⟩

theorem symm (h : SameEntries old new) : SameEntries new old where
  length := h.length.symm
  entry hb ha := have ⟨hn, ht⟩ := h.entry ha hb; ⟨hn.symm, ht.symm⟩

theorem trans {later : List Approver} (h₁ : SameEntries old new) (h₂ : SameEntries new later) :
    SameEntries old later where
  length := h₁.length.trans h₂.length
  entry hb ha := by
    have ⟨_, hm⟩ := h₁.counterpart hb
    have ⟨hn₁, ht₁⟩ := h₁.entry hb hm
    have ⟨hn₂, ht₂⟩ := h₂.entry hm ha
    exact ⟨hn₁.trans hn₂, ht₁.trans ht₂⟩

end SameEntries

-- A place in an approver list.
@[ext]
structure Slot where
  index : Nat
  share : Share
  deriving DecidableEq

namespace Slot

def value? (x : Slot) (as : List Approver) : Option String :=
  as[x.index]?.bind (·.input? x.share)

def Disturbed (x : Slot) (old new : List Approver) : Prop :=
  ∃ before after, old[x.index]? = some before ∧ new[x.index]? = some after ∧
    before.Disturbed after x.share

def OwnedBy (x : Slot) (as : List Approver) (r : Requester) : Prop :=
  ∃ a, as[x.index]? = some a ∧ r.Owns a x.share

end Slot
end Countersign
