import Mathlib.Data.List.Forall2
import Countersign.Proofs.Update.Kind
import Countersign.Proofs.Update.Refusal

namespace Countersign

-- The same entry, where of a group's members only what is first listed for each name has to agree.
structure Approver.Alike (a b : Approver) : Prop where
  name   : a.name = b.name
  kind   : a.SameKind b
  input  : a.input = b.input
  member : ∀ name, a.memberInput? name = b.memberInput? name

namespace Approver.Alike

variable {a b before before' after after' : Approver} {share : Share}

theorem refl (a : Approver) : a.Alike a :=
  ⟨rfl, ⟨rfl, rfl, rfl⟩, rfl, fun _ => rfl⟩

theorem symm (h : a.Alike b) : b.Alike a :=
  ⟨h.name.symm, h.kind.symm, h.input.symm, fun name => (h.member name).symm⟩

theorem input?_eq (h : a.Alike b) : a.input? share = b.input? share := by
  cases share
  case own    => simp [input?, h.input]
  case member => exact h.member _

theorem disturbed_iff (hb : before.Alike before') (ha : after.Alike after') :
    before.Disturbed after share ↔ before'.Disturbed after' share := by
  cases share
  case own    => simp [Disturbed, hb.input, ha.input]
  case member => simp [Disturbed, hb.kind.isGroup, hb.member, ha.member]

end Approver.Alike

-- An entry and another one, each as its requester sees it.
structure Approver.SeenAlike (r r' : Requester) (a b : Approver) : Prop extends a.Alike b where
  user  : a.IsUserOf r ↔ b.IsUserOf r'
  group : r.isMemberOf a ↔ r'.isMemberOf b

namespace Approver.SeenAlike

variable {r r' : Requester} {a b before before' after after' : Approver} {share : Share}

theorem designates_iff (h : SeenAlike r r' a b) : a.designates r ↔ b.designates r' := by
  rw [Approver.designates_iff, Approver.designates_iff, h.user, h.group]

theorem owns_iff (hu : r.username = r'.username) (h : SeenAlike r r' a b) :
    r.Owns a share ↔ r'.Owns b share := by
  cases share
  case own    => simp [Requester.Owns, h.user, h.group]
  case member => simp [Requester.Owns, hu, h.group]

theorem settledValue (hu : r.username = r'.username) (hb : SeenAlike r r' before before')
    (ha : after.Alike after') {input : String} (h : r.SettledValue before after input) :
    r'.SettledValue before' after' input := by
  cases h
  case user hr hn hd =>
    rw [ha.input]
    exact .user (hb.user.mp hr) (by rw [← ha.name, hn, hb.name]) (hb.disturbed_iff ha |>.mp hd)
  case group hm hd =>
    rw [ha.input]
    exact .group (hb.group.mp hm) (hb.disturbed_iff ha |>.mp hd)
  case member hm hn hd hi =>
    rw [hu] at hd hi
    exact .member (hb.group.mp hm) (mt (hb.disturbed_iff ha).mpr hn)
      (hb.disturbed_iff ha |>.mp hd) (ha.member _ ▸ hi)

end Approver.SeenAlike

-- Entries that correspond in two lists stand at one index.
theorem exists_getElem?_of_forall₂ {R : Approver → Approver → Prop} {as bs : List Approver}
    (h : List.Forall₂ R as bs) {i : Nat} {a : Approver} (ha : as[i]? = some a) :
    ∃ b, bs[i]? = some b ∧ R a b := by
  obtain ⟨hi, rfl⟩ := List.getElem?_eq_some_iff.mp ha
  have hj := h.length_eq ▸ hi
  exact ⟨bs[i], List.getElem?_eq_getElem hj, h.get hi hj⟩

-- Two updates that look alike, each to its requester. The requesters go by one name, and claim the
-- same of the groups that the stored list names.
structure SameView (r r' : Requester) (old new old' new' : List Approver) : Prop where
  username : r.username = r'.username
  groups   : ∀ a ∈ old, a.isGroup → r.inGroup a.name = r'.inGroup a.name
  old      : List.Forall₂ Approver.Alike old old'
  new      : List.Forall₂ Approver.Alike new new'

namespace SameView

variable {r r' : Requester} {old new old' new' : List Approver} {i : Nat} {before after : Approver}

theorem refl_alike (as : List Approver) : List.Forall₂ Approver.Alike as as :=
  List.forall₂_same.mpr fun a _ => .refl a

theorem symm_alike {as bs : List Approver} (h : List.Forall₂ Approver.Alike as bs) :
    List.Forall₂ Approver.Alike bs as :=
  (h.imp fun _ _ => Approver.Alike.symm).flip

theorem seenAlike (h : SameView r r' old new old' new') (hb : old[i]? = some before) :
    ∃ before', old'[i]? = some before' ∧ Approver.SeenAlike r r' before before' := by
  have ⟨before', hb', ha⟩ := exists_getElem?_of_forall₂ h.old hb
  refine ⟨before', hb', ha, ?user, ?group⟩
  case user => simp only [Approver.IsUserOf, ha.kind.isUser, ha.name, h.username]
  case group =>
    rw [Requester.isMemberOf_iff, Requester.isMemberOf_iff, ← ha.kind.isGroup, ← ha.name,
      ← ha.member, h.username]
    refine and_congr_right fun hg => ?_
    rw [h.groups before (List.mem_of_getElem? hb) hg]

theorem symm (h : SameView r r' old new old' new') : SameView r' r old' new' old new where
  username := h.username.symm
  groups b hb hg := by
    have ⟨i, hb⟩ := List.mem_iff_getElem?.mp hb
    have ⟨a, ha, hs⟩ := exists_getElem?_of_forall₂ (symm_alike h.old) hb
    rw [hs.name]
    exact (h.groups a (List.mem_of_getElem? ha) (hs.kind.isGroup ▸ hg)).symm
  old := symm_alike h.old
  new := symm_alike h.new

-- An entry of the one list and its counterpart in the other.
theorem seenAlike_of_getElem? (h : SameView r r' old new old' new') {before' : Approver}
    (hb : old[i]? = some before) (hb' : old'[i]? = some before') :
    Approver.SeenAlike r r' before before' := by
  have ⟨_, he, hs⟩ := h.seenAlike hb
  cases Option.some.inj (hb'.symm.trans he)
  exact hs

theorem excludes (h : SameView r r' old new old' new')
    (he : old ≠ [] ∧ ∀ a ∈ old, ¬a.designates r) : old' ≠ [] ∧ ∀ a ∈ old', ¬a.designates r' := by
  refine ⟨fun hn => he.left ?_, fun b hb hd => ?_⟩
  · exact List.length_eq_zero_iff.mp <| h.old.length_eq.trans <| by simp [hn]
  · have ⟨i, hb⟩ := List.mem_iff_getElem?.mp hb
    have ⟨a, ha, hs⟩ := h.symm.seenAlike hb
    exact he.right a (List.mem_of_getElem? ha) (hs.designates_iff.mp hd)

theorem settles (h : SameView r r' old new old' new') {before' : Approver}
    (hb : old[i]? = some before) (hb' : old'[i]? = some before')
    (hs : r.Settles before new[i]?) : r'.Settles before' new'[i]? := by
  have hv := h.seenAlike_of_getElem? hb hb'
  cases hs
  case inl hu => exact .inl (hv.user.mp hu)
  case inr hg =>
    have ⟨hm, after, ha, hd⟩ := hg
    have ⟨after', ha', hl⟩ := exists_getElem?_of_forall₂ h.new ha
    rw [hv.disturbed_iff hl, hv.disturbed_iff hl, h.username] at hd
    exact .inr ⟨hv.group.mp hm, after', ha', hd⟩

theorem unsupported (h : SameView r r' old new old' new') {input : String}
    (hu : r.Unsupported old new input) : r'.Unsupported old' new' input := by
  have ⟨i, before, after, hs, ha, hv⟩ := hu.settled
  have ⟨before', hb', hl⟩ := h.seenAlike hs.entry
  have ⟨after', ha', hl'⟩ := exists_getElem?_of_forall₂ h.new ha
  refine ⟨⟨i, before', after', ⟨hb', h.settles hs.entry hb' hs.settles, fun j hj b hb hn => ?_⟩,
    ha', hl.settledValue h.username hl' hv⟩, hu.approve, hu.reject⟩
  have ⟨a, ha, _⟩ := h.symm.seenAlike hb
  exact hs.least j hj a ha (h.symm.settles hb ha hn)

theorem value?_eq (h : SameView r r' old new old' new') {x : Slot} {input : String}
    (hv : x.value? new = some input) : x.value? new' = some input := by
  have ⟨after, ha, hi⟩ := Option.bind_eq_some_iff.mp hv
  have ⟨after', ha', hl⟩ := exists_getElem?_of_forall₂ h.new ha
  simp [Slot.value?, ha', ← hl.input?_eq, hi]

theorem disturbed (h : SameView r r' old new old' new') {x : Slot} (hd : x.Disturbed old new) :
    x.Disturbed old' new' := by
  have ⟨before, after, hb, ha, hd⟩ := hd
  have ⟨before', hb', hl⟩ := exists_getElem?_of_forall₂ h.old hb
  have ⟨after', ha', hl'⟩ := exists_getElem?_of_forall₂ h.new ha
  exact ⟨before', after', hb', ha', hl.disturbed_iff hl' |>.mp hd⟩

theorem sameEntries (h : SameView r r' old new old' new') (he : SameEntries old new) :
    SameEntries old' new' where
  length := h.old.length_eq.symm.trans <| he.length.trans h.new.length_eq
  entry hb' ha' := by
    have ⟨before, hb, hl⟩ := exists_getElem?_of_forall₂ h.symm.old hb'
    have ⟨after, ha, hl'⟩ := exists_getElem?_of_forall₂ h.symm.new ha'
    have ⟨hn, ht⟩ := he.entry hb ha
    rw [hl.name, hl'.name, hl.kind.typeName, hl'.kind.typeName]
    exact ⟨hn, ht⟩

theorem cast (h : SameView r r' old new old' new') {x : Slot} (hc : x.Cast old new r) :
    x.Cast old' new' r' where
  only y := ⟨fun hd => hc.only y |>.mp (h.symm.disturbed hd),
    fun he => h.disturbed <| hc.only y |>.mpr he⟩
  value := hc.value.imp h.value?_eq h.value?_eq
  owned := by
    have ⟨before, hb, ho⟩ := hc.owned
    have ⟨before', hb', hl⟩ := h.seenAlike hb
    exact ⟨before', hb', hl.owns_iff h.username |>.mp ho⟩
  first i hi before' hb' hu := by
    have ⟨before, hb, hl⟩ := h.symm.seenAlike hb'
    exact hc.first i hi before hb (hl.user.mp hu)

end SameView

-- The same phase and the same counts.
structure TaskState.SameStanding (s t : TaskState) : Prop where
  phase    : s.phase = t.phase
  received : s.received = t.received
  required : s.required = t.required

theorem TaskState.SameStanding.isClosed_eq {s t : TaskState} (h : s.SameStanding t) :
    s.isClosed = t.isClosed := by
  simp [isClosed, h.phase, h.received, h.required]

section

variable {old new old' new' : TaskState} {r r' : Requester}

-- A decision is known by whether the task is closed, whether it shuts the requester out, which
-- unsupported text they propose and whether the update is admissible.
theorem decideUpdate_congr (hc : old.isClosed = old'.isClosed)
    (he : old.Excludes r ↔ old'.Excludes r')
    (hu : ∀ input, r.Unsupported old.approvers new.approvers input ↔
      r'.Unsupported old'.approvers new'.approvers input)
    (ha : Admissible old new r ↔ Admissible old' new' r') :
    decideUpdate old new r = decideUpdate old' new' r' := by
  by_cases hl : old.isClosed
  case pos => rw [decideUpdate_of_isClosed hl, decideUpdate_of_isClosed (hc ▸ hl)]
  case neg =>
    have hl : old.isClosed = false := by simpa using hl
    by_cases hx : old.Excludes r
    case pos =>
      rw [decideUpdate_of_excludes hl hx, decideUpdate_of_excludes (hc ▸ hl) (he.mp hx)]
    case neg =>
      by_cases hi : ∃ input, r.Unsupported old.approvers new.approvers input
      case pos =>
        have ⟨input, hi⟩ := hi
        rw [decideUpdate_of_unsupported hl hi,
          decideUpdate_of_unsupported (hc ▸ hl) (hu input |>.mp hi)]
      case neg =>
        have hi := not_exists.mp hi
        have ho := decideUpdate_of_supported hl hx hi
        have ho' := decideUpdate_of_supported (hc ▸ hl) (mt he.mpr hx) fun input h =>
          hi input (hu input |>.mpr h)
        have ha : decideUpdate old new r = .allow ↔ decideUpdate old' new' r' = .allow :=
          ⟨fun h => allow_of_admissible <| ha.mp <| admissible_of_allow h,
            fun h => allow_of_admissible <| ha.mpr <| admissible_of_allow h⟩
        grind

theorem SameView.admissible
    (h : SameView r r' old.approvers new.approvers old'.approvers new'.approvers)
    (hc : old.isClosed = old'.isClosed) (ha : Admissible old new r) : Admissible old' new' r' := by
  have hl := TaskState.isClosed_eq_false_iff.mpr ⟨ha.pending, ha.unmet⟩
  have ⟨hp, hn⟩ := TaskState.isClosed_eq_false_iff.mp <| hc.symm.trans hl
  have ⟨x, hx⟩ := ha.vote
  exact ⟨hp, hn, h.sameEntries ha.entries, x, h.cast hx⟩

theorem SameView.decideUpdate_eq
    (h : SameView r r' old.approvers new.approvers old'.approvers new'.approvers)
    (hc : old.isClosed = old'.isClosed) : decideUpdate old new r = decideUpdate old' new' r' :=
  decideUpdate_congr hc ⟨h.excludes, h.symm.excludes⟩
    (fun _ => ⟨h.unsupported, h.symm.unsupported⟩)
    ⟨h.admissible hc, h.symm.admissible hc.symm⟩

theorem SameView.of_alike {old new old' new' : List Approver}
    (ho : List.Forall₂ Approver.Alike old old') (hn : List.Forall₂ Approver.Alike new new') :
    SameView r r old new old' new' where
  username     := rfl
  groups _ _ _ := rfl
  old          := ho
  new          := hn

end

-- The same entry with its members listed anew: in another order, in which entries of one name stay
-- in theirs, and with more entries behind, of names that are listed already.
structure Approver.Relists (a b : Approver) : Prop where
  name    : a.name = b.name
  kind    : a.SameKind b
  input   : a.input = b.input
  members : ∃ ms more, b.members = ms ++ more ∧
    (∀ name, ms.filter (·.name = name) = a.members.filter (·.name = name)) ∧
    ∀ m ∈ more, ∃ m' ∈ ms, m'.name = m.name

theorem Approver.Relists.alike {a b : Approver} (h : a.Relists b) : a.Alike b where
  name  := h.name
  kind  := h.kind
  input := h.input
  member name := by
    have ⟨ms, more, hb, hf, hm⟩ := h.members
    have ho : ms.find? (·.name = name) = a.members.find? (·.name = name) := by
      rw [← List.head?_filter, hf, List.head?_filter]
    simp only [memberInput?, hb, List.find?_append, ho]
    cases ha : a.members.find? (·.name = name)
    case some => rfl
    case none =>
      have hn : more.find? (·.name = name) = none := by
        refine List.find?_eq_none.mpr fun m hm' he => ?_
        obtain ⟨m', hm', he'⟩ := hm m hm'
        have := List.find?_eq_none.mp (ho.trans ha) m' hm'
        simp_all
      simp [hn]

-- Of a group's members the decision reads what is first listed for each name, and nothing else. So
-- it is the same when members are listed anew.
theorem first_inputs_decide {old new old' new' : TaskState} (hs : old.SameStanding old')
    (r : Requester) :
    (List.Forall₂ Approver.Alike old.approvers old'.approvers →
      List.Forall₂ Approver.Alike new.approvers new'.approvers →
      decideUpdate old new r = decideUpdate old' new' r) ∧
    (List.Forall₂ Approver.Relists old.approvers old'.approvers →
      List.Forall₂ Approver.Relists new.approvers new'.approvers →
      decideUpdate old new r = decideUpdate old' new' r) := by
  refine ⟨fun ho hn => ?alike, fun ho hn => ?relists⟩
  case alike => exact (SameView.of_alike ho hn).decideUpdate_eq hs.isClosed_eq
  case relists =>
    have ha : ∀ a b : Approver, a.Relists b → a.Alike b := fun _ _ => Approver.Relists.alike
    exact (SameView.of_alike (ho.imp ha) (hn.imp ha)).decideUpdate_eq hs.isClosed_eq

-- Two members change places, and one of them is listed a second time.
theorem Approver.relists_swap {name input : String} {m₁ m₂ m : Member} (hn : m₁.name ≠ m₂.name)
    (hm : m.name = m₁.name ∨ m.name = m₂.name) :
    Relists ⟨name, input, .group [m₁, m₂]⟩ ⟨name, input, .group [m₂, m₁, m]⟩ where
  name    := rfl
  kind    := ⟨rfl, rfl, rfl⟩
  input   := rfl
  members := by
    refine ⟨[m₂, m₁], [m], rfl, fun name => ?order, by simpa [eq_comm, or_comm] using hm⟩
    by_cases h₁ : m₁.name = name <;> by_cases h₂ : m₂.name = name <;>
      simp_all [members]

namespace ApprovalTask

-- Dave before Carol, and one of them a second time with another input.
def unvotedAnew : ApprovalTask :=
  ofGroup [⟨"dave", ""⟩, ⟨"carol", ""⟩, ⟨"carol", "reject"⟩]

def carolApprovesAnew : ApprovalTask :=
  ofGroup [⟨"dave", ""⟩, ⟨"carol", "approve"⟩, ⟨"dave", "approve"⟩]

end ApprovalTask

-- The case of a vote in a group whose members are listed anew on both sides.
theorem relisted_vote_decides_alike :
    ApprovalTask.unvoted.toState.SameStanding ApprovalTask.unvotedAnew.toState ∧
      List.Forall₂ Approver.Alike ApprovalTask.unvoted.toState.approvers
        ApprovalTask.unvotedAnew.toState.approvers ∧
      List.Forall₂ Approver.Alike ApprovalTask.carolApproves.toState.approvers
        ApprovalTask.carolApprovesAnew.toState.approvers ∧
      List.Forall₂ Approver.Relists ApprovalTask.unvoted.toState.approvers
        ApprovalTask.unvotedAnew.toState.approvers ∧
      List.Forall₂ Approver.Relists ApprovalTask.carolApproves.toState.approvers
        ApprovalTask.carolApprovesAnew.toState.approvers ∧
      decideUpdate ApprovalTask.unvoted.toState ApprovalTask.carolApproves.toState ⟨"carol", []⟩ =
        decideUpdate ApprovalTask.unvotedAnew.toState ApprovalTask.carolApprovesAnew.toState
          ⟨"carol", []⟩ :=
  have hs : ApprovalTask.unvoted.toState.SameStanding ApprovalTask.unvotedAnew.toState :=
    ⟨rfl, rfl, rfl⟩
  have ho : List.Forall₂ Approver.Relists ApprovalTask.unvoted.toState.approvers
      ApprovalTask.unvotedAnew.toState.approvers :=
    .cons (Approver.relists_swap (by decide) (by decide)) .nil
  have hn : List.Forall₂ Approver.Relists ApprovalTask.carolApproves.toState.approvers
      ApprovalTask.carolApprovesAnew.toState.approvers :=
    .cons (Approver.relists_swap (by decide) (by decide)) .nil
  ⟨hs, ho.imp fun _ _ => Approver.Relists.alike, hn.imp fun _ _ => Approver.Relists.alike, ho, hn,
    (first_inputs_decide hs ⟨"carol", []⟩).right ho hn⟩

-- Two entries of one name may not change places: the one that comes to stand first is now read.
example :
    decideUpdate ApprovalTask.unvoted.toState
        (ApprovalTask.ofGroup [⟨"carol", "approve"⟩, ⟨"dave", ""⟩, ⟨"dave", "approve"⟩]).toState
        ⟨"carol", []⟩ = .allow ∧
      decideUpdate ApprovalTask.unvoted.toState
        (ApprovalTask.ofGroup [⟨"carol", "approve"⟩, ⟨"dave", "approve"⟩, ⟨"dave", ""⟩]).toState
        ⟨"carol", []⟩ = .deny .outOfScope := by
  decide

end Countersign
