import Mathlib.Data.List.Sort
import Mathlib.Data.String.Basic
import Countersign.Admission.Controller
import Countersign.Proofs.Update.View

namespace Countersign

namespace Requester

section Sorting

variable {claims claims' groups : List String} {name g : String}

theorem mem_addGroup_iff : g ∈ addGroup name groups ↔ g = name ∨ g ∈ groups := by
  induction groups <;> simp only [addGroup]
  case nil => simp
  case cons hd tl hi =>
    split
    case isTrue => simp [hi, or_left_comm]
    case isFalse =>
      split
      case isTrue he => simp [he]
      case isFalse   => simp

theorem mem_sortedGroups_iff : g ∈ sortedGroups claims ↔ g ∈ claims := by
  induction claims <;> simp_all [sortedGroups, mem_addGroup_iff]

theorem pairwise_addGroup (h : groups.Pairwise (· < ·)) :
    (addGroup name groups).Pairwise (· < ·) := by
  induction groups <;> simp only [addGroup]
  case nil => simp
  case cons hd tl hi =>
    have ⟨hl, ht⟩ := List.pairwise_cons.mp h
    split
    case isTrue hn =>
      refine List.pairwise_cons.mpr ⟨fun g hg => ?_, hi ht⟩
      cases mem_addGroup_iff.mp hg
      case inl he => exact he ▸ hn
      case inr hm => exact hl g hm
    case isFalse hn =>
      split
      case isTrue => exact h
      case isFalse he =>
        have hn : name < hd := lt_of_le_of_ne (not_lt.mp hn) (Ne.symm he)
        refine List.pairwise_cons.mpr ⟨fun g hg => ?_, h⟩
        cases List.mem_cons.mp hg
        case inl he => exact he ▸ hn
        case inr hm => exact hn.trans (hl g hm)

theorem pairwise_sortedGroups : (sortedGroups claims).Pairwise (· < ·) := by
  induction claims
  case nil            => exact .nil
  case cons _ _ hi => exact pairwise_addGroup hi

-- A requester is known by which groups they claim.
theorem ofClaims_eq {username : String} (h : ∀ g, g ∈ claims ↔ g ∈ claims') :
    ofClaims username claims = ofClaims username claims' := by
  have hs : sortedGroups claims = sortedGroups claims' := by
    refine pairwise_sortedGroups.eq_of_mem_iff pairwise_sortedGroups fun g => ?_
    rw [mem_sortedGroups_iff, mem_sortedGroups_iff, h]
  simp [ofClaims, hs]

end Sorting

-- The same user with all the groups of another requester, and maybe more.
structure Widens (r' r : Requester) : Prop where
  username : r.username = r'.username
  groups   : ∀ g, r.inGroup g → r'.inGroup g

namespace Widens

variable {r r' : Requester} {a : Approver} {share : Share} {old new : List Approver} {x : Slot}

theorem isMemberOf (h : r'.Widens r) (hm : r.isMemberOf a) : r'.isMemberOf a := by
  rw [isMemberOf_iff] at hm ⊢
  exact ⟨hm.left, hm.right.imp (h.groups a.name) (h.username ▸ ·)⟩

theorem owns (h : r'.Widens r) (ho : r.Owns a share) : r'.Owns a share := by
  cases share
  case own    => exact ho.imp (fun hu => ⟨hu.left, hu.right.trans h.username⟩) h.isMemberOf
  case member => exact ⟨ho.left.trans h.username, h.isMemberOf ho.right⟩

theorem cast (h : r'.Widens r) (hc : x.Cast old new r) : x.Cast old new r' where
  only  := hc.only
  value := hc.value
  owned := have ⟨a, ha, ho⟩ := hc.owned; ⟨a, ha, h.owns ho⟩
  first i hi before hb hu := hc.first i hi before hb ⟨hu.left, hu.right.trans h.username.symm⟩

end Widens

end Requester

theorem Admissible.widen {old new : TaskState} {r r' : Requester} (h : r'.Widens r)
    (ha : Admissible old new r) : Admissible old new r' :=
  have ⟨x, hx⟩ := ha.vote
  ⟨ha.pending, ha.unmet, ha.entries, x, h.cast hx⟩

theorem SameView.of_groups {r r' : Requester} {old new : List Approver}
    (hu : r.username = r'.username)
    (hg : ∀ a ∈ old, a.isGroup → r.inGroup a.name = r'.inGroup a.name) :
    SameView r r' old new old new where
  username := hu
  groups   := hg
  old      := refl_alike old
  new      := refl_alike new

-- The request with other groups claimed in it.
def AdmissionRequest.withGroups (q : AdmissionRequest) (groups : List String) : AdmissionRequest :=
  { q with userInfo := { q.userInfo with groups } }

namespace GateConfig

variable {c : GateConfig} {access : WriteAccess} {now : Timestamp} {log : DecisionLog}
  {q : AdmissionRequest} {groups : List String}

theorem respond_withGroups (h : ∀ g, g ∈ groups ↔ g ∈ q.userInfo.groups) :
    c.respond access now log (q.withGroups groups) = c.respond access now log q := by
  have hr : (q.withGroups groups).requester = q.requester := Requester.ofClaims_eq h
  unfold respond judgeRequest receivedEvent
  rw [hr]
  rfl

end GateConfig

-- The groups that a requester claims count only as far as the stored list names them, and only in
-- favour of the requester. A request is answered the same in whatever order it claims them, and
-- however often.
theorem claimed_groups_favour {r r' : Requester} (hu : r.username = r'.username)
    (old new : TaskState) :
    ((∀ a ∈ old.approvers, a.isGroup → r.inGroup a.name = r'.inGroup a.name) →
      decideUpdate old new r = decideUpdate old new r') ∧
    ((∀ g, r.inGroup g → r'.inGroup g) →
      decideUpdate old new r = .allow → decideUpdate old new r' = .allow) ∧
    ∀ (c : GateConfig) (access : WriteAccess) (now : Timestamp) (log : DecisionLog)
      (q : AdmissionRequest) (groups : List String), (∀ g, g ∈ groups ↔ g ∈ q.userInfo.groups) →
      c.respond access now log (q.withGroups groups) = c.respond access now log q := by
  refine ⟨fun hg => ?named, fun hg ha => ?widened, fun c access now log q groups h => ?listed⟩
  case named   => exact (SameView.of_groups hu hg).decideUpdate_eq rfl
  case widened => exact allow_of_admissible <| (admissible_of_allow ha).widen ⟨hu, hg⟩
  case listed  => exact GateConfig.respond_withGroups h

-- A group that Carol may belong to, and then Carol.
def TaskState.opsThenCarol (input : String) : TaskState :=
  ⟨[⟨"ops", "", .group []⟩, ⟨"carol", input, .user⟩], .pending, 0, 1⟩

def AdmissionRequest.ofCarol : AdmissionRequest :=
  ⟨.zero, GateConfig.default.resource, none, none, .update, ⟨"carol", ["ops", "qa"]⟩, none, none⟩

-- The case of a claim that names no group of the task, and of one by which another group is looked
-- at before the vote is found.
theorem carol_claims_more :
    (∀ a ∈ (TaskState.opsThenCarol "").approvers, a.isGroup →
        Requester.inGroup ⟨"carol", []⟩ a.name = Requester.inGroup ⟨"carol", ["qa"]⟩ a.name) ∧
      decideUpdate (.opsThenCarol "") (.opsThenCarol "maybe") ⟨"carol", []⟩ =
        decideUpdate (.opsThenCarol "") (.opsThenCarol "maybe") ⟨"carol", ["qa"]⟩ ∧
      (∀ g, Requester.inGroup ⟨"carol", []⟩ g → Requester.inGroup ⟨"carol", ["ops"]⟩ g) ∧
      decideUpdate (.opsThenCarol "") (.opsThenCarol "approve") ⟨"carol", []⟩ = .allow ∧
      decideUpdate (.opsThenCarol "") (.opsThenCarol "approve") ⟨"carol", ["ops"]⟩ = .allow ∧
      (∀ g, g ∈ ["qa", "ops", "qa"] ↔ g ∈ AdmissionRequest.ofCarol.userInfo.groups) ∧
      GateConfig.default.respond .granted (.ofUnix 0) (.empty "w")
          (AdmissionRequest.ofCarol.withGroups ["qa", "ops", "qa"]) =
        GateConfig.default.respond .granted (.ofUnix 0) (.empty "w") .ofCarol := by
  have hn : ∀ a ∈ (TaskState.opsThenCarol "").approvers, a.isGroup →
      Requester.inGroup ⟨"carol", []⟩ a.name = Requester.inGroup ⟨"carol", ["qa"]⟩ a.name := by
    decide
  have hg (g : String) : Requester.inGroup ⟨"carol", []⟩ g →
      Requester.inGroup ⟨"carol", ["ops"]⟩ g := by
    simp [Requester.inGroup]
  have ha : decideUpdate (.opsThenCarol "") (.opsThenCarol "approve") ⟨"carol", []⟩ = .allow := by
    decide
  have hl (g : String) :
      g ∈ ["qa", "ops", "qa"] ↔ g ∈ AdmissionRequest.ofCarol.userInfo.groups := by
    grind [AdmissionRequest.ofCarol]
  have hu (groups : List String) : Requester.username ⟨"carol", []⟩ =
      Requester.username ⟨"carol", groups⟩ := rfl
  have ⟨named, _, listed⟩ := claimed_groups_favour (hu ["qa"]) (.opsThenCarol "")
    (.opsThenCarol "maybe")
  have ⟨_, widened, _⟩ := claimed_groups_favour (hu ["ops"]) (.opsThenCarol "")
    (.opsThenCarol "approve")
  exact ⟨hn, named hn, hg, ha, widened hg ha, hl, listed _ _ _ _ _ _ hl⟩

end Countersign
