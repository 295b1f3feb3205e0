import Countersign.Proofs.Update.Race
import Countersign.Proofs.Update.View

namespace Countersign

namespace Approver

variable {a : Approver} {ms : List Member} {name input : String} {share other : Share}

-- Writes an input to the first entry of a name. A name that is not listed yet comes last.
def writeMember (name input : String) : List Member → List Member
  | [] => [⟨name, input⟩]
  | m :: ms => if m.name = name then ⟨name, input⟩ :: ms else m :: writeMember name input ms

-- The entry with an input written at a share.
def write (a : Approver) (input : String) : Share → Approver
  | .own => { a with input }
  | .member name =>
    match a.kind with
    | .group members => { a with kind := .group (writeMember name input members) }
    | _ => a

-- Only a group has shares for members.
def Has (a : Approver) : Share → Prop
  | .own => True
  | .member _ => a.isGroup

theorem find?_writeMember {n : String} :
    ((writeMember name input ms).find? (·.name = n)).map Member.input =
      if n = name then some input else (ms.find? (·.name = n)).map Member.input := by
  induction ms <;> simp only [writeMember]
  case nil => by_cases hn : n = name <;> simp [hn, eq_comm]
  case cons m ms hi =>
    split
    case isTrue hm =>
      by_cases hn : n = name
      case pos => simp [hn]
      case neg => simp [hm, hn, Ne.symm hn]
    case isFalse hm =>
      by_cases hn : m.name = n
      case pos => simp [hn, hn ▸ hm]
      case neg => simpa [hn] using hi

theorem exists_members_of_isGroup (h : a.isGroup) : ∃ members, a.kind = .group members := by
  unfold isGroup at h
  split at h
  · exact ⟨_, ‹_›⟩
  · cases h

theorem input?_write (h : a.Has share) :
    (a.write input share).input? other = if other = share then some input else a.input? other := by
  cases share
  case own => cases other <;> rfl
  case member name =>
    have ⟨members, hk⟩ := exists_members_of_isGroup h
    cases other
    case own      => simp [write, hk, input?]
    case member n => simp [write, hk, input?, memberInput?, Approver.members, find?_writeMember]

theorem name_write : (a.write input share).name = a.name := by
  unfold write
  split <;> (try split) <;> rfl

theorem sameKind_write : a.SameKind (a.write input share) := by
  unfold write
  split
  case h_1 => exact ⟨rfl, rfl, rfl⟩
  case h_2 =>
    split
    case h_1 hk => constructor <;> simp [typeName, isUser, isGroup, hk]
    case h_2    => exact ⟨rfl, rfl, rfl⟩

theorem Proper.write (h : a.Proper) : (a.write input share).Proper := by
  unfold Approver.write
  split
  case h_1 => exact h
  case h_2 =>
    split
    case h_1 => intro typeName hk; cases hk
    case h_2 => exact h

end Approver

namespace Slot

variable {x y : Slot} {as : List Approver} {input : String} {i : Nat} {a : Approver}

def write (x : Slot) (input : String) (as : List Approver) : List Approver :=
  as.modify x.index (·.write input x.share)

theorem getElem?_write : (x.write input as)[i]? =
    as[i]?.map fun a => if x.index = i then a.write input x.share else a := by
  simp [write, List.getElem?_modify]

-- What is written at a slot is read there, and elsewhere the same as before.
theorem value?_write (ha : as[x.index]? = some a) (h : a.Has x.share) :
    y.value? (x.write input as) = if y = x then some input else y.value? as := by
  by_cases hi : x.index = y.index
  case pos =>
    have hy : y = x ↔ y.share = x.share := by simp [Slot.ext_iff, hi]
    simp [value?, getElem?_write, hi, hi ▸ ha, hy, Approver.input?_write h]
  case neg =>
    have hy : y ≠ x := fun he => hi (he ▸ rfl)
    simp [value?, getElem?_write, hi, hy]

theorem sameEntries_write : SameEntries as (x.write input as) where
  length := by simp [write]
  entry hb ha := by
    rw [getElem?_write, hb] at ha
    cases ha
    split
    · exact ⟨Approver.name_write.symm, Approver.sameKind_write.typeName⟩
    · exact ⟨rfl, rfl⟩

end Slot

-- The task with a vote written at a slot.
def TaskState.write (s : TaskState) (x : Slot) (v : Vote) : TaskState :=
  { s with approvers := x.write v.text s.approvers }

theorem TaskState.Proper.write {s : TaskState} {x : Slot} {v : Vote} (h : s.Proper) :
    (s.write x v).Proper := by
  intro b hb
  have ⟨i, hb⟩ := List.mem_iff_getElem?.mp hb
  obtain ⟨a, ha, rfl⟩ := Option.map_eq_some_iff.mp <| Slot.getElem?_write ▸ hb
  have hp := h a <| List.mem_of_getElem? ha
  split
  · exact hp.write
  · exact hp

theorem Requester.Owns.has {r : Requester} {a : Approver} {share : Share} (h : r.Owns a share) :
    a.Has share := by
  cases share
  case own    => trivial
  case member => exact isGroup_of_isMemberOf h.right

-- Between tasks with the same entries, reading the same at every slot leaves no difference that
-- matters.
theorem alike_of_value?_eq {s t : TaskState} (he : SameEntries s.approvers t.approvers)
    (hs : s.Proper) (ht : t.Proper)
    (hv : ∀ y : Slot, y.value? s.approvers = y.value? t.approvers) :
    List.Forall₂ Approver.Alike s.approvers t.approvers := by
  refine List.forall₂_iff_get.mpr ⟨he.length, fun i hi hj => ?_⟩
  have ha : s.approvers[i]? = some s.approvers[i] := List.getElem?_eq_getElem hi
  have hb : t.approvers[i]? = some t.approvers[i] := List.getElem?_eq_getElem hj
  have hv (share : Share) : s.approvers[i].input? share = t.approvers[i].input? share := by
    simpa [Slot.value?, ha, hb] using hv ⟨i, share⟩
  exact {
    name   := (he.entry ha hb).left
    kind   := he.sameKind hs ht ha hb
    input  := by simpa [Approver.input?] using hv .own
    member := fun name => hv (.member name) }

-- The slot that a change is located at.
def ChangeSite.slot (site : ChangeSite) (r : Requester) : Slot :=
  ⟨site.index, site.target.share r⟩

-- A new version of a task that leaves its standing as it is and drops none of the names it lists.
structure TaskState.Keeps (s t : TaskState) : Prop where
  standing : s.SameStanding t
  listed   : ∀ {i : Nat} {a b : Approver}, s.approvers[i]? = some a → t.approvers[i]? = some b →
    ∀ name, (a.memberInput? name).isSome → (b.memberInput? name).isSome

theorem TaskState.Keeps.value?_ne_none {s t : TaskState} (h : s.Keeps t)
    (he : SameEntries s.approvers t.approvers) {y : Slot} (hl : y.value? s.approvers ≠ none) :
    y.value? t.approvers ≠ none := by
  have ⟨_, hv⟩ := Option.ne_none_iff_exists'.mp hl
  have ⟨a, ha, hi⟩ := Option.bind_eq_some_iff.mp hv
  have ⟨b, hb⟩ := he.counterpart ha
  cases hy : y.share
  case own => simp [Slot.value?, hb, hy, Approver.input?]
  case member name =>
    rw [hy] at hi
    have hm := h.listed ha hb name <| Option.isSome_iff_exists.mpr ⟨_, hi⟩
    simpa [Slot.value?, hb, hy, Approver.input?, Option.isSome_iff_ne_none] using hm

theorem Requester.value?_of_located {old new : List Approver} {r : Requester} {site : ChangeSite}
    (he : SameEntries old new) (hl : r.locate old new = .ok (some site)) :
    (site.slot r).value? new = some site.value.text := by
  have ⟨before, hs⟩ := locate_eq_some_iff.mp hl
  have ⟨i, hk, hb, hp, _⟩ := settleFrom_eq_some_iff.mp hs
  simp only [Nat.zero_add] at hk
  subst hk
  have ⟨after, ha⟩ := he.counterpart hb
  have p := proposes_of_settles? (ha ▸ hp)
  simp [ChangeSite.slot, Slot.value?, ha, p.input]

-- An admitted vote is located, and it is what the new version holds at its slot.
theorem located_of_allow {old new : TaskState} {r : Requester} {x : Slot}
    (h : decideUpdate old new r = .allow) (hd : x.Disturbed old.approvers new.approvers) :
    ∃ site, r.locate old.approvers new.approvers = .ok (some site) ∧ site.slot r = x ∧
      x.value? new.approvers = some site.value.text := by
  have hc := cast_of_allow h hd
  have he := admissible_of_allow h |>.entries
  have ⟨site, hl, hi⟩ := Requester.located_of_cast he hc
  have hx : site.slot r = x :=
    hc.only _ |>.mp <| Requester.cast_of_located hl hi |>.only _ |>.mpr rfl
  exact ⟨site, hl, hx, hx ▸ Requester.value?_of_located he hl⟩

namespace Race

variable {t t₁ t₂ : ApprovalTask} {r₁ r₂ : Requester} {x₁ x₂ y : Slot} {v₁ v₂ : Vote}

theorem symm (h : Race t t₁ t₂ r₁ r₂ x₁ x₂) : Race t t₂ t₁ r₂ r₁ x₂ x₁ :=
  ⟨h.allowed₂, h.allowed₁, h.changes₂, h.changes₁, h.ne.symm⟩

-- What the first vote does not change reads as before.
theorem value?_of_ne (h : Race t t₁ t₂ r₁ r₂ x₁ x₂) (hk : t.toState.Keeps t₁.toState)
    (hy : y ≠ x₁) : y.value? t₁.toState.approvers = y.value? t.toState.approvers := by
  by_cases hl : y.value? t₁.toState.approvers = none
  case neg => exact h.value?_eq₁ hy hl
  case pos =>
    have hn : y.value? t.toState.approvers = none := by
      by_contra hn
      exact hk.value?_ne_none h.entries₁ hn hl
    exact hl.trans hn.symm

-- The second slot stays the second requester's.
theorem ownedBy (h : Race t t₁ t₂ r₁ r₂ x₁ x₂) (hk : t.toState.Keeps t₁.toState) :
    x₂.OwnedBy t₁.toState.approvers r₂ := by
  have ⟨a, ha, ho⟩ := (cast_of_allow h.allowed₂ h.changes₂).owned
  have ⟨b, hb⟩ := h.entries₁.counterpart ha
  have hn := (h.entries₁.entry ha hb).left
  have hs := h.entries₁.sameKind t.proper_toState t₁.proper_toState ha hb
  have hu : a.IsUserOf r₂ → b.IsUserOf r₂ := fun ⟨hu, he⟩ => ⟨hs.isUser ▸ hu, hn ▸ he⟩
  have hm : r₂.isMemberOf a → r₂.isMemberOf b := by
    rw [Requester.isMemberOf_iff, Requester.isMemberOf_iff, ← hs.isGroup, ← hn]
    exact And.imp_right <| Or.imp_right <| hk.listed ha hb _
  refine ⟨b, hb, ?_⟩
  cases hx : x₂.share <;> rw [hx] at ho
  case own    => exact ho.imp hu hm
  case member => exact ho.imp_right hm

-- What the first version reads with the second vote written to it.
theorem value?_write (h : Race t t₁ t₂ r₁ r₂ x₁ x₂) (hk : t.toState.Keeps t₁.toState) :
    y.value? (t₁.toState.write x₂ v₂).approvers =
      if y = x₂ then some v₂.text else y.value? t₁.toState.approvers := by
  have ⟨_, ha, ho⟩ := h.ownedBy hk
  exact Slot.value?_write ha ho.has

-- The same, told by the two votes and by what stood there before either of them.
theorem value?_of_votes (h : Race t t₁ t₂ r₁ r₂ x₁ x₂) (hk : t.toState.Keeps t₁.toState)
    (hv : x₁.value? t₁.toState.approvers = some v₁.text) :
    y.value? (t₁.toState.write x₂ v₂).approvers =
      if y = x₂ then some v₂.text else if y = x₁ then some v₁.text
      else y.value? t.toState.approvers := by
  rw [h.value?_write hk]
  refine if_congr Iff.rfl rfl ?_
  split
  case isTrue hy  => exact hy ▸ hv
  case isFalse hy => exact h.value?_of_ne hk hy

-- The second vote is the only change it makes to the first version.
theorem disturbed_write_iff (h : Race t t₁ t₂ r₁ r₂ x₁ x₂) (hk : t.toState.Keeps t₁.toState)
    (hv : x₂.value? t₂.toState.approvers = some v₂.text) :
    y.Disturbed t₁.toState.approvers (t₁.toState.write x₂ v₂).approvers ↔ y = x₂ := by
  rw [Slot.disturbed_iff Slot.sameEntries_write t₁.proper_toState t₁.proper_toState.write,
    h.value?_write hk]
  by_cases hy : y = x₂
  case neg => simp [hy]
  case pos =>
    -- The first version still holds there what the second vote was cast over.
    have ⟨_, hd⟩ :=
      Slot.disturbed_iff h.entries₂ t.proper_toState t₂.proper_toState |>.mp h.changes₂
    rw [← h.value?_of_ne hk h.ne.symm, hv] at hd
    simp [hy, hd]

-- The second vote is admitted after the first, wherever the two were cast.
theorem allow_write (h : Race t t₁ t₂ r₁ r₂ x₁ x₂) (hk : t.toState.Keeps t₁.toState)
    (hv : x₂.value? t₂.toState.approvers = some v₂.text) :
    decideUpdate t₁.toState (t₁.toState.write x₂ v₂) r₂ = .allow := by
  have ⟨hp, hu, _, _⟩ := admissible_of_allow h.allowed₂
  have hc := cast_of_allow h.allowed₂ h.changes₂
  exact allow_of_admissible {
    pending := hk.standing.phase ▸ hp
    unmet   := hk.standing.received ▸ hk.standing.required ▸ hu
    entries := Slot.sameEntries_write
    vote    := ⟨x₂, {
      only  := fun _ => h.disturbed_write_iff hk hv
      value := by simpa [h.value?_write hk, hv] using hc.value
      owned := h.ownedBy hk
      first := fun _ hi _ ha => h.not_isUserOf_of_lt hi ha }⟩ }

end Race

-- Two versions of a task that each hold one of two votes. Each admits the other vote, and with both
-- votes they have the same standing and read alike.
structure Reconciled (s₁ s₂ : TaskState) (r₁ r₂ : Requester) (x₁ x₂ : Slot) (v₁ v₂ : Vote) :
    Prop where
  allowed₂  : decideUpdate s₁ (s₁.write x₂ v₂) r₂ = .allow
  allowed₁  : decideUpdate s₂ (s₂.write x₁ v₁) r₁ = .allow
  standing  : (s₁.write x₂ v₂).SameStanding (s₂.write x₁ v₁)
  approvers : List.Forall₂ Approver.Alike (s₁.write x₂ v₂).approvers (s₂.write x₁ v₁).approvers

-- No later update tells in which order the votes came.
theorem Reconciled.decideUpdate_eq {s₁ s₂ new : TaskState} {r r₁ r₂ : Requester} {x₁ x₂ : Slot}
    {v₁ v₂ : Vote} (h : Reconciled s₁ s₂ r₁ r₂ x₁ x₂ v₁ v₂) :
    decideUpdate (s₁.write x₂ v₂) new r = decideUpdate (s₂.write x₁ v₁) new r :=
  have hv := SameView.of_alike h.approvers (SameView.refl_alike new.approvers)
  hv.decideUpdate_eq h.standing.isClosed_eq

-- Votes at different slots commute. After either of them the other is still admitted as it was
-- located, and with both it does not matter which came first.
theorem votes_commute {t t₁ t₂ : ApprovalTask} {r₁ r₂ : Requester} {x₁ x₂ : Slot}
    (h : Race t t₁ t₂ r₁ r₂ x₁ x₂) (h₁ : t.toState.Keeps t₁.toState)
    (h₂ : t.toState.Keeps t₂.toState) :
    ∃ site₁ site₂,
      r₁.locate t.toState.approvers t₁.toState.approvers = .ok (some site₁) ∧ site₁.slot r₁ = x₁ ∧
      r₂.locate t.toState.approvers t₂.toState.approvers = .ok (some site₂) ∧ site₂.slot r₂ = x₂ ∧
      Reconciled t₁.toState t₂.toState r₁ r₂ x₁ x₂ site₁.value site₂.value := by
  have ⟨site₁, hl₁, hx₁, hv₁⟩ := located_of_allow h.allowed₁ h.changes₁
  have ⟨site₂, hl₂, hx₂, hv₂⟩ := located_of_allow h.allowed₂ h.changes₂
  refine ⟨site₁, site₂, hl₁, hx₁, hl₂, hx₂, h.allow_write h₁ hv₂, h.symm.allow_write h₂ hv₁,
    ?standing, ?approvers⟩
  case standing =>
    exact {
      phase    := h₁.standing.phase.symm.trans h₂.standing.phase
      received := h₁.standing.received.symm.trans h₂.standing.received
      required := h₁.standing.required.symm.trans h₂.standing.required }
  case approvers =>
    have he : SameEntries (t₁.toState.write x₂ site₂.value).approvers
        (t₂.toState.write x₁ site₁.value).approvers :=
      Slot.sameEntries_write.symm.trans <| h.entries.trans Slot.sameEntries_write
    refine alike_of_value?_eq he t₁.proper_toState.write t₂.proper_toState.write fun y => ?_
    rw [h.value?_of_votes h₁ hv₁, h.symm.value?_of_votes h₂ hv₂]
    by_cases hy : y = x₁
    case pos => simp [hy, h.ne]
    case neg => simp [hy]

namespace ApprovalTask

theorem listed_ofGroup {ms : List UserDetails} {i : Nat} {a : Approver} {name : String}
    (ha : (ofGroup ms).toState.approvers[i]? = some a) :
    (a.memberInput? name).isSome ↔ name ∈ ms.map UserDetails.name := by
  have hk : (ofGroup ms).toState.approvers =
      [⟨"qa", "", .group (ms.map fun m => ⟨m.name, m.input⟩)⟩] := rfl
  rw [hk] at ha
  cases List.mem_singleton.mp <| List.mem_of_getElem? ha
  simp [Approver.memberInput?, Approver.members]

theorem keeps_ofGroup {ms ns : List UserDetails}
    (h : ∀ name ∈ ms.map UserDetails.name, name ∈ ns.map UserDetails.name) :
    (ofGroup ms).toState.Keeps (ofGroup ns).toState where
  standing := ⟨rfl, rfl, rfl⟩
  listed ha hb name hl := listed_ofGroup hb |>.mpr <| h name <| listed_ofGroup ha |>.mp hl

-- Erin, who was not listed, votes against.
def erinRejects : ApprovalTask :=
  ofGroup [⟨"carol", ""⟩, ⟨"dave", ""⟩, ⟨"erin", "reject"⟩]

end ApprovalTask

-- The case of a listed member, and of someone who claims the group and is listed by their vote.
theorem carol_and_erin_commute :
    Race .unvoted .carolApproves .erinRejects ⟨"carol", []⟩ ⟨"erin", ["qa"]⟩
        ⟨0, .member "carol"⟩ ⟨0, .member "erin"⟩ ∧
      ApprovalTask.unvoted.toState.Keeps ApprovalTask.carolApproves.toState ∧
      ApprovalTask.unvoted.toState.Keeps ApprovalTask.erinRejects.toState ∧
      ∃ site₁ site₂,
        Requester.locate ⟨"carol", []⟩ ApprovalTask.unvoted.toState.approvers
          ApprovalTask.carolApproves.toState.approvers = .ok (some site₁) ∧
        site₁.slot ⟨"carol", []⟩ = ⟨0, .member "carol"⟩ ∧
        Requester.locate ⟨"erin", ["qa"]⟩ ApprovalTask.unvoted.toState.approvers
          ApprovalTask.erinRejects.toState.approvers = .ok (some site₂) ∧
        site₂.slot ⟨"erin", ["qa"]⟩ = ⟨0, .member "erin"⟩ ∧
        Reconciled ApprovalTask.carolApproves.toState ApprovalTask.erinRejects.toState
          ⟨"carol", []⟩ ⟨"erin", ["qa"]⟩ ⟨0, .member "carol"⟩ ⟨0, .member "erin"⟩
          site₁.value site₂.value :=
  have hr : Race .unvoted .carolApproves .erinRejects ⟨"carol", []⟩ ⟨"erin", ["qa"]⟩
      ⟨0, .member "carol"⟩ ⟨0, .member "erin"⟩ := {
    allowed₁ := by decide
    allowed₂ := by decide
    changes₁ := ⟨_, _, rfl, rfl, rfl, by decide, by decide⟩
    changes₂ := ⟨_, _, rfl, rfl, rfl, by decide, by decide⟩
    ne       := by decide }
  have h₁ : ApprovalTask.unvoted.toState.Keeps ApprovalTask.carolApproves.toState :=
    ApprovalTask.keeps_ofGroup (by decide)
  have h₂ : ApprovalTask.unvoted.toState.Keeps ApprovalTask.erinRejects.toState :=
    ApprovalTask.keeps_ofGroup (by decide)
  ⟨hr, h₁, h₂, votes_commute hr h₁ h₂⟩

-- Of two who are listed by their votes, the order of the members tells who came first. So the
-- versions are alike, but not equal.
example :
    let frankApproves : ApprovalTask :=
      .ofGroup [⟨"carol", ""⟩, ⟨"dave", ""⟩, ⟨"frank", "approve"⟩]
    (ApprovalTask.erinRejects.toState.write ⟨0, .member "frank"⟩ .approve).approvers ≠
      (frankApproves.toState.write ⟨0, .member "erin"⟩ .reject).approvers := by
  decide

end Countersign
