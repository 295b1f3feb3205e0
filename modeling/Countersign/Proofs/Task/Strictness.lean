import Mathlib.Algebra.Group.Nat.Defs
import Mathlib.Tactic.ByContra
import Mathlib.Tactic.MkIffOfInductiveProp
import Countersign.Proofs.Codec.Agreement
import Countersign.Proofs.Json.Embedding
import Countersign.Task.Decoder

namespace Countersign

namespace Json

-- The value is an object with a list under the key, and the item is in it.
def HasItem (j : Json) (key : String) (item : Json) : Prop :=
  ∃ items, j.Has key (.arr items) ∧ item ∈ items

theorem forall_hasItem_iff {j : Json} {key : String} {P : Json → Prop} :
    (∀ item, j.HasItem key item → P item) ↔
      ∀ value, j.Has key value → ∀ items, value = .arr items → ∀ item ∈ items, P item where
  mp h _ hv items he item hi := h item ⟨items, he ▸ hv, hi⟩
  mpr h item hi := have ⟨items, hv, hi⟩ := hi; h _ hv items rfl item hi

theorem read_nil : read [] = .error ⟨.malformed .endInValue, .left 0⟩ := by
  rw [read]
  unfold scan scanWith
  rfl

end Json

-- The names of a record's fields.
@[simp]
def Codec.keys : {α : Type} → Codec α → List String
  | _, .record _ fields => fields.names
  | _, .via _ _ _ c => c.keys
  | _, _ => []

@[mk_iff]
structure ApproverDetails.Spelled (j : Json) : Prop where
  object : j.IsObjectOf codec.keys
  users  : ∀ u, j.HasItem "users" u → u.IsObjectOf UserDetails.codec.keys

@[mk_iff]
structure TaskSpec.Spelled (j : Json) : Prop where
  object    : j.IsObjectOf codec.keys
  approvers : ∀ a, j.HasItem "approvers" a → ApproverDetails.Spelled a

@[mk_iff]
structure ApproverResponse.Spelled (j : Json) : Prop where
  object  : j.IsObjectOf codec.keys
  members : ∀ m, j.HasItem "groupMembers" m → m.IsObjectOf MemberResponse.codec.keys

@[mk_iff]
structure TaskStatus.Spelled (j : Json) : Prop where
  object    : j.IsObjectOf codec.keys
  responses : ∀ r, j.HasItem "approversResponse" r → ApproverResponse.Spelled r
  startTime : ¬j.Has "startTime" .null

@[mk_iff]
structure ApprovalTask.Spelled (j : Json) : Prop where
  object   : j.IsObjectOf codec.keys
  metadata : ∀ m, j.Has "metadata" m → ∃ members, m = .obj members
  spec     : ∀ s, j.Has "spec" s → TaskSpec.Spelled s
  status   : ∀ s, j.Has "status" s → TaskStatus.Spelled s

-- Why a value that spells out a task is none.
inductive ApprovalTask.Misfit (j : Json) : Prop
  | threshold {s n : Json} (spec : j.Has "spec" s) (count : s.Has "numberOfApprovalsRequired" n)
    (misfit : ∀ i : Nat, i < 2 ^ 64 → n ≠ .num (.int i))
  | metadata {m : Json} (metadata : j.Has "metadata" m) (embeds : m.Embeds)
    (misfit : ∀ k, m.unfold ≠ .ok k)

variable {j : Json}

namespace UserDetails

theorem hasSchema : codec.HasSchema (.named "input") := by
  refine ⟨by decide, _, rfl, ?_⟩
  simp

theorem codec_spelled_iff : codec.Spelled j ↔ j.IsObjectOf codec.keys := by
  simp [codec]

theorem usable (j : Json) : codec.Usable j := by
  simp [codec]

end UserDetails

namespace ApproverDetails

theorem hasSchema : codec.HasSchema .approver := by
  refine ⟨by decide, _, rfl, ?_⟩
  simp [and_assoc, UserDetails.hasSchema]

theorem codec_spelled_iff : codec.Spelled j ↔ Spelled j := by
  rw [spelled_iff, Json.forall_hasItem_iff]
  simp [codec, UserDetails.codec_spelled_iff]

theorem usable (j : Json) : codec.Usable j := by
  simp [codec, UserDetails.usable]

end ApproverDetails

namespace TaskSpec

theorem hasSchema : codec.HasSchema (.object [] [("approvers", .list .approver),
    ("numberOfApprovalsRequired", .integer 0), ("description", .text)]) := by
  refine ⟨by decide, _, rfl, ?_⟩
  simp [and_assoc, ApproverDetails.hasSchema]

theorem codec_spelled_iff : codec.Spelled j ↔ Spelled j := by
  rw [spelled_iff, Json.forall_hasItem_iff]
  simp [codec, ApproverDetails.codec_spelled_iff]

theorem usable_iff : codec.Usable j ↔ ∀ n, j.Has "numberOfApprovalsRequired" n →
    ∃ i : Nat, i < 2 ^ 64 ∧ n = .num (.int i) := by
  simp [codec, ApproverDetails.usable, UInt64.size]

end TaskSpec

namespace MemberResponse

theorem hasSchema : codec.HasSchema (.named "response") := by
  refine ⟨by decide, _, rfl, ?_⟩
  simp

theorem codec_spelled_iff : codec.Spelled j ↔ j.IsObjectOf codec.keys := by
  simp [codec]

theorem usable (j : Json) : codec.Usable j := by
  simp [codec]

end MemberResponse

namespace ApproverResponse

theorem hasSchema : codec.HasSchema .response := by
  refine ⟨by decide, _, rfl, ?_⟩
  simp [and_assoc, MemberResponse.hasSchema]

theorem codec_spelled_iff : codec.Spelled j ↔ Spelled j := by
  rw [spelled_iff, Json.forall_hasItem_iff]
  simp [codec, MemberResponse.codec_spelled_iff]

theorem usable (j : Json) : codec.Usable j := by
  simp [codec, MemberResponse.usable]

end ApproverResponse

namespace TaskStatus

theorem hasSchema : codec.HasSchema (.object [] [("approvers", .list .text),
    ("approversResponse", .list .response), ("state", .text), ("startTime", .text)]) := by
  refine ⟨by decide, _, rfl, ?_⟩
  simp [and_assoc, ApproverResponse.hasSchema]

theorem codec_spelled_iff : codec.Spelled j ↔ Spelled j := by
  have ht : (∀ t, j.Has "startTime" t → t ≠ .null) ↔ ¬j.Has "startTime" .null :=
    ⟨fun h hj => h _ hj rfl, fun h t hj ht => h (ht ▸ hj)⟩
  rw [spelled_iff, Json.forall_hasItem_iff, ← ht]
  simp [codec, ApproverResponse.codec_spelled_iff]

theorem usable (j : Json) : codec.Usable j := by
  simp [codec, ApproverResponse.usable]

end TaskStatus

namespace ApprovalTask

theorem hasSchema : codec.HasSchema .approvalTask := by
  refine ⟨by decide, _, rfl, ?_⟩
  simp [and_assoc, TaskSpec.hasSchema, TaskStatus.hasSchema]

theorem codec_spelled_iff : codec.Spelled j ↔ Spelled j := by
  rw [spelled_iff]
  simp [codec, TaskSpec.codec_spelled_iff, TaskStatus.codec_spelled_iff]

theorem usable_iff : codec.Usable j ↔ (∀ m, j.Has "metadata" m → ∃ k, m.unfold = .ok k) ∧
    ∀ s, j.Has "spec" s → ∀ n, s.Has "numberOfApprovalsRequired" n →
      ∃ i : Nat, i < 2 ^ 64 ∧ n = .num (.int i) := by
  simp [codec, TaskSpec.usable_iff, TaskStatus.usable]

theorem misfit_iff : Misfit j ↔ ¬codec.Usable j := by
  rw [usable_iff]
  constructor
  case mp =>
    intro h ⟨hm, hs⟩
    cases h
    case threshold hj hn h =>
      have ⟨i, hi, he⟩ := hs _ hj _ hn
      exact h i hi he
    case metadata hj _ h =>
      have ⟨k, hk⟩ := hm _ hj
      exact h k hk
  case mpr =>
    intro h
    by_contra hn
    refine h ⟨fun m hm => ?_, fun s hs n hc => ?_⟩
    · by_contra hu
      have he : m.Embeds := by_contra fun he => hu ⟨m, m.unfold_eq_self he⟩
      exact hn <| .metadata hm he fun k hk => hu ⟨k, hk⟩
    · by_contra hu
      exact hn <| .threshold hs hc fun i hi he => hu ⟨i, hi, he⟩

end ApprovalTask

namespace TaskDecoder

variable {role : ObjectRole} {v : Json} {t : ApprovalTask}

theorem ofJson_eq_ok_iff : ofJson role v = .ok t ↔ ApprovalTask.codec.ofJson v = .ok t :=
  mapError_eq_ok_iff

theorem exists_ofJson_eq_error_iff :
    (∃ e, ofJson role v = .error e) ↔ ¬ApprovalTask.codec.Readable v :=
  exists_mapError_eq_error_iff

theorem lenient_eq_ok_iff : ((⟨false⟩ : TaskDecoder).decodeJson role v).value = .ok t ↔
    ApprovalTask.codec.ofJson v = .ok t :=
  ofJson_eq_ok_iff

theorem strict_eq_ok_iff : ((⟨true⟩ : TaskDecoder).decodeJson role v).value = .ok t ↔
    Schema.approvalTask.Accepts v ∧ ApprovalTask.codec.ofJson v = .ok t := by
  rw [← Schema.violations_eq_nil_iff _ [], ← @ofJson_eq_ok_iff role]
  cases h : Schema.approvalTask.violations [] v <;> simp [decodeJson, violations, h]

end TaskDecoder

-- What the two modes of decoding make of a value.
structure TaskDecoder.ModesAgree (role : ObjectRole) (v : Json) : Prop where
  strict  : ∀ t, ((⟨true⟩ : TaskDecoder).decodeJson role v).value = .ok t ↔
    ((⟨false⟩ : TaskDecoder).decodeJson role v).value = .ok t ∧ ApprovalTask.Spelled v
  misfits : Schema.approvalTask.violations [] v = [] →
    ((∃ e, ofJson role v = .error e) ↔ ApprovalTask.Misfit v)
  text    : ∀ (d : TaskDecoder) text, Json.read text = .ok v →
    d.decode role (some text) = d.decodeJson role v

-- Strict decoding takes what lenient decoding takes, if it is spelled out. What the schema has
-- nothing to say against can be read, unless it is a misfit.
theorem TaskDecoder.modes_agree (role : ObjectRole) (v : Json) : ModesAgree role v where
  strict t := by
    rw [strict_eq_ok_iff, lenient_eq_ok_iff, and_comm]
    refine and_congr_right fun h => ?_
    rw [ApprovalTask.codec.accepts_iff_spelled ApprovalTask.hasSchema ⟨t, h⟩,
      ApprovalTask.codec_spelled_iff]
  misfits h := by
    have ha := Schema.violations_eq_nil_iff _ _ _ |>.mp h
    rw [exists_ofJson_eq_error_iff, ApprovalTask.misfit_iff,
      ApprovalTask.codec.readable_iff_usable ApprovalTask.hasSchema ha]
  text d text h := by
    cases text
    case nil => cases Json.read_nil.symm.trans h
    case cons => simp [decode, h]

-- Not only thresholds are misfits: metadata can hold what stands for an embedded text.
theorem TaskDecoder.misfit_without_threshold :
    ¬∀ role v, Schema.approvalTask.violations [] v = [] → (∃ e, ofJson role v = .error e) →
      ∃ s n, v.Has "spec" s ∧ s.Has "numberOfApprovalsRequired" n ∧
        ∀ i : Nat, i < 2 ^ 64 → n ≠ .num (.int i) := by
  intro h
  let metadata := Json.obj [(Json.embeddingKey, .str "2"), ("a", .num (.int 1))]
  have hs : Schema.approvalTask.violations [] (.obj [("metadata", metadata)]) = [] := by
    decide +kernel
  have hr : (ofJson .new (.obj [("metadata", metadata)])).isOk = false := by decide +kernel
  have he : ∃ e, ofJson .new (.obj [("metadata", metadata)]) = .error e := by
    cases hj : ofJson .new (.obj [("metadata", metadata)])
    case error e => exact ⟨e, rfl⟩
    case ok => simp [hj, Except.isOk, Except.toBool] at hr
  have ⟨s, n, hj, _⟩ := h .new _ hs he
  simp at hj

end Countersign
