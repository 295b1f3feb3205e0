import Countersign.Proofs.Codec.Reading
import Countersign.Proofs.Task.Acceptance

namespace Countersign

mutual

-- The schema says of each value what its description says. Apart from that the schema wants records
-- to be spelled out, and the description wants to be able to use the values that it finds.
def Codec.HasSchema : {α : Type} → Codec α → Schema → Prop
  | _, .text, s => s = .text
  | _, .natural _ _, s => s = .integer 0
  | _, .json, s => s = .anyObject
  | _, .option c, s => c.HasSchema s
  | _, .list c, s => ∃ items, s = .list items ∧ c.HasSchema items
  | _, .record _ fields, s => fields.names.Nodup ∧
    ∃ properties, s = .object fields.required properties ∧ fields.HaveSchemas properties
  | _, .via _ _ _ c, s => c.HasSchema s
  | _, .flag, _ => False
  | _, .formatted _ _ _, _ => False
  | _, .raw, _ => False
  | _, .choice _, _ => False

def Fields.HaveSchemas : {α σ : Type} → Fields α σ → List (String × Schema) → Prop
  | _, _, .nil, properties => properties = []
  | _, _, .cons name _ c rest, properties =>
    ∃ s tail, properties = (name, s) :: tail ∧ c.HasSchema s ∧ rest.HaveSchemas tail

end

attribute [simp] Codec.HasSchema Fields.HaveSchemas

namespace Json

-- The value is an object with this member.
def Has (j : Json) (key : String) (value : Json) : Prop :=
  ∃ members, j = obj members ∧ (key, value) ∈ members

def IsObjectOf (j : Json) (keys : List String) : Prop :=
  ∃ members, j = obj members ∧ ∀ m ∈ members, m.1 ∈ keys

variable {j : Json} {key name : String} {value : Json} {members : List (String × Json)}

@[simp]
theorem has_obj_iff : (obj members).Has key value ↔ (key, value) ∈ members := by
  simp [Has]

@[simp]
theorem isObjectOf_obj_iff {keys : List String} :
    (obj members).IsObjectOf keys ↔ ∀ m ∈ members, m.1 ∈ keys := by
  simp [IsObjectOf]

-- What is said of the first name and of the other ones is said of the names one by one.
theorem forall_has_cons_iff {names : List String} {P : Json → Prop} {Q : String → Json → Prop}
    (h : name ∉ names) :
    (∀ key value, j.Has key value → key ∈ name :: names →
        if key = name then P value else Q key value) ↔
      (∀ value, j.Has name value → P value) ∧
        ∀ key value, j.Has key value → key ∈ names → Q key value where
  mp hj := by
    constructor
    case left => exact fun value hv => by simpa using hj name value hv
    case right =>
      intro key value hv hk
      have hn : key ≠ name := fun he => h (he ▸ hk)
      simpa [hn, hk] using hj key value hv
  mpr hj key value hv hk := by
    split
    case isTrue he  => exact hj.left value (he ▸ hv)
    case isFalse he => exact hj.right key value hv <| List.mem_of_ne_of_mem he hk

end Json

mutual

-- The value is spelled out: its records are objects without unknown keys, values of any form are
-- objects, and what is missing is left out.
def Codec.Spelled : {α : Type} → Codec α → Json → Prop
  | _, .json, j => ∃ members, j = .obj members
  | _, .option c, j => j ≠ .null ∧ c.Spelled j
  | _, .list c, j => ∀ items, j = .arr items → ∀ item ∈ items, c.Spelled item
  | _, .record _ fields, j => j.IsObjectOf fields.names ∧ fields.Spelled j
  | _, .via _ _ _ c, j => c.Spelled j
  | _, .text, _ => True
  | _, .natural _ _, _ => True
  | _, .flag, _ => True
  | _, .formatted _ _ _, _ => True
  | _, .raw, _ => True
  | _, .choice _, _ => True

def Fields.Spelled : {α σ : Type} → Fields α σ → Json → Prop
  | _, _, .nil, _ => True
  | _, _, .cons name _ c rest, j => (∀ value, j.Has name value → c.Spelled value) ∧ rest.Spelled j

end

attribute [simp] Codec.Spelled Fields.Spelled

mutual

-- The value is of use: its numbers are within their limits, and the texts that are embedded in it
-- can be read.
def Codec.Usable : {α : Type} → Codec α → Json → Prop
  | _, .natural limit _, j => ∃ n : Nat, n < limit ∧ j = .num (.int n)
  | _, .json, j => ∃ k, j.unfold = .ok k
  | _, .option c, j => j = .null ∨ c.Usable j
  | _, .list c, j => ∀ items, j = .arr items → ∀ item ∈ items, c.Usable item
  | _, .record _ fields, j => fields.Usable j
  | _, .via _ _ _ c, j => c.Usable j
  | _, .text, _ => True
  | _, .flag, _ => True
  | _, .formatted _ _ _, _ => True
  | _, .raw, _ => True
  | _, .choice _, _ => True

def Fields.Usable : {α σ : Type} → Fields α σ → Json → Prop
  | _, _, .nil, _ => True
  | _, _, .cons name _ c rest, j => (∀ value, j.Has name value → c.Usable value) ∧ rest.Usable j

end

attribute [simp] Codec.Usable Fields.Usable

open Codec Schema

theorem Fields.mem_names_of_admits : {α σ : Type} → (fields : Fields α σ) →
    {properties : List (String × Schema)} → {key : String} → {value : Json} →
    fields.HaveSchemas properties → Admits properties key value → key ∈ fields.names
  | _, _, .nil, _, _, _, hs, ha => by
    cases hs
    contradiction
  | _, _, .cons name _ c rest, _, key, value, hs, ha => by
    obtain ⟨s, tail, rfl, _, hs⟩ := hs
    rw [Admits] at ha
    rw [names, List.mem_cons]
    split at ha
    case isTrue h  => exact .inl h
    case isFalse h => exact .inr <| rest.mem_names_of_admits hs ha

mutual

-- What can be read is accepted if and only if it is spelled out.
theorem Codec.accepts_iff_spelled : {α : Type} → (c : Codec α) → {s : Schema} → {j : Json} →
    c.HasSchema s → c.Readable j → (s.Accepts j ↔ c.Spelled j)
  | _, .text, _, _, hs, hr => by
    cases hs
    exact iff_of_true (readable_text_iff.mp hr) trivial
  | _, .natural _ _, _, _, hs, hr => by
    cases hs
    have ⟨n, _, hj⟩ := readable_natural_iff.mp hr
    simp [Accepts, Codec.Spelled, hj, hasType, isBelow]
  | _, .json, _, _, hs, _ => by
    cases hs
    rfl
  | _, .option c, s, j, hs, hr => by
    cases readable_option_iff.mp hr
    case inl hj => simp [Codec.Spelled, hj, not_accepts_null]
    case inr hr =>
      have hi := c.accepts_iff_spelled hs hr
      rw [Codec.Spelled, ← hi]
      exact ⟨fun ha => ⟨fun hj => s.not_accepts_null (hj ▸ ha), ha⟩, And.right⟩
  | _, .list c, _, _, hs, hr => by
    obtain ⟨items, rfl, hs⟩ := hs
    obtain ⟨values, rfl, hv⟩ := readable_list_iff.mp hr
    have hi value h := c.accepts_iff_spelled hs (hv value h)
    simpa [Codec.Spelled, accepts_arr_iff] using forall₂_congr hi
  | _, .record _ fields, _, j, hs, hr => by
    obtain ⟨hn, properties, rfl, hs⟩ := hs
    cases j
    case obj members =>
      have ⟨hm, hq⟩ := readable_obj_iff hn |>.mp hr
      have hi := fields.admits_iff_spelled (j := .obj members) hn hs fun key value hv _ =>
        hm (key, value) (Json.has_obj_iff.mp hv)
      -- The schema speaks of each member, being spelled out of each field: they come to the same
      -- because an accepted member belongs to a field.
      rw [accepts_obj_iff, and_iff_left hq, Codec.Spelled, ← hi, Json.isObjectOf_obj_iff]
      constructor
      case mp =>
        exact fun ha => ⟨fun m h => fields.mem_names_of_admits hs (ha m h),
          fun _ _ hv _ => ha _ (Json.has_obj_iff.mp hv)⟩
      case mpr => exact fun ⟨hk, ha⟩ m h => ha _ _ (Json.has_obj_iff.mpr h) (hk m h)
    all_goals simp [Accepts, Codec.Spelled, Json.IsObjectOf]
  | _, .via _ _ _ c, _, _, hs, hr => c.accepts_iff_spelled hs (readable_via_iff.mp hr)

theorem Fields.admits_iff_spelled : {α σ : Type} → (fields : Fields α σ) →
    {properties : List (String × Schema)} → {j : Json} → fields.names.Nodup →
    fields.HaveSchemas properties →
    (∀ key value, j.Has key value → key ∈ fields.names → fields.Reads key value) →
    ((∀ key value, j.Has key value → key ∈ fields.names → Admits properties key value) ↔
      fields.Spelled j)
  | _, _, .nil, _, _, _, _, _ => by simp [Fields.names, Fields.Spelled]
  | _, _, .cons name _ c rest, _, j, hn, hs, hr => by
    obtain ⟨s, tail, rfl, hc, hs⟩ := hs
    have ⟨hm, hn⟩ := List.nodup_cons.mp hn
    have ⟨hv, hr⟩ := Json.forall_has_cons_iff hm |>.mp hr
    exact Json.forall_has_cons_iff hm |>.trans <|
      and_congr (forall₂_congr fun value h => c.accepts_iff_spelled hc (hv value h))
        (rest.admits_iff_spelled hn hs hr)

end

mutual

-- What is accepted can be read if and only if it is of use.
theorem Codec.readable_iff_usable : {α : Type} → (c : Codec α) → {s : Schema} → {j : Json} →
    c.HasSchema s → s.Accepts j → (c.Readable j ↔ c.Usable j)
  | _, .text, _, _, hs, ha => by
    cases hs
    exact iff_of_true (readable_text_iff.mpr ha) trivial
  | _, .natural _ _, _, _, _, _ => readable_natural_iff
  | _, .json, _, _, _, _ => readable_json_iff
  | _, .option c, _, _, hs, ha => by
    rw [readable_option_iff, Codec.Usable, c.readable_iff_usable hs ha]
  | _, .list c, _, _, hs, ha => by
    obtain ⟨items, rfl, hs⟩ := hs
    obtain ⟨values, rfl, hv⟩ := ha
    have hi value h := c.readable_iff_usable hs (hv value h)
    simpa [Codec.Usable, readable_list_iff] using forall₂_congr hi
  | _, .record _ fields, _, _, hs, ha => by
    obtain ⟨hn, properties, rfl, hs⟩ := hs
    obtain ⟨members, rfl, hm, hq⟩ := ha
    have hi := fields.reads_iff_usable (j := .obj members) hn hs fun key value hv _ =>
      hm (key, value) (Json.has_obj_iff.mp hv)
    rw [readable_obj_iff hn, and_iff_left hq, Codec.Usable, ← hi]
    constructor
    case mp => exact fun hr _ _ hv _ => hr _ (Json.has_obj_iff.mp hv)
    case mpr =>
      exact fun hr m h => hr _ _ (Json.has_obj_iff.mpr h) (fields.mem_names_of_admits hs (hm m h))
  | _, .via _ _ _ c, _, _, hs, ha => by
    rw [readable_via_iff, Codec.Usable, c.readable_iff_usable hs ha]

theorem Fields.reads_iff_usable : {α σ : Type} → (fields : Fields α σ) →
    {properties : List (String × Schema)} → {j : Json} → fields.names.Nodup →
    fields.HaveSchemas properties →
    (∀ key value, j.Has key value → key ∈ fields.names → Admits properties key value) →
    ((∀ key value, j.Has key value → key ∈ fields.names → fields.Reads key value) ↔
      fields.Usable j)
  | _, _, .nil, _, _, _, _, _ => by simp [Fields.names, Fields.Usable]
  | _, _, .cons name _ c rest, _, j, hn, hs, ha => by
    obtain ⟨s, tail, rfl, hc, hs⟩ := hs
    have ⟨hm, hn⟩ := List.nodup_cons.mp hn
    have ⟨hv, ha⟩ := Json.forall_has_cons_iff hm |>.mp ha
    exact Json.forall_has_cons_iff hm |>.trans <|
      and_congr (forall₂_congr fun value h => c.readable_iff_usable hc (hv value h))
        (rest.reads_iff_usable hn hs ha)

end

end Countersign
