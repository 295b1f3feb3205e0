import Countersign.Task.Schema

namespace Countersign.Schema

mutual

def Accepts : Schema → Json → Prop
  | text, j => ∃ s, j = .str s
  | integer minimum, j => (integer minimum).hasType j ∧ ¬isBelow minimum j
  | list items, j => ∃ values, j = .arr values ∧ ∀ value ∈ values, items.Accepts value
  | anyObject, j => ∃ members, j = .obj members
  | object required properties, j =>
    ∃ members, j = .obj members ∧ (∀ m ∈ members, Admits properties m.1 m.2) ∧
      ∀ name ∈ required, name ∈ members.map Prod.fst

-- A key is one of the properties, and has a value that its schema accepts.
def Admits : List (String × Schema) → String → Json → Prop
  | [], _, _ => False
  | (name, schema) :: rest, key, value =>
    if key = name then schema.Accepts value else Admits rest key value

end

theorem not_accepts_null (s : Schema) : ¬s.Accepts .null := by
  cases s <;> simp [Accepts, hasType]

theorem accepts_arr_iff {items : Schema} {values : List Json} :
    (list items).Accepts (.arr values) ↔ ∀ value ∈ values, items.Accepts value := by
  simp [Accepts]

theorem accepts_obj_iff {required : List String} {properties : List (String × Schema)}
    {members : List (String × Json)} :
    (object required properties).Accepts (.obj members) ↔
      (∀ m ∈ members, Admits properties m.1 m.2) ∧
        ∀ name ∈ required, name ∈ members.map Prod.fst := by
  simp [Accepts]

variable {key : String} {members : List (String × Json)}

-- A violation that is only found when there is something to report.
theorem report_eq_nil_iff {α : Type} {names : List String} {v : α} :
    (if names.isEmpty then [] else [v]) = [] ↔ names = [] := by
  cases names <;> simp

theorem unknown_eq_nil_iff {properties : List (String × Schema)} :
    ((members.map Prod.fst).filter fun key => !(properties.map Prod.fst).contains key) = [] ↔
      ∀ m ∈ members, m.1 ∈ properties.map Prod.fst := by
  simp [List.filter_eq_nil_iff]

theorem member?_isNone_iff : (Json.member? key members).isNone ↔ key ∉ members.map Prod.fst := by
  induction members
  case nil => simp [Json.member?]
  case cons m members hi =>
    rw [Json.member?, List.map_cons, List.mem_cons, not_or, ← hi]
    split
    case isTrue h  => simp [h]
    case isFalse h => simp [Ne.symm h]

theorem missing_eq_nil_iff {required : List String} :
    (required.filter fun name => (Json.member? name members).isNone) = [] ↔
      ∀ name ∈ required, name ∈ members.map Prod.fst := by
  simp only [List.filter_eq_nil_iff, member?_isNone_iff, Decidable.not_not]

mutual

theorem violations_eq_nil_iff : (s : Schema) → (path : List String) → (j : Json) →
    (s.violations path j = [] ↔ s.Accepts j)
  | text, path, j => by
    cases j <;> simp [violations, Accepts, hasType]
  | integer minimum, path, j => by
    simp [violations, Accepts, and_comm]
  | list items, path, j => by
    cases j
    case arr values =>
      -- The index of an item only goes into the paths of its violations.
      have hi path j := violations_eq_nil_iff items path j
      have hv : (∀ p ∈ values.zipIdx, items.Accepts p.1) ↔
          ∀ value ∈ values, items.Accepts value := by
        rw [← List.forall_mem_map, List.zipIdx_map_fst]
      simp [violations, Accepts, List.flatMap_eq_nil_iff, hi, ← hv]
    all_goals simp [violations, Accepts, hasType]
  | anyObject, path, j => by
    cases j <;> simp [violations, Accepts, hasType]
  | object required properties, path, j => by
    cases j
    case obj members =>
      have ha key value := admits_iff properties path key value
      simp only [violations, Accepts, List.append_eq_nil_iff, List.flatMap_eq_nil_iff, ha]
      simp only [report_eq_nil_iff, unknown_eq_nil_iff, List.map_eq_nil_iff, missing_eq_nil_iff]
      constructor
      case mp => exact fun ⟨⟨hp, hk⟩, hr⟩ => ⟨_, rfl, fun m hm => ⟨hk m hm, hp m hm⟩, hr⟩
      case mpr =>
        rintro ⟨_, ⟨⟩, hm, hr⟩
        exact ⟨⟨fun m h => (hm m h).right, fun m h => (hm m h).left⟩, hr⟩
    all_goals simp [violations, Accepts, hasType]

theorem admits_iff : (properties : List (String × Schema)) → (path : List String) →
    (key : String) → (value : Json) → (Admits properties key value ↔
      key ∈ properties.map Prod.fst ∧ propertyViolations path key value properties = [])
  | [], _, _, _ => by simp [Admits]
  | (name, schema) :: rest, path, key, value => by
    have hs := violations_eq_nil_iff schema (path ++ [key]) value
    have hr := admits_iff rest path key value
    rw [Admits, propertyViolations, List.map_cons, List.mem_cons]
    split
    case isTrue h  => simp only [h, true_or, true_and, ← hs]
    case isFalse h => simp only [h, false_or, hr]

end

end Countersign.Schema
