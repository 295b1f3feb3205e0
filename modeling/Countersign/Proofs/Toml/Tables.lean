import Countersign.Proofs.Toml.Reading

namespace Countersign.Toml

section Lookup

variable {key key' : String} {item : Item} {entries : Entries}

theorem Entries.find?_put_self : (entries.put key item).find? key = some item := by
  induction entries
  case nil => simp [put, find?]
  case cons e _ hi =>
    by_cases he : e.fst = key
    all_goals simp [put, find?, he, hi]

theorem Entries.find?_put_ne (h : key' ≠ key) :
    (entries.put key item).find? key' = entries.find? key' := by
  induction entries
  case nil => simp [put, find?, h.symm]
  case cons e _ hi =>
    by_cases he : e.fst = key
    case pos => simp [put, find?, he, h.symm]
    case neg => simp [put, find?, he, hi]

theorem Entries.find?_put_congr {plain full : Entries}
    (h : full.find? key' = plain.find? key') :
    (full.put key item).find? key' = (plain.put key item).find? key' := by
  by_cases he : key' = key
  case pos => rw [he, find?_put_self, find?_put_self]
  case neg => rw [find?_put_ne he, find?_put_ne he, h]

end Lookup

namespace Change

variable {change inner : Change} {key : String} {path p : List String} {origin : Origin}
  {entries plain plain' full : Entries} {byDots : Bool}

-- The change reads and sets one key only.
def IsAt (change : Change) (key : String) : Prop :=
  ∃ new : Origin → Option Item → Option Item, ∀ origin entries,
    change origin entries = (new origin (entries.find? key)).map (entries.put key ·)

-- The keys that lead to what is changed.
inductive Goes : Change → List String → Prop
  | here {change : Change} {key : String} (h : change.IsAt key) : Goes change [key]
  | through {inner : Change} {path : List String} {byDots : Bool} {key : String}
    (h : Goes inner path) : Goes (descend byDots inner [key]) (key :: path)

-- Tables that agree at the key still do so after the change.
theorem IsAt.same (h : change.IsAt key) (he : full.find? key = plain.find? key)
    (hp : change origin plain = some plain') :
    ∃ item, plain' = plain.put key item ∧ change origin full = some (full.put key item) := by
  obtain ⟨new, hn⟩ := h
  rw [hn, Option.map_eq_some_iff] at hp
  obtain ⟨item, hi, rfl⟩ := hp
  exact ⟨item, rfl, by rw [hn, he, hi, Option.map_some]⟩

-- What is under a key after a change to the table there.
def within (byDots : Bool) (inner : Change) : Option Item → Option Item
  | none => do
    let made := if byDots then .dotted else .implied
    return .table made (← inner made [])
  | some (.table origin entries) =>
    if origin = .inlined ∨ (byDots ∧ !origin.isImplicit) then none
    else return .table origin (← inner origin entries)
  | some (.tables elements) => do
    let last ← elements.getLast?
    return .tables (elements.dropLast ++ [← inner .header last])
  | some _ => none

theorem within_eq_some {item : Item}
    (h : within byDots inner (some (.table origin entries)) = some item) :
    ¬(origin = .inlined ∨ (byDots ∧ !origin.isImplicit)) ∧
      ∃ entries', inner origin entries = some entries' ∧ item = .table origin entries' := by
  rw [within] at h
  split at h
  case isTrue => cases h
  case isFalse hn =>
    obtain ⟨entries', he, hi⟩ := Option.bind_eq_some_iff.mp h
    exact ⟨hn, entries', he, (Option.some.inj hi).symm⟩

theorem within_of_some {entries' : Entries}
    (hn : ¬(origin = .inlined ∨ (byDots ∧ !origin.isImplicit)))
    (h : inner origin entries = some entries') :
    within byDots inner (some (.table origin entries)) = some (.table origin entries') := by
  rw [within, if_neg hn, h]
  rfl

theorem descend_single :
    descend byDots inner [key] origin entries =
      (within byDots inner (entries.find? key)).map (entries.put key ·) := by
  simp only [descend]
  cases entries.find? key
  case none =>
    simp only [within, Option.bind_eq_bind, Option.map_bind]
    rfl
  case some item =>
    cases item
    case table o _ =>
      simp only [within]
      split
      case isTrue  => rfl
      case isFalse =>
        simp only [Option.bind_eq_bind, Option.map_bind]
        rfl
    case tables =>
      simp only [within, Option.bind_eq_bind, Option.map_bind, Function.comp_def]
      rfl
    all_goals rfl

-- What is under a key after a table has been opened there.
def opening : Option Item → Option Item
  | none => some (.table .header [])
  | some (.table .implied entries) => some (.table .header entries)
  | some _ => none

theorem openTable_eq :
    openTable key origin entries = (opening (entries.find? key)).map (entries.put key ·) := by
  rw [openTable]
  cases entries.find? key
  case none => rfl
  case some item =>
    cases item
    case table o _ => cases o <;> rfl
    all_goals rfl

-- What is under a key after another of the tables there has been opened.
def openingElement : Option Item → Option Item
  | none => some (.tables [[]])
  | some (.tables elements) => some (.tables (elements ++ [[]]))
  | some _ => none

theorem openElement_eq :
    openElement key origin entries =
      (openingElement (entries.find? key)).map (entries.put key ·) := by
  rw [openElement]
  cases entries.find? key
  case none => rfl
  case some item =>
    cases item
    all_goals rfl

theorem descend_cons :
    descend byDots change (key :: p) = descend byDots (descend byDots change p) [key] := by
  funext origin entries
  simp only [Toml.descend]

theorem Goes.isAt (h : Goes change (key :: path)) : change.IsAt key := by
  cases h
  case here h  => exact h
  case through => exact ⟨_, fun _ _ => descend_single⟩

theorem Goes.descend (h : Goes change path) : Goes (descend byDots change p) (p ++ path) := by
  induction p
  case nil => exact h
  case cons hi => exact descend_cons ▸ .through hi

end Change

namespace Statement

-- The keys of what a statement defines while the table at a path is open.
def target (path : List String) : Statement → List String
  | table before last | element before last => before ++ [last]
  | assign before last _                    => path ++ (before ++ [last])

-- The table that is open after the statement.
def opened (path : List String) : Statement → List String
  | table before last | element before last => before ++ [last]
  | assign _ _ _                            => path

def change (path : List String) : Statement → Change
  | table before last       => descend false (openTable last) before
  | element before last     => descend false (openElement last) before
  | assign before last item => descend false (Toml.assign before last item) path

variable {d d' : Document} {s : Statement}

theorem opened_eq (path : List String) : s.opened path = path ∨ s.opened path = s.target path := by
  cases s
  case assign => exact .inl rfl
  all_goals exact .inr rfl

theorem alter_eq :
    s.alter d = (s.change d.path .header d.root).map fun root => ⟨root, s.opened d.path⟩ := by
  cases s
  all_goals exact (Option.map_eq_bind ..).symm

theorem apply_eq_some (h : s.apply d = some d') :
    s.before.length + 1 < Scan.keyLimit ∧ s.change d.path .header d.root = some d'.root ∧
      d'.path = s.opened d.path := by
  rw [apply] at h
  split at h
  case isFalse => cases h
  case isTrue hl =>
    rw [alter_eq, Option.map_eq_some_iff] at h
    obtain ⟨root, hr, rfl⟩ := h
    exact ⟨hl, hr, rfl⟩

theorem apply_of_change {root : Entries} (hl : s.before.length + 1 < Scan.keyLimit)
    (hc : s.change d.path .header d.root = some root) :
    s.apply d = some ⟨root, s.opened d.path⟩ := by
  rw [apply, if_pos hl, alter_eq, hc]
  rfl

theorem isAt_openTable {key : String} : Change.IsAt (openTable key) key :=
  ⟨fun _ => Change.opening, fun _ _ => Change.openTable_eq⟩

theorem isAt_openElement {key : String} : Change.IsAt (openElement key) key :=
  ⟨fun _ => Change.openingElement, fun _ _ => Change.openElement_eq⟩

-- Whether the key can be added may depend on how the table came to be.
theorem isAt_addKey {key : String} {item : Item} {p : Origin → Prop} [DecidablePred p] :
    Change.IsAt (fun origin entries => if p origin then addKey key item entries else none) key := by
  refine ⟨fun origin item? => if p origin ∧ item?.isNone then some item else none,
    fun origin entries => ?_⟩
  simp only [addKey]
  by_cases hp : p origin
  all_goals
    cases entries.find? key
    all_goals simp [hp]

-- A statement changes what is at its target.
theorem goes_change {path : List String} : (s.change path).Goes (s.target path) := by
  cases s
  case table   => exact .descend <| .here isAt_openTable
  case element => exact .descend <| .here isAt_openElement
  case assign  => exact .descend <| .descend <| .here isAt_addKey

end Statement

end Countersign.Toml
