import Countersign.Proofs.Settings.Field
import Countersign.Proofs.Toml.Tables

namespace Countersign.GateConfig

open Toml (Statement Entries Item)

variable {ws : List Setting} {s : Setting} {g : Group}

-- A line of a text, by what it has to do with the settings.
inductive Line
  -- The header of a group of settings.
  | header (g : Group)
  | setting (s : Setting)
  | other (s : Statement)

namespace Line

def statement : Line → Statement
  | header g  => .table [] g.name
  | setting s => .assign [] s.field.key (s.field.item s.value)
  | other s   => s

def setting? : Line → Option Setting
  | setting s => some s
  | _         => none

end Line

theorem exists_value : (f : Field) → (v : f.Value) → ∃ t, Toml.Value t (f.item v)
  | .disallowUnknownFields, true  => ⟨_, .true⟩
  | .disallowUnknownFields, false => ⟨_, .false⟩
  | .name, v | .path, v | .group, v | .version, v | .kind, v =>
    have ⟨_, h⟩ := Toml.exists_basicString v
    ⟨_, .text h⟩

-- Every setting can be written, whatever its value.
theorem exists_spelledLine (s : Setting) :
    ∃ t, Toml.SpelledLine (some (Line.setting s).statement) t := by
  have hk : s.field.key.toList ≠ [] ∧ s.field.key.toList.all Toml.Scan.isBare := by
    cases s.field
    all_goals decide
  have ⟨_, hv⟩ := exists_value s.field s.value
  exact ⟨_, (Statement.Spelled.assign (.of_keyPart <| .of_bare hk.left hk.right) .nil hv).line⟩

-- The target of a statement is not a setting, and not a whole group of them.
inductive IsForeign : List String → Prop
  | outside {key : String} {path : List String} (h : ∀ g : Group, key ≠ g.name) :
    IsForeign (key :: path)
  | inside {g : Group} {key : String} {path : List String}
    (h : ∀ f : Field, f.owner = g → key ≠ f.key) : IsForeign (g.name :: key :: path)

theorem IsForeign.ne_group {g : Group} : ¬IsForeign [g.name] := by
  generalize hp : [g.name] = path
  intro h
  cases h
  case outside hk =>
    cases hp
    exact hk g rfl
  case inside => simp at hp

-- Settings stand under the header of their group, and the other lines keep away from them.
inductive Arranged : List String → List Line → Prop
  | nil {path : List String} : Arranged path []
  | header {path : List String} {g : Group} {ls : List Line} (rest : Arranged [g.name] ls) :
    Arranged path (.header g :: ls)
  | setting {path : List String} {s : Setting} {ls : List Line}
    (h : path = [s.field.owner.name]) (rest : Arranged path ls) : Arranged path (.setting s :: ls)
  | other {path : List String} {s : Statement} {ls : List Line} (h : IsForeign (s.target path))
    (rest : Arranged (s.opened path) ls) : Arranged path (.other s :: ls)

def written (ls : List Line) : List Setting :=
  ls.filterMap Line.setting?

-- What is left of the lines without the settings.
def remainder (ls : List Line) : List Statement :=
  (ls.filter (·.setting?.isNone)).map Line.statement

section Tables

variable {plain plain' full entries : Entries} {key : String} {item : Item} {target : List String}
  {change : Toml.Change} {origin : Toml.Origin}

theorem setting?_congr {α : Type} {read : Item → Option α} {a : α}
    (h : full.find? key = plain.find? key) :
    full.setting? key read a = plain.setting? key read a := by
  rw [Entries.setting?, Entries.setting?, h]

-- The table of a group as it would be without the settings, and with those that have been written.
structure TableOverlaid (ws : List Setting) (g : Group) (plain full : Entries) : Prop where
  foreign : ∀ key, (∀ f : Field, f.owner = g → key ≠ f.key) → full.find? key = plain.find? key
  fresh   : ∀ f : Field, f.owner = g → f ∉ ws.map Setting.field → full.find? f.key = none
  read    : ∀ f : Field, f.owner = g →
    full.setting? f.key f.read? (f.get default) = some (f.get (overlay ws))

namespace TableOverlaid

theorem empty : TableOverlaid [] g [] [] where
  foreign _ _ := rfl
  fresh _ _ _ := rfl
  read _ _    := rfl

theorem put (h : TableOverlaid ws g plain full) (hk : ∀ f : Field, f.owner = g → key ≠ f.key) :
    TableOverlaid ws g (plain.put key item) (full.put key item) where
  foreign key' hk' := Entries.find?_put_congr <| h.foreign key' hk'
  fresh f hf hn := (Entries.find?_put_ne (hk f hf).symm).trans <| h.fresh f hf hn
  read f hf := (setting?_congr <| Entries.find?_put_ne (hk f hf).symm).trans <| h.read f hf

-- The settings of one group are nothing to the other.
theorem append (h : TableOverlaid ws g plain full) (hs : s.field.owner ≠ g) :
    TableOverlaid (ws ++ [s]) g plain full where
  foreign := h.foreign
  fresh f hf hn := h.fresh f hf fun hm => hn <| by simp_all
  read f hf := by
    have hn : f ≠ s.field := fun he => hs <| he ▸ hf
    rw [overlay_append, Field.get_set_of_ne hn, h.read f hf]

theorem write (h : TableOverlaid ws s.field.owner plain full) :
    TableOverlaid (ws ++ [s]) s.field.owner plain
      (full.put s.field.key (s.field.item s.value)) where
  foreign key hk := (Entries.find?_put_ne <| hk _ rfl).trans <| h.foreign key hk
  fresh f hf hn := by
    have ⟨hm, he⟩ : f ∉ ws.map Setting.field ∧ f ≠ s.field := by simpa using hn
    rw [Entries.find?_put_ne <| Field.key_ne he, h.fresh f hf hm]
  read f hf := by
    rw [overlay_append]
    by_cases he : f = s.field
    case pos =>
      subst he
      rw [Field.get_set_self, Entries.setting?, Entries.find?_put_self]
      exact Field.read?_item _
    case neg =>
      rw [Field.get_set_of_ne he, ← h.read f hf]
      exact setting?_congr <| Entries.find?_put_ne <| Field.key_ne he

end TableOverlaid

-- What stands under the name of a group, without and with the settings.
inductive GroupOverlaid (ws : List Setting) (g : Group) : Option Item → Option Item → Prop
  | absent (h : TableOverlaid ws g [] []) : GroupOverlaid ws g none none
  | present {origin : Toml.Origin} {plain full : Entries} (h : TableOverlaid ws g plain full) :
    GroupOverlaid ws g (some (.table origin plain)) (some (.table origin full))

namespace GroupOverlaid

variable {plain? full? : Option Item} {inner : Toml.Change} {byDots : Bool}

theorem append (h : GroupOverlaid ws g plain? full?) (hs : s.field.owner ≠ g) :
    GroupOverlaid (ws ++ [s]) g plain? full? := by
  cases h
  case absent h  => exact .absent <| h.append hs
  case present h => exact .present <| h.append hs

theorem opening (h : GroupOverlaid ws g plain? full?)
    (ho : Toml.Change.opening plain? = some item) :
    ∃ entries item', item = .table .header entries ∧ Toml.Change.opening full? = some item' ∧
      GroupOverlaid ws g (some item) (some item') := by
  cases h
  case absent h =>
    cases ho
    exact ⟨_, _, rfl, rfl, .present h⟩
  case present origin _ full h =>
    cases origin
    case implied =>
      cases ho
      exact ⟨_, _, rfl, rfl, .present h⟩
    all_goals cases ho

theorem within (h : GroupOverlaid ws g plain? full?) (hi : inner.IsAt key)
    (hk : ∀ f : Field, f.owner = g → key ≠ f.key)
    (hw : Toml.Change.within byDots inner plain? = some item) :
    ∃ item', Toml.Change.within byDots inner full? = some item' ∧
      GroupOverlaid ws g (some item) (some item') := by
  cases h
  case absent h =>
    obtain ⟨entries, he, ⟨⟩⟩ := Option.bind_eq_some_iff.mp hw
    obtain ⟨_, rfl, _⟩ := hi.same rfl he
    exact ⟨_, hw, .present <| h.put hk⟩
  case present origin plain full h =>
    obtain ⟨hn, _, he, rfl⟩ := Toml.Change.within_eq_some hw
    obtain ⟨_, rfl, hf⟩ := hi.same (h.foreign key hk) he
    exact ⟨_, Toml.Change.within_of_some hn hf, .present <| h.put hk⟩

end GroupOverlaid

-- All tables, without and with the settings.
structure RootOverlaid (ws : List Setting) (plain full : Entries) : Prop where
  foreign : ∀ key, (∀ g : Group, key ≠ g.name) → full.find? key = plain.find? key
  group   : ∀ g : Group, GroupOverlaid ws g (plain.find? g.name) (full.find? g.name)

namespace RootOverlaid

theorem put (h : RootOverlaid ws plain full) (hk : ∀ g : Group, key ≠ g.name) :
    RootOverlaid ws (plain.put key item) (full.put key item) where
  foreign key' hk' := Entries.find?_put_congr <| h.foreign key' hk'
  group g := by
    rw [Entries.find?_put_ne (hk g).symm, Entries.find?_put_ne (hk g).symm]
    exact h.group g

theorem put_group {item' : Item} (h : RootOverlaid ws plain full)
    (hg : GroupOverlaid ws g (some item) (some item')) :
    RootOverlaid ws (plain.put g.name item) (full.put g.name item') where
  foreign key hk := by
    rw [Entries.find?_put_ne (hk g), Entries.find?_put_ne (hk g), h.foreign key hk]
  group g' := by
    by_cases he : g' = g
    case pos => rwa [he, Entries.find?_put_self, Entries.find?_put_self]
    case neg =>
      rw [Entries.find?_put_ne (Group.name_ne he), Entries.find?_put_ne (Group.name_ne he)]
      exact h.group g'

theorem write {item' : Item} (h : RootOverlaid ws plain full)
    (hg : GroupOverlaid (ws ++ [s]) s.field.owner (plain.find? s.field.owner.name) (some item')) :
    RootOverlaid (ws ++ [s]) plain (full.put s.field.owner.name item') where
  foreign key hk := (Entries.find?_put_ne <| hk _).trans <| h.foreign key hk
  group g := by
    by_cases he : g = s.field.owner
    case pos => rwa [he, Entries.find?_put_self]
    case neg =>
      rw [Entries.find?_put_ne (Group.name_ne he)]
      exact (h.group g).append <| Ne.symm he

theorem foreign_change (h : RootOverlaid ws plain full) (ht : IsForeign target)
    (hc : change.Goes target) (hp : change origin plain = some plain') :
    ∃ full', change origin full = some full' ∧ RootOverlaid ws plain' full' := by
  cases ht
  case outside hk =>
    obtain ⟨_, rfl, hf⟩ := hc.isAt.same (h.foreign _ hk) hp
    exact ⟨_, hf, h.put hk⟩
  case inside g key path hk =>
    cases hc
    case through hi =>
      rw [Toml.Change.descend_single, Option.map_eq_some_iff] at hp
      obtain ⟨_, hw, rfl⟩ := hp
      obtain ⟨_, hf, hg⟩ := (h.group g).within hi.isAt hk hw
      exact ⟨_, by rw [Toml.Change.descend_single, hf, Option.map_some], h.put_group hg⟩

end RootOverlaid

-- A group opened by its header remains so.
theorem header_kept (ht : IsForeign target) (hc : change.Goes target)
    (hp : change origin plain = some plain')
    (hk : plain.find? g.name = some (.table .header entries)) :
    ∃ entries', plain'.find? g.name = some (.table .header entries') := by
  cases ht
  case outside hn =>
    obtain ⟨_, rfl, _⟩ := hc.isAt.same rfl hp
    exact ⟨entries, (Entries.find?_put_ne (hn g).symm).trans hk⟩
  case inside g' key path _ =>
    cases hc
    case through hi =>
      rw [Toml.Change.descend_single, Option.map_eq_some_iff] at hp
      obtain ⟨_, hw, rfl⟩ := hp
      by_cases he : g = g'
      case neg => exact ⟨entries, (Entries.find?_put_ne <| Group.name_ne he).trans hk⟩
      case pos =>
        subst he
        rw [hk] at hw
        obtain ⟨_, entries', _, rfl⟩ := Toml.Change.within_eq_some hw
        exact ⟨entries', Entries.find?_put_self⟩

end Tables

section Documents

open Toml (Document)

variable {plain plain' full : Document} {path : List String} {st : Statement} {ls : List Line}

-- Two texts at the same point, without and with the settings.
structure Overlaid (ws : List Setting) (plain full : Document) : Prop where
  path   : full.path = plain.path
  root   : RootOverlaid ws plain.root full.root
  -- A group is open only by its header.
  opened : ∀ g : Group, plain.path = [g.name] →
    ∃ entries, plain.root.find? g.name = some (.table .header entries)

namespace Overlaid

theorem empty : Overlaid [] .empty .empty where
  path := rfl
  root := ⟨fun _ _ => rfl, fun _ => .absent .empty⟩
  opened _ := nofun

theorem header (h : Overlaid ws plain full)
    (hp : (Line.header g).statement.apply plain = some plain') :
    ∃ full', (Line.header g).statement.apply full = some full' ∧ Overlaid ws plain' full' := by
  obtain ⟨hl, hc, hd⟩ := Statement.apply_eq_some hp
  have hc : Toml.openTable g.name .header plain.root = some plain'.root := hc
  rw [Toml.Change.openTable_eq, Option.map_eq_some_iff] at hc
  obtain ⟨item, ho, hr⟩ := hc
  obtain ⟨entries, item', rfl, ho', hg⟩ := (h.root.group g).opening ho
  have hf : Toml.openTable g.name .header full.root = some (full.root.put g.name item') := by
    rw [Toml.Change.openTable_eq, ho', Option.map_some]
  refine ⟨_, Statement.apply_of_change hl hf, hd.symm, hr ▸ h.root.put_group hg, fun g' hg' => ?_⟩
  have he : g.name = g'.name := List.singleton_inj.mp <| hd.symm.trans hg'
  exact ⟨entries, hr ▸ he ▸ Entries.find?_put_self⟩

theorem setting (h : Overlaid ws plain full) (hp : plain.path = [s.field.owner.name])
    (hn : s.field ∉ ws.map Setting.field) :
    ∃ full', (Line.setting s).statement.apply full = some full' ∧
      Overlaid (ws ++ [s]) plain full' := by
  obtain ⟨entries, hf⟩ := h.opened _ hp
  have hg := h.root.group s.field.owner
  rw [hf] at hg
  generalize hi : full.root.find? s.field.owner.name = full? at hg
  cases hg
  case present full' ht =>
    have ha : Toml.assign [] s.field.key (s.field.item s.value) .header full' =
        some (full'.put s.field.key (s.field.item s.value)) := by
      simp [Toml.assign, Toml.descend, Toml.addKey, ht.fresh _ rfl hn]
    have hc : (Line.setting s).statement.change full.path .header full.root =
        some (full.root.put s.field.owner.name <|
          .table .header <| full'.put s.field.key <| s.field.item s.value) := by
      rw [h.path, hp, Line.statement, Statement.change, Toml.Change.descend_single, hi,
        Toml.Change.within_of_some (by simp) ha, Option.map_some]
    have hl : 0 + 1 < Toml.Scan.keyLimit := by decide
    refine ⟨_, Statement.apply_of_change hl hc, h.path, h.root.write ?_, h.opened⟩
    rw [hf]
    exact .present ht.write

theorem other (h : Overlaid ws plain full) (hs : IsForeign (st.target plain.path))
    (hp : st.apply plain = some plain') :
    ∃ full', st.apply full = some full' ∧ Overlaid ws plain' full' := by
  obtain ⟨hl, hc, hd⟩ := Statement.apply_eq_some hp
  obtain ⟨root, hf, hr⟩ := h.root.foreign_change hs Statement.goes_change hc
  refine ⟨_, Statement.apply_of_change hl (h.path ▸ hf), ?_, hr, fun g hg => ?_⟩
  case refine_1 => rw [hd, h.path]
  case refine_2 =>
    rw [hd] at hg
    cases Statement.opened_eq (s := st) plain.path
    case inl ho =>
      obtain ⟨_, hk⟩ := h.opened g <| ho.symm.trans hg
      exact header_kept hs Statement.goes_change hc hk
    case inr ho => exact absurd (ho.symm.trans hg ▸ hs) IsForeign.ne_group

theorem run (h : Overlaid ws plain full) (ha : Arranged path ls) (hp : plain.path = path)
    (hn : ((ws ++ written ls).map Setting.field).Nodup)
    (hr : (remainder ls).foldlM Statement.apply plain = some plain') :
    ∃ full', (ls.map Line.statement).foldlM Statement.apply full = some full' ∧
      Overlaid (ws ++ written ls) plain' full' := by
  induction ha generalizing ws plain full
  case nil =>
    cases hr
    exact ⟨full, rfl, (List.append_nil ws).symm ▸ h⟩
  case header path g ls _ hi =>
    obtain ⟨mid, hm, hr⟩ := Option.bind_eq_some_iff.mp hr
    obtain ⟨full', hf, h⟩ := h.header hm
    have ⟨last, hl, ho⟩ := hi h (Statement.apply_eq_some hm).right.right hn hr
    exact ⟨last, Option.bind_eq_some_iff.mpr ⟨full', hf, hl⟩, ho⟩
  case setting path s ls ho _ hi =>
    have hw : ws ++ written (.setting s :: ls) = ws ++ [s] ++ written ls := by
      simp [written, Line.setting?]
    rw [hw] at hn ⊢
    have hs : s.field ∉ ws.map Setting.field := fun hm => by
      rw [List.map_append, List.map_append] at hn
      have hd := (List.nodup_append.mp (List.nodup_append.mp hn).left).right.right
      exact hd _ hm _ List.mem_cons_self rfl
    obtain ⟨full', hf, h⟩ := h.setting (hp.trans ho) hs
    have ⟨last, hl, h⟩ := hi h hp hn hr
    exact ⟨last, Option.bind_eq_some_iff.mpr ⟨full', hf, hl⟩, h⟩
  case other path st ls hs _ hi =>
    obtain ⟨mid, hm, hr⟩ := Option.bind_eq_some_iff.mp hr
    obtain ⟨full', hf, h⟩ := h.other (hp ▸ hs) hm
    have ⟨last, hl, ho⟩ := hi h (hp ▸ (Statement.apply_eq_some hm).right.right) hn hr
    exact ⟨last, Option.bind_eq_some_iff.mpr ⟨full', hf, hl⟩, ho⟩

end Overlaid

end Documents

end Countersign.GateConfig
