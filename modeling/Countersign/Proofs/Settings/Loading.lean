import Countersign.Proofs.Settings.Overlay

namespace Countersign.GateConfig

open Toml (Entries Item)

variable {ws : List Setting} {g : Group} {plain full : Entries} {c : GateConfig}

theorem TableOverlaid.webhookOf? {origin : Toml.Origin}
    (h : TableOverlaid ws .webhook plain full) :
    webhookOf? default.webhook (.table origin full) = some (overlay ws).webhook := by
  have hn := h.read .name rfl
  have hp := h.read .path rfl
  have hd := h.read .disallowUnknownFields rfl
  simp only [Field.key, Field.read?, Field.get] at hn hp hd
  simp only [GateConfig.webhookOf?, Item.settings?, Option.bind_eq_bind, Option.bind_some, hn, hp,
    hd]
  rfl

theorem TableOverlaid.resourceOf? {origin : Toml.Origin}
    (h : TableOverlaid ws .resource plain full) :
    resourceOf? default.resource (.table origin full) = some (overlay ws).resource := by
  have hg := h.read .group rfl
  have hv := h.read .version rfl
  have hk := h.read .kind rfl
  simp only [Field.key, Field.read?, Field.get] at hg hv hk
  simp only [GateConfig.resourceOf?, Item.settings?, Option.bind_eq_bind, Option.bind_some, hg, hv,
    hk]
  rfl

-- A group that is not there keeps its defaults, as an empty one would.
theorem GroupOverlaid.setting? {α : Type} {read : Item → Option α} {a b : α}
    (h : GroupOverlaid ws g (plain.find? g.name) (full.find? g.name))
    (hr : ∀ {origin plain full}, TableOverlaid ws g plain full → read (.table origin full) = some b)
    (he : ∀ origin, read (.table origin []) = some a) :
    full.setting? g.name read a = some b := by
  rw [Entries.setting?]
  generalize plain.find? g.name = plain?, full.find? g.name = full? at h
  cases h
  case absent h  => exact (he .header).symm.trans <| hr h
  case present h => exact hr h

theorem RootOverlaid.ofEntries? (h : RootOverlaid ws plain full) :
    ofEntries? full = some (overlay ws) := by
  have hw := (h.group .webhook).setting? TableOverlaid.webhookOf? fun _ => rfl
  have hr := (h.group .resource).setting? TableOverlaid.resourceOf? fun _ => rfl
  simp only [Group.name] at hw hr
  simp only [GateConfig.ofEntries?, hw, hr]
  rfl

-- Nothing is wrong with the settings.
structure IsSound (c : GateConfig) : Prop where
  path    : c.webhook.path.toList.head? = some '/'
  group   : c.resource.group ≠ ""
  version : c.resource.version ≠ ""
  kind    : c.resource.kind ≠ ""

-- What is wrong with the settings, in the order in which they are looked at.
inductive Offends (c : GateConfig) : String → Prop
  | path (h : c.webhook.path.toList.head? ≠ some '/') :
    Offends c ("webhook path '" ++ c.webhook.path ++ "' must start with '/'")
  | group (path : c.webhook.path.toList.head? = some '/') (h : c.resource.group = "") :
    Offends c "resource group must not be empty"
  | version (path : c.webhook.path.toList.head? = some '/') (group : c.resource.group ≠ "")
    (h : c.resource.version = "") : Offends c "resource version must not be empty"
  | kind (path : c.webhook.path.toList.head? = some '/') (group : c.resource.group ≠ "")
    (version : c.resource.version ≠ "") (h : c.resource.kind = "") :
    Offends c "resource kind must not be empty"

-- What becomes of settings that are loaded.
inductive Loads (c : GateConfig) : Except GateError GateConfig → Prop
  | sound (h : c.IsSound) : Loads c (.ok c)
  | offending {reason : String} (h : c.Offends reason) : Loads c (.error (.config reason))

theorem loads_validated : c.Loads c.validated.value := by
  have ho {reason : String} (hf : c.fault? = some (.config reason)) (h : c.Offends reason) :
      c.Loads c.validated.value := by
    rw [validated, hf]
    exact .offending h
  by_cases hp : c.webhook.path.toList.head? = some '/'
  case neg => exact ho (by simp [fault?, hp]) <| .path hp
  by_cases hg : c.resource.group = ""
  case pos => exact ho (by simp [fault?, hp, hg]) <| .group hp hg
  by_cases hv : c.resource.version = ""
  case pos => exact ho (by simp [fault?, hp, hg, hv]) <| .version hp hg hv
  by_cases hk : c.resource.kind = ""
  case pos => exact ho (by simp [fault?, hp, hg, hv, hk]) <| .kind hp hg hv hk
  have hf : c.fault? = none := by simp [fault?, hp, hg, hv, hk]
  rw [validated, hf]
  exact .sound ⟨hp, hg, hv, hk⟩

-- Whatever settings a text has and whatever stands between them, the defaults overlaid with these
-- settings are what is checked. The rest of the text need only be sound without them.
theorem ofToml_loads_overlay [Wording] {ls : List Line} {text : String}
    (ht : Toml.Spelled (ls.map Line.statement) text.toList) (ha : Arranged [] ls)
    (hn : ((written ls).map Setting.field).Nodup) (hr : Toml.IsAccepted (remainder ls)) :
    (overlay (written ls)).Loads (ofToml text).value := by
  have ⟨plain, hp⟩ := Option.isSome_iff_exists.mp hr.isSome
  obtain ⟨full, hf, ho⟩ := Overlaid.empty.run ha rfl hn hp
  have he : (Toml.read? text).bind ofEntries? = some (overlay (written ls)) := by
    rw [Toml.read?_of_spelled ht, hf]
    exact ho.root.ofEntries?
  rw [ofToml, he]
  exact loads_validated

section Sparse

open Toml (AreBlank BasicString Key KeyPart Spelled SpelledLine Statement)

-- Two settings among other keys and tables, one of which stands before the header of its group.
def sparse : List Line := [
  .other (.assign [] "owner" (.text "ops")),
  .header .resource,
  .setting ⟨.kind, "Gate Task"⟩,
  .other (.table ["webhook"] "retry"),
  .other (.assign [] "on" (.flag true)),
  .header .webhook,
  .setting ⟨.path, "/gate"⟩]

def sparseText : String :=
  "owner=\"ops\"\n[resource]\nkind=\"Gate Task\" # one word\n[webhook.retry]\non=true\n" ++
    "[webhook]\n\"path\"=\"\\u002Fgate\""

-- What is left of it without the settings.
def sparseRemainder : String :=
  "owner=\"ops\"\n[resource]\n[webhook.retry]\non=true\n[webhook]"

attribute [local instance] Wording.brief

-- Its settings are no special ones: a line can be written for every setting.
theorem sparse_text_loads :
    Spelled (sparse.map Line.statement) sparseText.toList ∧ Arranged [] sparse ∧
      ((written sparse).map Setting.field).Nodup ∧ Toml.IsAccepted (remainder sparse) ∧
        (overlay (written sparse)).Loads (ofToml sparseText).value ∧
          ∀ s : Setting, ∃ t, SpelledLine (some (Line.setting s).statement) t := by
  have bare {s : String} (h : s.toList ≠ [] ∧ s.toList.all Toml.Scan.isBare) :
      Key (s.toList ++ []) ([] ++ [s]) :=
    .of_keyPart <| .of_bare h.left h.right
  have owner : SpelledLine (some (.assign [] "owner" (.text "ops"))) "owner=\"ops\"".toList :=
    (Statement.Spelled.assign (bare (by decide)) .nil <| .text <| .of_unescaped (by decide)).line
  have resource : SpelledLine (some (.table [] "resource")) "[resource]".toList :=
    (Statement.Spelled.table .nil <| bare (by decide)).line
  have kind : SpelledLine (some (.assign [] "kind" (.text "Gate Task")))
      "kind=\"Gate Task\" # one word".toList :=
    have hk := Statement.Spelled.assign (bare (s := "kind") (by decide)) .nil <| .text <|
      .of_unescaped (s := "Gate Task") (by decide)
    .statement .nil hk (show AreBlank [' '] by decide) <| .some <| List.all_eq_true.mp rfl
  have retry : SpelledLine (some (.table ["webhook"] "retry")) "[webhook.retry]".toList := by
    have hk : Key "webhook.retry".toList (["webhook"] ++ ["retry"]) :=
      .dotted (.of_bare (s := "webhook") (by decide) rfl) .nil .nil <|
        bare (s := "retry") (by decide)
    exact (Statement.Spelled.table .nil hk).line
  have on : SpelledLine (some (.assign [] "on" (.flag true))) "on=true".toList :=
    (Statement.Spelled.assign (bare (by decide)) .nil .true).line
  have webhook : SpelledLine (some (.table [] "webhook")) "[webhook]".toList :=
    (Statement.Spelled.table .nil <| bare (by decide)).line
  have path : SpelledLine (some (.assign [] "path" (.text "/gate")))
      "\"path\"=\"\\u002Fgate\"".toList := by
    have hk : KeyPart "\"path\"".toList "path" := .basic <| .of_unescaped (s := "path") (by decide)
    have hq : Toml.HexCode 4 "002F".toList '/' := ⟨rfl, _, rfl, rfl⟩
    have hg : Toml.Spells "gate".toList "gate".toList := .of_unescaped (by decide)
    have hv := BasicString.mk <| .cons (.short hq) hg
    exact (Statement.Spelled.assign (.of_keyPart hk) .nil <| .text hv).line
  have ht : Spelled (sparse.map Line.statement) sparseText.toList :=
    Spelled.more owner .lf <| .more resource .lf <| .more kind .lf <| .more retry .lf <|
      .more on .lf <| .more webhook .lf <| .last path
  have ha : Arranged [] sparse := by
    have hk : ∀ f : Field, f.owner = .webhook → "retry" ≠ f.key := fun f _ => by
      cases f <;> decide
    refine .other ?_ <| .header <| .setting rfl <| .other ?_ <| .other ?_ <|
      .header <| .setting rfl .nil
    case refine_1 => exact .outside fun g => by cases g <;> decide
    all_goals exact .inside (g := .webhook) hk
  have hn : ((written sparse).map Setting.field).Nodup := by decide
  have hr : Toml.IsAccepted (remainder sparse) :=
    ⟨sparseRemainder, Spelled.more owner .lf <| .more resource .lf <| .more retry .lf <|
      .more on .lf <| .last webhook, by decide +kernel⟩
  exact ⟨ht, ha, hn, hr, ofToml_loads_overlay ht ha hn hr, exists_spelledLine⟩

end Sparse

end Countersign.GateConfig
