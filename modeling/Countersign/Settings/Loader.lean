import Countersign.Settings.Basic
import Countersign.Text.Symbol
import Countersign.Toml.Document
import Countersign.Wording

namespace Countersign

namespace Toml

def Item.text? : Item → Option String
  | text s => some s
  | _ => none

def Item.flag? : Item → Option Bool
  | flag b => some b
  | _ => none

-- The entries by which an item sets a group of settings with the given names. A group may also be
-- given as the array of its values.
def Item.settings? (names : List String) : Item → Option Entries
  | table _ entries => some entries
  | array items => some (names.zip items)
  | tables elements => some (names.zip (elements.map (.table .header)))
  -- A moment in time holds no setting.
  | moment => some []
  | _ => none

-- The setting under a key if it is there and of the right kind, or else the default if it is not
-- there.
def Entries.setting? {α : Type} (entries : Entries) (key : String) (read : Item → Option α)
    (default : α) : Option α :=
  match entries.find? key with
  | none => some default
  | some item => read item

end Toml

namespace GateConfig

def webhookOf? (d : WebhookSettings) (item : Toml.Item) : Option WebhookSettings := do
  let entries ← item.settings? ["name", "path", "disallow_unknown_fields"]
  return {
    name := ← entries.setting? "name" Toml.Item.text? d.name
    path := ← entries.setting? "path" Toml.Item.text? d.path
    disallowUnknownFields :=
      ← entries.setting? "disallow_unknown_fields" Toml.Item.flag? d.disallowUnknownFields }

def resourceOf? (d : GroupVersionKind) (item : Toml.Item) : Option GroupVersionKind := do
  let entries ← item.settings? ["group", "version", "kind"]
  return {
    group := ← entries.setting? "group" Toml.Item.text? d.group
    version := ← entries.setting? "version" Toml.Item.text? d.version
    kind := ← entries.setting? "kind" Toml.Item.text? d.kind }

-- The settings of a table, not yet checked. Whatever the table does not set keeps its default, and
-- whatever it sets beyond the settings is passed over.
def ofEntries? (entries : Toml.Entries) : Option GateConfig := do
  return {
    webhook := ← entries.setting? "webhook" (webhookOf? default.webhook) default.webhook
    resource := ← entries.setting? "resource" (resourceOf? default.resource) default.resource }

def unreadableError [Wording] (s : String) : GateError :=
  .config ("failed to parse gate TOML: " ++ Wording.toml s)

def ofToml [Wording] (s : String) : Traced (Except GateError GateConfig) :=
  match (Toml.read? s).bind ofEntries? with
  | some c => c.validated
  | none => pure (.error (unreadableError s))

def fileError (path cause : String) : GateError :=
  .config ("failed to read config file '" ++ path ++ "': " ++ cause)

end GateConfig
end Countersign
