import Countersign.Settings.Loader

namespace Countersign.GateConfig

open Toml (Item)

-- The tables that hold the settings.
inductive Group
  | webhook
  | resource
  deriving DecidableEq

def Group.name : Group → String
  | webhook  => "webhook"
  | resource => "resource"

theorem Group.name_ne {g g' : Group} (h : g ≠ g') : g.name ≠ g'.name := by
  cases g <;> cases g' <;> simp_all [name]

inductive Field
  | name
  | path
  | disallowUnknownFields
  | group
  | version
  | kind
  deriving DecidableEq

namespace Field

variable {f f' : Field} {c : GateConfig}

def owner : Field → Group
  | name | path | disallowUnknownFields => .webhook
  | group | version | kind              => .resource

def key : Field → String
  | name                  => "name"
  | path                  => "path"
  | disallowUnknownFields => "disallow_unknown_fields"
  | group                 => "group"
  | version               => "version"
  | kind                  => "kind"

theorem key_ne (h : f ≠ f') : f.key ≠ f'.key := by
  cases f <;> cases f' <;> simp_all [key]

abbrev Value : Field → Type
  | disallowUnknownFields => Bool
  | _                     => String

def item : (f : Field) → f.Value → Item
  | disallowUnknownFields, b => .flag b
  | name, s | path, s | group, s | version, s | kind, s => .text s

def read? : (f : Field) → Item → Option f.Value
  | disallowUnknownFields => Item.flag?
  | name | path | group | version | kind => Item.text?

theorem read?_item (v : f.Value) : f.read? (f.item v) = some v := by
  cases f
  all_goals rfl

def get (c : GateConfig) : (f : Field) → f.Value
  | name                  => c.webhook.name
  | path                  => c.webhook.path
  | disallowUnknownFields => c.webhook.disallowUnknownFields
  | group                 => c.resource.group
  | version               => c.resource.version
  | kind                  => c.resource.kind

def set (c : GateConfig) : (f : Field) → f.Value → GateConfig
  | name, s                  => { c with webhook.name := s }
  | path, s                  => { c with webhook.path := s }
  | disallowUnknownFields, b => { c with webhook.disallowUnknownFields := b }
  | group, s                 => { c with resource.group := s }
  | version, s               => { c with resource.version := s }
  | kind, s                  => { c with resource.kind := s }

theorem get_set_self (v : f.Value) : f.get (f.set c v) = v := by
  cases f
  all_goals rfl

theorem get_set_of_ne (h : f ≠ f') (v : f'.Value) : f.get (f'.set c v) = f.get c := by
  cases f <;> cases f' <;> first | rfl | contradiction

end Field

structure Setting where
  field : Field
  value : field.Value

-- The defaults with some settings replaced.
def overlay (ws : List Setting) : GateConfig :=
  ws.foldl (fun c s => s.field.set c s.value) default

theorem overlay_append {ws : List Setting} {s : Setting} :
    overlay (ws ++ [s]) = s.field.set (overlay ws) s.value := by
  simp [overlay]

end Countersign.GateConfig
