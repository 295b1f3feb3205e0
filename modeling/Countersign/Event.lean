import Countersign.Emitting

namespace Countersign

inductive Level
  | trace
  | debug
  | info
  | warn
  | error
  deriving DecidableEq, Repr

namespace Level

def name : Level → String
  | trace => "TRACE"
  | debug => "DEBUG"
  | info => "INFO"
  | warn => "WARN"
  | error => "ERROR"

-- Higher levels are graver.
def rank : Level → Nat
  | trace => 0
  | debug => 1
  | info => 2
  | warn => 3
  | error => 4

end Level

inductive Origin
  | eligibility
  | locator
  | isolation
  | engine
  | decoder
  | controller
  | log
  | settings
  | commandLine
  deriving DecidableEq, Repr

-- The path under which events of an origin are selected.
def Origin.path : Origin → String
  | eligibility => "approval_gate_core::eligibility"
  | locator => "approval_gate_core::locator"
  | isolation => "approval_gate_core::isolation"
  | engine => "approval_gate_core::engine"
  | decoder => "approval_gate_webhook::decode"
  | controller => "approval_gate_webhook::controller"
  | log => "approval_gate_audit::memory"
  | settings => "approval_gate_config::loader"
  | commandLine => "gatectl"

inductive FieldValue
  | shown (text : String)
  | quoted (text : String)
  | count (n : Nat)
  | flag (b : Bool)
  deriving DecidableEq, Repr

-- What the gate reports while it works. An operation returns its events, in order, next to its
-- result.
structure Event where
  level : Level
  origin : Origin
  message : String
  fields : List (String × FieldValue)
  deriving DecidableEq, Repr

-- A result and the events reported on the way to it.
abbrev Traced := Emitting Event

end Countersign
