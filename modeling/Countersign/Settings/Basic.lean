import Countersign.Admission.Review
import Countersign.Event
import Countersign.GateError

namespace Countersign

structure WebhookSettings where
  name : String
  path : String
  -- Whether bodies with fields outside the task's schema are refused.
  disallowUnknownFields : Bool
  deriving DecidableEq, Repr

structure GateConfig where
  webhook : WebhookSettings
  -- The kind of objects that the webhook is meant for.
  resource : GroupVersionKind
  deriving DecidableEq, Repr

namespace GateConfig

def default : GateConfig where
  webhook := {
    name := "validation.webhook.manual-approval.openshift-pipelines.org"
    path := "/approvaltask-validation"
    disallowUnknownFields := true }
  resource := {
    group := "openshift-pipelines.org"
    version := "v1alpha1"
    kind := "ApprovalTask" }

-- What is wrong with the settings, if anything.
def fault? (c : GateConfig) : Option GateError :=
  if c.webhook.path.toList.head? ≠ some '/' then
    some (.config ("webhook path '" ++ c.webhook.path ++ "' must start with '/'"))
  else if c.resource.group = "" then some (.config "resource group must not be empty")
  else if c.resource.version = "" then some (.config "resource version must not be empty")
  else if c.resource.kind = "" then some (.config "resource kind must not be empty")
  else none

def loadedEvent (c : GateConfig) : Event :=
  ⟨.debug, .settings, "gate configuration loaded",
    [("path", .shown c.webhook.path), ("resource", .shown c.resource.text),
      ("disallow_unknown_fields", .flag c.webhook.disallowUnknownFields)]⟩

-- Accepts settings that have nothing wrong with them.
def validated (c : GateConfig) : Traced (Except GateError GateConfig) :=
  match c.fault? with
  | some e => pure (.error e)
  | none => do
    .report c.loadedEvent
    return .ok c

end GateConfig
end Countersign
