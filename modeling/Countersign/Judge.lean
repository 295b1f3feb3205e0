import Countersign.Eligibility
import Countersign.Isolation
import Countersign.Locate

namespace Countersign

variable (old new : TaskState) (r : Requester)

-- The stored task must be open to the requester, the update must hold a change of theirs with a
-- proper vote, and nothing else may have changed.
def decideUpdate : Decision :=
  match old.refusal? r with
  | some reason => .deny reason
  | none =>
    match r.locate old.approvers new.approvers with
    | .error input => .deny (.invalidInput input)
    | .ok none => .deny .outOfScope
    | .ok (some site) =>
      if r.isolated site old.approvers new.approvers then .allow else .deny .outOfScope

namespace Requester

def deniedEvent (reason : DenyReason) : Event :=
  ⟨.warn, .engine, "approval task update denied",
    [("username", .shown r.username), ("reason", .shown reason.message),
      ("retryable", .flag reason.isRetryable)]⟩

def admittedEvent (site : ChangeSite) : Event :=
  ⟨.info, .engine, "approval task update admitted",
    [("username", .shown r.username), ("index", .count site.index),
      ("value", .shown site.value.text)]⟩

def locatedEvent (site : ChangeSite) : Event :=
  ⟨.debug, .engine, "located requester's change",
    [("username", .shown r.username), ("index", .count site.index),
      ("target", .shown site.target.describe), ("value", .shown site.value.text)]⟩

def nothingLocatedEvent : Event :=
  ⟨.debug, .engine, "no change to the requester's input located",
    [("username", .shown r.username)]⟩

def evaluatingEvent (old : TaskState) : Event :=
  ⟨.debug, .engine, "evaluating approval task update",
    [("username", .shown r.username), ("approvers", .count old.approvers.length),
      ("approvals_received", .count old.received), ("approvals_required", .count old.required)]⟩

end Requester

-- What is reported while the change at a located site is judged.
def siteEvents (site : ChangeSite) : List Event :=
  r.locatedEvent site :: r.isolationEvents site old.approvers new.approvers ++
    [if r.isolated site old.approvers new.approvers then r.admittedEvent site
      else r.deniedEvent .outOfScope]

-- What is reported while the requester's change is looked for and judged.
def changeEvents : List Event :=
  r.locateEvents old.approvers new.approvers ++
    match r.locate old.approvers new.approvers with
    | .error input => [r.deniedEvent (.invalidInput input)]
    | .ok none => [r.nothingLocatedEvent, r.deniedEvent .outOfScope]
    | .ok (some site) => siteEvents old new r site

-- What is reported while an update is decided.
def decideEvents : List Event :=
  r.evaluatingEvent old :: old.eligibilityEvents r ++
    match old.refusal? r with
    | some reason => [r.deniedEvent reason]
    | none => changeEvents old new r

def judge : Traced Decision :=
  ⟨decideUpdate old new r, decideEvents old new r⟩

end Countersign
