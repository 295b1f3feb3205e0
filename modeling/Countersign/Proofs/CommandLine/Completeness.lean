import Countersign.Proofs.CommandLine.Agreement

namespace Countersign.CommandLine

namespace Surroundings

variable (around : Surroundings)

-- The settings that an invocation is under.
inductive Configures [Wording] : (config : Option String) → GateConfig → Prop
  | defaults : Configures none .default
  | file {path text : String} {c : GateConfig} (h : around.Holds path text)
    (hc : (GateConfig.ofToml text).value = .ok c) : Configures (some path) c

end Surroundings

section

variable [Wording] (around : Surroundings)

end

section Answers

variable (c : GateConfig) (now exported : Timestamp) (q : AdmissionRequest)

-- The decision on a request, told at the given time.
def answerTo : AdmissionReview :=
  .ofResponse (.ofDecision q.uid (c.recordOf now q).decision)

def entryOf : LogEntry :=
  Chain.link c.webhook.name 0 Chain.genesis (c.recordOf now q)

-- The trail of the log that holds nothing but the record of the decision, exported at a time of its
-- own.
def trailOf : DecisionTrail :=
  ⟨c.webhook.name, [entryOf c now q], exported, (entryOf c now q).digest⟩

end Answers

-- The lines that answer a command.
inductive Answers [Wording] (around : Surroundings) : Invocation → List String → Prop
  | review {config : Option String} {request text : String} {trail : Bool} {c : GateConfig}
    {review : AdmissionReview} {q : AdmissionRequest} (hc : around.Configures config c)
    (h : around.Holds request text)
    (hr : AdmissionReview.codec.readText (.ofString text) = .ok review)
    (hq : review.request = some q) :
    Answers around ⟨config, .review request trail⟩
      (AdmissionReview.codec.pretty (answerTo c (around.clock 0) q) ::
        if trail then
          [DecisionTrail.codec.pretty (trailOf c (around.clock 0) (around.clock 1) q)]
        else [])
  | decide {config old oldText : Option String} {new user newText : String} {groups : List String}
    {c : GateConfig} {oldTask newTask : ApprovalTask} (hc : around.Configures config c)
    (ho : Option.Rel around.Holds old oldText) (hn : around.Holds new newText)
    (hb : (c.decoder.decode .old (oldText.map .ofString)).value = .ok oldTask)
    (hu : (c.decoder.decode .new (some (.ofString newText))).value = .ok newTask) :
    Answers around ⟨config, .decide old new user groups⟩
      [describe (decideUpdate oldTask.toState newTask.toState (.ofClaims user groups))]

section Reading

variable {around : Surroundings} {path cause : String} {config : Option String} {c : GateConfig}
variable {e : GateError}

variable [Wording]

end Reading

-- Where an obstacle is not in the way, there is what it would have kept the command from.
section Clearing

variable [Wording] {around : Surroundings} {i : Invocation} {config old oldText : Option String}
variable {request new user text newText : String} {trail : Bool} {groups : List String}
variable {c : GateConfig} {r : AdmissionReview}

end Clearing

section Running

variable {around : Surroundings} {c : GateConfig} {now : Timestamp} {q : AdmissionRequest}
variable {lines : List String} {i : Invocation} {e : GateError} {os : List Obstacle}
variable {config old : Option String} {request new user text : String} {trail : Bool}
variable {groups : List String} {r : AdmissionReview}

variable [Wording]

end Running

section Broken

attribute [local instance] Wording.brief

end Broken

end Countersign.CommandLine
