import Countersign.Proofs.Audit.Exchange
import Countersign.Proofs.CommandLine.Arguments
import Countersign.Proofs.CommandLine.Console
import Countersign.Proofs.Update.Groups
import Countersign.Proofs.Update.Refusal

namespace Countersign

-- A refusal that the decision itself comes to is never for a body that could not be read.
theorem decideUpdate_ne_malformed {old new : TaskState} {r : Requester} (text : String) :
    decideUpdate old new r ≠ .deny (.malformed text) :=
  fun h => nomatch grounds_of_decideUpdate h

namespace CommandLine

def Surroundings.Holds (around : Surroundings) (path text : String) : Prop :=
  around.file path = .ok text.toUTF8

-- The command line asks for the decision on a request: under the given settings, with files that
-- hold the bodies of the request and options that give its user and groups. An absent stored body is
-- left out, and for an absent new body the file is empty.
inductive Asks [Wording] (around : Surroundings) (c : GateConfig) (q : AdmissionRequest)
    (args : List String) : Prop
  | intro {config old : Option String} {new : String} {groups : List String}
    (ha : readArguments args = some ⟨config, .decide old new q.userInfo.username groups⟩)
    (hc : (loadConfig around config).run.value = .ok c)
    (hg : ∀ g, g ∈ groups ↔ g ∈ q.userInfo.groups)
    (ho : Option.Rel around.Holds old q.oldObject)
    (hn : around.Holds new (q.object.getD ""))

-- The report and the answer tell the same.
structure Agrees (report : Report) (response : AdmissionResponse) : Prop where
  allowed    : report = ⟨0, ["allowed"], none⟩ ↔ response.allowed
  denied     : ∀ m, report = ⟨0, ["denied: " ++ m], none⟩ ↔
    ¬response.allowed ∧ response.result = some ⟨m, none⟩
  unreadable : ∀ m, report = ⟨1, [], some ("gatectl error: " ++ m)⟩ ↔
    ¬response.allowed ∧ response.result = some ⟨m, some 400⟩

-- What is reported of a decision. Bodies that cannot be read make the command fail.
def Report.ofDecision : Decision → Report
  | .deny (.malformed reason) => ⟨1, [], some (Failure.gate (.decode reason)).message⟩
  | d => ⟨0, [describe d], none⟩

theorem allowed_ne_denied (m : String) : "allowed" ≠ "denied: " ++ m := by
  intro h
  simpa using congrArg String.toList h

theorem agrees_ofDecision (uid : Uuid) (d : Decision) :
    Agrees (.ofDecision d) (.ofDecision uid d) := by
  cases d
  case allow =>
    have hr : Report.ofDecision .allow = ⟨0, ["allowed"], none⟩ := rfl
    have ha : AdmissionResponse.ofDecision uid .allow = ⟨uid, true, none⟩ := rfl
    constructor
    all_goals simp [hr, ha, allowed_ne_denied]
  case deny reason =>
    by_cases hm : ∃ text, reason = .malformed text
    case pos =>
      have ⟨text, hm⟩ := hm
      subst hm
      have hr : Report.ofDecision (.deny (.malformed text)) =
        ⟨1, [], some ("gatectl error: " ++ text)⟩ := rfl
      have ha : AdmissionResponse.ofDecision uid (.deny (.malformed text)) =
        ⟨uid, false, some ⟨text, some 400⟩⟩ := rfl
      constructor
      all_goals simp [hr, ha]
    case neg =>
      have hr : Report.ofDecision (.deny reason) = ⟨0, ["denied: " ++ reason.message], none⟩ := by
        cases reason <;> first | rfl | exact absurd ⟨_, rfl⟩ hm
      have ha : AdmissionResponse.ofDecision uid (.deny reason) =
        ⟨uid, false, some ⟨reason.message, none⟩⟩ := by
        cases reason <;> first | rfl | exact absurd ⟨_, rfl⟩ hm
      constructor
      all_goals simp [hr, ha, (allowed_ne_denied reason.message).symm]

section

variable {around : Surroundings} {path text : String} {config path? text? : Option String}

theorem readText_eq_ok (h : around.Holds path text) : readText around path = .ok text := by
  have hf : around.file path = .ok text.toUTF8 := h
  have ht : String.fromUTF8? text.toByteArray = some text := by
    rw [String.fromUTF8?, dif_pos text.isValidUTF8]
    rfl
  simp [readText, hf, ht, bind, Except.bind, pure, Except.pure]

theorem yields_readFile (h : around.Holds path text) :
    (readFile around path).Yields [] (.ok text) := by
  unfold readFile
  rw [readText_eq_ok h]
  exact .gate (.ok text)

theorem yields_readFile? (h : Option.Rel around.Holds path? text?) :
    (path?.mapM (readFile around)).Yields [] (.ok text?) := by
  cases h
  case none => exact .pure none
  case some h => exact .bind (yields_readFile h) (.pure _)

theorem yields_loadConfig [Wording] :
    (loadConfig around config).Yields [] (loadConfig around config).run.value := by
  refine ⟨?_, rfl⟩
  cases config
  case none => exact (Console.Yields.bind (.traced _) (.pure _)).lines
  case some path =>
    simp only [loadConfig]
    generalize (readText around path).mapError (GateConfig.fileError path) = g
    cases g
    case error e => exact (Console.Yields.fail (.gate (.error e))).lines
    case ok text => exact (Console.Yields.bind (.gate (.ok text)) (.tracedGate _)).lines

end

section

variable {around : Surroundings} {c : GateConfig} {q : AdmissionRequest} {old : Option String}
variable {new : String} {r : Requester}

-- An empty text stands for no body.
theorem decode_getD (d : TaskDecoder) (role : ObjectRole) (body : Option String) :
    d.decode role (some (Symbols.ofString (body.getD ""))) =
      d.decode role (body.map Symbols.ofString) := by
  cases body <;> rfl

section

variable (ho : Option.Rel around.Holds old q.oldObject) (hn : around.Holds new (q.object.getD ""))

include ho hn

theorem yields_decide_of_oldUnreadable {e : GateError} (h : c.body q .old = .error e) :
    (decide around c old new r).Yields [] (.error (.gate e)) :=
  .bind (yields_readFile? ho) <| .bind (yields_readFile hn) <| .fail <| .tracedGate_error h

theorem yields_decide_of_newUnreadable {task : ApprovalTask} {e : GateError}
    (ht : c.body q .old = .ok task) (h : c.body q .new = .error e) :
    (decide around c old new r).Yields [] (.error (.gate e)) := by
  refine .bind (yields_readFile? ho) <| .bind (yields_readFile hn) <| .bind (.tracedGate_ok ht) ?_
  rw [decode_getD]
  exact .fail <| .tracedGate_error h

theorem yields_decide_of_decided {oldTask newTask : ApprovalTask}
    (ht : c.body q .old = .ok oldTask) (hu : c.body q .new = .ok newTask) :
    (decide around c old new r).Yields
      [describe (decideUpdate oldTask.toState newTask.toState r)] (.ok ()) := by
  refine .bind (yields_readFile? ho) <| .bind (yields_readFile hn) <| .bind (.tracedGate_ok ht) ?_
  rw [decode_getD]
  exact .bind (.tracedGate_ok hu) <| .bind (.traced _) (.print _)

end

end

section

variable {around : Surroundings} {c : GateConfig} {q : AdmissionRequest} {args : List String}
variable {filter : LogFilter} {time : Nat → String} {d : Decision} {log : DecisionLog}

theorem Report.ofDecision_decideUpdate {old new : TaskState} {r : Requester} :
    ofDecision (decideUpdate old new r) = ⟨0, [describe (decideUpdate old new r)], none⟩ := by
  unfold ofDecision
  split
  case h_1 h => exact absurd h (decideUpdate_ne_malformed _)
  case h_2   => rfl

-- What makes a body unreadable is told as it is.
theorem Report.ofDecision_malformed (e : GateError) :
    ofDecision (.deny (.malformed e.message)) = ⟨1, [], some (Failure.gate e).message⟩ :=
  rfl

-- What is reported is the decision that the request calls for.
theorem run_eq_ofDecision [Wording] (hf : filter.IsSilent) (h : Asks around c q args) (hv : c.Verdict q d) :
    run around filter time args = .ofDecision d := by
  cases h
  case intro config old new groups ha hc hg ho hn =>
    have hr : .ofClaims q.userInfo.username groups = q.requester := Requester.ofClaims_eq hg
    have hl : (loadConfig around config).Yields [] (.ok c) := hc ▸ yields_loadConfig
    cases hv
    case decided hb hu =>
      rw [Report.ofDecision_decideUpdate, ← hr]
      exact run_of_yields_ok hf ha <| .bind hl <| yields_decide_of_decided ho hn hb hu
    case oldUnreadable hb =>
      rw [Report.ofDecision_malformed]
      exact run_of_yields_error hf ha <| .bind hl <| yields_decide_of_oldUnreadable ho hn hb
    case newUnreadable hb hu =>
      rw [Report.ofDecision_malformed]
      exact run_of_yields_error hf ha <| .bind hl <| yields_decide_of_newUnreadable ho hn hb hu

theorem respond_eq_ofDecision {access : WriteAccess} {now : Timestamp} {next : DecisionLog}
    (hl : (log.record access (c.recordOf now q)).value = .ok next) :
    (c.respond access now log q).value.1 = .ofDecision q.uid (c.recordOf now q).decision := by
  rw [GateConfig.respond_of_gains (DecisionLog.record_eq_ok_iff.mp hl)]

-- Where no event is shown and the log accepts what is written, the command line tells what the gate
-- answers, and nothing of a request but its bodies and its requester has a part in it.
theorem run_agrees_with_respond [Wording] {access : WriteAccess} {now : Timestamp}
    {next : DecisionLog} (hf : filter.IsSilent) (h : Asks around c q args)
    (hl : (log.record access (c.recordOf now q)).value = .ok next) :
    Agrees (run around filter time args) (c.respond access now log q).value.1 := by
  rw [run_eq_ofDecision hf h GateConfig.verdict_judgeRequest, respond_eq_ofDecision hl]
  exact agrees_ofDecision q.uid _

end

-- Every request can be asked about, under any settings that can be loaded.
theorem asks_decideArguments [Wording] {around : Surroundings} {c : GateConfig}
    {q : AdmissionRequest} {config old : Option String} {new : String} {groups : List String}
    (hc : (loadConfig around config).run.value = .ok c) (hp : config ≠ some "")
    (hg : ∀ g, g ∈ groups ↔ g ∈ q.userInfo.groups)
    (ho : Option.Rel around.Holds old q.oldObject) (hq : old ≠ some "")
    (hn : around.Holds new (q.object.getD "")) (hr : new ≠ "") :
    Asks around c q (decideArguments config old new q.userInfo.username groups) :=
  .intro (readArguments_decideArguments hp hq hr) hc hg ho hn

-- A task for Carol to approve, with her input.
def carolText (input : String) : String :=
  "\x7b\"spec\":\x7b\"numberOfApprovalsRequired\":1,\"approvers\":[\x7b\"name\":\"carol\"," ++
    "\"input\":\"" ++ input ++ "\"\x7d]\x7d\x7d"

def carolRequest : AdmissionRequest :=
  ⟨.zero, ⟨"", "", ""⟩, none, none, .update, ⟨"carol", ["ops", "qa"]⟩, some (carolText "approve"),
    some (carolText "")⟩

def carolFiles : Surroundings where
  file path := .ok (carolText <| if path = "new.json" then "approve" else "").toUTF8
  clock _   := ⟨0, 0, 0⟩
  uid _     := .zero

section Carol

attribute [local instance] Wording.brief

-- The case of an approval that is allowed.
theorem carol_is_told_alike :
    (LogFilter.ofText (some "off")).IsSilent ∧
    Asks carolFiles .default carolRequest
      (decideArguments none (some "old.json") "new.json" "carol" ["qa", "ops", "qa"]) ∧
    ∃ next,
      ((DecisionLog.empty "gate").record .granted
        (GateConfig.recordOf .default ⟨0, 0, 0⟩ carolRequest)).value = .ok next ∧
      run carolFiles (.ofText (some "off")) (fun _ => "")
        (decideArguments none (some "old.json") "new.json" "carol" ["qa", "ops", "qa"]) =
          ⟨0, ["allowed"], none⟩ := by
  have ha : Asks carolFiles .default carolRequest
      (decideArguments none (some "old.json") "new.json" "carol" ["qa", "ops", "qa"]) := by
    have hg : ∀ g, g ∈ ["qa", "ops", "qa"] ↔ g ∈ carolRequest.userInfo.groups := by
      simp [carolRequest, or_comm]
    exact asks_decideArguments rfl nofun hg (.some rfl) (by decide) rfl (by decide)
  have hl := DecisionLog.record_eq_ok_iff.mpr <|
    DecisionLog.Gains.intro (r := GateConfig.recordOf .default ⟨0, 0, 0⟩ carolRequest)
      (rfl : (DecisionLog.empty "gate").entries? = some [])
  have ht : Agrees (run carolFiles (.ofText (some "off")) (fun _ => "") _) _ :=
    run_agrees_with_respond LogFilter.isSilent_off ha hl
  exact ⟨LogFilter.isSilent_off, ha, _, hl, ht.allowed.mpr <| by decide +kernel⟩

end Carol

end CommandLine
end Countersign
