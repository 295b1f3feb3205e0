import Mathlib.Logic.Basic
import Countersign.Admission.Controller
import Countersign.Proofs.Audit.Log

namespace Countersign

-- A review and its answer, with the log before and after it.
structure Exchange where
  access : WriteAccess
  now    : Timestamp
  review : AdmissionReview
  before : DecisionLog
  answer : Except GateError AdmissionReview
  after  : DecisionLog

namespace Exchange

-- What the log gains.
def gained (e : Exchange) : List LogEntry :=
  e.after.entries?.getD [] |>.drop e.before.length

-- Whose update the answer admits.
def admitted? (e : Exchange) : Option Uuid :=
  match e.answer with
  | .ok r => r.response.bind fun response => if response.allowed then some response.uid else none
  | .error _ => none

end Exchange

namespace GateConfig

variable (c : GateConfig)

def exchange (log : DecisionLog) (access : WriteAccess) (now : Timestamp) (r : AdmissionReview) :
    Exchange where
  access := access
  now    := now
  review := r
  before := log
  answer := (c.review access now log r).value.1
  after  := (c.review access now log r).value.2

-- What is read from a body of a request.
def body (q : AdmissionRequest) : ObjectRole → Except GateError ApprovalTask
  | .old => (c.decoder.decode .old (q.oldObject.map Symbols.ofString)).value
  | .new => (c.decoder.decode .new (q.object.map Symbols.ofString)).value

-- The decision that a request calls for. The error of the stored body goes before that of the new.
inductive Verdict (q : AdmissionRequest) : Decision → Prop
  | decided {old new : ApprovalTask} (ho : c.body q .old = .ok old) (hn : c.body q .new = .ok new) :
    Verdict q (decideUpdate old.toState new.toState q.requester)
  | oldUnreadable {e : GateError} (ho : c.body q .old = .error e) :
    Verdict q (.deny (.malformed e.message))
  | newUnreadable {old : ApprovalTask} {e : GateError} (ho : c.body q .old = .ok old)
    (hn : c.body q .new = .error e) : Verdict q (.deny (.malformed e.message))

end GateConfig

-- The answer shows the decision: whether it allows, the text of its reason, and the code.
structure AdmissionResponse.Shows (response : AdmissionResponse) (d : Decision) : Prop where
  allowed : response.allowed ↔ d = .allow
  result  : response.result = none ↔ d = .allow
  message : response.message? = d.message?
  code    : ∀ status, response.result = some status →
    status.code = some 400 ∧ (∃ reason, d = .deny (.malformed reason)) ∨
    status.code = none ∧ ∀ reason, d ≠ .deny (.malformed reason)

namespace Exchange

variable (c : GateConfig) (e : Exchange) (q : AdmissionRequest) (response : AdmissionResponse)

-- The log gains the entry of the decision, and nothing else; the answer shows the decision.
structure Recorded (g : LogEntry) : Prop where
  granted   : e.access = .granted
  intact    : ¬e.before.isPoisoned
  gained    : e.gained = [g]
  after     : e.after = { e.before with entries? := e.before.entries?.map (· ++ [g]) }
  uid       : g.record.requestUid = q.uid
  requester : g.record.requester = q.userInfo.username
  decision  : c.Verdict q g.record.decision
  shown     : response.Shows g.record.decision

-- The log stays as it is, and the answer shows why it could not be written to.
structure Unrecorded (error : GateError) : Prop where
  refused : e.before.Refuses e.access error
  after   : e.after = e.before
  denied  : ¬response.allowed
  result  : response.result = some ⟨error.message, some 500⟩

-- What a review is answered, and what the log gains with the answer.
structure Lawful : Prop where
  unasked : e.review.request = none →
    (∃ reason, e.answer = .error (.decode reason)) ∧ e.after = e.before
  asked   : ∀ q, e.review.request = some q →
    ∃ response, e.answer = .ok (.ofResponse response) ∧ response.uid = q.uid ∧
      Xor (∃ g, e.Recorded c q response g) (∃ error, e.Unrecorded response error)

end Exchange

namespace GateConfig

variable {c : GateConfig} {q : AdmissionRequest} {log : DecisionLog}

theorem decodePair_value : (c.decodePair q).value = (do
    let old ← c.body q .old
    let new ← c.body q .new
    return (old, new)) := by
  unfold decodePair body
  cases ho : (c.decoder.decode .old (q.oldObject.map Symbols.ofString)).value
  case error e => simp [ho, bind, Except.bind]
  case ok old =>
    cases hn : (c.decoder.decode .new (q.object.map Symbols.ofString)).value
    all_goals simp [ho, hn, bind, Except.bind, pure, Except.pure]

theorem verdict_judgeRequest : c.Verdict q (c.judgeRequest q).value.2 := by
  unfold judgeRequest
  rw [Emitting.value_bind, decodePair_value]
  cases ho : c.body q .old
  case error e => exact .oldUnreadable ho
  case ok old =>
    cases hn : c.body q .new
    case error e => exact .newUnreadable ho hn
    case ok new => exact .decided ho hn

end GateConfig

namespace AdmissionResponse

theorem shows_ofDecision (uid : Uuid) (d : Decision) : (ofDecision uid d).Shows d := by
  cases d
  case allow =>
    constructor
    all_goals simp [ofDecision, Decision.isAllowed, message?, Decision.message?, Decision.reason?]
  case deny reason =>
    cases reason
    all_goals
      constructor
      all_goals simp [ofDecision, Decision.isAllowed, message?, Decision.message?,
        Decision.reason?, DenyReason.code?]

end AdmissionResponse

namespace GateConfig

variable {c : GateConfig} {q : AdmissionRequest} {log : DecisionLog} {access : WriteAccess}
variable {now : Timestamp}

-- The record of the decision on a request.
def recordOf (c : GateConfig) (now : Timestamp) (q : AdmissionRequest) : DecisionRecord where
  requestUid := q.uid
  task       := (c.judgeRequest q).value.1
  requester  := q.requester.username
  decision   := (c.judgeRequest q).value.2
  timestamp  := now

theorem respond_of_gains {next : DecisionLog} (h : log.Gains (c.recordOf now q) access next) :
    (c.respond access now log q).value = (.ofDecision q.uid (c.recordOf now q).decision, next) := by
  have hr := DecisionLog.record_eq_ok_iff.mpr h
  simp only [recordOf] at hr
  simp [respond, hr, recordOf]

theorem respond_of_refuses {e : GateError} (h : log.Refuses access e) :
    (c.respond access now log q).value = (.ofLogError q.uid e, log) := by
  have hr := DecisionLog.record_eq_error_iff (r := c.recordOf now q) |>.mpr h
  simp only [recordOf] at hr
  simp [respond, hr]

end GateConfig

namespace Exchange

variable {c : GateConfig} {q : AdmissionRequest} {log : DecisionLog} {access : WriteAccess}
variable {now : Timestamp} {r : AdmissionReview} {e : Exchange} {response : AdmissionResponse}

theorem gained_eq_nil (h : e.after = e.before) : e.gained = [] := by
  unfold gained DecisionLog.length
  cases he : e.before.entries?
  all_goals simp [h, he]

theorem gained_eq_of_append {entries gs : List LogEntry} (hb : e.before.entries? = some entries)
    (ha : e.after.entries? = some (entries ++ gs)) : e.gained = gs := by
  simp [gained, DecisionLog.length, hb, ha]

theorem recorded_of_gains {next : DecisionLog} (hq : r.request = some q)
    (h : log.Gains (c.recordOf now q) access next) :
    ∃ response, (c.exchange log access now r).answer = .ok (.ofResponse response) ∧
      response.uid = q.uid ∧ ∃ g, (c.exchange log access now r).Recorded c q response g := by
  have hv : (c.review access now log r).value =
      (.ok (.ofResponse <| .ofDecision q.uid (c.recordOf now q).decision), next) := by
    simp [GateConfig.review, hq, GateConfig.respond_of_gains h]
  refine ⟨.ofDecision q.uid (c.recordOf now q).decision, ?answer, rfl, ?_⟩
  case answer => simp [GateConfig.exchange, hv]
  cases h
  case intro entries he =>
    exact ⟨log.nextEntry entries (c.recordOf now q), {
      granted   := rfl
      intact    := by simp [GateConfig.exchange, DecisionLog.isPoisoned, he]
      gained    := gained_eq_of_append he (by simp [GateConfig.exchange, hv])
      after     := by simp [GateConfig.exchange, hv, he]
      uid       := rfl
      requester := rfl
      decision  := GateConfig.verdict_judgeRequest
      shown     := AdmissionResponse.shows_ofDecision _ _
    }⟩

variable (c now) in
theorem unrecorded_of_refuses {error : GateError} (hq : r.request = some q)
    (h : log.Refuses access error) :
    ∃ response, (c.exchange log access now r).answer = .ok (.ofResponse response) ∧
      response.uid = q.uid ∧ (c.exchange log access now r).Unrecorded response error := by
  have hv : (c.review access now log r).value =
      (.ok (.ofResponse <| .ofLogError q.uid error), log) := by
    simp [GateConfig.review, hq, GateConfig.respond_of_refuses h]
  refine ⟨.ofLogError q.uid error, ?answer, rfl, ?_⟩
  case answer => simp [GateConfig.exchange, hv]
  exact {
    refused := h
    after   := by simp [GateConfig.exchange, hv]
    denied  := by simp [AdmissionResponse.ofLogError]
    result  := rfl
  }

-- Only one of the two happens: a write that is refused is not granted, or meets a poisoned log.
theorem Recorded.not_unrecorded {g : LogEntry} (h : e.Recorded c q response g)
    (error : GateError) : ¬e.Unrecorded response error := by
  intro hu
  have hr := h.granted ▸ hu.refused
  cases hr
  case poison hp => exact h.intact hp

variable (c log access now r) in
theorem lawful_exchange : (c.exchange log access now r).Lawful c where
  unasked h := by
    replace h : r.request = none := h
    have hv : (c.review access now log r).value = (.error GateConfig.noRequestError, log) := by
      simp [GateConfig.review, h]
    exact ⟨⟨_, congrArg Prod.fst hv⟩, congrArg Prod.snd hv⟩
  asked q hq := by
    cases DecisionLog.gains_or_refuses log access (c.recordOf now q)
    case inl h =>
      obtain ⟨_, h⟩ := h
      have ⟨response, ha, hu, g, hg⟩ := recorded_of_gains hq h
      exact ⟨response, ha, hu, .inl ⟨⟨g, hg⟩, fun ⟨error, he⟩ => hg.not_unrecorded error he⟩⟩
    case inr h =>
      obtain ⟨error, h⟩ := h
      have ⟨response, ha, hu, he⟩ := unrecorded_of_refuses c now hq h
      exact ⟨response, ha, hu, .inr ⟨⟨error, he⟩, fun ⟨_, hg⟩ => hg.not_unrecorded error he⟩⟩

theorem admitted?_of_answer (h : e.answer = .ok (.ofResponse response)) :
    e.admitted? = if response.allowed then some response.uid else none := by
  simp [admitted?, h, AdmissionReview.ofResponse]

-- What an exchange does to the log, and whom its answer admits.
theorem Lawful.outcome (h : e.Lawful c) :
    (e.after = e.before ∧ e.admitted? = none) ∨
    ∃ g, e.gained = [g] ∧
      e.after = { e.before with entries? := e.before.entries?.map (· ++ [g]) } ∧
      e.admitted? = if g.record.decision.isAllowed then some g.record.requestUid else none := by
  cases hq : e.review.request
  case none =>
    have ⟨⟨_, ha⟩, hs⟩ := h.unasked hq
    exact .inl ⟨hs, by simp [admitted?, ha]⟩
  case some q =>
    obtain ⟨response, ha, hu, h⟩ := h.asked q hq
    rw [admitted?_of_answer ha]
    cases h
    case inl h =>
      obtain ⟨⟨g, hg⟩, _⟩ := h
      refine .inr ⟨g, hg.gained, hg.after, ?_⟩
      have hd : response.allowed = g.record.decision.isAllowed := by
        have := hg.shown.allowed
        cases hd : g.record.decision
        all_goals simp_all [Decision.isAllowed]
      rw [hd, hu, hg.uid]
    case inr h =>
      obtain ⟨⟨_, he⟩, _⟩ := h
      exact .inl ⟨he.after, by simp [he.denied]⟩

theorem Lawful.entries?_after (h : e.Lawful c) :
    e.after.entries? = e.before.entries?.map (· ++ e.gained) := by
  cases h.outcome
  case inl h => simp [gained_eq_nil h.left, h.left]
  case inr h =>
    obtain ⟨g, hg, ha, _⟩ := h
    simp [hg, ha]

theorem Lawful.isPoisoned_after (h : e.Lawful c) : e.after.isPoisoned = e.before.isPoisoned := by
  simp [DecisionLog.isPoisoned, h.entries?_after]

theorem Lawful.toList_admitted? (h : e.Lawful c) :
    e.admitted?.toList =
      (e.gained.filter (·.record.decision.isAllowed) |>.map (·.record.requestUid)) := by
  cases h.outcome
  case inl h => simp [gained_eq_nil h.left, h.right]
  case inr h =>
    obtain ⟨g, hg, _, ha⟩ := h
    rw [hg, ha]
    cases hd : g.record.decision.isAllowed
    all_goals simp [hd]

end Exchange

end Countersign
