import Countersign.Proofs.Audit.Exchange
import Countersign.Proofs.Update.Events

namespace Countersign

-- Both bodies of the request are read as tasks.
structure GateConfig.Reads (c : GateConfig) (q : AdmissionRequest) (old new : ApprovalTask) :
    Prop where
  old : c.body q .old = .ok old
  new : c.body q .new = .ok new

-- The log has the entry behind those it had before, and no other.
structure DecisionLog.Grows (log : DecisionLog) (g : LogEntry) (next : DecisionLog) : Prop where
  webhook : next.webhook = log.webhook
  entries : ∃ entries, log.entries? = some entries ∧ next.entries? = some (entries ++ [g])

-- What the events of a request tell of the log and the answer, where `t` is the answer, the log after
-- the request, and the events.
structure RecordingTold (log : DecisionLog) (t : Traced (AdmissionResponse × DecisionLog)) :
    Prop where
  recorded   : (∃ e ∈ t.events, e.message = "decision recorded") ↔ ∃ g, log.Grows g t.value.2
  sequence   : ∀ g, log.Grows g t.value.2 → ∃ e, eventsFrom .log t.events = [e] ∧
    e.Says .debug "decision recorded" ∧ ("sequence", .count g.sequence) ∈ e.fields
  -- The last event tells the answer.
  answered   : ∀ g, log.Grows g t.value.2 → ∃ e, t.events.getLast? = some e ∧
    e.Says .info "admission decision" ∧ ("allowed", .flag t.value.1.allowed) ∈ e.fields
  -- Or else it tells the error that is answered instead of the decision.
  unanswered : (∀ g, ¬log.Grows g t.value.2) → t.value.2 = log ∧ ∃ e, t.events.getLast? = some e ∧
    e.Says .error "decision could not be recorded" ∧
      ∃ m, t.value.1.result = some ⟨m, some 500⟩ ∧ ("error", .shown m) ∈ e.fields

-- What the events of a request tell.
structure EventsTell (c : GateConfig) (log : DecisionLog) (q : AdmissionRequest)
    (t : Traced (AdmissionResponse × DecisionLog)) : Prop extends RecordingTold log t where
  kind      : (∃ e ∈ t.events, e.Says .error "unhandled kind") ↔ q.kind ≠ c.resource
  -- The engine reports something if and only if both bodies are read.
  engine    : (∃ e ∈ t.events, e.origin = .engine) ↔ ∃ old new, c.Reads q old new
  decision  : ∀ old new, c.Reads q old new →
    Deliberation old.toState new.toState q.requester (eventsFrom .engine t.events)
  -- The check for a single change reports something if and only if it fails for a located change.
  isolation : (∃ e ∈ t.events, e.origin = .isolation) ↔
    ∃ old new site, c.Reads q old new ∧ IsLocated old.toState new.toState q.requester site ∧
      ¬q.requester.isolated site old.toState.approvers new.toState.approvers
  breach    : ∀ old new site, c.Reads q old new →
    IsLocated old.toState new.toState q.requester site →
    ¬q.requester.isolated site old.toState.approvers new.toState.approvers →
    ∃ e, eventsFrom .isolation t.events = [e] ∧
      IsBreachEvent q.requester site old.toState.approvers new.toState.approvers e

namespace TaskDecoder

-- What the decoder reports: that a body is missing, or what it violates.
inductive Reports : Event → Prop
  | absent (role : ObjectRole) : Reports (absentEvent role)
  | violations (role : ObjectRole) (vs : List Schema.Violation) : Reports (violationsEvent role vs)

variable {d : TaskDecoder} {role : ObjectRole} {e : Event}

theorem Reports.origin (h : Reports e) : e.origin = .decoder := by
  cases h <;> rfl

theorem Reports.isOfJudging (h : Reports e) : e.IsOfJudging := by
  cases h <;> exact Event.isOfJudging_mk (by decide) _

theorem reports_decodeJson {j : Json} : ∀ e ∈ (d.decodeJson role j).events, Reports e := by
  unfold decodeJson
  split
  · simp
  · exact List.forall_mem_singleton.mpr <| .violations ..

theorem reports_decode {body : Option Symbols} :
    ∀ e ∈ (d.decode role body).events, Reports e := by
  unfold decode
  split
  case h_1 => exact List.forall_mem_singleton.mpr <| .absent _
  case h_2 => exact List.forall_mem_singleton.mpr <| .absent _
  case h_3 =>
    split
    · simp
    · exact reports_decodeJson

end TaskDecoder

namespace GateConfig

variable {c : GateConfig} {q : AdmissionRequest}

theorem reports_decodePair : ∀ e ∈ (c.decodePair q).events, TaskDecoder.Reports e := by
  simp only [decodePair, Emitting.events_bind]
  refine List.forall_mem_append.mpr ⟨TaskDecoder.reports_decode, ?_⟩
  split
  · simp
  · simp only [Emitting.events_bind]
    refine List.forall_mem_append.mpr ⟨TaskDecoder.reports_decode, ?_⟩
    split <;> simp

theorem judgeRequest_events_of_reads {old new : ApprovalTask} (h : c.Reads q old new) :
    (c.judgeRequest q).events =
      (c.decodePair q).events ++ decideEvents old.toState new.toState q.requester := by
  have hp : (c.decodePair q).value = .ok (old, new) := by
    simp [decodePair_value, h.old, h.new, bind, Except.bind, pure, Except.pure]
  simp [judgeRequest, hp, judge]

theorem judgeRequest_events_of_not_reads (h : ∀ old new, ¬c.Reads q old new) :
    (c.judgeRequest q).events = (c.decodePair q).events := by
  have ⟨e, hp⟩ : ∃ e, (c.decodePair q).value = .error e := by
    rw [decodePair_value]
    cases ho : c.body q .old
    case error e => exact ⟨e, rfl⟩
    case ok old =>
      cases hn : c.body q .new
      case error e => exact ⟨e, rfl⟩
      case ok new => exact absurd ⟨ho, hn⟩ (h old new)
  simp [judgeRequest, hp]

theorem isOfJudging_judgeRequest : ∀ e ∈ (c.judgeRequest q).events, e.IsOfJudging := by
  have hp : ∀ e ∈ (c.decodePair q).events, e.IsOfJudging :=
    fun e he => (reports_decodePair e he).isOfJudging
  by_cases h : ∃ old new, c.Reads q old new
  case neg => exact judgeRequest_events_of_not_reads (by simpa using h) ▸ hp
  case pos =>
    have ⟨old, new, h⟩ := h
    exact judgeRequest_events_of_reads h ▸ List.forall_mem_append.mpr ⟨hp, isOfJudging_decideEvents⟩

end GateConfig

namespace DecisionLog

variable {log : DecisionLog} {access : WriteAccess} {r : DecisionRecord} {g : LogEntry}

theorem not_grows_self : ¬log.Grows g log := by
  intro ⟨_, _, h, h'⟩
  simpa using congrArg List.length <| Option.some.inj <| h.symm.trans h'

theorem grows_iff {entries : List LogEntry} {g' : LogEntry} (h : log.entries? = some entries) :
    log.Grows g { log with entries? := some (entries ++ [g']) } ↔ g = g' := by
  constructor
  case mp =>
    intro ⟨_, _, he, hn⟩
    cases h.symm.trans he
    simpa using hn.symm
  case mpr =>
    intro hg
    exact ⟨rfl, entries, h, by rw [hg]⟩

theorem record_events_of_refuses {e : GateError} (h : log.Refuses access e) :
    (log.record access r).events = [] := by
  cases h
  case access => rfl
  case poison h =>
    have he : log.entries? = none := by simpa [isPoisoned] using h
    simp [record, he]

end DecisionLog

namespace GateConfig

variable {c : GateConfig} {q : AdmissionRequest} {access : WriteAccess} {now : Timestamp}
variable {log next : DecisionLog} {entries : List LogEntry} {error : GateError} {o : Origin}

-- What is reported until the decision is known.
variable (c q) in
def openingEvents : List Event :=
  c.unhandledKindEvents q ++ receivedEvent q :: (c.judgeRequest q).events

theorem respond_events_of_gains (h : log.entries? = some entries) :
    (c.respond .granted now log q).events = c.openingEvents q ++
      [log.recordedEvent entries (c.recordOf now q), decidedEvent q (c.recordOf now q)] := by
  simp [respond, recordOf, openingEvents, DecisionLog.record, h]

theorem respond_events_of_refuses (h : log.Refuses access error) :
    (c.respond access now log q).events = c.openingEvents q ++ [unrecordedEvent q error] := by
  have hr := DecisionLog.record_eq_error_iff (r := c.recordOf now q) |>.mpr h
  have he := DecisionLog.record_events_of_refuses (r := c.recordOf now q) h
  simp only [recordOf] at hr he
  simp [respond, hr, he, openingEvents]

theorem mem_openingEvents {e : Event} (h : e ∈ c.openingEvents q) :
    e ∈ c.unhandledKindEvents q ∨ e = receivedEvent q ∨ e.IsOfJudging := by
  cases List.mem_append.mp h
  case inl h => exact .inl h
  case inr h => exact .inr <| (List.mem_cons.mp h).imp_right (isOfJudging_judgeRequest e)

theorem unhandledKindEvents_eq_nil (h : q.kind = c.resource) : c.unhandledKindEvents q = [] := by
  simp [unhandledKindEvents, h]

theorem exists_unhandled_iff :
    (∃ e ∈ c.openingEvents q, e.Says .error "unhandled kind") ↔ q.kind ≠ c.resource := by
  constructor
  case mp =>
    intro ⟨e, he, hs⟩ hk
    rcases mem_openingEvents he with hu | rfl | hj
    · simp [unhandledKindEvents_eq_nil hk] at hu
    · cases hs.level
    · exact hj.level hs.level
  case mpr =>
    intro hk
    have hu : ∃ e ∈ c.unhandledKindEvents q, e.Says .error "unhandled kind" := by
      unfold unhandledKindEvents
      rw [if_neg hk]
      exact ⟨_, List.mem_singleton_self _, rfl, rfl⟩
    have ⟨e, he, hs⟩ := hu
    exact ⟨e, List.mem_append_left _ he, hs⟩

theorem message_of_mem_openingEvents {e : Event} (h : e ∈ c.openingEvents q) :
    e.message ≠ "decision recorded" := by
  rcases mem_openingEvents h with hu | rfl | hj
  · unfold unhandledKindEvents at hu
    split at hu <;> simp_all
  · simp [receivedEvent]
  · exact hj.message

theorem eventsFrom_openingEvents (hc : o ≠ .controller) :
    eventsFrom o (c.openingEvents q) = eventsFrom o (c.judgeRequest q).events := by
  have hu : eventsFrom o (c.unhandledKindEvents q) = [] := by
    unfold unhandledKindEvents
    split <;> simp [Ne.symm hc]
  simp [openingEvents, hu, receivedEvent, Ne.symm hc]

theorem eventsFrom_log_openingEvents : eventsFrom .log (c.openingEvents q) = [] := by
  rw [eventsFrom_openingEvents (by decide)]
  exact eventsFrom_eq_nil fun e he => (isOfJudging_judgeRequest e he).log

variable (c access now log q) in
theorem exists_respond_events : ∃ es, (c.respond access now log q).events = c.openingEvents q ++ es ∧
    ∀ e ∈ es, e.message ≠ "unhandled kind" ∧ (e.origin = .controller ∨ e.origin = .log) := by
  cases DecisionLog.gains_or_refuses log access (c.recordOf now q)
  case inl h =>
    have ⟨_, h⟩ := h
    cases h
    case intro he =>
      exact ⟨_, respond_events_of_gains he, by simp [DecisionLog.recordedEvent, decidedEvent]⟩
  case inr h =>
    have ⟨_, h⟩ := h
    exact ⟨_, respond_events_of_refuses h, by simp [unrecordedEvent]⟩

theorem eventsFrom_respond (hc : o ≠ .controller) (hl : o ≠ .log) :
    eventsFrom o (c.respond access now log q).events = eventsFrom o (c.judgeRequest q).events := by
  have ⟨es, he, hs⟩ := exists_respond_events c q access now log
  have hn : eventsFrom o es = [] := by
    refine eventsFrom_eq_nil fun e hm ho => ?_
    cases (hs e hm).right
    case inl h => exact hc (ho.symm.trans h)
    case inr h => exact hl (ho.symm.trans h)
  simp [he, hn, eventsFrom_openingEvents hc]

theorem eventsFrom_respond_of_reads {old new : ApprovalTask} (h : c.Reads q old new)
    (hc : o ≠ .controller) (hl : o ≠ .log) (hd : o ≠ .decoder) :
    eventsFrom o (c.respond access now log q).events =
      eventsFrom o (decideEvents old.toState new.toState q.requester) := by
  have hp : eventsFrom o (c.decodePair q).events = [] :=
    eventsFrom_eq_nil fun e he => (reports_decodePair e he).origin ▸ hd.symm
  simp [eventsFrom_respond hc hl, judgeRequest_events_of_reads h, hp]

theorem eventsFrom_respond_of_not_reads (h : ∀ old new, ¬c.Reads q old new)
    (hc : o ≠ .controller) (hl : o ≠ .log) (hd : o ≠ .decoder) :
    eventsFrom o (c.respond access now log q).events = [] := by
  rw [eventsFrom_respond hc hl, judgeRequest_events_of_not_reads h]
  exact eventsFrom_eq_nil fun e he => (reports_decodePair e he).origin ▸ hd.symm

-- What judges an update reports something only where there is one to judge.
theorem eventsFrom_respond_ne_nil_iff (hc : o ≠ .controller) (hl : o ≠ .log) (hd : o ≠ .decoder) :
    eventsFrom o (c.respond access now log q).events ≠ [] ↔ ∃ old new, c.Reads q old new ∧
      eventsFrom o (decideEvents old.toState new.toState q.requester) ≠ [] := by
  constructor
  case mp =>
    intro hn
    by_cases h : ∃ old new, c.Reads q old new
    case pos =>
      have ⟨old, new, h⟩ := h
      exact ⟨old, new, h, eventsFrom_respond_of_reads h hc hl hd ▸ hn⟩
    case neg =>
      exact absurd (eventsFrom_respond_of_not_reads (by simpa using h) hc hl hd) hn
  case mpr =>
    intro ⟨_, _, h, hn⟩
    rwa [eventsFrom_respond_of_reads h hc hl hd]

theorem exists_unhandled_respond_iff :
    (∃ e ∈ (c.respond access now log q).events, e.Says .error "unhandled kind") ↔
      q.kind ≠ c.resource := by
  rw [← exists_unhandled_iff]
  have ⟨es, he, hs⟩ := exists_respond_events c q access now log
  constructor
  case mp =>
    intro ⟨e, hm, hu⟩
    cases List.mem_append.mp (he ▸ hm)
    case inl hm => exact ⟨e, hm, hu⟩
    case inr hm => exact absurd hu.message (hs e hm).left
  case mpr =>
    intro ⟨e, hm, hu⟩
    exact ⟨e, he ▸ List.mem_append_left _ hm, hu⟩

theorem recordingTold_of_gains (h : log.entries? = some entries) :
    RecordingTold log (c.respond .granted now log q) := by
  have hv : (c.respond .granted now log q).value = _ := respond_of_gains (.intro h)
  have he : (c.respond .granted now log q).events = _ := respond_events_of_gains h
  have hg {g : LogEntry} : log.Grows g (c.respond .granted now log q).value.2 ↔
      g = log.nextEntry entries (c.recordOf now q) := by rw [hv, DecisionLog.grows_iff h]
  constructor
  case recorded =>
    refine ⟨fun _ => ⟨_, hg.mpr rfl⟩, fun _ => ⟨log.recordedEvent entries (c.recordOf now q), ?_, rfl⟩⟩
    simp [he]
  case sequence =>
    intro g h
    cases hg.mp h
    refine ⟨log.recordedEvent entries (c.recordOf now q), ?_, ⟨rfl, rfl⟩, ?_⟩
    · simp [he, eventsFrom_log_openingEvents, DecisionLog.recordedEvent, decidedEvent]
    · simp [DecisionLog.recordedEvent, DecisionLog.nextEntry, Chain.link]
  case answered =>
    intro g h
    refine ⟨decidedEvent q (c.recordOf now q), by simp [he], ⟨rfl, rfl⟩, ?_⟩
    simp [hv, decidedEvent, AdmissionResponse.ofDecision]
  case unanswered =>
    intro h
    exact absurd (hg.mpr rfl) (h _)

theorem recordingTold_of_refuses (h : log.Refuses access error) :
    RecordingTold log (c.respond access now log q) := by
  have hv : (c.respond access now log q).value = _ := respond_of_refuses h
  have he : (c.respond access now log q).events = _ := respond_events_of_refuses h
  have hg {g : LogEntry} : ¬log.Grows g (c.respond access now log q).value.2 := by
    rw [hv]
    exact DecisionLog.not_grows_self
  constructor
  case recorded =>
    refine ⟨fun ⟨e, hm, hr⟩ => ?_, fun ⟨_, h⟩ => absurd h hg⟩
    cases List.mem_append.mp (he ▸ hm)
    case inl hm => exact absurd hr (message_of_mem_openingEvents hm)
    case inr hm => simp [List.mem_singleton.mp hm, unrecordedEvent] at hr
  case sequence => exact fun _ h => absurd h hg
  case answered => exact fun _ h => absurd h hg
  case unanswered =>
    intro _
    refine ⟨by rw [hv], unrecordedEvent q error, by simp [he], ⟨rfl, rfl⟩, error.message, ?_, ?_⟩
    · simp [hv, AdmissionResponse.ofLogError]
    · simp [unrecordedEvent]

end GateConfig

-- Every request is told by its events.
theorem events_tell (c : GateConfig) (access : WriteAccess) (now : Timestamp) (log : DecisionLog)
    (q : AdmissionRequest) : EventsTell c log q (c.respond access now log q) where
  toRecordingTold := by
    cases DecisionLog.gains_or_refuses log access (c.recordOf now q)
    case inl h =>
      have ⟨_, h⟩ := h
      cases h
      case intro he => exact GateConfig.recordingTold_of_gains he
    case inr h =>
      have ⟨_, h⟩ := h
      exact GateConfig.recordingTold_of_refuses h
  kind := GateConfig.exists_unhandled_respond_iff
  engine := by
    rw [exists_mem_origin_iff]
    rw [GateConfig.eventsFrom_respond_ne_nil_iff (by decide) (by decide) (by decide)]
    simp [(deliberation ..).ne_nil]
  decision old new h := by
    rw [GateConfig.eventsFrom_respond_of_reads h (by decide) (by decide) (by decide)]
    exact deliberation ..
  isolation := by
    rw [exists_mem_origin_iff]
    rw [GateConfig.eventsFrom_respond_ne_nil_iff (by decide) (by decide) (by decide)]
    simp only [eventsFrom_isolation_ne_nil_iff, exists_and_left]
  breach old new site h hl hi := by
    rw [GateConfig.eventsFrom_respond_of_reads h (by decide) (by decide) (by decide)]
    exact exists_breachEvent hl hi

end Countersign
