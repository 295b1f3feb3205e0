import Countersign.Log.DecisionLog

namespace Countersign.DecisionLog

variable {log next : DecisionLog} {access : WriteAccess} {r : DecisionRecord} {e : GateError}

-- A write fails with the error that refuses it. A refusal comes before the poison is noticed.
inductive Refuses (log : DecisionLog) : WriteAccess → GateError → Prop
  | access {reason : String} : log.Refuses (.refused reason) (.auditWriteFailed reason)
  | poison (h : log.isPoisoned) : log.Refuses .granted poisonedError

-- A write adds the next entry of the chain.
inductive Gains (log : DecisionLog) (r : DecisionRecord) : WriteAccess → DecisionLog → Prop
  | intro {entries : List LogEntry} (h : log.entries? = some entries) :
    log.Gains r .granted { log with entries? := some (entries ++ [log.nextEntry entries r]) }

theorem record_eq_error_iff : (log.record access r).value = .error e ↔ log.Refuses access e where
  mp h := by
    unfold record at h
    cases access
    case refused reason =>
      cases h
      exact .access
    case granted =>
      cases he : log.entries?
      case none =>
        simp only [he, Emitting.value_pure, Except.error.injEq] at h
        exact h ▸ .poison (by simp [isPoisoned, he])
      case some => simp [he] at h
  mpr h := by
    cases h
    case access => rfl
    case poison h =>
      have he : log.entries? = none := by simpa [isPoisoned] using h
      simp [record, he]

theorem record_eq_ok_iff : (log.record access r).value = .ok next ↔ log.Gains r access next where
  mp h := by
    unfold record at h
    cases access
    case refused => simp at h
    case granted =>
      cases he : log.entries?
      case none => simp [he] at h
      case some entries =>
        simp only [he, Emitting.value_bind, Emitting.value_pure, Except.ok.injEq] at h
        exact h ▸ .intro he
  mpr h := by
    cases h
    case intro he => simp [record, he]

variable (log access r) in
theorem gains_or_refuses : (∃ next, log.Gains r access next) ∨ ∃ e, log.Refuses access e := by
  cases h : (log.record access r).value
  case ok next => exact .inl ⟨next, record_eq_ok_iff.mp h⟩
  case error e => exact .inr ⟨e, record_eq_error_iff.mp h⟩

end Countersign.DecisionLog
