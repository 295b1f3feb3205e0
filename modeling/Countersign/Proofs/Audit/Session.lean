import Countersign.Proofs.Audit.Exchange

namespace Countersign

-- A review arrives, and the write of its record meets the given access. Or a writer fails while it
-- holds the log.
inductive Act
  | review (access : WriteAccess) (now : Timestamp) (r : AdmissionReview)
  | poison

namespace GateConfig

variable (c : GateConfig)

def next (log : DecisionLog) : Act → DecisionLog
  | .review access now r => (c.exchange log access now r).after
  | .poison => log.poison

def run (log : DecisionLog) (acts : List Act) : DecisionLog :=
  acts.foldl c.next log

-- The exchanges of a run, in order.
def exchanges : DecisionLog → List Act → List Exchange
  | _, [] => []
  | log, .review access now r :: acts =>
    c.exchange log access now r :: exchanges (c.exchange log access now r).after acts
  | log, .poison :: acts => exchanges log.poison acts

end GateConfig

-- A run from a log: every exchange is lawful, and the log grows by what the exchanges add to it.
structure GateConfig.Lockstep (c : GateConfig) (log : DecisionLog) (acts : List Act) : Prop where
  lawful   : ∀ e ∈ c.exchanges log acts, e.Lawful c
  entries  : ∀ entries, (c.run log acts).entries? = some entries →
    ∃ start, log.entries? = some start ∧
      entries = start ++ (c.exchanges log acts).flatMap Exchange.gained
  intact   : .poison ∉ acts → (c.run log acts).isPoisoned = log.isPoisoned
  admitted : (c.exchanges log acts).filterMap Exchange.admitted? =
    ((c.exchanges log acts).flatMap Exchange.gained
      |>.filter (·.record.decision.isAllowed) |>.map (·.record.requestUid))

namespace GateConfig

variable {c : GateConfig} {log : DecisionLog} {acts : List Act}

theorem lawful_of_mem {e : Exchange} (h : e ∈ c.exchanges log acts) : e.Lawful c := by
  induction acts generalizing log
  case nil => simp [exchanges] at h
  case cons act acts hi =>
    cases act
    case review access now r =>
      cases List.mem_cons.mp h
      case inl h => exact h ▸ Exchange.lawful_exchange ..
      case inr h => exact hi h
    case poison => exact hi h

theorem run_entries? (entries : List LogEntry) (h : (c.run log acts).entries? = some entries) :
    ∃ start, log.entries? = some start ∧
      entries = start ++ (c.exchanges log acts).flatMap Exchange.gained := by
  induction acts generalizing log
  case nil => exact ⟨entries, h, by simp [exchanges]⟩
  case cons act acts hi =>
    have ⟨start, hs, he⟩ := hi h
    cases act
    case review access now r =>
      rw [next, (Exchange.lawful_exchange c log access now r).entries?_after] at hs
      have ⟨before, hb, hs⟩ := Option.map_eq_some_iff.mp hs
      refine ⟨before, hb, ?_⟩
      rw [he, ← hs, exchanges, List.flatMap_cons, List.append_assoc]
      rfl
    case poison => simp [next, DecisionLog.poison] at hs

-- Only a writer that fails poisons the log.
theorem run_isPoisoned (h : .poison ∉ acts) : (c.run log acts).isPoisoned = log.isPoisoned := by
  induction acts generalizing log
  case nil => rfl
  case cons act acts hi =>
    have ⟨ha, h⟩ := List.mem_cons.not.mp h |> not_or.mp
    rw [run, List.foldl_cons, ← run, hi h]
    cases act
    case review access now r => exact (Exchange.lawful_exchange c log access now r).isPoisoned_after
    case poison => exact absurd rfl ha

theorem admitted_exchanges : (c.exchanges log acts).filterMap Exchange.admitted? =
    ((c.exchanges log acts).flatMap Exchange.gained
      |>.filter (·.record.decision.isAllowed) |>.map (·.record.requestUid)) := by
  induction acts generalizing log
  case nil => rfl
  case cons act acts hi =>
    cases act
    case review access now r =>
      have h := (Exchange.lawful_exchange c log access now r).toList_admitted?
      simp only [exchanges, List.flatMap_cons, List.filter_append, List.map_append, ← h, ← hi]
      cases ha : (c.exchange log access now r).admitted?
      all_goals simp [ha]
    case poison => exact hi

end GateConfig

-- A webhook answers and records in lockstep, whatever comes in.
theorem answers_in_lockstep (c : GateConfig) (log : DecisionLog) (acts : List Act) :
    c.Lockstep log acts where
  lawful _ h := GateConfig.lawful_of_mem h
  entries    := GateConfig.run_entries?
  intact     := GateConfig.run_isPoisoned
  admitted   := GateConfig.admitted_exchanges

end Countersign
