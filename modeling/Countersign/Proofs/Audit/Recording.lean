import Mathlib.Data.List.Induction
import Countersign.Proofs.Audit.Chain
import Countersign.Proofs.Audit.Log

namespace Countersign

namespace Chain

variable {w p : String} {n : Nat} {e : LogEntry} {es fs : List LogEntry}

theorem getD_lastDigest?_cons :
    (lastDigest? (e :: es)).getD p = (lastDigest? es).getD e.digest := by
  simp only [lastDigest?, List.getLast?_cons, Option.map_some, Option.getD_some]
  cases es.getLast? <;> rfl

-- There is one entry that fits in a place.
theorem fits_iff : Fits w n p e ↔ e = link w n p e.record where
  mp h := by
    have ⟨hs, hp, hd⟩ := h
    cases e
    simp_all [link]
  mpr h := by
    rw [h]
    exact ⟨rfl, rfl, rfl⟩

theorem verifyFrom_append_iff : verifyFrom w n p (es ++ fs) ↔
    verifyFrom w n p es ∧ verifyFrom w (n + es.length) ((lastDigest? es).getD p) fs := by
  induction es generalizing n p
  case nil => simp [verifyFrom, lastDigest?]
  case cons e es hi =>
    rw [List.cons_append, verifyFrom_cons_iff, verifyFrom_cons_iff, hi, getD_lastDigest?_cons,
      List.length_cons, Nat.add_right_comm, and_assoc, Nat.add_assoc]

end Chain

namespace DecisionLog

variable {log next : DecisionLog} {r : DecisionRecord} {rs : List DecisionRecord} {e : LogEntry}
  {es : List LogEntry}

-- What the log would add is what the verifier takes next.
theorem verify_concat_iff {w : String} : Chain.verify w (es ++ [e]) ↔
    Chain.verify w es ∧ e = nextEntry ⟨w, some es⟩ es e.record := by
  rw [Chain.verify, Chain.verifyFrom_append_iff, Chain.verifyFrom_cons_iff, Chain.fits_iff]
  simp [Chain.verify, Chain.verifyFrom, nextEntry]

-- A write that leads to a longer chain has added its last entry.
theorem gains_concat_iff {w : String} : log.Gains r .granted ⟨w, some (es ++ [e])⟩ ↔
    log = ⟨w, some es⟩ ∧ e = log.nextEntry es r where
  mp h := by
    obtain ⟨w', entries?⟩ := log
    generalize hn : (⟨w, some (es ++ [e])⟩ : DecisionLog) = next at h
    cases h
    case intro entries he =>
      simp only [mk.injEq, Option.some.injEq] at hn
      obtain ⟨hw, hn⟩ := hn
      obtain ⟨rfl, hn⟩ := List.append_inj' hn rfl
      exact ⟨by rw [hw, ← he], List.singleton_inj.mp hn⟩
  mpr h := by
    obtain ⟨rfl, rfl⟩ := h
    exact .intro rfl

-- Writes records to a log, one after the other.
def recordAll (log : DecisionLog) (rs : List DecisionRecord) : Except GateError DecisionLog :=
  rs.foldlM (fun log r => (log.record .granted r).value) log

theorem recordAll_concat_eq_ok_iff : log.recordAll (rs ++ [r]) = .ok next ↔
    ∃ mid, log.recordAll rs = .ok mid ∧ mid.Gains r .granted next := by
  simp only [recordAll, List.foldlM_append, List.foldlM_cons, List.foldlM_nil, bind_pure,
    ← record_eq_ok_iff]
  cases rs.foldlM (fun log r => (log.record .granted r).value) log
  all_goals simp [bind, Except.bind]

end DecisionLog

-- A chain verifies if and only if a fresh log comes to hold it when its records are written.
theorem verify_iff_recorded (w : String) (es : List LogEntry) :
    Chain.verify w es ↔
      (DecisionLog.empty w).recordAll (es.map LogEntry.record) = .ok ⟨w, some es⟩ := by
  induction es using List.reverseRecOn
  case nil => exact ⟨fun _ => rfl, fun _ => rfl⟩
  case append_singleton es e hi =>
    rw [DecisionLog.verify_concat_iff, hi, List.map_append, List.map_singleton,
      DecisionLog.recordAll_concat_eq_ok_iff]
    simp only [DecisionLog.gains_concat_iff]
    constructor
    case mp => exact fun ⟨hr, he⟩ => ⟨_, hr, rfl, he⟩
    case mpr =>
      rintro ⟨_, hr, rfl, he⟩
      exact ⟨hr, he⟩

end Countersign
