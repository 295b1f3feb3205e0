import Mathlib.Tactic.MkIffOfInductiveProp
import Countersign.Log.Chain
import Countersign.Proofs.Admission.Envelope
import Countersign.Proofs.Audit.Calls
import Countersign.Proofs.Format.Timestamp

namespace Countersign

open Symbols

-- The given values survive being stored as text, and no others are ever read.
structure Codec.Keeps {α : Type} (c : Codec α) (P : α → Prop) : Prop where
  survives : ∀ a, P a → c.Survives a
  valid    : ∀ text a, c.readText text = .ok a → P a

theorem Codec.Keeps.of_fits_iff {α : Type} {c : Codec α} {P : α → Prop} (hc : c.isSound)
    (hs : c.IsStable Json.depthLimit) (h : ∀ a, c.Fits Json.depthLimit a ↔ P a) : c.Keeps P where
  survives a ha := survives_of_fits hc <| (h a).mpr ha
  valid _ a ha :=
    have ⟨_, _, _, _, _, _, _, _, hf⟩ := exists_of_readText hs ha
    (h a).mp hf

-- Numbers are within the range of their types, and times within the calendar.
def DecisionRecord.IsValid (r : DecisionRecord) : Prop :=
  r.timestamp.IsValid

@[mk_iff]
structure LogEntry.IsValid (e : LogEntry) : Prop where
  sequence : e.sequence < UInt64.size
  record   : e.record.IsValid

@[mk_iff]
structure DecisionTrail.IsValid (t : DecisionTrail) : Prop where
  entries    : ∀ e ∈ t.entries, e.IsValid
  exportedAt : t.exportedAt.IsValid

def Target.IsValid : Target → Prop
  | userInput => True
  | groupInput => True
  | memberAdded position => position < UInt64.size
  | memberInput position => position < UInt64.size

@[mk_iff]
structure ChangeSite.IsValid (s : ChangeSite) : Prop where
  index  : s.index < UInt64.size
  target : s.target.IsValid

section Fitting

variable {d : Nat}

theorem Timestamp.fits_iff {t : Timestamp} : Timestamp.codec.Fits d t ↔ t.IsValid :=
  ⟨Timestamp.isValid_of_read, Timestamp.read_text⟩

theorem Decision.fits (x : Decision) : Decision.codec.Fits (d + 4) x := by
  cases x
  case allow => trivial
  case deny r =>
    cases r
    all_goals simp [Decision.codec, DenyReason.codec, UnsupportedInput.codec]

theorem Target.fits_iff {t : Target} : Target.codec.Fits (d + 2) t ↔ t.IsValid := by
  cases t
  all_goals simp [Target.codec, positionCodec, IsValid]

theorem Vote.fits (v : Vote) : Vote.codec.Fits d v := by
  cases v
  all_goals trivial

theorem ChangeSite.fits_iff {s : ChangeSite} : ChangeSite.codec.Fits (d + 3) s ↔ s.IsValid := by
  simp [ChangeSite.codec, positionCodec, Target.fits_iff, Vote.fits, isValid_iff]

variable [Wording]

theorem DecisionRecord.fits_iff {r : DecisionRecord} :
    DecisionRecord.codec.Fits (d + 5) r ↔ r.IsValid := by
  simp [DecisionRecord.codec, Uuid.fits, Decision.fits, Timestamp.fits_iff, IsValid]

theorem LogEntry.fits_iff {e : LogEntry} : LogEntry.codec.Fits (d + 6) e ↔ e.IsValid := by
  simp [LogEntry.codec, DecisionRecord.fits_iff, isValid_iff]

theorem DecisionTrail.fits_iff {t : DecisionTrail} :
    DecisionTrail.codec.Fits (d + 8) t ↔ t.IsValid := by
  simp [DecisionTrail.codec, LogEntry.fits_iff, Timestamp.fits_iff, isValid_iff]

end Fitting

section Stability

variable {d : Nat}

theorem Timestamp.isStable : Timestamp.codec.IsStable d :=
  fun _ _ h => Timestamp.read_text <| Timestamp.isValid_of_read h

theorem Decision.isStable : Decision.codec.IsStable d := by
  simp [Decision.codec, DenyReason.codec, UnsupportedInput.codec]

theorem ChangeSite.isStable : ChangeSite.codec.IsStable d := by
  simp [ChangeSite.codec, Target.codec, Vote.codec, positionCodec]

variable [Wording]

theorem DecisionRecord.isStable : DecisionRecord.codec.IsStable d := by
  simp [DecisionRecord.codec, Uuid.isStable, Decision.isStable, Timestamp.isStable]

theorem LogEntry.isStable : LogEntry.codec.IsStable d := by
  simp [LogEntry.codec, DecisionRecord.isStable]

theorem DecisionTrail.isStable : DecisionTrail.codec.IsStable d := by
  simp [DecisionTrail.codec, LogEntry.isStable, Timestamp.isStable]

end Stability

section Keeping

theorem Decision.keeps : Decision.codec.Keeps fun _ => True :=
  .of_fits_iff rfl Decision.isStable fun x => iff_true_intro x.fits

theorem ChangeSite.keeps : ChangeSite.codec.Keeps IsValid :=
  .of_fits_iff rfl ChangeSite.isStable fun _ => fits_iff

variable [Wording]

theorem DecisionRecord.keeps : DecisionRecord.codec.Keeps IsValid :=
  .of_fits_iff rfl DecisionRecord.isStable fun _ => fits_iff

theorem LogEntry.keeps : LogEntry.codec.Keeps IsValid :=
  .of_fits_iff rfl LogEntry.isStable fun _ => fits_iff

theorem DecisionTrail.keeps : DecisionTrail.codec.Keeps IsValid :=
  .of_fits_iff rfl DecisionTrail.isStable fun _ => fits_iff

theorem AdmissionResponse.keeps : AdmissionResponse.codec.Keeps IsValid :=
  .of_fits_iff rfl AdmissionResponse.isStable fun _ => fits_iff

end Keeping

namespace DecisionLog

variable {w : String} {calls : List Call} {now : Timestamp} {t : DecisionTrail}

-- The trail of a log whose records are valid can be stored, as long as its positions fit.
theorem isValid_of_answer (h : (empty w).answer calls (.trail now) = .trail (.ok t))
    (hn : now.IsValid) (hr : ∀ r ∈ recorded calls, r.IsValid)
    (hl : (recorded calls).length ≤ UInt64.size) : t.IsValid ∧ t.verify := by
  have hs := keeps_run w (not_poison_of_answer h) |>.serves (.trail now)
  have he := entries?_of_answer h
  rw [answer] at h
  rw [h] at hs
  cases hs
  case trail hs =>
    refine ⟨⟨fun e he => ?_, ?_⟩, hs.verified⟩
    case refine_1 =>
      obtain ⟨i, hi⟩ := List.mem_iff_getElem?.mp he
      have hlt : i < t.entries.length := (List.getElem?_eq_some_iff.mp hi).choose
      rw [← hs.records, List.length_map] at hl
      refine ⟨by rw [hs.sequence i e hi]; omega, hr _ ?_⟩
      exact hs.records ▸ List.mem_map_of_mem he
    case refine_2 =>
      simp only [perform, trail, he, Answer.trail.injEq, Except.ok.injEq] at h
      exact h ▸ hn

end DecisionLog

-- What storing exported audit data as text keeps of it.
structure FaithfulStorage [Wording] : Prop where
  trail    : DecisionTrail.codec.Keeps DecisionTrail.IsValid
  entry    : LogEntry.codec.Keeps LogEntry.IsValid
  record   : DecisionRecord.codec.Keeps DecisionRecord.IsValid
  decision : Decision.codec.Keeps fun _ => True
  site     : ChangeSite.codec.Keeps ChangeSite.IsValid
  response : AdmissionResponse.codec.Keeps AdmissionResponse.IsValid
  -- A stored trail verifies if and only if the trail does.
  verdict  : ∀ t : DecisionTrail, t.IsValid →
    ∀ s ∈ [DecisionTrail.codec.compact t, DecisionTrail.codec.pretty t],
      ∃ t', DecisionTrail.codec.readText (ofString s) = .ok t' ∧ t'.verify = t.verify
  -- The trail of an untouched log verifies after it was stored.
  untouched : ∀ w calls now t,
    (DecisionLog.empty w).answer calls (.trail now) = .trail (.ok t) → now.IsValid →
    (∀ r ∈ DecisionLog.recorded calls, r.IsValid) →
    (DecisionLog.recorded calls).length ≤ UInt64.size →
    ∀ s ∈ [DecisionTrail.codec.compact t, DecisionTrail.codec.pretty t],
      ∃ t', DecisionTrail.codec.readText (ofString s) = .ok t' ∧ t'.verify

theorem DecisionTrail.exists_of_stored [Wording] {t : DecisionTrail} {s : String} (h : t.IsValid)
    (hs : s ∈ [codec.compact t, codec.pretty t]) :
    ∃ t', codec.readText (ofString s) = .ok t' ∧ t'.verify = t.verify :=
  ⟨t, (keeps.survives t h).of_mem hs, rfl⟩

-- Exported audit data survives its own JSON.
theorem storage_is_faithful [Wording] : FaithfulStorage where
  trail    := DecisionTrail.keeps
  entry    := LogEntry.keeps
  record   := DecisionRecord.keeps
  decision := Decision.keeps
  site     := ChangeSite.keeps
  response := AdmissionResponse.keeps
  verdict _ h _ hs := DecisionTrail.exists_of_stored h hs
  untouched w calls now t ht hn hr hl s hs := by
    have ⟨hv, hok⟩ := DecisionLog.isValid_of_answer ht hn hr hl
    have ⟨t', hr, he⟩ := DecisionTrail.exists_of_stored hv hs
    exact ⟨t', hr, he.trans hok⟩

end Countersign
