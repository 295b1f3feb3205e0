import Countersign.Proofs.Audit.Recording

namespace Countersign

namespace DecisionLog

inductive Operation
  | record (access : WriteAccess) (r : DecisionRecord)
  | trail (now : Timestamp)
  | length
  | isEmpty
  | verify
  -- The worker fails while it holds the log.
  | poison
  deriving DecidableEq

-- One of several workers calls the log. The calls come one at a time, in any order.
structure Call where
  worker    : Nat
  operation : Operation

inductive Answer
  | record (outcome : Except GateError Unit)
  | trail (outcome : Except GateError DecisionTrail)
  | length (n : Nat)
  | isEmpty (b : Bool)
  | verify (b : Bool)
  | poison

-- What an operation answers, and the log after it.
def perform (log : DecisionLog) : Operation → Answer × DecisionLog
  | .record access r =>
    match (log.record access r).value with
    | .ok next => (.record (.ok ()), next)
    | .error e => (.record (.error e), log)
  | .trail now => (.trail (log.trail now), log)
  | .length => (.length log.length, log)
  | .isEmpty => (.isEmpty log.isEmpty, log)
  | .verify => (.verify log.verify, log)
  | .poison => (.poison, log.poison)

def run (log : DecisionLog) (calls : List Call) : DecisionLog :=
  calls.foldl (fun log c => (log.perform c.operation).2) log

-- What an operation answers when the given calls came before it.
def answer (log : DecisionLog) (calls : List Call) (o : Operation) : Answer :=
  (log.run calls).perform o |>.1

-- The record of a call that is let write.
def Call.record? (c : Call) : Option DecisionRecord :=
  match c.operation with
  | .record .granted r => some r
  | _ => none

-- The records of the calls that are let write, in the order of the calls.
def recorded (calls : List Call) : List DecisionRecord :=
  calls.filterMap Call.record?

end DecisionLog

-- A trail of the given records, as a log of the webhook `w` shows it.
structure DecisionTrail.Shows (w : String) (rs : List DecisionRecord) (t : DecisionTrail) :
    Prop where
  webhook  : t.webhook = w
  records  : t.entries.map LogEntry.record = rs
  sequence : ∀ (i : Nat) e, t.entries[i]? = some e → e.sequence = i
  first    : ∀ e, t.entries[0]? = some e → e.prevDigest = Chain.genesis
  linked   : ∀ (i : Nat) d e, t.entries[i]? = some d → t.entries[i + 1]? = some e →
    e.prevDigest = d.digest
  digests  : ∀ e ∈ t.entries, e.digest.length = 64 ∧
    ∀ c ∈ e.digest.toList, c.isDigit ∨ 'a' ≤ c ∧ c ≤ 'f'
  empty    : t.entries = [] → t.head = ""
  head     : ∀ e, t.entries.getLast? = some e → t.head = e.digest
  counts   : t.allowed + t.denied = t.entries.length
  verified : t.verify

namespace DecisionLog

-- What an intact log of the given records answers.
inductive Serves (w : String) (rs : List DecisionRecord) : Operation → Answer → Prop
  | record {r : DecisionRecord} : Serves w rs (.record .granted r) (.record (.ok ()))
  | refusal {reason : String} {r : DecisionRecord} :
    Serves w rs (.record (.refused reason) r) (.record (.error (.auditWriteFailed reason)))
  | trail {now : Timestamp} {t : DecisionTrail} (h : t.Shows w rs) :
    Serves w rs (.trail now) (.trail (.ok t))
  | length : Serves w rs .length (.length rs.length)
  | isEmpty : Serves w rs .isEmpty (.isEmpty rs.isEmpty)
  | verify : Serves w rs .verify (.verify true)
  | poison : Serves w rs .poison .poison

-- What a poisoned log answers.
inductive Declines : Operation → Answer → Prop
  | record {access : WriteAccess} {r : DecisionRecord} {reason : String} :
    Declines (.record access r) (.record (.error (.auditWriteFailed reason)))
  | trail {now : Timestamp} {reason : String} :
    Declines (.trail now) (.trail (.error (.auditWriteFailed reason)))
  | length : Declines .length (.length 0)
  | isEmpty : Declines .isEmpty (.isEmpty true)
  | verify : Declines .verify (.verify false)
  | poison : Declines .poison .poison

-- The intact logs of the given records.
inductive Keeps (w : String) (rs : List DecisionRecord) : DecisionLog → Prop
  | intro {es : List LogEntry} (records : es.map LogEntry.record = rs)
    (verified : Chain.verify w es) : Keeps w rs ⟨w, some es⟩

end DecisionLog

-- What a fresh log answers after the given calls.
structure DecisionLog.Kept (w : String) (calls : List Call) : Prop where
  intact   : (∀ c ∈ calls, c.operation ≠ .poison) → ∀ o,
    Serves w (recorded calls) o ((empty w).answer calls o)
  poisoned : (∃ c ∈ calls, c.operation = .poison) → ∀ o,
    Declines o ((empty w).answer calls o) ∧
      ((empty w).run calls |>.perform o).2 = (empty w).run calls
  inOrder  : ∀ worker now t, (empty w).answer calls (.trail now) = .trail (.ok t) →
    (recorded <| calls.filter (·.worker == worker)).Sublist (t.entries.map LogEntry.record)
  grows    : ∀ earlier later now₁ now₂ t₁ t₂, calls = earlier ++ later →
    (empty w).answer earlier (.trail now₁) = .trail (.ok t₁) →
    (empty w).answer calls (.trail now₂) = .trail (.ok t₂) → t₁.entries <+: t₂.entries

namespace Chain

variable {w p : String} {n : Nat} {r : DecisionRecord} {es : List LogEntry}

theorem isHex_digitChar (h : n < 16) :
    (Nat.digitChar n).isDigit ∨ 'a' ≤ Nat.digitChar n ∧ Nat.digitChar n ≤ 'f' := by
  revert n
  decide

theorem isHex_of_mem_digest {c : Char} (h : c ∈ (digest w n p r).toList) :
    c.isDigit ∨ 'a' ≤ c ∧ c ≤ 'f' := by
  rw [digest, String.toList_ofList] at h
  obtain ⟨n, hn, rfl⟩ := Sha256.exists_digit_of_mem_hexDigest h
  exact isHex_digitChar hn

theorem length_digest : (digest w n p r).length = 64 := by
  rw [digest, String.length_ofList, Sha256.length_hexDigest]

end Chain

namespace DecisionTrail

theorem allowed_add_denied (t : DecisionTrail) : t.allowed + t.denied = t.entries.length := by
  have : t.allowed ≤ t.entries.length := List.countP_le_length
  simp only [denied]
  omega

-- A trail that verifies shows the records of its entries.
theorem shows_of_verify {w : String} {now : Timestamp} {es : List LogEntry}
    (h : Chain.verify w es) : Shows w (es.map LogEntry.record) ⟨w, es, now, Chain.head es⟩ where
  webhook  := rfl
  records  := rfl
  sequence _ _ he := Chain.sequence_eq h he
  first e he := Option.some.inj (Chain.links_getElem? h he) |>.symm
  linked i d e hd he := by
    have ⟨d', hd', hl⟩ := Chain.exists_prev h he
    cases hd.symm.trans hd'
    exact hl.symm
  digests e he := by
    have ⟨i, hi⟩ := List.mem_iff_getElem?.mp he
    rw [Chain.digest_eq h hi]
    exact ⟨Chain.length_digest, fun _ => Chain.isHex_of_mem_digest⟩
  empty he := by
    simp only at he
    simp [he, Chain.head, Chain.lastDigest?]
  head e he := by simp_all [Chain.head, Chain.lastDigest?]
  counts   := allowed_add_denied _
  verified := h

end DecisionTrail

namespace DecisionLog

variable {w : String} {rs : List DecisionRecord} {log : DecisionLog} {o : Operation} {c : Call}
  {calls : List Call}

theorem run_append (log : DecisionLog) (earlier later : List Call) :
    log.run (earlier ++ later) = (log.run earlier).run later :=
  List.foldl_append

theorem run_concat (log : DecisionLog) (calls : List Call) (c : Call) :
    log.run (calls ++ [c]) = ((log.run calls).perform c.operation).2 :=
  run_append log calls [c]

theorem recorded_concat : recorded (calls ++ [c]) = recorded calls ++ c.record?.toList := by
  rw [recorded, List.filterMap_append, ← recorded]
  cases hr : c.record? <;> simp [hr]

section Intact

variable (h : Keeps w rs log)

include h

theorem Keeps.length_eq : log.length = rs.length := by
  cases h
  case intro hr _ => rw [← hr, List.length_map, length, Option.map_some, Option.getD_some]

theorem Keeps.isEmpty_eq : log.isEmpty = rs.isEmpty := by
  rw [isEmpty, h.length_eq]
  cases rs <;> rfl

theorem Keeps.serves (o : Operation) : Serves w rs o (log.perform o).1 := by
  cases o
  case record access r =>
    cases h
    cases access
    case granted => exact .record
    case refused => exact .refusal
  case trail now =>
    cases h
    case intro hr hv => exact .trail <| hr ▸ DecisionTrail.shows_of_verify hv
  case length =>
    rw [perform, h.length_eq]
    exact .length
  case isEmpty =>
    rw [perform, h.isEmpty_eq]
    exact .isEmpty
  case verify =>
    cases h
    case intro hr hv =>
      simp only [perform, verify, hv]
      exact .verify
  case poison => exact .poison

-- A call adds its record to those that the log keeps.
theorem Keeps.perform_concat (ho : c.operation ≠ .poison) :
    Keeps w (rs ++ c.record?.toList) (log.perform c.operation).2 := by
  obtain ⟨_, o⟩ := c
  cases o
  case record access r =>
    cases access
    case granted =>
      cases h
      case intro es hr hv =>
        exact .intro (by simp [hr, nextEntry, Chain.link, Call.record?])
          (verify_concat_iff.mpr ⟨hv, rfl⟩)
    case refused => simpa [Call.record?, perform, record] using h
  case poison => contradiction
  all_goals simpa [Call.record?, perform] using h

end Intact

-- As long as no worker fails, the log keeps what was recorded.
theorem keeps_run (w : String) (h : ∀ c ∈ calls, c.operation ≠ .poison) :
    Keeps w (recorded calls) ((empty w).run calls) := by
  induction calls using List.reverseRecOn
  case nil => exact .intro rfl rfl
  case append_singleton calls c hi =>
    have hk := hi fun c hc => h c <| List.mem_append_left _ hc
    have ho := h c <| List.mem_append_right _ <| List.mem_singleton_self c
    have := hk.perform_concat ho
    rwa [run_concat, recorded_concat]

section Poisoned

variable (h : log.isPoisoned)

include h

theorem declines (o : Operation) : Declines o (log.perform o).1 := by
  obtain ⟨w, entries?⟩ := log
  cases entries?
  case some => contradiction
  case none =>
    cases o
    case record access r =>
      cases access
      case granted => exact .record
      case refused => exact .record
    case trail   => exact .trail
    case length  => exact .length
    case isEmpty => exact .isEmpty
    case verify  => exact .verify
    case poison  => exact .poison

theorem perform_eq_of_isPoisoned (o : Operation) : (log.perform o).2 = log := by
  obtain ⟨w, entries?⟩ := log
  cases entries?
  case some => contradiction
  case none =>
    cases o
    case record access r => cases access <;> rfl
    all_goals rfl

theorem run_eq_of_isPoisoned (calls : List Call) : log.run calls = log := by
  induction calls
  case nil => rfl
  case cons c calls hi =>
    rw [run, List.foldl_cons, perform_eq_of_isPoisoned h]
    exact hi

end Poisoned

theorem isPoisoned_run (log : DecisionLog) (h : ∃ c ∈ calls, c.operation = .poison) :
    (log.run calls).isPoisoned := by
  have ⟨c, hc, ho⟩ := h
  have ⟨before, after, he⟩ := List.append_of_mem hc
  have hp : ((log.run before).perform c.operation).2.isPoisoned := by
    rw [ho]
    rfl
  rw [he, ← List.singleton_append, ← List.append_assoc, run_append, run_concat,
    run_eq_of_isPoisoned hp]
  exact hp

section Growth

variable {fs : List LogEntry}

-- A call leaves the entries where they are, or it poisons the log.
theorem exists_prefix_of_perform (h : (log.perform o).2.entries? = some fs) :
    ∃ es, log.entries? = some es ∧ es <+: fs := by
  cases o
  case record access r =>
    simp only [perform] at h
    cases hr : (log.record access r).value
    case error =>
      rw [hr] at h
      exact ⟨fs, h, List.prefix_rfl⟩
    case ok next =>
      rw [hr] at h
      cases record_eq_ok_iff.mp hr
      case intro es he =>
        cases h
        exact ⟨es, he, List.prefix_append _ _⟩
  case poison => contradiction
  all_goals exact ⟨fs, h, List.prefix_rfl⟩

theorem exists_prefix_of_run (h : (log.run calls).entries? = some fs) :
    ∃ es, log.entries? = some es ∧ es <+: fs := by
  induction calls generalizing log
  case nil => exact ⟨fs, h, List.prefix_rfl⟩
  case cons c calls hi =>
    have ⟨mid, hm, hf⟩ := hi h
    have ⟨es, he, hp⟩ := exists_prefix_of_perform hm
    exact ⟨es, he, hp.trans hf⟩

end Growth

section Trail

variable {now : Timestamp} {t : DecisionTrail} (h : log.answer calls (.trail now) = .trail (.ok t))

include h

theorem entries?_of_answer : (log.run calls).entries? = some t.entries := by
  simp only [answer, perform, trail, Answer.trail.injEq] at h
  cases he : (log.run calls).entries?
  case none => simp [he] at h
  case some es =>
    simp only [he, Except.ok.injEq] at h
    rw [← h]

theorem not_poison_of_answer : ∀ c ∈ calls, c.operation ≠ .poison := by
  intro c hc ho
  have := isPoisoned_run log ⟨c, hc, ho⟩
  simp [isPoisoned, entries?_of_answer h] at this

end Trail

end DecisionLog

-- A log keeps what is recorded, in the order of the calls, until a worker fails. From then on it
-- takes nothing and shows nothing.
theorem DecisionLog.log_kept (w : String) (calls : List Call) : Kept w calls where
  intact h o := keeps_run w h |>.serves o
  poisoned h o :=
    have hp := isPoisoned_run (.empty w) h
    ⟨declines hp o, perform_eq_of_isPoisoned hp o⟩
  inOrder worker now t ht := by
    have hs := keeps_run w (not_poison_of_answer ht) |>.serves (.trail now)
    rw [answer] at ht
    rw [ht] at hs
    cases hs
    case trail hs =>
      rw [hs.records]
      exact List.filter_sublist.filterMap _
  grows earlier later _ _ t₁ t₂ hc h₁ h₂ := by
    have he := entries?_of_answer h₂
    rw [hc, run_append] at he
    have ⟨es, he₁, hp⟩ := exists_prefix_of_run he
    cases he₁.symm.trans <| entries?_of_answer h₁
    exact hp

end Countersign
