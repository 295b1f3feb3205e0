import Countersign.Proofs.Audit.Chain

namespace Countersign

namespace LogEntry

-- What the entry's digest is taken over.
def input (w : String) (e : LogEntry) : List UInt8 :=
  Chain.digestInput w e.sequence e.prevDigest e.record

-- The entries are equal but for what the JSON of their records does not show.
structure Agrees (e₁ e₂ : LogEntry) : Prop where
  sequence   : e₁.sequence = e₂.sequence
  prevDigest : e₁.prevDigest = e₂.prevDigest
  digest     : e₁.digest = e₂.digest
  text       : e₁.record.text = e₂.record.text

end LogEntry

namespace Chain

-- Two chains, of the webhooks `w₁` and `w₂`.
variable {w₁ w₂ : String} {es₁ es₂ : List LogEntry} {i j : Nat} {e₁ e₂ : LogEntry}

-- What is digested of two entries differs, and has one digest.
structure Collides (w₁ w₂ : String) (e₁ e₂ : LogEntry) : Prop where
  ne : e₁.input w₁ ≠ e₂.input w₂
  eq : Sha256.digest (e₁.input w₁) = Sha256.digest (e₂.input w₂)

-- The chains are of one webhook, and agree up to the entries at the given indices, which are one.
structure SameHistory (w₁ : String) (es₁ : List LogEntry) (i : Nat) (w₂ : String)
    (es₂ : List LogEntry) (j : Nat) : Prop where
  webhook : w₁ = w₂
  index   : i = j
  entries : ∀ k ≤ i, ∃ e₁ e₂, es₁[k]? = some e₁ ∧ es₂[k]? = some e₂ ∧ e₁.Agrees e₂

-- Equal digests are of equal inputs, or their inputs collide.
theorem agrees_or_collides (h₁ : verify w₁ es₁) (h₂ : verify w₂ es₂)
    (hl₁ : es₁.length < 2 ^ 64) (hl₂ : es₂.length < 2 ^ 64) (he₁ : es₁[i]? = some e₁)
    (he₂ : es₂[j]? = some e₂) (hd : e₁.digest = e₂.digest) :
    w₁ = w₂ ∧ i = j ∧ e₁.Agrees e₂ ∨ Collides w₁ w₂ e₁ e₂ := by
  by_cases hi : e₁.input w₁ = e₂.input w₂
  case neg =>
    refine .inr ⟨hi, sha256_eq_of_digest_eq ?_⟩
    rw [← digest_eq h₁ he₁, ← digest_eq h₂ he₂, hd]
  case pos =>
    have hs₁ := sequence_eq h₁ he₁
    have hs₂ := sequence_eq h₂ he₂
    have ⟨hi₁, _⟩ := List.getElem?_eq_some_iff.mp he₁
    have ⟨hi₂, _⟩ := List.getElem?_eq_some_iff.mp he₂
    have hp : (bytes e₁.prevDigest).length = (bytes e₂.prevDigest).length := by
      rw [length_bytes_prevDigest h₁ he₁, length_bytes_prevDigest h₂ he₂]
    have ⟨hw, hs, hp, hj⟩ := digestInput_inj_of_length (by omega) (by omega) hp hi
    exact .inl ⟨hw, hs₁.symm.trans <| hs.trans hs₂, hs, hp, hd, hj⟩

theorem SameHistory.zero (hw : w₁ = w₂) (he₁ : es₁[0]? = some e₁) (he₂ : es₂[0]? = some e₂)
    (ha : e₁.Agrees e₂) : SameHistory w₁ es₁ 0 w₂ es₂ 0 := by
  refine ⟨hw, rfl, fun k hk => ?_⟩
  rw [Nat.le_zero.mp hk]
  exact ⟨e₁, e₂, he₁, he₂, ha⟩

theorem SameHistory.succ (h : SameHistory w₁ es₁ i w₂ es₂ i) (he₁ : es₁[i + 1]? = some e₁)
    (he₂ : es₂[i + 1]? = some e₂) (ha : e₁.Agrees e₂) :
    SameHistory w₁ es₁ (i + 1) w₂ es₂ (i + 1) := by
  refine ⟨h.webhook, rfl, fun k hk => ?_⟩
  cases Nat.le_or_eq_of_le_succ hk
  case inl hk => exact h.entries k hk
  case inr hk => exact hk ▸ ⟨e₁, e₂, he₁, he₂, ha⟩

end Chain

-- A digest in a chain that verifies stands for the webhook and for the whole chain up to its entry.
-- The induction goes back through both chains along their links: entries that agree carry one link,
-- which is the digest of the entry before either.
theorem digest_commits_to_history {w₁ w₂ : String} {es₁ es₂ : List LogEntry} {i j : Nat}
    {e₁ e₂ : LogEntry} (h₁ : Chain.verify w₁ es₁) (h₂ : Chain.verify w₂ es₂)
    (hl₁ : es₁.length < 2 ^ 64) (hl₂ : es₂.length < 2 ^ 64) (he₁ : es₁[i]? = some e₁)
    (he₂ : es₂[j]? = some e₂) (hd : e₁.digest = e₂.digest) :
    Chain.SameHistory w₁ es₁ i w₂ es₂ j ∨
      ∃ e₁ ∈ es₁, ∃ e₂ ∈ es₂, Chain.Collides w₁ w₂ e₁ e₂ := by
  induction i generalizing j e₁ e₂
  all_goals
    cases Chain.agrees_or_collides h₁ h₂ hl₁ hl₂ he₁ he₂ hd
    case inr hc => exact .inr ⟨e₁, List.mem_of_getElem? he₁, e₂, List.mem_of_getElem? he₂, hc⟩
  case zero.inl ha =>
    obtain ⟨hw, rfl, ha⟩ := ha
    exact .inl <| .zero hw he₁ he₂ ha
  case succ.inl i hi ha =>
    obtain ⟨_, rfl, ha⟩ := ha
    obtain ⟨d₁, hd₁, hp₁⟩ := Chain.exists_prev h₁ he₁
    obtain ⟨d₂, hd₂, hp₂⟩ := Chain.exists_prev h₂ he₂
    have hd : d₁.digest = d₂.digest := by rw [hp₁, hp₂, ha.prevDigest]
    exact hi hd₁ hd₂ hd |>.imp_left fun h => h.succ he₁ he₂ ha

namespace Chain

def allowedEntry : LogEntry :=
  link "gate" 0 genesis ⟨.zero, "ci/deploy", "alice", .allow, .ofUnix 0⟩

def deniedEntry : LogEntry :=
  link "gate" 1 allowedEntry.digest ⟨.zero, "ci/deploy", "bob", .deny .taskClosed, .ofUnix 1⟩

def laterEntry : LogEntry :=
  link "gate" 2 deniedEntry.digest ⟨.zero, "ci/deploy", "carol", .deny .notAnApprover, .ofUnix 2⟩

def shorter : List LogEntry :=
  [allowedEntry, deniedEntry]

def longer : List LogEntry :=
  [allowedEntry, deniedEntry, laterEntry]

theorem verify_shorter : verify "gate" shorter := by
  simp [verify, verifyFrom, shorter, allowedEntry, deniedEntry, link]

theorem verify_longer : verify "gate" longer := by
  simp [verify, verifyFrom, longer, allowedEntry, deniedEntry, laterEntry, link]

end Chain

-- The case of a chain and a longer one at their second entries, which are linked to one first entry.
theorem digest_commits_in_longer_chain :
    Chain.verify "gate" Chain.shorter ∧ Chain.verify "gate" Chain.longer ∧
    (Chain.SameHistory "gate" Chain.shorter 1 "gate" Chain.longer 1 ∨
      ∃ e₁ ∈ Chain.shorter, ∃ e₂ ∈ Chain.longer, Chain.Collides "gate" "gate" e₁ e₂) :=
  have h := digest_commits_to_history Chain.verify_shorter Chain.verify_longer (by decide)
    (by decide) rfl rfl rfl
  ⟨Chain.verify_shorter, Chain.verify_longer, h⟩

end Countersign
