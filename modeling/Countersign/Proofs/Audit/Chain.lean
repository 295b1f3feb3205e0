import Countersign.Proofs.Audit.Digest

namespace Countersign.Chain

-- An entry in its place, behind the given link.
structure Fits (w : String) (sequence : Nat) (link : String) (e : LogEntry) : Prop where
  sequence   : e.sequence = sequence
  prevDigest : e.prevDigest = link
  digest     : e.digest = digest w e.sequence e.prevDigest e.record

-- The links of a chain that follows the link `p`: the one at an index comes before the entry there.
def links (p : String) (es : List LogEntry) : List String :=
  p :: es.map LogEntry.digest

variable {w p link : String} {i n : Nat} {e : LogEntry} {es : List LogEntry}

theorem verifyFrom_cons_iff : verifyFrom w n p (e :: es) ↔
    Fits w n p e ∧ verifyFrom w (n + 1) e.digest es where
  mp h := by
    simp only [verifyFrom, Bool.and_eq_true, beq_iff_eq] at h
    have ⟨⟨⟨hs, hp⟩, hd⟩, hr⟩ := h
    exact ⟨⟨hs, hp, hd⟩, hr⟩
  mpr h := by
    have ⟨⟨hs, hp, hd⟩, hr⟩ := h
    simp only [verifyFrom, Bool.and_eq_true, beq_iff_eq]
    exact ⟨⟨⟨hs, hp⟩, hd⟩, hr⟩

theorem verifyFrom_iff : verifyFrom w n p es ↔
    ∀ i e link, es[i]? = some e → (links p es)[i]? = some link → Fits w (n + i) link e := by
  induction es generalizing n p
  case nil => simp [verifyFrom]
  case cons e es hi =>
    rw [verifyFrom_cons_iff, hi]
    constructor
    case mp =>
      intro ⟨hf, hr⟩ i d link hd hl
      cases i
      case zero =>
        cases hd
        cases hl
        exact hf
      case succ i =>
        have := hr i d link hd hl
        rwa [Nat.add_right_comm] at this
    case mpr =>
      intro h
      refine ⟨h 0 e p rfl rfl, fun i d link hd hl => ?_⟩
      have := h (i + 1) d link hd hl
      rwa [Nat.add_right_comm]

-- The link before an entry of a chain.
theorem exists_link (p : String) (he : es[i]? = some e) : ∃ link, (links p es)[i]? = some link := by
  have ⟨hl, _⟩ := List.getElem?_eq_some_iff.mp he
  exact ⟨_, List.getElem?_eq_getElem (by simp [links]; omega)⟩

section Verify

variable (h : verify w es) (he : es[i]? = some e)

include h he

theorem fits_of_verify (hl : (links genesis es)[i]? = some link) : Fits w i link e :=
  Nat.zero_add i ▸ verifyFrom_iff.mp h i e link he hl

theorem sequence_eq : e.sequence = i :=
  have ⟨_, hl⟩ := exists_link genesis he
  (fits_of_verify h he hl).sequence

theorem digest_eq : e.digest = digest w e.sequence e.prevDigest e.record :=
  have ⟨_, hl⟩ := exists_link genesis he
  (fits_of_verify h he hl).digest

theorem links_getElem? : (links genesis es)[i]? = some e.prevDigest :=
  have ⟨_, hl⟩ := exists_link genesis he
  (fits_of_verify h he hl).prevDigest ▸ hl

end Verify

-- Behind the first entry, a link is the digest of the entry before.
theorem exists_prev (h : verify w es) (he : es[i + 1]? = some e) :
    ∃ d, es[i]? = some d ∧ d.digest = e.prevDigest := by
  have hl := links_getElem? h he
  rw [links, List.getElem?_cons_succ, List.getElem?_map] at hl
  exact Option.map_eq_some_iff.mp hl

theorem length_bytes_prevDigest (h : verify w es) (he : es[i]? = some e) :
    (bytes e.prevDigest).length = 64 := by
  cases i
  case zero =>
    have hl : genesis = e.prevDigest := Option.some.inj <| links_getElem? h he
    exact hl ▸ length_bytes_genesis
  case succ i =>
    have ⟨d, hd, hl⟩ := exists_prev h he
    rw [← hl, digest_eq h hd]
    exact length_bytes_digest

end Countersign.Chain
