import Countersign.Proofs.Audit.Commitment
import Countersign.Proofs.Audit.Recording

namespace Countersign

namespace Chain

variable {w : String} {i : Nat} {e : LogEntry} {es ys : List LogEntry}

theorem verify_of_prefix (h : verify w es) (hp : ys <+: es) : verify w ys := by
  have ⟨rest, he⟩ := hp
  rw [verify, ← he, verifyFrom_append_iff] at h
  exact h.left

-- Every entry carries its index, so it can stand in one place only.
theorem getElem?_eq_of_mem (h : verify w es) (hv : verify w ys) (hm : e ∈ es)
    (hi : ys[i]? = some e) : es[i]? = some e := by
  have ⟨j, hj⟩ := List.mem_iff_getElem?.mp hm
  have hs : i = j := sequence_eq hv hi |>.symm.trans <| sequence_eq h hj
  exact hs ▸ hj

theorem prefix_of_verify (h : verify w es) (hv : verify w ys) (hm : ∀ y ∈ ys, y ∈ es) :
    ys <+: es := by
  have he : es.take ys.length = ys := by
    refine List.ext_getElem? fun i => ?_
    cases hi : ys[i]?
    case none =>
      have hl : ys.length ≤ i := List.getElem?_eq_none_iff.mp hi
      exact List.getElem?_eq_none <| Nat.le_trans (List.length_take_le ..) hl
    case some e =>
      have ⟨hl, _⟩ := List.getElem?_eq_some_iff.mp hi
      rw [List.getElem?_take_of_lt hl]
      exact getElem?_eq_of_mem h hv (hm e <| List.mem_of_getElem? hi) hi
  exact he ▸ List.take_prefix ..

end Chain

-- A list of entries that stand in a chain, in any order and as often as may be, is a chain itself
-- if and only if it is how the chain begins. To cut off the end of a chain is the only manipulation
-- that the verifier cannot see.
theorem selection_verifies_iff_truncated {w : String} {es ys : List LogEntry} (h : Chain.verify w es)
    (hm : ∀ y ∈ ys, y ∈ es) : Chain.verify w ys ↔ ys <+: es where
  mp hv := Chain.prefix_of_verify h hv hm
  mpr   := Chain.verify_of_prefix h

-- The case of two entries in the wrong order.
theorem swapped_entries_refused :
    Chain.verify "gate" [Chain.allowedEntry, Chain.deniedEntry] ∧
    (∀ y ∈ [Chain.deniedEntry, Chain.allowedEntry], y ∈ [Chain.allowedEntry, Chain.deniedEntry]) ∧
    ¬Chain.verify "gate" [Chain.deniedEntry, Chain.allowedEntry] := by
  have h : Chain.verify "gate" [Chain.allowedEntry, Chain.deniedEntry] := Chain.verify_shorter
  have hm : ∀ y ∈ [Chain.deniedEntry, Chain.allowedEntry],
      y ∈ [Chain.allowedEntry, Chain.deniedEntry] := by
    simp
  have hp : ¬[Chain.deniedEntry, Chain.allowedEntry] <+: [Chain.allowedEntry, Chain.deniedEntry] := by
    simp [Chain.allowedEntry, Chain.deniedEntry, Chain.link]
  exact ⟨h, hm, mt (selection_verifies_iff_truncated h hm).mp hp⟩

end Countersign
