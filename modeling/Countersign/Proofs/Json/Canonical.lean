import Countersign.Json.Reader
import Countersign.Proofs.Json.Numerals
import Countersign.Proofs.Json.Ordering

namespace Countersign

namespace Scan

variable {α σ : Type} {item : Scan α} {P : α → Prop} {member : σ → String → Scan σ} {I : σ → Prop}

theorem list_yields (h : item.Yields P) : (list item).Yields fun as => ∀ a ∈ as, P a := by
  refine .andThen (.exhaust (I := fun acc => ∀ a ∈ acc.2, P a) (fun ⟨first, as⟩ ha => ?_) nofun)
    fun ⟨_, reversed⟩ hr => .bind fun _ => .pure fun a ha => hr a <| List.mem_reverse.mp ha
  refine .bind fun more => ?_
  split
  case isFalse => exact .pure nofun
  case isTrue =>
    refine .andThen h fun a hP => .pure ?_
    rintro _ ⟨⟩
    exact List.forall_mem_cons.mpr ⟨hP, ha⟩

theorem membersFrom_yields {first : Bool} {st : σ} (h : ∀ st key, I st → (member st key).Yields I)
    (hs : I st) : (membersFrom first member st).Yields I := by
  refine .andThen (.exhaust (I := fun acc => I acc.2) (fun ⟨first, st⟩ hs => ?_) hs) fun ⟨_, st⟩ hs =>
    .pure hs
  refine .bind fun key? => ?_
  split
  case h_2 => exact .pure nofun
  case h_1 key =>
    refine .andThen (h st key hs) fun st hs => .pure ?_
    rintro _ ⟨⟩
    exact hs

end Scan

namespace Json

-- What can be read from a text: integers have 64 bits, the members of objects are in order, and no
-- object is nothing but an embedded text.
inductive Canonical : Json → Prop
  | null : Canonical null
  | bool (b : Bool) : Canonical (bool b)
  | int {i : Int} (h : Numeral.Fits i) : Canonical (num (.int i))
  | double (d : Double) : Canonical (num (.double d))
  | str (s : String) : Canonical (str s)
  | arr {items : List Json} (h : ∀ item ∈ items, Canonical item) : Canonical (arr items)
  | obj {members : List (String × Json)} (ascending : Ascending members)
    (replaced : ∀ text, members ≠ [(embeddingKey, text)]) (h : ∀ m ∈ members, Canonical m.2) :
    Canonical (obj members)

-- The members that have been read of an object which begins with the given key.
structure Gathered (key : String) (members : List (String × Json)) : Prop where
  ascending : Ascending members
  first     : key ∈ members.map Prod.fst
  canonical : ∀ m ∈ members, m.2.Canonical

variable {key k : String} {value : Json} {members : List (String × Json)} {negative : Bool}
  {inner : Symbols → Except Fault Json}

theorem Gathered.set (h : Gathered key members) (hv : value.Canonical) :
    Gathered key (set k value members) where
  ascending := h.ascending.set
  first     := mem_keys_set_iff.mpr <| .inr h.first
  canonical m hm := by
    rcases mem_of_mem_set hm with rfl | hm
    · exact hv
    · exact h.canonical m hm

theorem gathered_singleton (hv : value.Canonical) : Gathered key (set key value []) where
  ascending := ascending_nil.set
  first     := List.mem_cons_self
  canonical := List.forall_mem_singleton.mpr hv

theorem Gathered.canonical_obj (h : Gathered key members) (hk : key ≠ embeddingKey) :
    (obj members).Canonical := by
  refine .obj h.ascending (fun text ht => hk ?_) h.canonical
  have := h.first
  rw [ht] at this
  exact List.mem_singleton.mp this

theorem magnitude_yields : (Numeral.magnitude negative).Yields fun n => (num n).Canonical := by
  intro s n t h
  cases n
  case double d => exact .double d
  case int =>
    obtain ⟨_, _, _, hf⟩ := Numeral.exists_of_magnitude h
    exact .int hf

theorem embedded_yields (hi : ∀ text j, inner text = .ok j → j.Canonical) :
    (embedded inner).Yields Canonical := by
  refine .bind fun _ => .bind fun text => ?_
  dsimp only
  generalize hx : inner (Symbols.ofString text) = x
  split
  case h_1 => exact .bind fun _ => .pure (hi _ _ hx)
  case h_2 => exact fun _ _ _ => nofun

-- The members behind the first one are taken in like that one.
theorem member_yields {depth : Nat} (h : (scanWith inner depth).Yields Canonical) {P : List (String × Json) → Prop}
    (hP : ∀ value, value.Canonical → P (set k value members)) :
    Scan.Yields (do Scan.colon; return set k (← scanWith inner depth) members) P :=
  .bind fun _ => .andThen h fun value hv => .pure <| hP value hv

theorem scanWith_yields (hi : ∀ text j, inner text = .ok j → j.Canonical) (depth : Nat) :
    (scanWith inner depth).Yields Canonical := by
  suffices h : ∀ depth, (∀ d, depth = d + 1 → (scanWith inner d).Yields Canonical) →
      (scanWith inner depth).Yields Canonical by
    induction depth
    case zero    => exact h 0 nofun
    case succ hd => exact h _ fun _ he => Nat.succ.inj he ▸ hd
  intro depth hd
  rw [scanWith.eq_def]
  refine .bind fun y => ?_
  split
  case h_1 => exact .bind fun _ => .bind fun _ => .pure .null
  case h_2 => exact .bind fun _ => .bind fun _ => .pure (.bool true)
  case h_3 => exact .bind fun _ => .bind fun _ => .pure (.bool false)
  case h_4 => exact .bind fun _ => .bind fun s => .pure (.str s)
  case h_5 => exact .bind fun _ => .andThen magnitude_yields fun _ hn => .pure hn
  case h_6 =>
    split
    case h_1 => exact .failNext
    case h_2 =>
      exact .bind fun _ => .andThen (Scan.list_yields (hd _ rfl)) fun _ h => .pure (.arr h)
  case h_7 =>
    split
    case h_1 => exact .failNext
    case h_2 =>
      refine .bind fun _ => .bind fun key? => ?_
      split
      case h_1 => exact .bind fun _ => .pure (.obj ascending_nil nofun nofun)
      case h_2 key =>
        split
        case isTrue => exact embedded_yields hi
        case isFalse hk =>
          have hv := hd _ rfl
          refine .andThen (member_yields hv fun _ => gathered_singleton) fun first hf => ?_
          refine .andThen (Scan.membersFrom_yields (fun _ _ hm => member_yields hv fun _ => hm.set) hf)
            fun members hm => ?_
          exact .bind fun _ => .pure (hm.canonical_obj hk)
  case h_8 =>
    split
    case isTrue  => exact .andThen magnitude_yields fun _ hn => .pure hn
    case isFalse => exact .failNext

theorem canonical_of_readWithin {levels : Nat} {text : Symbols} {j : Json}
    (h : readWithin levels text = .ok j) : j.Canonical := by
  induction levels generalizing text j
  case zero => cases h
  case succ hi => exact (scanWith_yields (fun _ _ => hi) depthLimit).of_all h

theorem canonical_of_read {text : Symbols} {j : Json} (h : read text = .ok j) : j.Canonical :=
  Scan.Yields.of_all (fun _ _ _ hs => scanWith_yields (fun _ _ => canonical_of_readWithin) _ hs) h

end Json
end Countersign
