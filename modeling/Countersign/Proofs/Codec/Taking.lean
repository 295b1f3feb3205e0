import Countersign.Proofs.Codec.Rereading
import Countersign.Proofs.Json.Enclosure

namespace Countersign

open Json Symbols

namespace Scan

variable {α β σ : Type} {p : Scan α} {P Q : List Char → α → Prop} {s t : Symbols} {a : α}
  {expected : String}

-- A refusal is one, whatever it is that stands there.
theorem refuse_ne_ok (h : (refuse expected : Scan α) s = .ok (a, t)) : False := by
  suffices hr : (refuse expected : Scan α).Yields fun _ => False from hr h
  refine .bind fun y? => ?_
  split
  case h_1 => exact .bind fun _ => .bind fun _ => .reject
  case h_2 => exact .bind fun _ => .bind fun _ => .reject
  case h_3 => exact .bind fun _ => .bind fun _ => .reject
  case h_4 => exact .bind fun _ => .bind fun _ => .reject
  case h_5 => exact .bind fun _ => .bind fun _ => .reject
  case h_6 => exact .reject
  case h_7 => exact .reject
  case h_8 =>
    split
    case isTrue  => exact .bind fun _ => .reject
    case isFalse => exact .failNext
  case h_9 => exact .failNext

theorem Cut.imp {b : β} {Q : List Char → β → Prop} (hc : Cut P s t a) (h : ∀ v, P v a → Q v b) :
    Cut Q s t b :=
  have ⟨v, hv, hs, hh, ha⟩ := hc
  ⟨v, hv, hs, hh, h v ha⟩

theorem Cuts.imp (hp : p.Cuts P) (h : ∀ v a, P v a → Q v a) : p.Cuts Q :=
  fun _ a _ ha => (hp ha).imp fun v => h v a

theorem cuts_text : (text expected).Cuts fun v s => ∃ u, v = enquote u ∧ Spells u s.toList := by
  intro s name t h
  rw [text, bind_eq_ok_iff] at h
  obtain ⟨y, mid, hy, h⟩ := h
  obtain ⟨r, hs, rfl⟩ := token_eq_ok_iff.mp hy
  split at h
  case h_1 =>
    rw [skip_bind] at h
    obtain ⟨u, hu, hp⟩ := exists_of_scan_string h
    exact .of_char hs (.atom <| .text hu.content) hp ⟨u, rfl, hu⟩
  case h_2 => exact (refuse_ne_ok h).elim

theorem cuts_flag : flag.Cuts fun _ _ => True := by
  intro s b t h
  rw [flag, bind_eq_ok_iff] at h
  obtain ⟨y, mid, hy, h⟩ := h
  obtain ⟨r, hs, rfl⟩ := token_eq_ok_iff.mp hy
  split at h
  case h_1 =>
    rw [skip_bind, bind_eq_ok_iff] at h
    obtain ⟨_, _, hw, ⟨⟩⟩ := h
    obtain rfl := word_eq_ok_iff.mp hw
    exact .of_char hs (.atom .true) (Passed.map_char _ t).cons trivial
  case h_2 =>
    rw [skip_bind, bind_eq_ok_iff] at h
    obtain ⟨_, _, hw, ⟨⟩⟩ := h
    obtain rfl := word_eq_ok_iff.mp hw
    exact .of_char hs (.atom .false) (Passed.map_char _ t).cons trivial
  case h_3 => exact (refuse_ne_ok h).elim

theorem of_toNatural {limit n : Nat} {i : Number} (h : toNatural limit expected i = .ok n) :
    (∃ k, i = .int k) ∧ n < limit := by
  cases i
  case double => cases h
  case int k =>
    simp only [toNatural] at h
    split at h
    case isFalse => cases h
    case isTrue hk =>
      cases h
      exact ⟨⟨k, rfl⟩, hk.right⟩

-- The range is looked at behind the numeral.
theorem of_toNatural_match {limit n : Nat} {i : Number} {s t : Symbols}
    (h : (match toNatural limit expected i with
      | .ok n => pure n
      | .error m => reject m : Scan Nat) s = .ok (n, t)) : s = t ∧ (∃ k, i = .int k) ∧ n < limit := by
  generalize hx : toNatural limit expected i = x at h
  split at h
  case h_2 => cases h
  case h_1 =>
    cases h
    exact ⟨rfl, of_toNatural hx⟩

theorem cuts_natural {limit : Nat} : (natural limit expected).Cuts fun _ n => n < limit := by
  intro s n t h
  rw [natural, bind_eq_ok_iff] at h
  obtain ⟨y, mid, hy, h⟩ := h
  obtain ⟨r, hs, rfl⟩ := token_eq_ok_iff.mp hy
  split at h
  case h_1 =>
    rw [skip_bind, bind_eq_ok_iff] at h
    obtain ⟨i, mid, hm, h⟩ := h
    obtain ⟨rfl, ⟨k, rfl⟩, hl⟩ := of_toNatural_match h
    obtain ⟨m, hw, hp, _⟩ := Numeral.exists_of_magnitude hm
    have hv := Spelled.atom <| .negative <| .mk hw .none .none
    exact .of_char hs hv (by simpa using hp.cons) hl
  case h_2 =>
    split at h
    case isFalse =>
      obtain ⟨i, mid, hm, h⟩ := bind_eq_ok_iff.mp h
      exact (refuse_ne_ok hm).elim
    case isTrue hd =>
      cases y
      case stray => cases hd
      case char d =>
        obtain ⟨i, mid, hm, h⟩ := bind_eq_ok_iff.mp h
        obtain ⟨rfl, ⟨k, rfl⟩, hl⟩ := of_toNatural_match h
        obtain ⟨m, hw, hp, _⟩ := Numeral.exists_of_magnitude hm
        have hv := Spelled.atom <| .numeral <| .mk hw .none .none
        exact .of_char hs hv (by simpa using hp) hl

theorem cuts_raw : Extent.raw.Cuts fun v s => s.toList = v ∧ Spelled s.toList := by
  intro s r t h
  have ⟨hv, hp, c, u, hs⟩ := Extent.exists_of_raw h
  exact .of_char hs hv (hs ▸ hp) ⟨rfl, hv⟩

theorem cuts_formatted {parse : String → Except String α} :
    Cuts (do
      match parse (← text expected) with
      | .ok a => return a
      | .error reason => reject (.rejected reason)) fun _ a => ∃ s, parse s = .ok a := by
  intro s a t h
  obtain ⟨name, mid, hn, h⟩ := bind_eq_ok_iff.mp h
  generalize hx : parse name = x at h
  split at h
  case h_2 => cases h
  case h_1 =>
    cases h
    exact (cuts_text hn).imp fun _ _ => Exists.intro name hx

theorem Cuts.map {f : α → β} {Q : List Char → β → Prop} (hp : p.Cuts P)
    (h : ∀ v a, P v a → Q v (f a)) : Cuts (do return f (← p)) Q := by
  intro s b t hb
  obtain ⟨a, _, ha, ⟨⟩⟩ := bind_eq_ok_iff.mp hb
  exact (hp ha).imp fun v => h v a

theorem cuts_optional (hp : p.Cuts P) : (optional p).Cuts fun v a? =>
    match a? with
    | none => v = ['n', 'u', 'l', 'l']
    | some a => v.head? ≠ some 'n' ∧ P v a := by
  intro s a? t h
  rw [optional, modify_bind, peek_bind] at h
  generalize hy : s.dropBlanks.head? = y? at h
  split at h
  case h_1 =>
    obtain ⟨r, hs⟩ := List.head?_eq_some_iff.mp hy
    rw [hs, skip_bind, bind_eq_ok_iff] at h
    obtain ⟨_, _, hw, ⟨⟩⟩ := h
    obtain rfl := word_eq_ok_iff.mp hw
    exact .of_char hs (.atom .null) (Passed.map_char _ t).cons rfl
  case h_2 hn =>
    obtain ⟨a, _, ha, ⟨⟩⟩ := bind_eq_ok_iff.mp h
    have ⟨v, hv, hs, hh, ha⟩ := hp ha
    rw [dropBlanks_dropBlanks] at hs hh
    refine ⟨v, hv, hs, hh, fun h => ?_, ha⟩
    rw [h] at hh
    exact hn <| hy.symm.trans hh

theorem cuts_list {item : Nat → Scan α} {depth : Nat} {P : Nat → List Char → α → Prop}
    (hi : ∀ d, depth = d + 1 → (item d).Cuts (P d)) :
    Cuts (do
      match ← token .endInValue with
      | .char '[' => nested depth fun depth => placedBy afterList (list (item depth))
      | _ => refuse "a sequence") fun v as => ∃ d, depth = d + 1 ∧
        ∃ parts, Splits .list v parts ∧ List.Forall₂ (fun p a => P d p.value a) parts as := by
  intro s as t h
  obtain ⟨y, mid, hy, h⟩ := bind_eq_ok_iff.mp h
  obtain ⟨r, hs, rfl⟩ := token_eq_ok_iff.mp hy
  split at h
  case h_2 => exact (refuse_ne_ok h).elim
  case h_1 =>
    cases depth
    case zero => cases h
    case succ d _ =>
      obtain ⟨u, parts, hg, hp, hall⟩ := exists_of_list (hi d rfl) <| placedBy_eq_ok_iff.mp h
      exact .of_char hs hg.spelled hp.cons ⟨d, rfl, parts, hg, hall⟩

-- The reader takes the rest of a group that has been opened, up to and with its closing bracket,
-- which `leave` passes.
def Closes (b : Extent.Bracket) (p : Scan α) (leave : Scan Unit) (P : List Part → α → Prop) : Prop :=
  ∀ ⦃s mid : Symbols⦄ ⦃a : α⦄ ⦃t : Symbols⦄, p s = .ok (a, mid) → leave mid = .ok ((), t) →
    ∃ u parts, Splits b (b.opening :: u) parts ∧ s.Passed u t ∧ P parts a

-- Behind its opening bracket the whole group is taken.
theorem Closes.cut {b : Extent.Bracket} {p : Scan α} {leave : Scan Unit} {P : List Part → α → Prop}
    {close : Symbols → Symbols} {r : Symbols} (hc : Closes b p leave P)
    (hs : s.dropBlanks = .char b.opening :: r)
    (h : (do let a ← placedBy close p; leave; return a : Scan α) r = .ok (a, t)) :
    Cut (fun v a => ∃ parts, Splits b v parts ∧ P parts a) s t a := by
  obtain ⟨_, mid, ha, h⟩ := bind_eq_ok_iff.mp h
  obtain ⟨_, _, he, ⟨⟩⟩ := bind_eq_ok_iff.mp h
  obtain ⟨u, parts, hg, hp, hP⟩ := hc (placedBy_eq_ok_iff.mp ha) he
  exact .of_char hs hg.spelled hp.cons ⟨parts, hg, hP⟩

theorem cuts_record {name : String} {depth : Nat} {object list : Nat → Scan α}
    {P Q : Nat → List Part → α → Prop}
    (ho : ∀ d, depth = d + 1 → Closes .object (object d) endObject (P d))
    (hl : ∀ d, depth = d + 1 → Closes .list (list d) endList (Q d)) :
    Cuts (record depth name object list) fun v a => ∃ d, depth = d + 1 ∧
      ((∃ parts, Splits .object v parts ∧ P d parts a) ∨
        ∃ parts, Splits .list v parts ∧ Q d parts a) := by
  intro s a t h
  obtain ⟨y, mid, hy, h⟩ := bind_eq_ok_iff.mp h
  obtain ⟨r, hs, rfl⟩ := token_eq_ok_iff.mp hy
  split at h
  case h_3 => exact (refuse_ne_ok h).elim
  case h_1 =>
    cases depth
    case zero => cases h
    case succ d _ =>
      simp only [nested, skip_bind] at h
      exact ((ho d rfl).cut hs h).imp fun _ hc => ⟨d, rfl, .inl hc⟩
  case h_2 =>
    cases depth
    case zero => cases h
    case succ d _ =>
      simp only [nested, skip_bind] at h
      exact ((hl d rfl).cut hs h).imp fun _ hc => ⟨d, rfl, .inr hc⟩

theorem cuts_unit : unit.Cuts fun _ _ => True := by
  intro s u t h
  obtain ⟨y, mid, hy, h⟩ := bind_eq_ok_iff.mp h
  obtain ⟨r, hs, rfl⟩ := token_eq_ok_iff.mp hy
  split at h
  case h_2 => exact (refuse_ne_ok h).elim
  case h_1 =>
    rw [skip_bind] at h
    obtain rfl := word_eq_ok_iff.mp h
    exact .of_char hs (.atom .null) (Passed.map_char _ t).cons trivial

section Variants

variable {names : List String} {known : String → Option (Scan α)} {P : α → Prop}

theorem exists_of_bareVariant
    (hk : ∀ name p, known name = some p → ∀ s a t, p s = .ok (a, t) → s = t ∧ P a)
    (h : bareVariant names known s = .ok (a, t)) :
    ∃ u, Content u ∧ Passed (.char '"' :: s) (enquote u) t ∧ P a := by
  obtain ⟨name, mid, hn, h⟩ := bind_eq_ok_iff.mp h
  obtain ⟨u, hu, hp⟩ := exists_of_scan_string hn
  generalize hx : known name = p? at h
  split at h
  case h_2 => cases h
  case h_1 =>
    obtain ⟨rfl, ha⟩ := hk name _ hx _ _ _ h
    exact ⟨u, hu.content, hp, ha⟩

theorem exists_of_heldVariant (hk : ∀ name p, known name = some p → p.Cuts fun _ => P)
    (h : heldVariant names known s = .ok (a, t)) :
    ∃ k lead v, Lead .object k lead ∧ Spelled v ∧ s.Passed (lead ++ v) t ∧ P a := by
  obtain ⟨name, mid, hn, h⟩ := bind_eq_ok_iff.mp h
  obtain ⟨w, u, hw, hu, hp⟩ := exists_of_onlyKey hn
  generalize hx : known name = p? at h
  split at h
  case h_2 => cases h
  case h_1 =>
    obtain ⟨w₂, w₃, v, h₂, h₃, hv, hp', ha⟩ := (hk name _ hx).exists_of_colon h
    exact ⟨_, _, v, .member hw hu.content h₂ h₃, hv, by simpa using hp.trans hp', ha⟩

theorem exists_of_endVariant {b : α} (h : endVariant a s = .ok (b, t)) :
    b = a ∧ ∃ w, AreBlank w ∧ s.Passed (w ++ ['\x7d']) t := by
  obtain ⟨w, hw, hd⟩ := passed_dropBlanks s
  rw [endVariant, modify_bind, peek_bind] at h
  generalize hy : (dropBlanks s).head? = y? at h
  split at h
  case h_2 => cases h
  case h_3 => cases h
  case h_1 =>
    obtain ⟨r, hr⟩ := List.head?_eq_some_iff.mp hy
    rw [hr] at h hd
    cases h
    exact ⟨rfl, w, hw, hd.trans <| .char_cons '\x7d' _⟩

theorem cuts_variant {depth : Nat} {bare : String → Option (Scan α)}
    {content : Nat → String → Option (Scan α)}
    (hb : ∀ name p, bare name = some p → ∀ s a t, p s = .ok (a, t) → s = t ∧ P a)
    (hc : ∀ d, depth = d + 1 → ∀ name p, content d name = some p → p.Cuts fun _ => P) :
    (variant names bare content depth).Cuts fun _ => P := by
  intro s a t h
  obtain ⟨y, mid, hy, h⟩ := bind_eq_ok_iff.mp h
  obtain ⟨r, hs, rfl⟩ := token_eq_ok_iff.mp hy
  split at h
  case h_3 => cases h
  case h_1 =>
    obtain ⟨u, hu, hp, ha⟩ := exists_of_bareVariant hb h
    exact .of_char hs (.atom <| .text hu) hp ha
  case h_2 =>
    obtain ⟨b, mid, hv, h⟩ := bind_eq_ok_iff.mp h
    obtain ⟨rfl, w, hw, hp'⟩ := exists_of_endVariant h
    cases depth
    case zero => cases hv
    case succ d _ =>
      obtain ⟨k, lead, v, hl, hv, hp, ha⟩ := exists_of_heldVariant (hc d rfl) hv
      have hsp : ∀ p ∈ [(⟨k, v⟩ : Part)], Spelled p.value := List.forall_mem_singleton.mpr hv
      refine .of_char hs (.group (.parts hl <| .close hw) hsp) ?_ ha
      simpa [Extent.Bracket.opening, Extent.Bracket.closing] using Passed.cons <| hp.trans hp'

end Variants

end Scan

end Countersign
