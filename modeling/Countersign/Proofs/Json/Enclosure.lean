import Countersign.Proofs.Json.Brackets
import Countersign.Proofs.Json.Cutting
import Mathlib.Data.List.Forall2

namespace Countersign

open Json Symbols

namespace Json

-- The part is a member under the given key.
def Part.HasKey (p : Part) (key : String) : Prop :=
  ∃ u, p.key = enquote u ∧ Spells u key.toList

variable {p : Part} {key name : String} {u cs ds : List Char}

-- What stands between quotes stands for one text only.
theorem Spells.unique (h₁ : Spells u cs) (h₂ : Spells u ds) : cs = ds := by
  have h := (Scan.string_of_spells (t := []) h₁).symm.trans <| Scan.string_of_spells h₂
  exact String.ofList_injective <| (Prod.mk.inj <| Except.ok.inj h).left

theorem Part.HasKey.unique (h₁ : p.HasKey key) (h₂ : p.HasKey name) : key = name := by
  obtain ⟨u, hu, h₁⟩ := h₁
  obtain ⟨v, hv, h₂⟩ := h₂
  have : u = v := by simpa [enquote] using hu.symm.trans hv
  exact String.toList_injective <| h₁.unique <| this ▸ h₂

-- Exactly one of the parts is under the key.
def Sole (parts : List Part) (key : String) (p : Part) : Prop :=
  ∃ l r, parts = l ++ p :: r ∧ p.HasKey key ∧ ∀ q ∈ l ++ r, ¬q.HasKey key

open Extent (Bracket)

-- The text is that of a list or an object, made of the given parts.
structure Splits (b : Bracket) (s : List Char) (parts : List Part) : Prop where
  group  : Group b s parts
  values : ∀ p ∈ parts, Spelled p.value

theorem Splits.spelled {b : Bracket} {s : List Char} {parts : List Part} (h : Splits b s parts) :
    Spelled s :=
  .group h.group h.values

-- What stands between some point of a list or an object and its end, with the parts in it: the point
-- is that of the opening bracket or comes behind a part.
def Rest (b : Bracket) : (first : Bool) → List Char → List Part → Prop
  | true,  u, parts => Group b (b.opening :: u) parts
  | false, u, parts => Tail b u parts

-- The comma between two parts, and the blanks in front of it.
def AreBetween : (first : Bool) → List Char → Prop
  | true,  w => w = []
  | false, w => ∃ v, AreBlank v ∧ w = v ++ [',']

variable {b : Bracket} {first : Bool} {w k lead v t : List Char} {parts : List Part}

theorem Rest.close (hw : AreBlank w) : Rest b first (w ++ [b.closing]) [] := by
  cases first
  case false => exact .close hw
  case true  => exact .empty hw

theorem Rest.more (hw : AreBetween first w) (hl : Lead b k lead) (ht : Tail b t parts) :
    Rest b first (w ++ lead ++ v ++ t) (⟨k, v⟩ :: parts) := by
  cases first
  case false =>
    obtain ⟨w, hw, rfl⟩ := hw
    have : Tail b (w ++ ',' :: lead ++ v ++ t) (⟨k, v⟩ :: parts) := .more hw hl ht
    simpa [Rest] using this
  case true =>
    obtain rfl := hw
    have : Group b (b.opening :: lead ++ v ++ t) (⟨k, v⟩ :: parts) := .parts hl ht
    simpa [Rest] using this

end Json

namespace Scan

variable {α σ : Type} {s t mid : Symbols} {first : Bool}

-- Between the two points the text of one value has been taken, behind any blanks, and what has been
-- made of it is as `P` says.
def Cut (P : List Char → α → Prop) (s t : Symbols) (a : α) : Prop :=
  ∃ v, Spelled v ∧ s.dropBlanks.Passed v t ∧ s.dropBlanks.head? = v.head?.map .char ∧ P v a

theorem Cut.of_char {P : List Char → α → Prop} {c : Char} {r : Symbols} {v : List Char} {a : α}
    (hs : s.dropBlanks = .char c :: r) (hv : Spelled v) (hp : Passed (.char c :: r) v t)
    (ha : P v a) : Cut P s t a := by
  have ⟨_, _, hv', _⟩ := hv.opens
  refine ⟨v, hv, hs ▸ hp, ?_, ha⟩
  rw [hs, hp.head_of_char (hv' ▸ nofun)]
  rfl

-- All that the reader takes are texts of values.
def Cuts (p : Scan α) (P : List Char → α → Prop) : Prop :=
  ∀ ⦃s : Symbols⦄ ⦃a : α⦄ ⦃t : Symbols⦄, p s = .ok (a, t) → Cut P s t a

section Lists

variable {item : Scan α} {as : List α}

theorem exists_of_another_false (h : another first s = .ok (false, t)) :
    ∃ w r, AreBlank w ∧ s.Passed w t ∧ t = .char ']' :: r := by
  rw [another, bind_eq_ok_iff] at h
  obtain ⟨y, mid, hy, h⟩ := h
  obtain ⟨w, r, hw, hs, rfl⟩ := exists_of_token hy
  split at h
  case h_1 =>
    cases h
    exact ⟨w, r, hw, hs, rfl⟩
  case h_2 =>
    split at h
    case isTrue => cases h
    case isFalse =>
      rw [skip_bind, bind_eq_ok_iff] at h
      obtain ⟨z, mid, hz, h⟩ := h
      split at h
      case h_1 => cases h
      case h_2 => cases h
  case h_3 =>
    split at h
    case isTrue  => cases h
    case isFalse => cases h

-- An item comes behind blanks, and behind a comma if it is not the first one.
theorem exists_of_another_true (h : another first s = .ok (true, t)) :
    ∃ w w', AreBetween first w ∧ AreBlank w' ∧ s.Passed (w ++ w') t := by
  rw [another, bind_eq_ok_iff] at h
  obtain ⟨y, mid, hy, h⟩ := h
  obtain ⟨w, r, hw, hs, rfl⟩ := exists_of_token hy
  cases first
  case true =>
    refine ⟨[], w, rfl, hw, ?_⟩
    split at h
    case h_1 => cases h
    all_goals
      cases h
      exact hs
  case false =>
    split at h
    case h_1 => cases h
    case h_3 => cases h
    case h_2 =>
      simp only [Bool.false_eq_true, if_false, skip_bind] at h
      obtain ⟨z, mid, hz, h⟩ := bind_eq_ok_iff.mp h
      obtain ⟨w', r', hw', hs', rfl⟩ := exists_of_token hz
      split at h
      case h_1 => cases h
      case h_2 =>
        cases h
        exact ⟨_, w', ⟨w, hw, rfl⟩, hw', by simpa using hs.trans hs'.cons⟩

theorem exists_of_endList (h : endList s = .ok ((), t)) :
    ∃ w, AreBlank w ∧ s.Passed (w ++ [']']) t := by
  rw [endList, bind_eq_ok_iff] at h
  obtain ⟨y, mid, hy, h⟩ := h
  obtain ⟨w, r, hw, hs, rfl⟩ := exists_of_token hy
  split at h
  case h_1 =>
    cases h
    exact ⟨w, hw, hs.trans <| .char_cons ']' _⟩
  case h_2 =>
    rw [skip_bind, modify_bind, peek_bind] at h
    generalize (dropBlanks r).head? = z? at h
    split at h
    case h_1 => cases h
    case h_2 => cases h
  case h_3 => cases h

variable {P : List Char → α → Prop}

theorem collectItem_cases {acc : Bool × List α} {next : Option (Bool × List α)}
    (h : collectItem item acc s = .ok (next, t)) :
    next = none ∧ another acc.1 s = .ok (false, t) ∨
      ∃ a mid, next = some (false, a :: acc.2) ∧ another acc.1 s = .ok (true, mid) ∧
        item mid = .ok (a, t) := by
  obtain ⟨more, mid, ha, h⟩ := bind_eq_ok_iff.mp h
  split at h
  case isTrue hm =>
    obtain ⟨a, _, hi, ⟨⟩⟩ := bind_eq_ok_iff.mp h
    exact .inr ⟨a, mid, rfl, hm ▸ ha, hi⟩
  case isFalse hm =>
    cases h
    exact .inl ⟨rfl, eq_false_of_ne_true hm ▸ ha⟩

theorem Cuts.length_lt {p : Scan α} {a : α} (hp : p.Cuts P) (h : p s = .ok (a, t)) :
    t.length < s.length := by
  have ⟨v, hv, hs, _⟩ := hp h
  have ⟨c, rest, hc, _⟩ := hv.opens
  have ⟨w, _, hd⟩ := passed_dropBlanks s
  exact Nat.lt_of_lt_of_le (hs.length_lt_of_ne_nil <| hc ▸ nofun) hd.length_le

theorem another_length_le (h : another first s = .ok (true, t)) : t.length ≤ s.length :=
  have ⟨_, _, _, _, h⟩ := exists_of_another_true h
  h.length_le

theorem length_lt_of_collectItem (hp : item.Cuts P) {acc acc' : Bool × List α}
    (h : collectItem item acc s = .ok (some acc', t)) : t.length < s.length := by
  rcases collectItem_cases h with ⟨⟨⟩, _⟩ | ⟨a, mid, _, ha, hi⟩
  exact Nat.lt_of_lt_of_le (hp.length_lt hi) (another_length_le ha)

theorem exists_rest_of_another_false (ha : another first s = .ok (false, mid))
    (he : endList mid = .ok ((), t)) : ∃ u, Rest .list first u [] ∧ s.Passed u t := by
  have ⟨w, r, hw, hs, hm⟩ := exists_of_another_false ha
  have ⟨w', hw', ht⟩ := exists_of_endList he
  exact ⟨_, .close (hw.append hw'), by simpa [Extent.Bracket.closing] using hs.trans ht⟩

theorem exists_rest_of_another_true {v u : List Char} {parts : List Part} {m m' : Symbols}
    (ha : another first s = .ok (true, m)) (hv : m.dropBlanks.Passed v m') (hu : Tail .list u parts)
    (ht : m'.Passed u t) : ∃ u', Rest .list first u' (⟨[], v⟩ :: parts) ∧ s.Passed u' t := by
  have ⟨w, w', hw, hw', hs⟩ := exists_of_another_true ha
  have ⟨w'', hw'', hd⟩ := passed_dropBlanks m
  refine ⟨_, .more hw (.item (hw'.append hw'')) hu, ?_⟩
  simpa using hs.trans <| hd.trans <| hv.trans ht

-- From where it is, the list goes on to its end.
theorem rest_of_repeats (hp : item.Cuts P) {acc last : Bool × List α}
    (h : Repeats (collectItem item) acc s last mid) (he : endList mid = .ok ((), t)) :
    ∃ as u parts, last.2 = as.reverse ++ acc.2 ∧ Rest .list acc.1 u parts ∧ s.Passed u t ∧
      (∀ p ∈ parts, Spelled p.value) ∧ List.Forall₂ (fun p a => P p.value a) parts as := by
  induction h
  case stop h =>
    rcases collectItem_cases h with ⟨_, ha⟩ | ⟨_, _, ⟨⟩, _⟩
    have ⟨u, hu, hs⟩ := exists_rest_of_another_false ha he
    exact ⟨[], u, [], rfl, hu, hs, nofun, .nil⟩
  case more h _ _ hi =>
    rcases collectItem_cases h with ⟨⟨⟩, _⟩ | ⟨a, m, hn, ha, hv⟩
    cases hn
    have ⟨as, u, parts, hl, hu, hs, hsp, hall⟩ := hi he
    have ⟨v, hv, hs', _, hP⟩ := hp hv
    have ⟨u', hu', hs⟩ := exists_rest_of_another_true ha hs' hu hs
    exact ⟨a :: as, u', _, by simp [hl], hu', hs, List.forall_mem_cons.mpr ⟨hv, hsp⟩, .cons hP hall⟩

-- What is read as a list is the text of one, behind its opening bracket.
theorem exists_of_list (hp : item.Cuts P) (h : list item s = .ok (as, t)) :
    ∃ u parts, Splits .list ('[' :: u) parts ∧ s.Passed u t ∧
      List.Forall₂ (fun p a => P p.value a) parts as := by
  rw [list_eq, bind_eq_ok_iff] at h
  obtain ⟨last, mid, hr, h⟩ := h
  obtain ⟨_, _, he, ⟨⟩⟩ := bind_eq_ok_iff.mp h
  have ⟨as, u, parts, hl, hu, hs, hsp, hall⟩ :=
    rest_of_repeats hp (repeats_of_exhaust (length_lt_of_collectItem hp) hr) he
  rw [hl, List.append_nil, List.reverse_reverse]
  exact ⟨u, parts, ⟨hu, hsp⟩, hs, hall⟩

end Lists

section Objects

variable {member : σ → String → Scan σ} {st last : σ} {key : String}

theorem exists_of_scan_string (h : string s = .ok (key, t)) :
    ∃ u, Spells u key.toList ∧ Passed (.char '"' :: s) (enquote u) t := by
  obtain ⟨u, rfl, hu⟩ := exists_of_string h
  exact ⟨u, hu, by simpa [enquote] using Passed.map_char (enquote u) t⟩

-- A key comes behind blanks, and behind a comma if it is not the first one.
theorem exists_of_nextKey (h : nextKey first s = .ok (some key, t)) :
    ∃ w w' u, AreBetween first w ∧ AreBlank w' ∧ Spells u key.toList ∧
      s.Passed (w ++ w' ++ enquote u) t := by
  rw [nextKey, bind_eq_ok_iff] at h
  obtain ⟨y, mid, hy, h⟩ := h
  obtain ⟨w, r, hw, hs, rfl⟩ := exists_of_token hy
  cases first
  case true =>
    split at h
    case h_1 => cases h
    case h_3 => cases h
    case h_4 => cases h
    case h_2 =>
      simp only [if_true, skip_bind] at h
      obtain ⟨_, _, hk, ⟨⟩⟩ := bind_eq_ok_iff.mp h
      obtain ⟨u, hu, hp⟩ := exists_of_scan_string hk
      exact ⟨[], w, u, rfl, hw, hu, hs.trans hp⟩
  case false =>
    split at h
    case h_1 => cases h
    case h_2 => cases h
    case h_4 => cases h
    case h_3 =>
      simp only [Bool.false_eq_true, if_false, skip_bind] at h
      obtain ⟨z, _, hz, h⟩ := bind_eq_ok_iff.mp h
      obtain ⟨w', r', hw', hs', rfl⟩ := exists_of_token hz
      split at h
      case h_2 => cases h
      case h_3 => cases h
      case h_1 =>
        rw [skip_bind, bind_eq_ok_iff] at h
        obtain ⟨_, _, hk, ⟨⟩⟩ := h
        obtain ⟨u, hu, hp⟩ := exists_of_scan_string hk
        refine ⟨_, w', u, ⟨w, hw, rfl⟩, hw', hu, ?_⟩
        simpa using hs.trans <| (hs'.trans hp).cons

theorem exists_of_nextKey_none (h : nextKey first s = .ok (none, t)) :
    ∃ w r, AreBlank w ∧ s.Passed w t ∧ t = .char '\x7d' :: r := by
  rw [nextKey, bind_eq_ok_iff] at h
  obtain ⟨y, mid, hy, h⟩ := h
  obtain ⟨w, r, hw, hs, rfl⟩ := exists_of_token hy
  split at h
  case h_1 =>
    cases h
    exact ⟨w, r, hw, hs, rfl⟩
  case h_2 =>
    split at h
    case isFalse => cases h
    case isTrue =>
      rw [skip_bind, bind_eq_ok_iff] at h
      obtain ⟨_, _, _, ⟨⟩⟩ := h
  case h_3 =>
    split at h
    case isTrue => cases h
    case isFalse =>
      rw [skip_bind, bind_eq_ok_iff] at h
      obtain ⟨z, _, hz, h⟩ := h
      obtain ⟨_, r', _, _, rfl⟩ := exists_of_token hz
      split at h
      case h_2 => cases h
      case h_3 => cases h
      case h_1 =>
        rw [skip_bind, bind_eq_ok_iff] at h
        obtain ⟨_, _, _, ⟨⟩⟩ := h
  case h_4 => cases h

theorem exists_of_endObject (h : endObject s = .ok ((), t)) :
    ∃ w, AreBlank w ∧ s.Passed (w ++ ['\x7d']) t := by
  rw [endObject, bind_eq_ok_iff] at h
  obtain ⟨y, mid, hy, h⟩ := h
  obtain ⟨w, r, hw, hs, rfl⟩ := exists_of_token hy
  split at h
  case h_1 =>
    cases h
    exact ⟨w, hw, hs.trans <| .char_cons '\x7d' _⟩
  case h_2 => cases h
  case h_3 => cases h

theorem exists_of_onlyKey (h : onlyKey s = .ok (key, t)) :
    ∃ w u, AreBlank w ∧ Spells u key.toList ∧ s.Passed (w ++ enquote u) t := by
  rw [onlyKey, bind_eq_ok_iff] at h
  obtain ⟨y, mid, hy, h⟩ := h
  obtain ⟨w, r, hw, hs, rfl⟩ := exists_of_token hy
  split at h
  case h_1 =>
    rw [skip_bind] at h
    obtain ⟨u, hu, hp⟩ := exists_of_scan_string h
    exact ⟨w, u, hw, hu, hs.trans hp⟩
  case h_2 => cases h
  case h_3 => cases h

theorem gather_cases {acc : Bool × σ} {next : Option (Bool × σ)}
    (h : gather member acc s = .ok (next, t)) :
    next = none ∧ nextKey acc.1 s = .ok (none, t) ∨
      ∃ key st mid, next = some (false, st) ∧ nextKey acc.1 s = .ok (some key, mid) ∧
        member acc.2 key mid = .ok (st, t) := by
  obtain ⟨key?, mid, hk, h⟩ := bind_eq_ok_iff.mp h
  split at h
  case h_1 key =>
    obtain ⟨st, _, hm, ⟨⟩⟩ := bind_eq_ok_iff.mp h
    exact .inr ⟨key, st, mid, rfl, hk, hm⟩
  case h_2 =>
    cases h
    exact .inl ⟨rfl, hk⟩

-- What is taken is a colon and the text of one value.
theorem Cuts.exists_of_colon {p : Scan α} {a : α} {P : List Char → α → Prop} (hp : p.Cuts P)
    (h : (do colon; p) s = .ok (a, t)) : ∃ w w' v, AreBlank w ∧ AreBlank w' ∧ Spelled v ∧
      s.Passed (w ++ ':' :: w' ++ v) t ∧ P v a := by
  obtain ⟨_, mid, hc, hv⟩ := bind_eq_ok_iff.mp h
  have ⟨w, hw, hc⟩ := Extent.exists_of_colon hc
  have ⟨v, hv, hs, _, ha⟩ := hp hv
  have ⟨w', hw', hd⟩ := passed_dropBlanks mid
  exact ⟨w, w', v, hw, hw', hv, by simpa using hc.trans <| hd.trans hs, ha⟩

-- Taking in a member under the given key passes a colon and a value, and what was so of the members
-- before holds of all members then.
def Adds (P : List Part → σ → Prop) (key : String) (st : σ) (p : Scan σ) : Prop :=
  ∀ ⦃st' : σ⦄ ⦃s t : Symbols⦄, p s = .ok (st', t) → ∃ w w' v, AreBlank w ∧ AreBlank w' ∧
    Spelled v ∧ s.Passed (w ++ ':' :: w' ++ v) t ∧
      ∀ parts u, P parts st → Spells u key.toList → P (parts ++ [⟨enquote u, v⟩]) st'

def Gains (member : σ → String → Scan σ) (P : List Part → σ → Prop) : Prop :=
  ∀ st key, Adds P key st (member st key)

variable {P : List Part → σ → Prop}

theorem length_lt_of_gather (hg : Gains member P) {acc acc' : Bool × σ}
    (h : gather member acc s = .ok (some acc', t)) : t.length < s.length := by
  rcases gather_cases h with ⟨⟨⟩, _⟩ | ⟨key, st, mid, _, hk, hs⟩
  have ⟨_, _, _, _, _, _, hk⟩ := exists_of_nextKey hk
  have ⟨_, _, _, _, _, _, hs, _⟩ := hg _ _ hs
  exact Nat.lt_of_lt_of_le (hs.length_lt_of_ne_nil (by simp)) hk.length_le

-- From where it is, the object goes on to its end.
theorem rest_of_gathers (hg : Gains member P) {acc last : Bool × σ} {parts : List Part}
    (h : Repeats (gather member) acc s last mid) (he : endObject mid = .ok ((), t))
    (hP : P parts acc.2) : ∃ u more, Rest .object acc.1 u more ∧ s.Passed u t ∧
      (∀ p ∈ more, Spelled p.value) ∧ P (parts ++ more) last.2 := by
  induction h generalizing parts
  case stop h =>
    rcases gather_cases h with ⟨_, hk⟩ | ⟨_, _, _, ⟨⟩, _⟩
    obtain ⟨w, r, hw, hs, hm⟩ := exists_of_nextKey_none hk
    obtain ⟨w', hw', ht⟩ := exists_of_endObject he
    refine ⟨_, [], .close (hw.append hw'), ?_, nofun, by simpa using hP⟩
    simpa [Extent.Bracket.closing] using hs.trans ht
  case more h _ _ hi =>
    rcases gather_cases h with ⟨⟨⟩, _⟩ | ⟨key, st, m, hn, hk, hv⟩
    cases hn
    obtain ⟨w, w', u, hw, hw', hu, h⟩ := exists_of_nextKey hk
    obtain ⟨w₂, w₃, v, h₂, h₃, hv, hs, hg⟩ := hg _ _ hv
    obtain ⟨u', more, htl, hs', hsp, hP⟩ := hi he (hg parts u hP hu)
    refine ⟨_, _, .more hw (.member hw' hu.content h₂ h₃) htl, ?_,
      List.forall_mem_cons.mpr ⟨hv, hsp⟩, by simpa using hP⟩
    simpa using h.trans <| hs.trans hs'

-- What is read as an object is the text of one, behind its opening bracket.
theorem exists_of_members (hg : Gains member P) (h : members member st s = .ok (last, mid))
    (he : endObject mid = .ok ((), t)) (hP : P [] st) :
    ∃ u parts, Splits .object ('\x7b' :: u) parts ∧ s.Passed u t ∧ P parts last := by
  rw [members, membersFrom_eq, bind_eq_ok_iff] at h
  obtain ⟨acc, _, hr, ⟨⟩⟩ := h
  have ⟨u, parts, hu, hs, hsp, hP⟩ :=
    rest_of_gathers hg (repeats_of_exhaust (length_lt_of_gather hg) hr) he hP
  exact ⟨u, parts, ⟨hu, hsp⟩, hs, hP⟩

end Objects

end Scan
end Countersign
