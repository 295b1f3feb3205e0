import Countersign.Proofs.Json.Extent

namespace Countersign.Extent

open Json Symbols

variable {s t mid rest : Symbols} {u v w : List Char} {b : Bracket} {bs : List Bracket}

section Strings

theorem exists_of_escape (h : escape s = .ok ((), t)) :
    ∃ f, s.Passed f t ∧ ∀ u, Content u → Content ('\\' :: f ++ u) := by
  rw [escape, Scan.peek_bind] at h
  generalize hy : s.head? = y? at h
  split at h
  case h_1 => simp at h
  case h_2 =>
    obtain ⟨r, rfl⟩ := List.head?_eq_some_iff.mp hy
    rw [Scan.skip_bind, Scan.bind_eq_ok_iff] at h
    obtain ⟨n, _, hn, ⟨⟩⟩ := h
    obtain ⟨q, rfl, hq⟩ := Scan.exists_of_hexQuad hn
    exact ⟨'u' :: q, (Passed.map_char q t).cons, fun _ hu => .code hq hu⟩
  case h_3 e _ =>
    obtain ⟨r, rfl⟩ := List.head?_eq_some_iff.mp hy
    generalize he : Scan.escaped? e = c? at h
    split at h
    case h_1 =>
      cases h
      exact ⟨[e], .char_cons e _, fun _ hu => .escaped (Option.isSome_of_mem he) hu⟩
    case h_2 => simp at h
  case h_4 => simp at h

theorem exists_of_character {next : Option Unit} (h : character s = .ok (next, t)) :
    next = none ∧ s = .char '"' :: t ∨ next = some () ∧ t.length < s.length ∧
      ∃ f, s.Passed f t ∧ ∀ u, Content u → Content (f ++ u) := by
  rw [character, Scan.peek_bind] at h
  generalize hy : s.head? = y? at h
  split at h
  case h_1 => simp at h
  case h_2 =>
    obtain ⟨r, rfl⟩ := List.head?_eq_some_iff.mp hy
    cases h
    exact .inl ⟨rfl, rfl⟩
  case h_3 =>
    obtain ⟨r, rfl⟩ := List.head?_eq_some_iff.mp hy
    rw [Scan.skip_bind, Scan.bind_eq_ok_iff] at h
    obtain ⟨_, _, he, ⟨⟩⟩ := h
    obtain ⟨f, hp, hf⟩ := exists_of_escape he
    exact .inr ⟨rfl, hp.cons.length_lt, _, hp.cons, hf⟩
  case h_4 c hq hb =>
    obtain ⟨r, rfl⟩ := List.head?_eq_some_iff.mp hy
    split at h
    case isTrue => simp at h
    case isFalse hc =>
      cases h
      exact .inr ⟨rfl, Nat.lt_succ_self _, [c], .char_cons c _, fun _ hu => .plain hq hb hc hu⟩
  case h_5 b =>
    obtain ⟨r, rfl⟩ := List.head?_eq_some_iff.mp hy
    cases h
    exact .inr ⟨rfl, Nat.lt_succ_self _, [], ⟨[.stray b], rfl, rfl⟩, fun _ hu => hu⟩

theorem length_lt_of_character (h : character s = .ok (some (), t)) : t.length < s.length := by
  rcases exists_of_character h with ⟨⟨⟩, _⟩ | ⟨_, hl, _⟩
  exact hl

theorem exists_of_repeats {st st' : Unit} (h : Scan.Repeats (fun _ => character) st s st' t) :
    ∃ u, Content u ∧ s.Passed (u ++ ['"']) t := by
  induction h
  case stop h =>
    rcases exists_of_character h with ⟨_, rfl⟩ | ⟨⟨⟩, _⟩
    exact ⟨[], .nil, .char_cons '"' _⟩
  case more h _ _ hi =>
    have ⟨u, hu, hs⟩ := hi
    rcases exists_of_character h with ⟨⟨⟩, _⟩ | ⟨_, _, f, hf, hc⟩
    exact ⟨f ++ u, hc u hu, by simpa using hf.trans hs⟩

theorem exists_of_string (h : string s = .ok ((), t)) :
    ∃ u, Content u ∧ s.Passed (u ++ ['"']) t := by
  have hr : Scan.Repeats (fun _ => character) () s () t :=
    Scan.repeats_of_exhaust length_lt_of_character h
  exact exists_of_repeats hr

end Strings

section Numerals

theorem exists_of_digits (s : Symbols) :
    ∃ ds, (∀ d ∈ ds, (Symbol.char d).isDigit) ∧ s.Passed ds (s.dropWhile Symbol.isDigit) := by
  induction s
  case nil => exact ⟨[], nofun, .refl []⟩
  case cons y s hi =>
    cases hy : y.isDigit
    case false =>
      rw [List.dropWhile_cons_of_neg (by simp [hy])]
      exact ⟨[], nofun, .refl _⟩
    case true =>
      have ⟨ds, hd, hs⟩ := hi
      rw [List.dropWhile_cons_of_pos hy]
      cases y
      case stray => cases hy
      case char d => exact ⟨d :: ds, List.forall_mem_cons.mpr ⟨hy, hd⟩, hs.cons⟩

theorem exists_of_someDigits (h : someDigits s = .ok ((), t)) :
    ∃ d ds, AreDigits (d :: ds) ∧ s.head? = some (.char d) ∧ s.Passed (d :: ds) t := by
  cases s
  case nil => simp [someDigits] at h
  case cons y s =>
    rw [someDigits, Scan.peek_bind] at h
    simp only [List.head?_cons] at h
    split at h
    case isFalse => simp at h
    case isTrue hy =>
      cases y
      case stray => cases hy
      case char d =>
        obtain ⟨ds, hd, hs⟩ := exists_of_digits s
        have ht : t = s.dropWhile Symbol.isDigit := by
          rw [← List.dropWhile_cons_of_pos hy]
          cases h
          rfl
        have hd : AreDigits (d :: ds) := ⟨List.cons_ne_nil d ds, List.forall_mem_cons.mpr ⟨hy, hd⟩⟩
        exact ⟨d, ds, hd, rfl, ht ▸ hs.cons⟩

-- The digits of an exponent, behind its letter.
theorem exists_of_power {e : Char} (he : e = 'e' ∨ e = 'E') (h : (do
      match ← Scan.peek with
      | some (.char '+') | some (.char '-') => Scan.skip
      | _ => pure ()
      someDigits : Scan Unit) s = .ok ((), t)) :
    ∃ u, Exponent u ∧ Passed (.char e :: s) u t := by
  rw [Scan.peek_bind] at h
  generalize hy : s.head? = y? at h
  split at h
  case h_3 =>
    have ⟨d, ds, hd, _, hs⟩ := exists_of_someDigits h
    exact ⟨e :: d :: ds, .digits he hd, hs.cons⟩
  all_goals
    obtain ⟨r, rfl⟩ := List.head?_eq_some_iff.mp hy
    rw [Scan.skip_bind] at h
    have ⟨_, _, hd, _, hs⟩ := exists_of_someDigits h
    exact ⟨_, .signed he (by simp) hd, hs.cons.cons⟩

theorem exists_of_exponent (h : exponent s = .ok ((), t)) : ∃ e, Exponent e ∧ s.Passed e t := by
  rw [exponent, Scan.peek_bind] at h
  generalize hy : s.head? = y? at h
  split at h
  case h_3 =>
    cases h
    exact ⟨[], .none, .refl s⟩
  all_goals
    obtain ⟨r, rfl⟩ := List.head?_eq_some_iff.mp hy
    exact exists_of_power (by simp) h

theorem exists_of_afterWhole (h : afterWhole s = .ok ((), t)) :
    ∃ f e, Fraction f ∧ Exponent e ∧ s.Passed (f ++ e) t := by
  rw [afterWhole, Scan.peek_bind] at h
  generalize hy : s.head? = y? at h
  split at h
  case h_1 =>
    obtain ⟨r, rfl⟩ := List.head?_eq_some_iff.mp hy
    rw [Scan.skip_bind, Scan.bind_eq_ok_iff] at h
    obtain ⟨_, mid, hd, he⟩ := h
    obtain ⟨d, ds, hd, _, hs⟩ := exists_of_someDigits hd
    obtain ⟨e, he, hr⟩ := exists_of_exponent he
    exact ⟨'.' :: d :: ds, e, .digits hd, he, (hs.trans hr).cons⟩
  case h_2 =>
    obtain ⟨e, he, hr⟩ := exists_of_exponent h
    exact ⟨[], e, .none, he, hr⟩

theorem exists_of_magnitude (h : magnitude s = .ok ((), t)) : ∃ m, Magnitude m ∧ s.Passed m t := by
  rw [magnitude_eq, Scan.peek_bind] at h
  generalize hy : s.head? = y? at h
  split at h
  case h_1 =>
    obtain ⟨r, rfl⟩ := List.head?_eq_some_iff.mp hy
    rw [Scan.skip_bind, Scan.peek_bind] at h
    have h : afterWhole r = .ok ((), t) := by
      generalize r.head? = z? at h
      split at h
      case h_2 => exact h
      case h_1 =>
        split at h
        case isTrue  => cases h
        case isFalse => exact h
    have ⟨f, e, hf, he, hs⟩ := exists_of_afterWhole h
    exact ⟨['0'] ++ f ++ e, .mk .zero hf he, hs.cons⟩
  case h_2 hz =>
    have ⟨_, mid, hd, h⟩ := Scan.bind_eq_ok_iff.mp h
    have ⟨d, ds, hd, hh, hs⟩ := exists_of_someDigits hd
    have ⟨f, e, hf, he, hr⟩ := exists_of_afterWhole h
    have hz : d ≠ '0' := by
      rintro rfl
      exact hz <| hy.symm.trans hh
    exact ⟨d :: ds ++ f ++ e, .mk (.digits hd hz) hf he, by simpa using hs.trans hr⟩

end Numerals

section Brackets

-- What has been entered: a value without parts, or a bracket.
def Entered (u : List Char) : Option Bracket → Prop
  | none   => Atom u
  | some b => u = [b.opening]

theorem passed_of_word {c : Char} {cs : List Char} {b? : Option Bracket}
    (h : (do Scan.skip; Scan.word cs; return none : Scan _) (.char c :: s) = .ok (b?, t)) :
    b? = none ∧ Passed (.char c :: s) (c :: cs) t := by
  rw [Scan.skip_bind, Scan.bind_eq_ok_iff] at h
  obtain ⟨_, mid, hw, ⟨⟩⟩ := h
  obtain rfl := Scan.word_eq_ok_iff.mp hw
  exact ⟨rfl, (Passed.map_char cs t).cons⟩

theorem exists_of_enter {b? : Option Bracket} (h : enter s = .ok (b?, t)) :
    ∃ u, Entered u b? ∧ s.dropBlanks.Passed u t := by
  rw [enter, Scan.bind_eq_ok_iff] at h
  obtain ⟨y, mid, hy, h⟩ := h
  obtain ⟨r, hs, rfl⟩ := Scan.token_eq_ok_iff.mp hy
  rw [hs]
  split at h
  case h_1 =>
    obtain ⟨rfl, hp⟩ := passed_of_word h
    exact ⟨_, Atom.null, hp⟩
  case h_2 =>
    obtain ⟨rfl, hp⟩ := passed_of_word h
    exact ⟨_, Atom.true, hp⟩
  case h_3 =>
    obtain ⟨rfl, hp⟩ := passed_of_word h
    exact ⟨_, Atom.false, hp⟩
  case h_4 =>
    rw [Scan.skip_bind, Scan.bind_eq_ok_iff] at h
    obtain ⟨_, mid, hw, ⟨⟩⟩ := h
    obtain ⟨u, hu, hp⟩ := exists_of_string hw
    exact ⟨_, Atom.text hu, hp.cons⟩
  case h_5 =>
    rw [Scan.skip_bind, Scan.bind_eq_ok_iff] at h
    obtain ⟨_, mid, hw, ⟨⟩⟩ := h
    obtain ⟨u, hu, hp⟩ := exists_of_magnitude hw
    exact ⟨_, Atom.negative hu, hp.cons⟩
  case h_6 =>
    cases h
    exact ⟨_, rfl, .char_cons '[' _⟩
  case h_7 =>
    cases h
    exact ⟨_, rfl, .char_cons '\x7b' _⟩
  case h_8 =>
    split at h
    case isFalse => simp at h
    case isTrue =>
      rw [Scan.bind_eq_ok_iff] at h
      obtain ⟨_, mid, hw, ⟨⟩⟩ := h
      obtain ⟨u, hu, hp⟩ := exists_of_magnitude hw
      exact ⟨_, Atom.numeral hu, hp⟩

theorem Entered.ne_nil {b? : Option Bracket} (h : Entered u b?) : u ≠ [] := by
  cases b?
  case none =>
    have ⟨_, _, hu, _⟩ := Spelled.opens (.atom h)
    simp [hu]
  case some => simp [show u = _ from h]

theorem exists_of_colon (h : Scan.colon s = .ok ((), t)) :
    ∃ w, AreBlank w ∧ s.Passed (w ++ [':']) t := by
  rw [Scan.colon, Scan.bind_eq_ok_iff] at h
  obtain ⟨y, mid, hy, h⟩ := h
  obtain ⟨w, r, hw, hs, rfl⟩ := Scan.exists_of_token hy
  split at h
  case h_1 =>
    cases h
    exact ⟨w, hw, hs.trans <| .char_cons ':' _⟩
  case h_2 => simp at h

-- A key is passed where there has to be one. Blanks may stand on both sides of it.
theorem exists_of_key (h : key b s = .ok ((), t)) :
    ∃ k u, s.Passed u t ∧ ∀ w w', AreBlank w → AreBlank w' → Lead b k (w ++ u ++ w') := by
  cases b
  case list =>
    cases h
    exact ⟨[], [], .refl _, fun w w' hw hw' => .item (by simpa using hw.append hw')⟩
  case object =>
    rw [key, Scan.bind_eq_ok_iff] at h
    obtain ⟨y, mid, hy, h⟩ := h
    obtain ⟨v, r, hv, hs, rfl⟩ := Scan.exists_of_token hy
    split at h
    case h_2 => simp at h
    case h_1 =>
      rw [Scan.skip_bind, Scan.bind_eq_ok_iff] at h
      obtain ⟨_, mid, hk, hc⟩ := h
      obtain ⟨k, hk, hp⟩ := exists_of_string hk
      obtain ⟨v', hv', hc⟩ := exists_of_colon hc
      refine ⟨enquote k, _, hs.trans (hp.cons.trans hc), fun w w' hw hw' => ?_⟩
      simpa [enquote] using Lead.member (hw.append hv) hk hv' hw'

-- What can stand behind a value inside of brackets: the rest of each of them.
inductive Behind : List Bracket → List Char → Prop
  | nil : Behind [] []
  | cons {b : Bracket} {bs : List Bracket} {t u : List Char} {parts : List Part} (h : Tail b t parts)
    (values : ∀ p ∈ parts, Spelled p.value) (rest : Behind bs u) : Behind (b :: bs) (t ++ u)

-- The text goes on with a value, inside of some brackets, up to the given point. With no brackets
-- left that point has been reached.
def Proceeds (s rest : Symbols) : Option (List Bracket) → Prop
  | none    => s = rest
  | some bs => ∃ v u, Spelled v ∧ Behind bs u ∧ s.dropBlanks.Passed (v ++ u) rest

-- Inside of brackets that is a value, behind blanks, and the rest of the innermost bracket.
theorem Proceeds.exists_tail (h : Proceeds s rest (some (b :: bs))) :
    ∃ w v t u parts, AreBlank w ∧ Spelled v ∧ Tail b t parts ∧ (∀ p ∈ parts, Spelled p.value) ∧
      Behind bs u ∧ s.Passed (w ++ v ++ (t ++ u)) rest := by
  obtain ⟨w, hw, hs⟩ := passed_dropBlanks s
  obtain ⟨v, _, hv, hb, hp⟩ := h
  cases hb
  case cons t u parts hvs ht hu =>
    exact ⟨w, v, t, u, parts, hw, hv, ht, hvs, hu, by simpa using hs.trans hp⟩

theorem exists_of_close {next : Option (List Bracket)} (h : close true bs s = .ok (next, mid))
    (hr : Proceeds mid rest next) : ∃ u, Behind bs u ∧ s.Passed u rest := by
  induction bs generalizing s
  case nil =>
    cases h
    exact ⟨[], .nil, hr ▸ .refl _⟩
  case cons b bs hi =>
    rw [close, Scan.bind_eq_ok_iff] at h
    obtain ⟨y, _, hy, h⟩ := h
    obtain ⟨w, r, hw, hs, rfl⟩ := Scan.exists_of_token hy
    split at h
    case isTrue hc =>
      obtain rfl := hc
      rw [Scan.skip_bind] at h
      obtain ⟨u, hu, hp⟩ := hi h
      exact ⟨_, .cons (.close hw) (List.forall_mem_nil _) hu, by simpa using hs.trans hp.cons⟩
    case isFalse =>
      rw [if_neg (by simp)] at h
      split at h
      case isFalse => simp at h
      case isTrue hc =>
        obtain rfl := hc
        rw [Scan.skip_bind, Scan.bind_eq_ok_iff] at h
        obtain ⟨_, _, hk, ⟨⟩⟩ := h
        obtain ⟨k, u, hk, hl⟩ := exists_of_key hk
        obtain ⟨w', v, t, u, parts, hw', hv, ht, hvs, hu, hp⟩ := Proceeds.exists_tail hr
        have hl := hl [] w' areBlank_nil hw'
        refine ⟨_, .cons (.more (v := v) hw hl ht) (List.forall_mem_cons.mpr ⟨hv, hvs⟩) hu, ?_⟩
        simpa using hs.trans (hk.trans hp).cons

-- In a bracket that has just been opened, its text goes on to its end.
theorem exists_of_open {next : Option (List Bracket)}
    (h : close false (b :: bs) s = .ok (next, mid)) (hr : Proceeds mid rest next) :
    ∃ g u parts, Group b (b.opening :: g) parts ∧ (∀ p ∈ parts, Spelled p.value) ∧ Behind bs u ∧
      s.Passed (g ++ u) rest := by
  rw [close, Scan.bind_eq_ok_iff] at h
  obtain ⟨y, _, hy, h⟩ := h
  obtain ⟨w, r, hw, hs, rfl⟩ := Scan.exists_of_token hy
  split at h
  case isTrue hc =>
    obtain rfl := hc
    rw [Scan.skip_bind] at h
    obtain ⟨u, hu, hp⟩ := exists_of_close h hr
    exact ⟨_, u, [], .empty hw, List.forall_mem_nil _, hu, by simpa using hs.trans hp.cons⟩
  case isFalse =>
    rw [if_pos (by simp), Scan.bind_eq_ok_iff] at h
    obtain ⟨_, _, hk, ⟨⟩⟩ := h
    obtain ⟨k, u, hk, hl⟩ := exists_of_key hk
    obtain ⟨w', v, t, u, parts, hw', hv, ht, hvs, hu, hp⟩ := Proceeds.exists_tail hr
    have hl := hl w w' hw hw'
    refine ⟨_, _, _, .parts (v := v) hl ht, List.forall_mem_cons.mpr ⟨hv, hvs⟩, hu, ?_⟩
    simpa using hs.trans (hk.trans hp)

end Brackets

section Values

theorem proceeds_of_step {next : Option (List Bracket)} (h : step bs s = .ok (next, mid))
    (hr : Proceeds mid rest next) : Proceeds s rest (some bs) := by
  obtain ⟨b?, _, he, hc⟩ := Scan.bind_eq_ok_iff.mp h
  have ⟨v, hv, hs⟩ := exists_of_enter he
  cases b?
  case none =>
    have ⟨u, hu, hp⟩ := exists_of_close hc hr
    exact ⟨v, u, .atom hv, hu, hs.trans hp⟩
  case some b =>
    have ⟨g, u, parts, hg, hp, hu, ht⟩ := exists_of_open hc hr
    obtain rfl := hv
    exact ⟨_, u, .group hg hp, hu, by simpa using hs.trans ht⟩

theorem length_le_of_close {afterItem : Bool} {next : Option (List Bracket)}
    (h : close afterItem bs s = .ok (next, t)) : t.length ≤ s.length := by
  induction bs generalizing s afterItem
  case nil =>
    cases h
    exact Nat.le_refl _
  case cons b bs hi =>
    rw [close, Scan.bind_eq_ok_iff] at h
    obtain ⟨y, _, hy, h⟩ := h
    obtain ⟨w, r, hw, hs, rfl⟩ := Scan.exists_of_token hy
    have hl := hs.length_le
    split at h
    case isTrue hc =>
      have := hi h
      simp at hl this
      omega
    case isFalse =>
      split at h
      case isTrue =>
        obtain ⟨_, _, hk, ⟨⟩⟩ := Scan.bind_eq_ok_iff.mp h
        obtain ⟨_, _, hk, _⟩ := exists_of_key hk
        exact Nat.le_trans hk.length_le hl
      case isFalse =>
        split at h
        case isFalse => simp at h
        case isTrue =>
          rw [Scan.skip_bind] at h
          obtain ⟨_, _, hk, ⟨⟩⟩ := Scan.bind_eq_ok_iff.mp h
          obtain ⟨_, _, hk, _⟩ := exists_of_key hk
          have := hk.length_le
          simp at hl
          omega

theorem length_lt_of_step {next : List Bracket} (h : step bs s = .ok (some next, t)) :
    t.length < s.length := by
  obtain ⟨b?, mid, he, hc⟩ := Scan.bind_eq_ok_iff.mp h
  have ⟨v, hv, hs⟩ := exists_of_enter he
  have ⟨w, hw, hd⟩ := passed_dropBlanks s
  have hl := Nat.lt_of_lt_of_le (hs.length_lt_of_ne_nil hv.ne_nil) hd.length_le
  cases b?
  all_goals exact Nat.lt_of_le_of_lt (length_le_of_close hc) hl

theorem proceeds_of_repeats {last : List Bracket} (h : Scan.Repeats step bs s last rest) :
    Proceeds s rest (some bs) := by
  induction h
  case stop h        => exact proceeds_of_step h rfl
  case more h _ _ hi => exact proceeds_of_step h hi

-- A value begins with a character.
theorem exists_char_of_enter {b? : Option Bracket} (h : enter s = .ok (b?, t)) :
    ∃ c r, s.dropBlanks = .char c :: r := by
  rw [enter, Scan.bind_eq_ok_iff] at h
  obtain ⟨y, _, hy, h⟩ := h
  obtain ⟨r, hs, rfl⟩ := Scan.token_eq_ok_iff.mp hy
  cases y
  case char c  => exact ⟨c, r, hs⟩
  case stray b => cases h

theorem exists_char_of_step {next : Option (List Bracket)} (h : step bs s = .ok (next, t)) :
    ∃ c r, s.dropBlanks = .char c :: r :=
  have ⟨_, _, he, _⟩ := Scan.bind_eq_ok_iff.mp h
  exists_char_of_enter he

theorem exists_char_of_value (h : value s = .ok ((), t)) : ∃ c r, s.dropBlanks = .char c :: r := by
  obtain ⟨last, _, hr, ⟨⟩⟩ := Scan.bind_eq_ok_iff.mp h
  have hr := Scan.repeats_of_exhaust length_lt_of_step hr
  cases hr
  case stop h   => exact exists_char_of_step h
  case more h _ => exact exists_char_of_step h

-- Behind the blanks, what is passed over is the text of a value.
theorem exists_of_value (h : value s = .ok ((), t)) :
    ∃ v, Spelled v ∧ s.dropBlanks.Passed v t := by
  obtain ⟨last, _, hr, ⟨⟩⟩ := Scan.bind_eq_ok_iff.mp h
  have ⟨v, u, hv, hu, hs⟩ := proceeds_of_repeats <| Scan.repeats_of_exhaust length_lt_of_step hr
  cases hu
  exact ⟨v, hv, by simpa using hs⟩

-- What is kept is the text of that value, from its first character to its last.
theorem exists_of_raw {r : String} (h : raw s = .ok (r, t)) :
    Spelled r.toList ∧ s.dropBlanks.Passed r.toList t ∧ ∃ c u, s.dropBlanks = .char c :: u := by
  rw [raw, Scan.modify_bind, Scan.get_bind, Scan.bind_eq_ok_iff] at h
  obtain ⟨_, _, hv, ⟨⟩⟩ := h
  have hc := exists_char_of_value hv
  obtain ⟨v, hv, hs⟩ := exists_of_value hv
  rw [dropBlanks_dropBlanks] at hs hc
  refine ⟨?_, ?_, hc⟩
  all_goals
    obtain ⟨p, hp, rfl⟩ := hs
    simp only [hp, List.length_append, Nat.add_sub_cancel, List.take_left', String.toList_ofList]
  · exact hv
  · exact ⟨p, rfl, rfl⟩

end Values

end Countersign.Extent
