import Countersign.Json.Writer
import Countersign.Proofs.Json.Spelling

namespace Countersign

open Json

namespace Scan

variable {s t : Symbols} {q f u cs : List Char} {n : Nat} {c : Char} {y : Symbol} {name : String}

theorem hexQuad_append (h : HexQuad q n) : hexQuad (q.map .char ++ s) = .ok (n, s) := by
  cases h
  case mk ha hb hc hd => simp [hexQuad, Symbol.hexDigit?, ha, hb, hc, hd]

theorem exists_char_of_hexDigit? {y : Symbol} {i : Nat} (h : y.hexDigit? = some i) :
    ∃ a, y = .char a ∧ Text.hexDigit? a = some i := by
  cases y
  case char a => exact ⟨a, rfl, h⟩
  case stray  => cases h

theorem exists_of_hexQuad (h : hexQuad s = .ok (n, t)) :
    ∃ q, s = q.map .char ++ t ∧ HexQuad q n := by
  unfold hexQuad at h
  split at h
  case h_1 =>
    split at h
    case h_2 => cases h
    case h_1 ha hb hc hd =>
      cases h
      obtain ⟨a, rfl, ha⟩ := exists_char_of_hexDigit? ha
      obtain ⟨b, rfl, hb⟩ := exists_char_of_hexDigit? hb
      obtain ⟨c, rfl, hc⟩ := exists_char_of_hexDigit? hc
      obtain ⟨d, rfl, hd⟩ := exists_char_of_hexDigit? hd
      exact ⟨[a, b, c, d], rfl, .mk ha hb hc hd⟩
  case h_2 =>
    split at h
    all_goals cases h

theorem expectInEscape_eq_ok_iff : expectInEscape c s = .ok ((), t) ↔ s = .char c :: t := by
  rw [expectInEscape, peek_bind]
  cases s
  case nil => simp
  case cons y s =>
    simp only [List.head?_cons]
    split
    case isTrue h  => simp [h]
    case isFalse h => simp [h]

theorem codePoint_of_code (h : HexQuad q n) (low : ¬isLowSurrogate n) (high : ¬isHighSurrogate n) :
    codePoint (q.map .char ++ s) = .ok (Char.ofNat n, s) := by
  rw [codePoint, bind_of_ok (hexQuad_append h), if_neg low, if_neg high, pure_apply]

theorem not_isLowSurrogate (h : isHighSurrogate n) : ¬isLowSurrogate n := by
  simp only [isHighSurrogate, isLowSurrogate, Bool.and_eq_true, decide_eq_true_eq] at *
  omega

theorem codePoint_of_pair {r : List Char} {m : Nat} (hq : HexQuad q n) (high : isHighSurrogate n)
    (hr : HexQuad r m) (low : isLowSurrogate m) :
    codePoint (q.map .char ++ .char '\\' :: .char 'u' :: (r.map .char ++ s)) =
      .ok (Char.ofNat (0x10000 + (n - 0xD800) * 0x400 + (m - 0xDC00)), s) := by
  rw [codePoint, bind_of_ok (hexQuad_append hq), if_neg (not_isLowSurrogate high), if_pos high,
    bind_of_ok (expectInEscape_eq_ok_iff.mpr rfl), bind_of_ok (expectInEscape_eq_ok_iff.mpr rfl),
    bind_of_ok (hexQuad_append hr), if_pos low, pure_apply]

theorem exists_of_codePoint (h : codePoint s = .ok (c, t)) :
    ∃ f, s = f.map .char ++ t ∧ CharForm ('\\' :: 'u' :: f) c := by
  rw [codePoint, bind_eq_ok_iff] at h
  obtain ⟨n, mid, hn, h⟩ := h
  have ⟨q, hs, hq⟩ := exists_of_hexQuad hn
  split at h
  case isTrue => simp at h
  case isFalse low =>
    split at h
    case isFalse high =>
      cases h
      exact ⟨q, hs, .code hq low high⟩
    case isTrue high =>
      simp only [bind_eq_ok_iff] at h
      obtain ⟨_, _, hb, _, _, hu, m, _, hm, h⟩ := h
      obtain rfl := expectInEscape_eq_ok_iff.mp hb
      obtain rfl := expectInEscape_eq_ok_iff.mp hu
      obtain ⟨r, rfl, hr⟩ := exists_of_hexQuad hm
      split at h
      case isFalse => simp at h
      case isTrue low =>
        obtain ⟨rfl, rfl⟩ := Prod.mk.inj <| Except.ok.inj h
        exact ⟨q ++ '\\' :: 'u' :: r, by simp [hs], .pair hq high hr low⟩

theorem escaped?_ne_u {e : Char} (h : escaped? e = some c) : e ≠ 'u' := by
  rintro rfl
  cases h

theorem character_of_charForm (h : CharForm f c) :
    character (f.map .char ++ s) = .ok (some (.char c), s) := by
  cases h
  case plain hq hb hc => simp [character, hc]
  case escaped e h => simp [character, escape, escaped?_ne_u h, h]
  case code h low high => simp [character, escape, map_of_ok (codePoint_of_code h low high)]
  case pair hq high hr low =>
    simp [character, escape, map_of_ok (codePoint_of_pair hq high hr low)]

theorem exists_of_escape (h : escape s = .ok (c, t)) :
    ∃ f, s = f.map .char ++ t ∧ CharForm ('\\' :: f) c := by
  rw [escape, peek_bind] at h
  generalize hy : s.head? = y? at h
  split at h
  case h_1 => simp at h
  case h_2 =>
    obtain ⟨r, rfl⟩ := List.head?_eq_some_iff.mp hy
    obtain ⟨f, rfl, hf⟩ := exists_of_codePoint h
    exact ⟨'u' :: f, rfl, hf⟩
  case h_3 e _ =>
    obtain ⟨r, rfl⟩ := List.head?_eq_some_iff.mp hy
    generalize he : escaped? e = c? at h
    split at h
    case h_1 =>
      cases h
      exact ⟨[e], rfl, .escaped he⟩
    case h_2 => simp at h
  case h_4 => simp at h

-- A reader of strings takes one character in one of its forms, a stray byte, or the closing quote.
theorem exists_of_character {y? : Option Symbol} (h : character s = .ok (y?, t)) :
    y? = none ∧ s = .char '"' :: t ∨ (∃ b, y? = some (.stray b) ∧ s = .stray b :: t) ∨
      ∃ f c, y? = some (.char c) ∧ s = f.map .char ++ t ∧ CharForm f c := by
  rw [character, peek_bind] at h
  generalize hy : s.head? = next? at h
  split at h
  case h_1 => simp at h
  case h_2 =>
    obtain ⟨r, rfl⟩ := List.head?_eq_some_iff.mp hy
    cases h
    exact .inl ⟨rfl, rfl⟩
  case h_3 =>
    obtain ⟨r, rfl⟩ := List.head?_eq_some_iff.mp hy
    rw [skip_bind, bind_eq_ok_iff] at h
    obtain ⟨c, _, he, ⟨⟩⟩ := h
    obtain ⟨f, rfl, hf⟩ := exists_of_escape he
    exact .inr <| .inr ⟨'\\' :: f, c, rfl, rfl, hf⟩
  case h_4 c hq hb =>
    obtain ⟨r, rfl⟩ := List.head?_eq_some_iff.mp hy
    split at h
    case isTrue => simp at h
    case isFalse hc =>
      cases h
      exact .inr <| .inr ⟨[c], c, rfl, rfl, .plain hq hb hc⟩
  case h_5 b =>
    obtain ⟨r, rfl⟩ := List.head?_eq_some_iff.mp hy
    cases h
    exact .inr <| .inl ⟨b, rfl, rfl⟩

-- One turn of the reader of strings, which collects the characters in reverse.
def collect (symbols : Symbols) : Scan (Option Symbols) := do
  return (← character).map (· :: symbols)

theorem repeats_of_spells (h : Spells u cs) (symbols : Symbols) :
    Repeats collect symbols (u.map .char ++ .char '"' :: t) (cs.reverse.map .char ++ symbols) t := by
  induction h generalizing symbols
  case nil => exact .stop rfl
  case cons f u cs c hf _ hi =>
    have hn : f ≠ [] := by
      rintro rfl
      cases hf
    have hs : collect symbols ((f ++ u).map .char ++ .char '"' :: t) =
        .ok (some (.char c :: symbols), u.map .char ++ .char '"' :: t) := by
      rw [List.map_append, List.append_assoc, collect, bind_of_ok (character_of_charForm hf)]
      rfl
    refine .more hs ?_ (by simpa using hi (.char c :: symbols))
    have := List.length_pos_iff.mpr hn
    simp
    omega

-- The reader of strings takes what spells a text.
theorem string_of_spells (h : Spells u cs) :
    string (u.map .char ++ .char '"' :: t) = .ok (String.ofList cs, t) := by
  have hr := exhaust_of_repeats (repeats_of_spells (t := t) h [])
  have hc : (cs.reverse.map Symbol.char ++ []).reverse = cs.map .char := by simp
  have ha : (cs.map Symbol.char).all Symbol.isChar := by simp [Symbol.isChar]
  change (exhaust collect [] >>= _) _ = _
  rw [bind_of_ok hr]
  simp only [hc, if_pos ha, Symbols.chars_map_char, pure_apply]

theorem length_lt_of_character (h : character s = .ok (some y, t)) : t.length < s.length := by
  rcases exists_of_character h with ⟨⟨⟩, _⟩ | ⟨b, _, rfl⟩ | ⟨f, c, _, rfl, hf⟩
  · exact Nat.lt_succ_self _
  · cases hf
    all_goals
      simp
      try omega

theorem exists_of_collect {symbols : Symbols} {next? : Option Symbols}
    (h : collect symbols s = .ok (next?, t)) :
    ∃ y?, character s = .ok (y?, t) ∧ next? = y?.map (· :: symbols) := by
  obtain ⟨y?, _, hy, ⟨⟩⟩ := bind_eq_ok_iff.mp h
  exact ⟨y?, hy, rfl⟩

theorem length_lt_of_collect {symbols next : Symbols} (h : collect symbols s = .ok (some next, t)) :
    t.length < s.length := by
  have ⟨y?, hy, hn⟩ := exists_of_collect h
  have ⟨y, hs, _⟩ := Option.map_eq_some_iff.mp hn.symm
  exact length_lt_of_character (hs ▸ hy)

-- The characters collected are those that the text up to the closing quote spells, unless a stray
-- byte is among them.
theorem exists_of_repeats {symbols last : Symbols} (h : Repeats collect symbols s last t)
    (hc : last.all Symbol.isChar) : ∃ u cs, s = u.map .char ++ .char '"' :: t ∧ Spells u cs ∧
      last = cs.reverse.map .char ++ symbols := by
  induction h
  case stop symbols s t h =>
    have ⟨y?, hy, hn⟩ := exists_of_collect h
    have hn : y? = none := Option.map_eq_none_iff.mp hn.symm
    rcases exists_of_character hy with ⟨_, rfl⟩ | ⟨_, hy, _⟩ | ⟨_, _, hy, _⟩
    case inl => exact ⟨[], [], rfl, .nil, rfl⟩
    all_goals cases hn.symm.trans hy
  case more symbols next last s mid t h _ _ hi =>
    obtain ⟨u, cs, rfl, hs, rfl⟩ := hi hc
    have ⟨y?, hy, hn⟩ := exists_of_collect h
    rcases exists_of_character hy with ⟨rfl, _⟩ | ⟨b, rfl, _⟩ | ⟨f, c, rfl, rfl, hf⟩
    · cases hn
    · cases hn
      simp [Symbol.isChar] at hc
    · cases hn
      exact ⟨f ++ u, c :: cs, by simp, .cons hf hs, by simp⟩

-- What the reader of strings takes spells the text that it returns.
theorem exists_of_string (h : string s = .ok (name, t)) :
    ∃ u, s = u.map .char ++ .char '"' :: t ∧ Spells u name.toList := by
  change (exhaust collect [] >>= _) s = _ at h
  obtain ⟨symbols, mid, hr, h⟩ := bind_eq_ok_iff.mp h
  have hr := repeats_of_exhaust length_lt_of_collect hr
  simp only [List.all_reverse] at h
  split at h
  case isFalse => cases h
  case isTrue hc =>
    obtain ⟨u, cs, hs, hu, rfl⟩ := exists_of_repeats hr hc
    cases h
    exact ⟨u, hs, by simpa using hu⟩

end Scan

namespace Json

theorem Content.append_form {f v : List Char} {c : Char} (h : CharForm f c) (hv : Content v) :
    Content (f ++ v) := by
  cases h
  case plain hq hb hc => exact .plain hq hb hc hv
  case escaped h      => exact .escaped (Option.isSome_of_mem h) hv
  case code h _ _     => exact .code h hv
  case pair hq _ hr _ => simpa using Content.code hq (.code hr hv)

theorem Spells.content {u cs : List Char} (h : Spells u cs) : Content u := by
  induction h
  case nil         => exact .nil
  case cons hf _ hi => exact .append_form hf hi

theorem hexDigit?_digitChar : ∀ n < 16, Text.hexDigit? (Nat.digitChar n) = some n := by
  decide

-- A control character is written by its number.
theorem charForm_code {c : Char} (h : c.toNat < 0x20) :
    CharForm ['\\', 'u', '0', '0', hexDigit (c.toNat / 16), hexDigit (c.toNat % 16)] c := by
  have hq : HexQuad ['0', '0', hexDigit (c.toNat / 16), hexDigit (c.toNat % 16)]
      (((0 * 16 + 0) * 16 + c.toNat / 16) * 16 + c.toNat % 16) :=
    .mk rfl rfl (hexDigit?_digitChar _ (by omega)) (hexDigit?_digitChar _ (by omega))
  have hn : ((0 * 16 + 0) * 16 + c.toNat / 16) * 16 + c.toNat % 16 = c.toNat := by omega
  rw [hn] at hq
  have hf := CharForm.code hq (by simp [Scan.isLowSurrogate]; omega)
    (by simp [Scan.isHighSurrogate]; omega)
  rwa [Char.ofNat_toNat] at hf

theorem charForm_escape (c : Char) : CharForm (escape c) c := by
  unfold escape
  split
  case h_8 hq hb _ _ _ _ _ =>
    split
    case isTrue h  => exact charForm_code h
    case isFalse h => exact .plain hq hb h
  all_goals exact .escaped rfl

theorem spells_flatMap_escape (cs : List Char) : Spells (cs.flatMap escape) cs := by
  induction cs
  case nil => exact .nil
  case cons c cs hi => exact .cons (charForm_escape c) hi

end Json
end Countersign
