import Countersign.Proofs.Toml.Spelling

namespace Countersign.Toml

open Toml.Scan (isBlank)

-- What comes first in a text made of two is either way of a kind.
theorem head_append {s t : List Char} {p : Char → Prop} (hs : ∀ c ∈ s.head?, p c)
    (ht : ∀ c ∈ t.head?, p c) : ∀ c ∈ (s ++ t).head?, p c := by
  cases s
  case nil  => exact ht
  case cons => exact hs

theorem head_cons {c : Char} {s : List Char} {p : Char → Prop} (h : p c) :
    ∀ x ∈ (c :: s).head?, p x := by
  rintro x ⟨⟩
  exact h

theorem AreBlank.head {w : List Char} (h : AreBlank w) : ∀ c ∈ w.head?, isBlank c :=
  fun _ hc => h _ <| List.mem_of_mem_head? hc

theorem AreBlank.head_ne {w : List Char} (h : AreBlank w) {x : Char} (hx : isBlank x = false) :
    ∀ c ∈ w.head?, c ≠ x :=
  fun c hc he => by simp [he ▸ h.head c hc] at hx

theorem Ends.head {b rest : List Char} (h : Ends b rest) {x : Char}
    (hx : x ∈ (b ++ rest).head?) : x = '\n' ∨ x = '\r' := by
  cases h
  case lineBreak h =>
    cases h
    case lf   => exact .inl (Option.some.inj hx).symm
    case crlf => exact .inr (Option.some.inj hx).symm
  case eof => cases hx

namespace Scan

variable {α β σ : Type} {p : Scan α} {f : α → Scan β} {s t u w rest : List Char} {a : α}

theorem bind_of_some (h : p s = some (a, t)) : (p >>= f) s = f a t := by
  simp [bind, StateT.bind, h]

theorem bind_of_none (h : p s = none) : (p >>= f) s = none := by
  simp [bind, StateT.bind, h]

@[simp]
theorem pure_apply : (pure a : Scan α) s = some (a, s) :=
  rfl

@[simp]
theorem get_bind {g : List Char → Scan β} : (get >>= g) s = g s s :=
  rfl

@[simp]
theorem skip_bind {n : Nat} {g : Unit → Scan β} : (skip n >>= g) s = g () (s.drop n) :=
  rfl

@[simp]
theorem peek_bind {g : Option Char → Scan β} : (peek >>= g) s = g s.head? s :=
  rfl

theorem take?_append (cs rest : List Char) : take? cs (cs ++ rest) = some (true, rest) := by
  rw [take?, get_bind, if_pos (by simp), skip_bind, List.drop_left]
  rfl

theorem take?_cons (c : Char) (rest : List Char) : take? [c] (c :: rest) = some (true, rest) :=
  take?_append [c] rest

theorem take?_of_not (h : cs.isPrefixOf s = false) : take? cs s = some (false, s) := by
  rw [take?, get_bind, if_neg (by simp [h])]
  rfl

theorem take?_of_head_ne {c : Char} {cs : List Char} (h : s.head? ≠ some c) :
    take? (c :: cs) s = some (false, s) := by
  refine take?_of_not ?_
  cases s
  case nil => rfl
  case cons d s =>
    have hd : ¬c = d := fun he => h <| congrArg some he.symm
    simp [List.isPrefixOf, hd]

theorem expect_append (cs rest : List Char) : expect cs (cs ++ rest) = some ((), rest) := by
  rw [expect, bind_of_some (take?_append cs rest)]
  rfl

theorem expect_cons (c : Char) (rest : List Char) : expect [c] (c :: rest) = some ((), rest) :=
  expect_append [c] rest

-- All characters of a kind are taken up to one that is not.
theorem takeWhile_append {q : Char → Bool} (ht : ∀ c ∈ t, q c)
    (hr : ∀ c ∈ rest.head?, q c = false) : takeWhile q (t ++ rest) = some (t, rest) := by
  have hn : rest.takeWhile q = [] := by
    cases rest
    case nil => rfl
    case cons c rest => simp [hr c rfl]
  have hw : (t ++ rest).takeWhile q = t := by
    rw [List.takeWhile_append_of_pos ht, hn, List.append_nil]
  rw [takeWhile, get_bind, hw, skip_bind, List.drop_left]
  rfl

section Repetition

-- The step is taken again and again until it has nothing to add.
inductive Repeats (step : σ → Scan (Option σ)) : σ → List Char → σ → List Char → Prop
  | stop {st : σ} {s t : List Char} (h : step st s = some (none, t)) : Repeats step st s st t
  | more {st st' last : σ} {s mid t : List Char} (h : step st s = some (some st', mid))
    (shorter : mid.length < s.length) (rest : Repeats step st' mid last t) :
    Repeats step st s last t

theorem exhaust_of_repeats {step : σ → Scan (Option σ)} {st st' : σ} (h : Repeats step st s st' t) :
    exhaust step st s = some (st', t) := by
  suffices hr : ∀ fuel, s.length < fuel → repeatStep step fuel st s = some (st', t) from
    hr _ (Nat.lt_succ_self _)
  induction h
  all_goals
    intro fuel hf
    obtain ⟨fuel, rfl⟩ := Nat.exists_eq_succ_of_ne_zero (Nat.ne_zero_of_lt hf)
    rw [repeatStep, bind_of_some ‹_›]
  case stop => rfl
  case more hl _ hi => exact hi fuel (by omega)

end Repetition

section Blanks

theorem blanks_append (hw : AreBlank w) (hr : ∀ c ∈ rest.head?, isBlank c = false) :
    blanks (w ++ rest) = some ((), rest) := by
  rw [blanks, bind_of_some (takeWhile_append hw hr)]
  rfl

variable {b c : List Char}

theorem newline?_of_lineBreak (h : LineBreak b) : newline? (b ++ rest) = some (true, rest) := by
  cases h
  case lf =>
    exact bind_of_some (take?_cons '\n' rest)
  case crlf =>
    rw [newline?, bind_of_some (take?_of_head_ne (by simp))]
    exact take?_append ['\r', '\n'] rest

theorem comment_of_comment (hc : Comment c) (he : Ends b rest) :
    comment (c ++ (b ++ rest)) = some ((), b ++ rest) := by
  cases hc
  case none =>
    have hh : (b ++ rest).head? ≠ some '#' := fun hh => by
      cases he.head hh
      all_goals contradiction
    rw [comment, List.nil_append, bind_of_some (take?_of_head_ne hh)]
    rfl
  case some cs hp =>
    have hn : ∀ x ∈ (b ++ rest).head?, isPlain x = false := fun x hx => by
      rcases he.head hx with rfl | rfl
      all_goals rfl
    rw [comment, List.cons_append, bind_of_some (take?_cons '#' _), if_pos rfl]
    rw [bind_of_some (takeWhile_append hp hn)]
    rfl

theorem isBlank_of_comment (hc : Comment c) (he : Ends b rest) :
    ∀ x ∈ (c ++ (b ++ rest)).head?, isBlank x = false := by
  refine head_append ?_ fun x hx => ?_
  case refine_1 =>
    cases hc
    case none => exact nofun
    case some => exact head_cons rfl
  case refine_2 =>
    rcases he.head hx with rfl | rfl
    all_goals rfl

theorem lineEnd_of_comment (hw : AreBlank w) (hc : Comment c) (he : Ends b rest) :
    lineEnd (w ++ (c ++ (b ++ rest))) = some ((), rest) := by
  rw [lineEnd, bind_of_some (blanks_append hw (isBlank_of_comment hc he)),
    bind_of_some (comment_of_comment hc he)]
  cases he
  case lineBreak hb =>
    rw [bind_of_some (newline?_of_lineBreak hb)]
    rfl
  case eof => rfl

end Blanks

section Strings

variable {quote c : Char} {cs f q body : List Char} {text : String}

theorem length_of_mapM {digits : List Nat} (h : q.mapM Text.hexDigit? = some digits) :
    digits.length = q.length := by
  induction q generalizing digits
  case nil =>
    cases h
    rfl
  case cons c q hi =>
    simp only [List.mapM_cons, Option.bind_eq_bind, Option.bind_eq_some_iff] at h
    obtain ⟨_, _, ds, hd, ⟨⟩⟩ := h
    exact congrArg (· + 1) (hi hd)

theorem codePoint_of_hexCode {count : Nat} (h : HexCode count q c) :
    codePoint count (q ++ rest) = some (c, rest) := by
  obtain ⟨rfl, digits, hd, hn⟩ := h
  have hv : digits.length = q.length ∧ (Text.number 16 digits).isValidChar :=
    ⟨length_of_mapM hd, hn ▸ c.valid⟩
  have hc : Char.ofNatAux (Text.number 16 digits) hv.right = c := by
    have ho := Char.ofNat_toNat c
    rwa [← hn, Char.ofNat, dif_pos hv.right] at ho
  rw [codePoint, get_bind, List.take_left]
  dsimp only
  rw [skip_bind, List.drop_left, hd]
  dsimp only
  rw [dif_pos hv, hc]
  rfl

theorem escape_of_escapes {e : Char} (h : Escapes e c) : escape (e :: rest) = some (c, rest) := by
  cases h
  all_goals rfl

theorem escape_short (h : HexCode 4 q c) : escape ('u' :: q ++ rest) = some (c, rest) :=
  codePoint_of_hexCode h

theorem escape_long (h : HexCode 8 q c) : escape ('U' :: q ++ rest) = some (c, rest) :=
  codePoint_of_hexCode h

-- One turn of the reader of strings, which collects the characters in reverse.
def collect (quote : Char) (escapes : Bool) (cs : List Char) : Scan (Option (List Char)) := do
  match ← peek with
  | none => failure
  | some c =>
    if c = quote then return none
    else if c = '\\' ∧ escapes then do skip 1; return some ((← escape) :: cs)
    else if isPlain c then do skip 1; return some (c :: cs)
    else failure

theorem collect_quote {escapes : Bool} :
    collect quote escapes cs (quote :: rest) = some (none, quote :: rest) := by
  simp [collect]

theorem collect_plain {escapes : Bool} (hq : c ≠ quote) (hb : escapes → c ≠ '\\') (hp : isPlain c) :
    collect quote escapes cs (c :: rest) = some (some (c :: cs), rest) := by
  have hb : ¬(c = '\\' ∧ escapes = true) := fun h => hb h.right h.left
  rw [collect, peek_bind, List.head?_cons]
  simp only [if_neg hq, if_neg hb, if_pos hp]
  rfl

theorem collect_charForm (h : CharForm f c) :
    collect '"' true cs (f ++ rest) = some (some (c :: cs), rest) := by
  have he {e : List Char} (h : escape (e ++ rest) = some (c, rest)) :
      collect '"' true cs ('\\' :: e ++ rest) = some (some (c :: cs), rest) := by
    rw [collect, List.cons_append, peek_bind, List.head?_cons]
    simp only [if_neg (show '\\' ≠ '"' by decide), and_self, if_true, skip_bind]
    exact bind_of_some h
  cases h
  case plain hq hb hp => exact collect_plain hq (fun _ => hb) hp
  case escaped h      => exact he (escape_of_escapes h)
  case short h        => exact he (escape_short h)
  case long h         => exact he (escape_long h)

theorem length_charForm_pos (h : CharForm f c) : 0 < f.length := by
  cases h
  all_goals exact Nat.succ_pos _

theorem repeats_of_spells (h : Spells body cs) (before : List Char) :
    Repeats (collect '"' true) before (body ++ '"' :: rest) (cs.reverse ++ before)
      ('"' :: rest) := by
  induction h generalizing before
  case nil => exact .stop collect_quote
  case cons f body cs c hf _ hi =>
    rw [List.append_assoc]
    refine .more (collect_charForm hf) ?_ (by simpa using hi (c :: before))
    have := length_charForm_pos hf
    simp only [List.length_append]
    omega

theorem repeats_of_plain (h : ∀ c ∈ cs, c ≠ quote ∧ isPlain c) (before : List Char) :
    Repeats (collect quote false) before (cs ++ quote :: rest) (cs.reverse ++ before)
      (quote :: rest) := by
  induction cs generalizing before
  case nil => exact .stop collect_quote
  case cons c cs hi =>
    have ⟨⟨hq, hp⟩, hr⟩ := List.forall_mem_cons.mp h
    refine .more (collect_plain hq nofun hp) ?_ (by simpa using hi hr (c :: before))
    simp

theorem lineString_of_repeats {escapes : Bool}
    (h : Repeats (collect quote escapes) [] s cs.reverse (quote :: rest)) :
    lineString quote escapes s = some (String.ofList cs, rest) := by
  change (exhaust (collect quote escapes) [] >>= _) s = _
  rw [bind_of_some (exhaust_of_repeats h), skip_bind]
  simp [ofReversed]

theorem lineString_of_spells (h : Spells body cs) :
    lineString '"' true (body ++ '"' :: rest) = some (String.ofList cs, rest) :=
  lineString_of_repeats <| by simpa using repeats_of_spells h []

theorem lineString_of_plain (h : ∀ c ∈ cs, c ≠ quote ∧ isPlain c) :
    lineString quote false (cs ++ quote :: rest) = some (String.ofList cs, rest) :=
  lineString_of_repeats <| by simpa using repeats_of_plain h []

-- Three quotes would open another kind of string.
theorem isPrefixOf_quotes (h : Spells body cs) (hr : rest.head? ≠ some '"') :
    ['"', '"', '"'].isPrefixOf ('"' :: (body ++ '"' :: rest)) = false := by
  cases h
  case nil =>
    cases rest
    case nil => rfl
    case cons c rest =>
      have hc : '"' ≠ c := fun he => hr <| congrArg some he.symm
      simp [List.isPrefixOf, hc]
  case cons hf _ =>
    cases hf
    case plain hq _ _ =>
      have hq := Ne.symm hq
      simp [List.isPrefixOf, hq]
    all_goals rfl

theorem basicString_of_basicString (h : BasicString t text) (hr : rest.head? ≠ some '"') :
    basicString (t ++ rest) = some (text, rest) := by
  cases h
  case mk body cs hs =>
    simp only [List.cons_append, List.append_assoc, List.nil_append]
    rw [basicString, bind_of_some (take?_of_not (isPrefixOf_quotes hs hr))]
    exact (bind_of_some <| expect_cons '"' _).trans <| lineString_of_spells hs

end Strings

section Keys

variable {text : String} {before : List String} {last : String} {k : List Char}

-- What follows a part of a key cannot go on with it.
def EndsPart (rest : List Char) : Prop :=
  ∀ c ∈ rest.head?, isBare c = false

theorem simpleKey_of_keyPart (h : KeyPart t text) (hr : EndsPart rest) :
    simpleKey (t ++ rest) = some (text, rest) := by
  cases h
  case bare hn hb =>
    obtain ⟨c, cs, rfl⟩ := List.exists_cons_of_ne_nil hn
    have hq : c ≠ '"' ∧ c ≠ '\'' := by
      have hc := hb c List.mem_cons_self
      constructor
      all_goals
        rintro rfl
        contradiction
    rw [simpleKey, peek_bind]
    generalize hy : (c :: cs ++ rest).head? = y?
    split
    case h_1 => exact absurd (Option.some.inj hy) hq.left
    case h_2 => exact absurd (Option.some.inj hy) hq.right
    case h_3 =>
      rw [bind_of_some (takeWhile_append hb hr)]
      rfl
  case basic h =>
    cases h
    case mk body cs hs =>
      simp only [List.cons_append, List.append_assoc, List.nil_append]
      rw [simpleKey, peek_bind, List.head?_cons]
      exact (bind_of_some <| expect_cons '"' _).trans <| lineString_of_spells hs
  case literal h =>
    cases h
    case mk cs hp =>
      simp only [List.cons_append, List.append_assoc, List.nil_append]
      rw [simpleKey, peek_bind, List.head?_cons]
      exact (bind_of_some <| expect_cons '\'' _).trans <| lineString_of_plain hp

-- What the reader of keys does first, and then after each dot.
def part : Scan String := do
  blanks
  let s ← simpleKey
  blanks
  return s

def morePart : List String × String → Scan (Option (List String × String)) :=
  fun (before, last) => do
    if ← take? ['.'] then return some (before ++ [last], ← part) else return none

-- What follows a key can neither go on with it nor be a blank.
structure EndsKey (rest : List Char) : Prop where
  part  : EndsPart rest
  blank : ∀ c ∈ rest.head?, isBlank c = false
  dot   : rest.head? ≠ some '.'

theorem isBare_of_isBlank {c : Char} (h : isBlank c) : isBare c = false := by
  have hc : c = ' ' ∨ c = '\t' := by simpa [isBlank] using h
  rcases hc with rfl | rfl
  all_goals rfl

-- The characters with which a key can begin.
def BeginsKey (c : Char) : Prop :=
  isBare c ∨ c = '"' ∨ c = '\''

instance {c : Char} : Decidable (BeginsKey c) :=
  inferInstanceAs <| Decidable (_ ∨ _ ∨ _)

theorem BeginsKey.ne {c x : Char} (h : BeginsKey c) (hx : ¬BeginsKey x) : c ≠ x :=
  fun he => hx <| he ▸ h

theorem BeginsKey.isBlank_eq_false {c : Char} (h : BeginsKey c) : isBlank c = false := by
  refine Bool.eq_false_iff.mpr fun hw => ?_
  have hc : c = ' ' ∨ c = '\t' := by simpa [isBlank] using hw
  rcases hc with rfl | rfl
  all_goals exact absurd h (by decide)

theorem beginsKey_of_keyPart (h : KeyPart t text) : ∃ c s, t = c :: s ∧ BeginsKey c := by
  cases h
  case bare hn hb =>
    obtain ⟨c, cs, rfl⟩ := List.exists_cons_of_ne_nil hn
    exact ⟨c, cs, rfl, .inl <| hb c List.mem_cons_self⟩
  case basic h =>
    cases h
    exact ⟨_, _, rfl, .inr <| .inl rfl⟩
  case literal h =>
    cases h
    exact ⟨_, _, rfl, .inr <| .inr rfl⟩

theorem beginsKey_of_key {names : List String} (h : Key k names) :
    ∃ c s, k = c :: s ∧ BeginsKey c := by
  have hb {t text} (h : KeyPart t text) (u : List Char) : ∃ c s, t ++ u = c :: s ∧ BeginsKey c := by
    have ⟨c, s, he, hc⟩ := beginsKey_of_keyPart h
    exact ⟨c, s ++ u, congrArg (· ++ u) he, hc⟩
  cases h
  case part ht _       => exact hb ht _
  case dotted ht _ _ _ => exact hb ht _

theorem part_of_keyPart (hw : AreBlank w) (ht : KeyPart t text) (hu : AreBlank u)
    (hp : EndsPart rest) (hb : ∀ c ∈ rest.head?, isBlank c = false) :
    part (w ++ (t ++ (u ++ rest))) = some (text, rest) := by
  obtain ⟨x, t, rfl, hx⟩ := beginsKey_of_keyPart ht
  have he : EndsPart (u ++ rest) := head_append (fun c hc => isBare_of_isBlank <| hu.head c hc) hp
  have hn : ∀ c ∈ (x :: t ++ (u ++ rest)).head?, isBlank c = false := head_cons hx.isBlank_eq_false
  rw [part, bind_of_some (blanks_append hw hn),
    bind_of_some (simpleKey_of_keyPart ht he), bind_of_some (blanks_append hu hb)]
  rfl

-- The first part of a key is read, and then one part after each dot.
theorem repeats_of_key {names : List String} (hw : AreBlank w) (hk : Key k names)
    (hr : EndsKey rest) :
    ∃ first mid, part (w ++ (k ++ rest)) = some (first, mid) ∧
      mid.length ≤ (w ++ (k ++ rest)).length ∧
      ∀ done before last, done ++ names = before ++ [last] →
        Repeats morePart (done, first) mid (before, last) rest := by
  induction hk generalizing w
  case part t u s ht hu =>
    rw [List.append_assoc]
    refine ⟨s, rest, part_of_keyPart hw ht hu hr.part hr.blank, ?_, fun done before last he => ?_⟩
    · simp only [List.length_append]
      omega
    have ⟨hb, hl⟩ := List.append_inj' he rfl
    cases hb
    cases hl
    exact .stop <| bind_of_some <| take?_of_head_ne hr.dot
  case dotted t u w' k s ss ht hu hw' _ hi =>
    have ⟨next, mid, hp, hl, hm⟩ := hi hw'
    have ha : t ++ (u ++ '.' :: (w' ++ k)) ++ rest = t ++ (u ++ '.' :: (w' ++ (k ++ rest))) := by
      simp
    rw [ha]
    refine ⟨s, _, part_of_keyPart hw ht hu (head_cons rfl) (head_cons rfl), ?_, ?_⟩
    · simp only [List.length_append]
      omega
    intro done before last he
    have hs : morePart (done, s) ('.' :: (w' ++ (k ++ rest))) =
        some (some (done ++ [s], next), mid) := by
      rw [morePart, bind_of_some (take?_cons '.' _), if_pos rfl, bind_of_some hp]
      rfl
    exact .more hs (Nat.lt_succ_of_le hl) <| hm _ _ _ (by simpa using he)

theorem key_of_key (hw : AreBlank w) (hk : Key k (before ++ [last])) (hr : EndsKey rest) :
    key (w ++ (k ++ rest)) =
      if before.length + 1 < keyLimit then some ((before, last), rest) else none := by
  have ⟨first, mid, hp, _, hm⟩ := repeats_of_key hw hk hr
  change (part >>= _) _ = _
  rw [bind_of_some hp]
  change (exhaust morePart ([], first) >>= _) mid = _
  rw [bind_of_some (exhaust_of_repeats (hm [] before last rfl))]
  by_cases hl : before.length + 1 < keyLimit
  all_goals
    simp only [hl, if_true, if_false]
    rfl

end Keys

end Scan
end Countersign.Toml
