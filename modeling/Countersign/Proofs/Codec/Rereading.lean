import Countersign.Codec.Writer
import Countersign.Proofs.Json.Rewriting

namespace Countersign

mutual

-- The names in a record or a choice differ, and all natural numbers have at most 64 bits.
def Codec.isSound : {α : Type} → Codec α → Bool
  | _, .natural limit _ => limit ≤ Numeral.significandLimit
  | _, .option c => c.isSound
  | _, .list c => c.isSound
  | _, .record _ fields => fields.names.Nodup && fields.isSound
  | _, .choice variants => variants.names.Nodup && variants.isSound
  | _, .via _ _ _ c => c.isSound
  | _, .text => true
  | _, .flag => true
  | _, .formatted _ _ _ => true
  | _, .raw => true
  | _, .json => true

def Fields.isSound : {α σ : Type} → Fields α σ → Bool
  | _, _, .nil => true
  | _, _, .cons _ _ c rest => c.isSound && rest.isSound

def Variants.isSound : {α : Type} → Variants α → Bool
  | _, .nil => true
  | _, .cons _ payload rest => payload.isSound && rest.isSound

def Payload.isSound : {α : Type} → Payload α → Bool
  | _, .unit => true
  | _, .wrapped c => c.isSound
  | _, .record _ fields => fields.names.Nodup && fields.isSound

end

-- The value is written as `null`.
@[simp]
def Codec.IsNull : {α : Type} → Codec α → α → Prop
  | _, .raw, s => s = "null"
  | _, .json, j => j = .null
  | _, .option _, none => True
  | _, .option c, some a => c.IsNull a
  | _, .via _ back _ c, b => c.IsNull (back b)
  | _, .text, _ => False
  | _, .flag, _ => False
  | _, .natural _ _, _ => False
  | _, .formatted _ _ _, _ => False
  | _, .list _, _ => False
  | _, .record _ _, _ => False
  | _, .choice _, _ => False

mutual

-- The value can be read from its own text, with `depth` brackets allowed.
def Codec.Fits : {α : Type} → Codec α → (depth : Nat) → α → Prop
  | _, .text, _, _ => True
  | _, .flag, _, _ => True
  | _, .natural limit _, _, n => n < limit
  | _, .formatted _ parse print, _, a => parse (print a) = .ok a
  | _, .raw, _, s => Json.Spelled s.toList
  | _, .json, depth, j => j.Legible depth ∧ j.settled = j
  | _, .option _, _, none => True
  | _, .option c, depth, some a => ¬c.IsNull a ∧ c.Fits depth a
  | _, .list c, depth, as => ∃ d, depth = d + 1 ∧ ∀ a ∈ as, c.Fits d a
  | _, .record _ fields, depth, a => ∃ d, depth = d + 1 ∧ fields.Fit d a
  | _, .choice variants, depth, a => variants.Fit depth a
  | _, .via _ back _ c, depth, b => c.Fits depth (back b)

def Fields.Fit : {α σ : Type} → Fields α σ → (depth : Nat) → α → Prop
  | _, _, .nil, _, _ => True
  | _, _, .cons _ presence c rest, depth, (a, b) =>
    (presence.isBlank a = false → c.Fits depth a) ∧ rest.Fit depth b

def Variants.Fit : {α : Type} → Variants α → (depth : Nat) → α → Prop
  | _, .nil, _, a => nomatch a
  | _, .cons _ payload _, depth, .inl a => payload.Fits depth a
  | _, .cons _ _ rest, depth, .inr b => rest.Fit depth b

def Payload.Fits : {α : Type} → Payload α → (depth : Nat) → α → Prop
  | _, .unit, _, _ => True
  | _, .wrapped c, depth, a => ∃ d, depth = d + 1 ∧ c.Fits d a
  | _, .record _ fields, depth, a => ∃ d, depth = d + 2 ∧ fields.Fit d a

end

attribute [simp] Codec.Fits Fields.Fit Variants.Fit Payload.Fits

open Json Scan Symbols

namespace Scan

variable {α σ : Type} {l : Layout} {depth k : Nat} {expected : String}

theorem text_dropBlanks (s : Symbols) : text expected s.dropBlanks = text expected s :=
  token_bind_dropBlanks

theorem takes_text (s : String) : Takes (text expected) (quote s) s := by
  refine .of_dropBlanks text_dropBlanks ⟨_, _, rfl, by decide⟩ fun {t} _ => ?_
  rw [quote, List.cons_append, List.map_cons, List.cons_append, text,
    bind_of_ok (token_cons (by decide))]
  simp only [skip_bind]
  exact string_quote s t

theorem takes_flag (b : Bool) : Takes flag ((Json.bool b).write l k) b := by
  refine .of_dropBlanks (fun _ => token_bind_dropBlanks) ?_ fun {t} _ => ?_
  · cases b
    all_goals exact ⟨_, _, rfl, by decide⟩
  · cases b
    all_goals
      simp only [write, List.map_cons, List.cons_append]
      rw [flag, bind_of_ok (token_cons (by decide))]
      simp only [skip_bind]
      exact bind_of_ok (word_append _)

theorem takes_natural {limit n : Nat} (hl : limit ≤ Numeral.significandLimit) (hn : n < limit) :
    Takes (natural limit expected) (Nat.toDigits 10 n) n := by
  refine .of_dropBlanks (fun _ => token_bind_dropBlanks) (spelled_toDigits n).opens fun {t} ht => ?_
  have hm := Numeral.magnitude_toDigits false (Nat.lt_of_lt_of_le hn hl) ht
  have hd := (areDigits_toDigits n).isDigit
  have hr : toNatural limit expected (.int n) = .ok n := by simp [toNatural, hn]
  cases hw : Nat.toDigits 10 n
  case nil => exact absurd hw Nat.toDigits_ne_nil
  case cons d ds =>
    rw [hw] at hm hd
    have hd := hd d List.mem_cons_self
    rw [natural, List.map_cons, List.cons_append,
      bind_of_ok (token_cons (isBlank_of_opens <| opens_of_isDigit hd))]
    generalize hy : Symbol.char d = y at hd
    split
    case h_1 => cases hd
    case h_2 =>
      rw [if_pos hd]
      subst hy
      refine (bind_of_ok hm).trans ?_
      simp only [hr, pure_apply]

theorem takes_formatted {parse : String → Except String α} {print : α → String} {a : α}
    (h : parse (print a) = .ok a) : Takes (do
      match parse (← text expected) with
      | .ok a => return a
      | .error reason => reject (.rejected reason)) (quote (print a)) a where
  opens := ⟨_, _, rfl, by decide⟩
  scan hw ht := by
    rw [bind_of_ok ((takes_text _).scan hw ht), h]
    rfl

theorem takes_raw {s : String} (h : Spelled s.toList) : Takes Extent.raw s.toList s where
  opens := h.opens
  scan hw ht := by
    rw [Extent.raw_of_spelled h hw ht, String.ofList_toList]

-- The reader of a value that may be missing.
def optional (p : Scan α) : Scan (Option α) := do
  modify Symbols.dropBlanks
  match ← peek with
  | some (.char 'n') => do skip; word ['u', 'l', 'l']; return none
  | _ => return some (← p)

theorem optional_dropBlanks {p : Scan α} (s : Symbols) : optional p s.dropBlanks = optional p s := by
  simp only [optional, modify_bind, dropBlanks_dropBlanks]

theorem takes_none {p : Scan α} : Takes (optional p) ['n', 'u', 'l', 'l'] none := by
  refine .of_dropBlanks optional_dropBlanks ⟨_, _, rfl, by decide⟩ fun {t} _ => ?_
  have hw : word ['u', 'l', 'l'] (['u', 'l', 'l'].map .char ++ t) = .ok ((), t) := word_append _
  rw [List.map_cons, List.cons_append, optional, modify_bind, dropBlanks_cons (by decide), peek_bind]
  simp only [List.head?_cons, skip_bind]
  exact bind_of_ok hw

theorem takes_some {p : Scan α} {u : List Char} {a : α} (h : Takes p u a)
    (hn : u.head? ≠ some 'n') : Takes (optional p) u (some a) := by
  refine .of_dropBlanks optional_dropBlanks h.opens fun {t} ht => ?_
  have hs := h.scan_nil ht
  obtain ⟨⟨c, v, rfl, hc⟩, _⟩ := h
  rw [List.map_cons, List.cons_append] at hs ⊢
  rw [optional, modify_bind, peek_bind, dropBlanks_cons (isBlank_of_opens hc), List.head?_cons]
  generalize hy : some (Symbol.char c) = y?
  split
  case h_1 =>
    cases hy
    exact absurd rfl hn
  case h_2 => exact bind_of_ok hs

theorem takes_list {item : Nat → Scan α} {items : List (List Char)} {as : List α}
    (h : List.Forall₂ (Takes (item depth)) items as) : Takes (do
      match ← token .endInValue with
      | .char '[' => nested (depth + 1) fun depth => placedBy afterList (list (item depth))
      | _ => refuse "a sequence") (l.array k items) as := by
  refine .of_dropBlanks (fun _ => token_bind_dropBlanks) ⟨_, _, Layout.bracket_eq, by decide⟩
    fun {t} _ => ?_
  rw [Layout.array, Layout.bracket_eq, List.map_cons, List.cons_append,
    bind_of_ok (token_cons (by decide))]
  exact placedBy_eq_ok_iff.mpr <| list_enclosed h

theorem takes_record {fields : Fields α σ} {name : String} {entries : List (String × List Char)}
    {known : Nat → σ → String → Option (Scan σ)} {other : Nat → Scan α} {last : σ} {a : α}
    (h : Gathers l (Fields.takeIn (known depth)) entries fields.start last)
    (hf : fields.finish last = .ok a) : Takes (record (depth + 1) name
      (fun depth => do fields.close (← members (Fields.takeIn (known depth)) fields.start)) other)
      (l.object k entries) a := by
  refine .of_dropBlanks (fun _ => token_bind_dropBlanks) ⟨_, _, Layout.bracket_eq, by decide⟩
    fun {t} _ => ?_
  have hc : fields.close last (.char '\x7d' :: t) = .ok (a, .char '\x7d' :: t) := by
    rw [Fields.close, hf]
    rfl
  have hm := (bind_of_ok <| members_enclosed (k := k) h).trans hc
  rw [Layout.object, Layout.bracket_eq, List.map_cons, List.cons_append, record,
    bind_of_ok (token_cons (by decide))]
  simp only [nested, skip_bind]
  exact bind_of_ok <| placedBy_eq_ok_iff.mpr hm

-- The text is that of one of the variants: its bare name, or an object with what it carries.
inductive Chooses (l : Layout) (k : Nat) (bare : String → Option (Scan α))
    (content : Nat → String → Option (Scan α)) : (depth : Nat) → (names : List String) →
    List Char → α → Prop
  | bare {depth : Nat} {names : List String} {name : String} {p : Scan α} {a : α} (h : name ∈ names)
    (known : bare name = some p) (scan : ∀ s, p s = .ok (a, s)) :
    Chooses l k bare content depth names (quote name) a
  | content {depth : Nat} {names : List String} {name : String} {p : Scan α} {u : List Char} {a : α}
    (h : name ∈ names) (known : content depth name = some p) (takes : Takes p u a) :
    Chooses l k bare content (depth + 1) names (l.object k [(name, u)]) a

-- A variant that is named, in a string whose opening quote has been taken.
def bareVariant (names : List String) (known : String → Option (Scan α)) : Scan α := do
  let name ← string
  match known name with
  | some p => p
  | none => reject (.unknownVariant name names)

-- A variant that is the only member of an object, up to the end of its content.
def heldVariant (names : List String) (known : String → Option (Scan α)) : Scan α := do
  let name ← onlyKey
  match known name with
  | some p => do colon; p
  | none => reject (.unknownVariant name names)

def endVariant (a : α) : Scan α := do
  modify Symbols.dropBlanks
  match ← peek with
  | some (.char '\x7d') => do skip; return a
  | some _ => fail .expectedValue
  | none => fail .endInObject

-- The reader of a value that is one of several variants.
def variant (names : List String) (bare : String → Option (Scan α))
    (content : Nat → String → Option (Scan α)) (depth : Nat) : Scan α := do
  match ← token .endInValue with
  | .char '"' => do skip; bareVariant names bare
  | .char '\x7b' => do endVariant (← nested depth fun depth => heldVariant names (content depth))
  | _ => failNext .expectedValue

section Variants

variable {names : List String} {bare : String → Option (Scan α)}
  {content : Nat → String → Option (Scan α)} {name : String} {p : Scan α} {u : List Char} {a : α}

theorem takes_bareVariant (known : bare name = some p) (scan : ∀ s, p s = .ok (a, s)) :
    Takes (variant names bare content depth) (quote name) a := by
  refine .of_dropBlanks (fun _ => token_bind_dropBlanks) ⟨_, _, rfl, by decide⟩ fun {t} _ => ?_
  rw [quote, List.cons_append, List.map_cons, List.cons_append, variant,
    bind_of_ok (token_cons (by decide))]
  simp only [skip_bind]
  rw [bareVariant, bind_of_ok (string_quote name t), known]
  exact scan t

theorem endVariant_resumed (a : α) (t : Symbols) :
    endVariant a ((l.resumed k '\x7d' []).map .char ++ t) = .ok (a, t) := by
  have hd : dropBlanks ((l.resumed k '\x7d' []).map .char ++ t) = .char '\x7d' :: t := by
    simp only [Layout.resumed, List.map_append, List.append_assoc]
    exact (dropBlanks_append Layout.areBlank_lineBreak).trans <| dropBlanks_cons (by decide)
  rw [endVariant, modify_bind, hd, peek_bind]
  rfl

theorem takes_heldVariant (known : content depth name = some p) (takes : Takes p u a) :
    Takes (variant names bare content (depth + 1)) (l.object k [(name, u)]) a := by
  refine .of_dropBlanks (fun _ => token_bind_dropBlanks) ⟨_, _, Layout.bracket_eq, by decide⟩
    fun {t} _ => ?_
  have hk := onlyKey_quote name
    (t := (l.colon ++ u).map .char ++ ((l.resumed k '\x7d' []).map .char ++ t))
    (Layout.areBlank_lineBreak (l := l) (k := k + 1))
  have hv := takes.scan_colon (l := l) (t := (l.resumed k '\x7d' []).map .char ++ t) <|
    Layout.stops_resumed (b := .object)
  have hh : heldVariant names (content depth) ((l.enclosed k '\x7d' [l.entry name u]).map .char ++ t) =
      .ok (a, (l.resumed k '\x7d' []).map .char ++ t) := by
    simp only [Layout.enclosed_cons, Layout.entry, List.map_append, List.append_assoc] at hk hv ⊢
    rw [heldVariant, bind_of_ok hk, known]
    exact hv
  rw [Layout.object, Layout.bracket_eq, List.map_cons, List.map_cons, List.cons_append, variant,
    bind_of_ok (token_cons (by decide))]
  simp only [nested]
  exact (bind_of_ok hh).trans <| endVariant_resumed a t

theorem takes_variant (h : Chooses l k bare content depth names u a) :
    Takes (variant names bare content depth) u a := by
  cases h
  case bare known _ scan     => exact takes_bareVariant known scan
  case content known _ takes => exact takes_heldVariant known takes

end Variants

end Scan

namespace Fields

variable {α β σ τ : Type} {l : Layout} {depth k : Nat} {key : String}

-- The fields that are read from a written record: all but those left out.
def taken : {α σ : Type} → Fields α σ → α → σ
  | _, _, .nil, _ => ()
  | _, _, .cons _ presence _ rest, (a, b) =>
    (if presence.isBlank a then none else some a, rest.taken b)

-- What is left out in writing is filled in again.
theorem finish_taken : {α σ : Type} → (fields : Fields α σ) → (a : α) →
    fields.finish (fields.taken a) = .ok a
  | _, _, .nil, _ => rfl
  | _, _, .cons name presence _ rest, (a, b) => by
    have hi := rest.finish_taken b
    rw [taken]
    split
    case isFalse => simp [finish, hi, bind, Except.bind, pure, Except.pure]
    case isTrue h =>
      cases presence
      case required => cases h
      case optional default blank blank_eq =>
        simp [finish, hi, blank_eq a h, bind, Except.bind, pure, Except.pure]

theorem scanField_cons_of_ne {name : String} {presence : Presence α} {c : Codec α}
    {rest : Fields β σ} {slot : Option α} {slots : σ} (h : key ≠ name) :
    (cons name presence c rest).scanField depth (slot, slots) key =
      (rest.scanField depth slots key).map (Prod.mk slot <$> ·) := by
  cases slot
  all_goals
    rw [scanField, if_neg h]
    simp

end Fields

section Null

variable {l : Layout} {depth k : Nat}

theorem eq_null_of_head {s : List Char} (h : Spelled s) (hn : s.head? = some 'n') :
    s = ['n', 'u', 'l', 'l'] := by
  cases h
  case group b _ _ h =>
    cases b
    all_goals
      cases h
      all_goals cases hn
  case atom h =>
    cases h
    case null => rfl
    case numeral h =>
      obtain ⟨d, rest, rfl, hd⟩ := h.exists_digit
      cases hn
      cases hd
    all_goals cases hn

theorem head_object {entries : List (String × List Char)} :
    (l.object k entries).head? = some '\x7b' := by
  rw [Layout.object, Layout.bracket_eq, List.head?_cons]

theorem head_toDigits_ne (n : Nat) : (Nat.toDigits 10 n).head? ≠ some 'n' := fun h =>
  absurd (Text.isDigit_of_mem_toDigits <| List.mem_of_mem_head? h) (by decide)

theorem eq_null_of_legible {j : Json} (h : j.Legible depth) (hn : (j.write l k).head? = some 'n') :
    j = .null := by
  cases h
  case null => rfl
  case bool b => cases b <;> cases hn
  case int i _ =>
    simp only [write, Number.write, writeInt] at hn
    split at hn
    case isTrue  => cases hn
    case isFalse => exact absurd hn (head_toDigits_ne _)
  case str => cases hn
  case arr =>
    rw [write, Layout.array, Layout.bracket_eq] at hn
    cases hn
  case obj =>
    rw [write, head_object] at hn
    cases hn

theorem Variants.head_write_ne : {α : Type} → (variants : Variants α) → (a : α) →
    (variants.write l k a).head? ≠ some 'n'
  | _, .cons name payload rest, .inl a => by
    cases payload
    case unit    => exact nofun
    case wrapped => simp [Variants.write, Payload.write, head_object]
    case record  => simp [Variants.write, Payload.write, head_object]
  | _, .cons name payload rest, .inr b => rest.head_write_ne b

-- No other values than those written as `null` begin like it.
theorem Codec.head_write_ne : {α : Type} → (c : Codec α) → {a : α} → c.Fits depth a →
    ¬c.IsNull a → (c.write l k a).head? ≠ some 'n'
  | _, .text, _, _, _ => nofun
  | _, .flag, b, _, _ => by cases b <;> nofun
  | _, .natural _ _, n, _, _ => head_toDigits_ne n
  | _, .formatted _ _ _, _, _, _ => nofun
  | _, .raw, _, hf, hn => fun h => hn <| String.toList_inj.mp <| eq_null_of_head hf h
  | _, .json, _, hf, hn => fun h => hn <| eq_null_of_legible hf.left h
  | _, .option _, none, _, hn => absurd trivial hn
  | _, .option c, some _, hf, _ => c.head_write_ne hf.right hf.left
  | _, .list _, _, _, _ => by
    rw [Codec.write, Layout.array, Layout.bracket_eq, List.head?_cons]
    decide
  | _, .record _ _, _, _, _ => by
    rw [Codec.write, head_object]
    decide
  | _, .choice variants, a, _, _ => variants.head_write_ne a
  | _, .via _ _ _ c, _, hf, hn => c.head_write_ne hf hn

end Null

mutual

theorem Codec.takes_write {l : Layout} : {α : Type} → (c : Codec α) → {depth k : Nat} → {a : α} →
    c.isSound → c.Fits depth a → Takes (c.scan depth) (c.write l k a) a
  | _, .text, _, _, s, _, _ => takes_text s
  | _, .flag, _, _, b, _, _ => takes_flag b
  | _, .natural limit expected, _, _, n, hs, hf => takes_natural (of_decide_eq_true hs) hf
  | _, .formatted expected parse print, _, _, a, _, hf => takes_formatted hf
  | _, .raw, _, _, s, _, hf => takes_raw hf
  | _, .json, _, _, j, _, hf => by
    have ⟨hl, hj⟩ := hf
    have := Json.takes_scan (l := l) (k := ‹_›) hl
    rwa [hj] at this
  | _, .option c, _, _, none, _, _ => takes_none
  | _, .option c, _, _, some a, hs, hf =>
    takes_some (c.takes_write hs hf.right) (c.head_write_ne hf.right hf.left)
  | _, .list c, _, k, as, hs, hf => by
    obtain ⟨d, rfl, hf⟩ := hf
    have hi a ha := c.takes_write (l := l) (k := k + 1) hs (hf a ha)
    rw [Codec.scan, Codec.write]
    refine takes_list ?_
    simpa only [List.forall₂_map_left_iff, List.forall₂_same] using hi
  | _, .record name fields, _, k, a, hs, hf => by
    obtain ⟨d, rfl, hf⟩ := hf
    have ⟨hn, hs⟩ := Bool.and_eq_true_iff.mp hs
    have hg := fields.gathers_entries (l := l) (k := k + 1)
      (of_decide_eq_true hn) hs hf (fields.scanField d) id fun slots key _ => by simp
    rw [Codec.scan, Codec.write]
    exact takes_record hg (fields.finish_taken a)
  | _, .choice variants, _, _, a, hs, hf => by
    have ⟨hn, hs⟩ := Bool.and_eq_true_iff.mp hs
    rw [Codec.scan, Codec.write]
    exact takes_variant <| variants.chooses_write (of_decide_eq_true hn) hs hf
  | _, .via into back into_back c, _, k, b, hs, hf => by
    have := c.takes_write (l := l) (k := k) hs hf |>.map into
    rwa [into_back] at this

-- The fields are taken in one by one. The reader that knows them may know other fields as well,
-- which it leaves as they are.
theorem Fields.gathers_entries {l : Layout} : {α σ : Type} → (fields : Fields α σ) → {depth k : Nat} →
    {a : α} → fields.names.Nodup → fields.isSound → fields.Fit depth a → {τ : Type} →
    (known : τ → String → Option (Scan τ)) → (lift : σ → τ) →
    (∀ slots, ∀ key ∈ fields.names,
      known (lift slots) key = (fields.scanField depth slots key).map (lift <$> ·)) →
    Gathers l (Fields.takeIn known) (fields.entries l k a) (lift fields.start) (lift (fields.taken a))
  | _, _, .nil, _, _, _, _, _, _, _, _, _, _ => .nil
  | _, _, .cons name presence c rest, depth, k, (a, b), hn, hs, hf, _, known, lift, hk => by
    have ⟨hm, hn⟩ := List.nodup_cons.mp hn
    have ⟨hc, hs⟩ := Bool.and_eq_true_iff.mp hs
    have ⟨ha, hf⟩ := hf
    have hr slot : ∀ slots, ∀ key ∈ rest.names, known (lift (slot, slots)) key =
        (rest.scanField depth slots key).map ((fun slots => lift (slot, slots)) <$> ·) := by
      intro slots key hkey
      have hne : key ≠ name := fun h => hm (h ▸ hkey)
      rw [hk _ key (List.mem_cons_of_mem _ hkey), Fields.scanField_cons_of_ne hne, Option.map_map]
      refine congrArg (Option.map · _) <| funext fun p => ?_
      simp
    rw [Fields.entries, Fields.taken]
    split
    case isTrue hb => exact rest.gathers_entries hn hs hf known _ (hr none)
    case isFalse hb =>
      have hb : presence.isBlank a = false := by simpa using hb
      refine .cons (fun {t} ht => ?_) (rest.gathers_entries hn hs hf known _ (hr (some a)))
      have hv := (c.takes_write (l := l) (k := k) hc (ha hb)).scan_colon (l := l) ht
      have hks : known (lift (none, rest.start)) name = some (lift <$> do
          Scan.colon
          return (some (← c.scan depth), rest.start)) := by
        rw [hk _ name List.mem_cons_self, Fields.scanField, if_pos rfl]
        rfl
      have hp : (do Scan.colon; return (some (← c.scan depth), rest.start) : Scan _)
          ((l.colon ++ c.write l k a).map .char ++ t) = .ok ((some a, rest.start), t) := by
        rw [← bind_assoc, bind_of_ok hv, pure_apply]
      simp only [Fields.takeIn, Fields.start, hks]
      exact map_of_ok hp

theorem Variants.chooses_write {l : Layout} : {α : Type} → (variants : Variants α) →
    {depth k : Nat} → {a : α} → variants.names.Nodup → variants.isSound → variants.Fit depth a →
    Chooses l k variants.scanBare variants.scanContent depth variants.names (variants.write l k a) a
  | _, .cons name payload rest, depth, k, .inl a, _, hs, hf => by
    have ⟨hp, _⟩ := Bool.and_eq_true_iff.mp hs
    rcases payload.chooses_write (l := l) (k := k) name hp hf with ⟨hw, hp⟩ | ⟨d, u, rfl, hw, hp⟩
    case inl =>
      rw [Variants.write, hw]
      refine .bare List.mem_cons_self (by rw [Variants.scanBare, if_pos rfl]) fun s => ?_
      exact bind_of_ok (hp s)
    case inr =>
      rw [Variants.write, hw]
      refine .content List.mem_cons_self (by rw [Variants.scanContent, if_pos rfl]) <| hp.map Sum.inl
  | _, .cons name payload rest, depth, k, .inr b, hn, hs, hf => by
    have ⟨hm, hn⟩ := List.nodup_cons.mp hn
    have ⟨_, hs⟩ := Bool.and_eq_true_iff.mp hs
    have hr := rest.chooses_write (l := l) (k := k) hn hs hf
    rw [Variants.write]
    generalize rest.write l k b = u at hr
    cases hr
    case bare key p known hkey scan =>
      have hne : key ≠ name := fun h => hm (h ▸ hkey)
      refine .bare (List.mem_cons_of_mem _ hkey) (by rw [Variants.scanBare, if_neg hne, known]; rfl)
        fun s => ?_
      exact bind_of_ok (scan s)
    case content key p u known hkey takes =>
      have hne : key ≠ name := fun h => hm (h ▸ hkey)
      refine .content (List.mem_cons_of_mem _ hkey)
        (by rw [Variants.scanContent, if_neg hne, known]; rfl) <| takes.map Sum.inr

-- A variant of the given name is written as this name, or as an object under it.
theorem Payload.chooses_write {l : Layout} : {α : Type} → (payload : Payload α) →
    {depth k : Nat} → {a : α} → (name : String) → payload.isSound → payload.Fits depth a →
    (payload.write l k name a = quote name ∧ ∀ s, payload.scanBare s = .ok (a, s)) ∨
      ∃ d u, depth = d + 1 ∧ payload.write l k name a = l.object k [(name, u)] ∧
        Takes (payload.scanContent d) u a
  | _, .unit, _, _, _, _, _, _ => .inl ⟨rfl, fun _ => rfl⟩
  | _, .wrapped c, _, _, _, _, hs, hf => by
    obtain ⟨d, rfl, hf⟩ := hf
    exact .inr ⟨d, _, rfl, rfl, c.takes_write hs hf⟩
  | _, .record kind fields, _, k, a, _, hs, hf => by
    obtain ⟨d, rfl, hf⟩ := hf
    have ⟨hn, hs⟩ := Bool.and_eq_true_iff.mp hs
    have hg := fields.gathers_entries (l := l) (k := k + 2)
      (of_decide_eq_true hn) hs hf (fields.scanField d) id fun slots key _ => by simp
    refine .inr ⟨d + 1, _, rfl, rfl, ?_⟩
    rw [Payload.scanContent]
    exact takes_record hg (fields.finish_taken a)

end

-- What is written in any layout is read as what it was written for.
theorem Codec.readText_write {α : Type} {c : Codec α} {a : α} (hs : c.isSound)
    (hf : c.Fits depthLimit a) (l : Layout) : c.readText ((c.write l 0 a).map .char) = .ok a :=
  all_of_takes <| c.takes_write hs hf

end Countersign
