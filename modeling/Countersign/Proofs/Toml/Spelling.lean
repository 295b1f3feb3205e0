import Countersign.Toml.Document

namespace Countersign.Toml

open Toml.Scan (isBlank isPlain isBare)

def AreBlank (w : List Char) : Prop :=
  ∀ c ∈ w, isBlank c

instance {w : List Char} : Decidable (AreBlank w) :=
  decidable_of_iff (w.all isBlank) List.all_eq_true

theorem AreBlank.nil : AreBlank [] :=
  nofun

inductive Comment : List Char → Prop
  | none : Comment []
  | some {cs : List Char} (h : ∀ c ∈ cs, isPlain c) : Comment ('#' :: cs)

inductive LineBreak : List Char → Prop
  | lf : LineBreak ['\n']
  | crlf : LineBreak ['\r', '\n']

section Strings

-- So many hexadecimal digits are the code point of the character.
structure HexCode (count : Nat) (q : List Char) (c : Char) : Prop where
  length : q.length = count
  value  : ∃ digits, q.mapM Text.hexDigit? = some digits ∧ Text.number 16 digits = c.toNat

-- A backslash and the first character stand for the second.
inductive Escapes : Char → Char → Prop
  | backspace : Escapes 'b' '\x08'
  | tab : Escapes 't' '\t'
  | lineFeed : Escapes 'n' '\n'
  | formFeed : Escapes 'f' '\x0c'
  | carriageReturn : Escapes 'r' '\r'
  | quote : Escapes '"' '"'
  | backslash : Escapes '\\' '\\'

-- The forms that a character can take in a basic string.
inductive CharForm : List Char → Char → Prop
  | plain {c : Char} (quote : c ≠ '"') (backslash : c ≠ '\\') (h : isPlain c) : CharForm [c] c
  | escaped {e c : Char} (h : Escapes e c) : CharForm ['\\', e] c
  | short {q : List Char} {c : Char} (h : HexCode 4 q c) : CharForm ('\\' :: 'u' :: q) c
  | long {q : List Char} {c : Char} (h : HexCode 8 q c) : CharForm ('\\' :: 'U' :: q) c

-- What stands between the quotes of a basic string, and the characters it stands for.
inductive Spells : List Char → List Char → Prop
  | nil : Spells [] []
  | cons {f s cs : List Char} {c : Char} (h : CharForm f c) (rest : Spells s cs) :
    Spells (f ++ s) (c :: cs)

inductive BasicString : List Char → String → Prop
  | mk {body cs : List Char} (h : Spells body cs) :
    BasicString ('"' :: body ++ ['"']) (String.ofList cs)

-- Characters that a basic string may hold as they are.
def isUnescaped (c : Char) : Bool :=
  c ≠ '"' && c ≠ '\\' && isPlain c

theorem Spells.of_unescaped {cs : List Char} (h : cs.all isUnescaped) : Spells cs cs := by
  induction cs
  case nil => exact .nil
  case cons c cs hi =>
    simp only [List.all_cons, isUnescaped, Bool.and_eq_true, decide_eq_true_eq] at h
    obtain ⟨⟨⟨hq, hb⟩, hp⟩, hr⟩ := h
    exact .cons (.plain hq hb hp) <| hi hr

theorem BasicString.of_unescaped {s : String} (h : s.toList.all isUnescaped) :
    BasicString ('"' :: s.toList ++ ['"']) s := by
  have hs := BasicString.mk <| Spells.of_unescaped h
  rwa [String.ofList_toList] at hs

def asciiCode (n : Nat) : List Char :=
  ['0', '0', Nat.digitChar (n / 16), Nat.digitChar (n % 16)]

theorem hexCode_asciiCode {c : Char} (h : c.toNat < 128) : HexCode 4 (asciiCode c.toNat) c := by
  have hn : ∀ n < 128, ((asciiCode n).mapM Text.hexDigit?).map (Text.number 16) = some n := by
    decide
  exact ⟨rfl, Option.map_eq_some_iff.mp <| hn _ h⟩

theorem exists_charForm (c : Char) : ∃ f, CharForm f c := by
  by_cases hq : c = '"'
  case pos =>
    subst hq
    exact ⟨_, .escaped .quote⟩
  by_cases hb : c = '\\'
  case pos =>
    subst hb
    exact ⟨_, .escaped .backslash⟩
  by_cases hp : isPlain c
  case pos => exact ⟨_, .plain hq hb hp⟩
  have hc : c.toNat < 128 := by
    simp only [isPlain, Bool.or_eq_true, Bool.and_eq_true, decide_eq_true_eq] at hp
    omega
  exact ⟨_, .short <| hexCode_asciiCode hc⟩

theorem exists_spells : ∀ cs : List Char, ∃ body, Spells body cs
  | [] => ⟨_, .nil⟩
  | c :: cs =>
    have ⟨_, hf⟩ := exists_charForm c
    have ⟨_, hb⟩ := exists_spells cs
    ⟨_, .cons hf hb⟩

-- There is no text that a basic string could not hold.
theorem exists_basicString (s : String) : ∃ t, BasicString t s := by
  have ⟨_, hb⟩ := exists_spells s.toList
  have hs := BasicString.mk hb
  rw [String.ofList_toList] at hs
  exact ⟨_, hs⟩

inductive LiteralString : List Char → String → Prop
  | mk {cs : List Char} (h : ∀ c ∈ cs, c ≠ '\'' ∧ isPlain c) :
    LiteralString ('\'' :: cs ++ ['\'']) (String.ofList cs)

end Strings

section Keys

inductive KeyPart : List Char → String → Prop
  | bare {cs : List Char} (ne_nil : cs ≠ []) (h : ∀ c ∈ cs, isBare c) :
    KeyPart cs (String.ofList cs)
  | basic {t : List Char} {s : String} (h : BasicString t s) : KeyPart t s
  | literal {t : List Char} {s : String} (h : LiteralString t s) : KeyPart t s

-- A key, by its parts, with the blanks behind it.
inductive Key : List Char → List String → Prop
  | part {t w : List Char} {s : String} (ht : KeyPart t s) (hw : AreBlank w) : Key (t ++ w) [s]
  | dotted {t w w' u : List Char} {s : String} {ss : List String} (ht : KeyPart t s)
    (hw : AreBlank w) (hw' : AreBlank w') (rest : Key u ss) :
    Key (t ++ (w ++ '.' :: (w' ++ u))) (s :: ss)

theorem KeyPart.of_bare {s : String} (ne_nil : s.toList ≠ []) (h : s.toList.all isBare) :
    KeyPart s.toList s := by
  have hs := KeyPart.bare ne_nil <| List.all_eq_true.mp h
  rwa [String.ofList_toList] at hs

theorem Key.of_keyPart {t : List Char} {s : String} (h : KeyPart t s) : Key (t ++ []) ([] ++ [s]) :=
  .part h .nil

end Keys

-- What a line says.
inductive Statement
  -- A table is opened.
  | table (before : List String) (last : String)
  -- Another of the tables that share a header is opened.
  | element (before : List String) (last : String)
  -- A key of the open table is set.
  | assign (before : List String) (last : String) (item : Item)

-- What may stand between a value and the rest of the text, and this rest.
inductive Ends : List Char → List Char → Prop
  | lineBreak {b rest : List Char} (h : LineBreak b) : Ends b rest
  | eof : Ends [] []

-- The text is read as a value wherever it stands alone in front of the end of a line.
def IsValue (t : List Char) (item : Item) : Prop :=
  ∀ w c b rest, AreBlank w → Comment c → Ends b rest →
    Scan.value Scan.depthLimit (t ++ (w ++ (c ++ (b ++ rest)))) =
      some (item, w ++ (c ++ (b ++ rest)))

-- The reader is only asked about values that are neither texts nor flags.
inductive Value : List Char → Item → Prop
  | text {t : List Char} {s : String} (h : BasicString t s) : Value t (.text s)
  | true : Value ['t', 'r', 'u', 'e'] (.flag true)
  | false : Value ['f', 'a', 'l', 's', 'e'] (.flag false)
  | other {t : List Char} {item : Item} (h : IsValue t item) : Value t item

inductive Statement.Spelled : Statement → List Char → Prop
  | table {w k : List Char} {before : List String} {last : String} (hw : AreBlank w)
    (hk : Key k (before ++ [last])) : Spelled (.table before last) ('[' :: (w ++ (k ++ [']'])))
  | element {w k : List Char} {before : List String} {last : String} (hw : AreBlank w)
    (hk : Key k (before ++ [last])) :
    Spelled (.element before last) ('[' :: '[' :: (w ++ (k ++ [']', ']'])))
  | assign {k w v : List Char} {before : List String} {last : String} {item : Item}
    (hk : Key k (before ++ [last])) (hw : AreBlank w) (hv : Value v item) :
    Spelled (.assign before last item) (k ++ '=' :: (w ++ v))

inductive SpelledLine : Option Statement → List Char → Prop
  | blank {w c : List Char} (hw : AreBlank w) (hc : Comment c) : SpelledLine none (w ++ c)
  | statement {w t w' c : List Char} {s : Statement} (hw : AreBlank w) (hs : s.Spelled t)
    (hw' : AreBlank w') (hc : Comment c) : SpelledLine (some s) (w ++ (t ++ (w' ++ c)))

theorem Statement.Spelled.line {s : Statement} {t : List Char} (h : s.Spelled t) :
    SpelledLine (some s) (t ++ ([] ++ [])) :=
  .statement .nil h .nil .none

-- The lines of a text, and what they say in order.
inductive Spelled : List Statement → List Char → Prop
  | last {s? : Option Statement} {t : List Char} (h : SpelledLine s? t) : Spelled s?.toList t
  | more {s? : Option Statement} {ss : List Statement} {t b u : List Char} (h : SpelledLine s? t)
    (hb : LineBreak b) (rest : Spelled ss u) : Spelled (s?.toList ++ ss) (t ++ (b ++ u))

end Countersign.Toml
