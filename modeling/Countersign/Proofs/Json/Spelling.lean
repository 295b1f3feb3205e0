import Countersign.Json.Extent
import Countersign.Proofs.Json.Scanning

namespace Countersign

namespace Json

-- Four hexadecimal digits and their number.
inductive HexQuad : List Char → Nat → Prop
  | mk {a b c d : Char} {i j k l : Nat} (ha : Text.hexDigit? a = some i)
    (hb : Text.hexDigit? b = some j) (hc : Text.hexDigit? c = some k)
    (hd : Text.hexDigit? d = some l) : HexQuad [a, b, c, d] (((i * 16 + j) * 16 + k) * 16 + l)

-- The forms that a character can take in a quoted text.
inductive CharForm : List Char → Char → Prop
  | plain {c : Char} (quote : c ≠ '"') (backslash : c ≠ '\\') (control : ¬c.toNat < 0x20) :
    CharForm [c] c
  | escaped {e c : Char} (h : Scan.escaped? e = some c) : CharForm ['\\', e] c
  | code {q : List Char} {n : Nat} (h : HexQuad q n) (low : ¬Scan.isLowSurrogate n)
    (high : ¬Scan.isHighSurrogate n) : CharForm ('\\' :: 'u' :: q) (Char.ofNat n)
  | pair {q r : List Char} {n m : Nat} (hq : HexQuad q n) (high : Scan.isHighSurrogate n)
    (hr : HexQuad r m) (low : Scan.isLowSurrogate m) :
    CharForm ('\\' :: 'u' :: q ++ '\\' :: 'u' :: r)
      (Char.ofNat (0x10000 + (n - 0xD800) * 0x400 + (m - 0xDC00)))

-- What stands between the quotes of a text, and the characters it stands for.
inductive Spells : List Char → List Char → Prop
  | nil : Spells [] []
  | cons {f s cs : List Char} {c : Char} (h : CharForm f c) (rest : Spells s cs) :
    Spells (f ++ s) (c :: cs)

-- What can stand between quotes. Surrogates may stand alone, so not all of it spells characters.
inductive Content : List Char → Prop
  | nil : Content []
  | plain {c : Char} {s : List Char} (quote : c ≠ '"') (backslash : c ≠ '\\')
    (control : ¬c.toNat < 0x20) (rest : Content s) : Content (c :: s)
  | escaped {e : Char} {s : List Char} (h : (Scan.escaped? e).isSome) (rest : Content s) :
    Content ('\\' :: e :: s)
  | code {q s : List Char} {n : Nat} (h : HexQuad q n) (rest : Content s) :
    Content ('\\' :: 'u' :: q ++ s)

def enquote (s : List Char) : List Char :=
  '"' :: s ++ ['"']

structure AreDigits (ds : List Char) : Prop where
  ne_nil  : ds ≠ []
  isDigit : ∀ d ∈ ds, (Symbol.char d).isDigit

-- The integer part of a numeral: a leading zero stands alone.
inductive Whole : List Char → Prop
  | zero : Whole ['0']
  | digits {d : Char} {ds : List Char} (h : AreDigits (d :: ds)) (zero : d ≠ '0') : Whole (d :: ds)

inductive Fraction : List Char → Prop
  | none : Fraction []
  | digits {ds : List Char} (h : AreDigits ds) : Fraction ('.' :: ds)

inductive Exponent : List Char → Prop
  | none : Exponent []
  | digits {e : Char} {ds : List Char} (he : e = 'e' ∨ e = 'E') (h : AreDigits ds) :
    Exponent (e :: ds)
  | signed {e sign : Char} {ds : List Char} (he : e = 'e' ∨ e = 'E') (hs : sign = '+' ∨ sign = '-')
    (h : AreDigits ds) : Exponent (e :: sign :: ds)

-- A numeral without its sign.
inductive Magnitude : List Char → Prop
  | mk {i f e : List Char} (whole : Whole i) (fraction : Fraction f) (exponent : Exponent e) :
    Magnitude (i ++ f ++ e)

-- A value without parts.
inductive Atom : List Char → Prop
  | null : Atom ['n', 'u', 'l', 'l']
  | true : Atom ['t', 'r', 'u', 'e']
  | false : Atom ['f', 'a', 'l', 's', 'e']
  | text {s : List Char} (h : Content s) : Atom (enquote s)
  | numeral {s : List Char} (h : Magnitude s) : Atom s
  | negative {s : List Char} (h : Magnitude s) : Atom ('-' :: s)

-- An item of a list, which has no key, or a member of an object with its quoted key.
structure Part where
  key   : List Char
  value : List Char

end Json

def Extent.Bracket.opening : Extent.Bracket → Char
  | list => '['
  | object => '\x7b'

namespace Json

open Extent (Bracket)

-- What comes before the value of a part.
inductive Lead : Bracket → List Char → List Char → Prop
  | item {w : List Char} (h : AreBlank w) : Lead .list [] w
  | member {w₁ k w₂ w₃ : List Char} (h₁ : AreBlank w₁) (hk : Content k) (h₂ : AreBlank w₂)
    (h₃ : AreBlank w₃) : Lead .object (enquote k) (w₁ ++ enquote k ++ w₂ ++ ':' :: w₃)

-- What comes behind the value of a part, up to the closing bracket, with the parts in it.
inductive Tail (b : Bracket) : List Char → List Part → Prop
  | close {w : List Char} (h : AreBlank w) : Tail b (w ++ [b.closing]) []
  | more {w k lead v t : List Char} {parts : List Part} (h : AreBlank w) (hl : Lead b k lead)
    (rest : Tail b t parts) : Tail b (w ++ ',' :: lead ++ v ++ t) (⟨k, v⟩ :: parts)

-- The text of a list or an object is made of the given parts.
inductive Group (b : Bracket) : List Char → List Part → Prop
  | empty {w : List Char} (h : AreBlank w) : Group b (b.opening :: w ++ [b.closing]) []
  | parts {k lead v t : List Char} {parts : List Part} (hl : Lead b k lead)
    (rest : Tail b t parts) : Group b (b.opening :: lead ++ v ++ t) (⟨k, v⟩ :: parts)

-- The text is that of a value, without blanks around it.
inductive Spelled : List Char → Prop
  | atom {s : List Char} (h : Atom s) : Spelled s
  | group {b : Bracket} {s : List Char} {parts : List Part} (h : Group b s parts)
    (values : ∀ p ∈ parts, Spelled p.value) : Spelled s

-- What a value can begin with.
def opens (c : Char) : Bool :=
  c == '"' || c == '\x7b' || c == '[' || c == '-' || c == 'n' || c == 't' || c == 'f' ||
    (Symbol.char c).isDigit

-- The text begins like a value.
def Opens (s : List Char) : Prop :=
  ∃ c rest, s = c :: rest ∧ opens c

-- Nothing that could belong to a value before this point comes next.
def Stops (s : Symbols) : Prop :=
  ∀ c ∈ s.head?, c.isBlank ∨ c = .char ',' ∨ c = .char ']' ∨ c = .char '\x7d'

variable {c : Char} {s : List Char}

theorem isBlank_of_opens (h : opens c) : (Symbol.char c).isBlank = false := by
  cases hb : (Symbol.char c).isBlank
  case false => rfl
  case true =>
    simp only [Symbol.isBlank] at hb
    split at hb
    case h_5 => contradiction
    all_goals
      simp only [Symbol.char.injEq] at *
      subst c
      revert h
      decide

theorem opens_of_isDigit (h : (Symbol.char c).isDigit) : opens c := by
  simp [opens, h]

theorem Opens.ne_nil (h : Opens s) : s ≠ [] := by
  obtain ⟨_, _, rfl, _⟩ := h
  exact List.cons_ne_nil _ _

theorem Magnitude.exists_digit (h : Magnitude s) :
    ∃ d rest, s = d :: rest ∧ (Symbol.char d).isDigit := by
  obtain ⟨whole, _, _⟩ := h
  cases whole
  case zero => exact ⟨'0', _, rfl, by decide⟩
  case digits h _ => exact ⟨_, _, rfl, h.isDigit _ List.mem_cons_self⟩

theorem Spelled.opens (h : Spelled s) : Opens s := by
  cases h
  case group b _ _ h =>
    cases b
    all_goals
      cases h
      all_goals exact ⟨_, _, rfl, by decide⟩
  case atom h =>
    cases h
    case numeral h =>
      have ⟨d, rest, hs, hd⟩ := h.exists_digit
      exact ⟨d, rest, hs, opens_of_isDigit hd⟩
    all_goals exact ⟨_, _, rfl, by decide⟩

end Json
end Countersign
