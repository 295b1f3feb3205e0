import Mathlib.Tactic.ByContra
import Countersign.Json.Writer

namespace Countersign.Json

-- Where a reader is that passes over the text of an object: `depth` is the number of brackets that
-- are open within the object.
inductive Place
  | start
  | inside (depth : Nat)
  | quoted (depth : Nat)
  -- Behind the backslash in a string.
  | escaped (depth : Nat)
  -- Behind a string or a closing bracket.
  | behind (depth : Nat)
  | done
  | lost
  deriving DecidableEq

namespace Place

def leave : Nat → Place
  | 0 => done
  | depth + 1 => behind depth

def step : Place → Char → Place
  | start, '\x7b' => inside 0
  | inside depth, '"' => quoted depth
  | inside depth, '\x7b' => inside (depth + 1)
  | inside depth, '[' => inside (depth + 1)
  | inside depth, '\x7d' => leave depth
  | inside depth, ']' => leave depth
  | inside depth, _ => inside depth
  | quoted depth, '"' => behind depth
  | quoted depth, '\\' => escaped depth
  | quoted depth, _ => quoted depth
  | escaped _, '\x7b' => lost
  | escaped depth, _ => quoted depth
  | behind depth, ':' => inside depth
  | behind depth, ',' => inside depth
  | behind depth, '\x7d' => leave depth
  | behind depth, ']' => leave depth
  | _, _ => lost

def run (p : Place) (cs : List Char) : Place :=
  cs.foldl step p

-- Between the tokens of an object.
inductive Within (d : Nat) : Place → Prop
  | inside : Within d (.inside d)
  | behind : Within d (.behind d)

variable {p : Place} {d : Nat} {c : Char} {cs ds : List Char}

@[simp]
theorem run_nil : p.run [] = p :=
  rfl

@[simp]
theorem run_cons : p.run (c :: cs) = (p.step c).run cs :=
  rfl

@[simp]
theorem run_append : p.run (cs ++ ds) = (p.run cs).run ds :=
  List.foldl_append

theorem leave_ne_start : leave d ≠ start := by
  cases d <;> simp [leave]

-- Nothing leads back to the start.
theorem step_ne_start : p.step c ≠ start := by
  unfold step
  split
  all_goals simp [leave_ne_start]

theorem step_quoted (hq : c ≠ '"') (hb : c ≠ '\\') : (quoted d).step c = quoted d := by
  unfold step
  split <;> simp_all

theorem Within.step_comma (h : Within d p) : p.step ',' = .inside d := by
  cases h <;> rfl

theorem Within.step_brace (h : Within d p) : p.step '\x7d' = leave d := by
  cases h <;> rfl

theorem Within.step_square (h : Within d p) : p.step ']' = leave d := by
  cases h <;> rfl

theorem hexDigit_ne {n : Nat} (h : n < 16) : hexDigit n ≠ '"' ∧ hexDigit n ≠ '\\' := by
  revert n
  decide

theorem run_escape (c : Char) : (quoted d).run (escape c) = quoted d := by
  unfold escape
  split
  case h_8 _ hq hb _ _ _ _ _ =>
    split
    case isTrue h =>
      have ⟨hq₁, hb₁⟩ := hexDigit_ne (n := c.toNat / 16) (by omega)
      have ⟨hq₂, hb₂⟩ := hexDigit_ne (n := c.toNat % 16) (by omega)
      change ((quoted d).step _).step _ = _
      rw [step_quoted hq₁ hb₁, step_quoted hq₂ hb₂]
    case isFalse => exact step_quoted hq hb
  all_goals rfl

theorem run_quote (s : String) : (inside d).run (quote s) = behind d := by
  have h (cs : List Char) : (quoted d).run (cs.flatMap escape) = quoted d := by
    induction cs
    case nil => rfl
    case cons c cs hi => simp [run_escape, hi]
  have ho : (inside d).step '"' = quoted d := rfl
  have hc : (quoted d).step '"' = behind d := rfl
  simp [quote, ho, h, hc]

theorem run_lost (cs : List Char) : lost.run cs = lost := by
  induction cs
  case nil => rfl
  case cons hi => exact hi

theorem run_ne_start (h : cs ≠ []) : p.run cs ≠ start := by
  rw [← List.dropLast_concat_getLast h, run_append]
  exact step_ne_start

theorem step_inside_of_isDigit (h : c.isDigit) : (inside d).step c = inside d := by
  unfold step
  split
  all_goals simp_all

end Place

open Place

-- A text that can stand for a value within an object: a reader is between tokens behind it, as many
-- brackets being open as before it.
def Nested (cs : List Char) : Prop :=
  ∀ d, Within d ((inside d).run cs)

variable {p : Place} {d : Nat} {cs : List Char} {items : List (List Char)}

theorem nested_quote (s : String) : Nested (quote s) :=
  fun d => run_quote (d := d) s ▸ .behind

theorem nested_of_isDigit (h : ∀ c ∈ cs, c.isDigit) : Nested cs := by
  intro d
  induction cs
  case nil => exact .inside
  case cons c cs hi =>
    rw [run_cons, step_inside_of_isDigit (h c List.mem_cons_self)]
    exact hi fun c hc => h c (List.mem_cons_of_mem _ hc)

theorem run_following {k : Nat} (h : ∀ item ∈ items, Nested item) (hp : Within d p) :
    Within d (p.run <| Layout.compact.following k items) := by
  induction items generalizing p
  case nil => exact hp
  case cons item items hi =>
    have ⟨hn, h⟩ := List.forall_mem_cons.mp h
    simp only [Layout.following, Layout.lineBreak, List.cons_append, List.nil_append, run_cons,
      run_append, hp.step_comma]
    exact hi h (hn d)

theorem run_bracket {opening closing : Char} {k : Nat} (ho : p.step opening = inside d)
    (hc : ∀ q, Within d q → q.step closing = leave d) (h : ∀ item ∈ items, Nested item) :
    p.run (Layout.compact.bracket k opening closing items) = leave d := by
  cases items
  case nil => simp [Layout.bracket, ho, hc _ .inside]
  case cons item items =>
    have ⟨hn, h⟩ := List.forall_mem_cons.mp h
    have hw := run_following (k := k + 1) h (hn d)
    simp [Layout.bracket, Layout.lineBreak, ho, hc _ hw]

theorem nested_array {k : Nat} (h : ∀ item ∈ items, Nested item) :
    Nested (Layout.compact.array k items) := by
  intro d
  rw [Layout.array, run_bracket (d := d + 1) rfl (fun _ hq => hq.step_square) h]
  exact .behind

theorem nested_entry {key : String} (h : Nested cs) : Nested (Layout.compact.entry key cs) := by
  intro d
  have hs : (behind d).step ':' = inside d := rfl
  simp only [Layout.entry, Layout.colon, run_append, run_quote, run_cons, run_nil, hs]
  exact h d

variable {k : Nat} {entries : List (String × List Char)}

-- An object is passed over from its opening to its closing bracket.
theorem run_object (ho : p.step '\x7b' = inside d) (h : ∀ e ∈ entries, Nested e.2) :
    p.run (Layout.compact.object k entries) = leave d := by
  refine run_bracket ho (fun _ hq => hq.step_brace) fun item hi => ?_
  have ⟨e, he, hi⟩ := List.mem_map.mp hi
  exact hi ▸ nested_entry (h e he)

-- A bracket in a string does not count.
example : start.run (Layout.compact.object 0 [("key", quote "\x7d")]) = done := by
  decide

theorem nested_object (h : ∀ e ∈ entries, Nested e.2) :
    Nested (Layout.compact.object k entries) := by
  intro d
  rw [run_object (d := d + 1) rfl h]
  exact .behind

-- Only what is all of an object's text can end it and itself be an object with a key.
theorem eq_nil_of_run_append {before rest : List Char} {c : Char}
    (ht : start.run (before ++ '\x7b' :: '"' :: c :: rest) = done)
    (hn : Nested ('\x7b' :: '"' :: c :: rest)) (hc : ∀ d, (behind d).step c = lost) :
    before = [] := by
  by_contra hb
  have hs := run_ne_start (p := start) hb
  rw [run_append] at ht
  cases hq : start.run before
  case start => exact hs hq
  case inside d =>
    have hw := hn d
    rw [← hq, ht] at hw
    cases hw
  case quoted d =>
    -- The bracket is read as part of a string, which ends before the key.
    have hr : (quoted d).run ('\x7b' :: '"' :: c :: rest) = lost.run rest := hc d ▸ rfl
    rw [hq, hr, run_lost] at ht
    cases ht
  all_goals
    rw [hq] at ht
    cases ht.symm.trans (run_lost _)

end Countersign.Json
