import Countersign.Json.Reader
import Countersign.Proofs.Json.Brackets
import Countersign.Proofs.Json.Numerals
import Mathlib.Data.List.Forall2

namespace Countersign.Json

open Symbols

mutual

-- The value with the members of its objects in order; of two with one key the later one stays.
def settled : Json → Json
  | arr items => arr (settledItems items)
  | obj members => ofMembers (settledMembers members)
  | j => j

def settledItems : List Json → List Json
  | [] => []
  | item :: rest => settled item :: settledItems rest

def settledMembers : List (String × Json) → List (String × Json)
  | [] => []
  | (key, value) :: rest => (key, settled value) :: settledMembers rest

end

-- The value is read back from its text, in which no more than `depth` brackets stand open at once:
-- its numbers are integers of 64 bits, and none of its objects stands for an embedded text.
inductive Legible : (depth : Nat) → Json → Prop
  | null {depth : Nat} : Legible depth null
  | bool {depth : Nat} (b : Bool) : Legible depth (bool b)
  | int {depth : Nat} {i : Int} (h : Numeral.Fits i) : Legible depth (num (.int i))
  | str {depth : Nat} (s : String) : Legible depth (str s)
  | arr {depth : Nat} {items : List Json} (h : ∀ item ∈ items, Legible depth item) :
    Legible (depth + 1) (arr items)
  | obj {depth : Nat} {members : List (String × Json)}
    (first : ∀ m ∈ members.head?, m.1 ≠ embeddingKey) (h : ∀ m ∈ members, Legible depth m.2) :
    Legible (depth + 1) (obj members)

variable {l : Layout} {depth k : Nat} {items : List Json} {members : List (String × Json)}
  {inner : Symbols → Except Fault Json} {s t : Symbols}

theorem settledItems_eq : settledItems items = items.map settled := by
  induction items
  case nil        => rfl
  case cons hi    => simp [settledItems, hi]

theorem settledMembers_eq : settledMembers members = members.map fun m => (m.1, m.2.settled) := by
  induction members
  case nil        => rfl
  case cons hi    => simp [settledMembers, hi]

theorem writeItems_eq : writeItems l k items = items.map (write l k) := by
  induction items
  case nil        => rfl
  case cons hi    => simp [writeItems, hi]

theorem writeMembers_eq : writeMembers l k members = members.map fun m => (m.1, m.2.write l k) := by
  induction members
  case nil        => rfl
  case cons hi    => simp [writeMembers, hi]

theorem scanWith_dropBlanks : scanWith inner depth s.dropBlanks = scanWith inner depth s := by
  rw [scanWith.eq_def]
  exact Scan.token_bind_dropBlanks

theorem scanWith_digits {n : Nat} (hn : n < Numeral.significandLimit) (ht : Stops t) :
    scanWith inner depth ((Nat.toDigits 10 n).map .char ++ t) = .ok (num (.int n), t) := by
  have hm := Numeral.magnitude_toDigits false hn ht
  have hd := (areDigits_toDigits n).isDigit
  cases hw : Nat.toDigits 10 n
  case nil => exact absurd hw Nat.toDigits_ne_nil
  case cons d ds =>
    rw [hw] at hm hd
    have hd := hd d List.mem_cons_self
    rw [scanWith.eq_def, List.map_cons, List.cons_append,
      Scan.bind_of_ok (Scan.token_cons (isBlank_of_opens <| opens_of_isDigit hd))]
    generalize hy : Symbol.char d = y at hd
    split
    case h_8 =>
      rw [if_pos hd]
      subst hy
      exact Scan.bind_of_ok hm
    all_goals cases hd

theorem takes_writeInt {i : Int} (h : Numeral.Fits i) :
    Scan.Takes (scanWith inner depth) (writeInt i) (num (.int i)) := by
  unfold writeInt
  obtain ⟨hl, hu⟩ := h
  have hs := (spelled_toDigits i.natAbs).opens
  split
  case isFalse hn =>
    refine .of_dropBlanks (fun _ => scanWith_dropBlanks) hs fun ht => ?_
    rw [List.nil_append, scanWith_digits (by omega) ht, show (i.natAbs : Int) = i by omega]
  case isTrue hn =>
    refine .of_dropBlanks (fun _ => scanWith_dropBlanks) ⟨_, _, rfl, by decide⟩ fun ht => ?_
    have hm := Numeral.magnitude_toDigits (n := i.natAbs) true
      (by simp only [Numeral.leastInteger] at hl; simp only [Numeral.significandLimit, UInt64.size]; omega) ht
    rw [Numeral.integer_of_neg (by omega) (by omega)] at hm
    rw [List.cons_append, List.nil_append, List.map_cons, List.cons_append, scanWith.eq_def,
      Scan.bind_of_ok (Scan.token_cons (by decide))]
    simp only [Scan.skip_bind]
    rw [Scan.bind_of_ok hm, Scan.pure_apply, show -(i.natAbs : Int) = i by omega]

theorem takes_quote (s : String) : Scan.Takes (scanWith inner depth) (quote s) (str s) := by
  refine .of_dropBlanks (fun _ => scanWith_dropBlanks) ⟨_, _, rfl, by decide⟩ fun {t} _ => ?_
  rw [quote, List.cons_append, List.map_cons, List.cons_append, scanWith.eq_def,
    Scan.bind_of_ok (Scan.token_cons (by decide))]
  simp only [Scan.skip_bind]
  rw [Scan.bind_of_ok (Scan.string_quote s t), Scan.pure_apply]

-- An object gathers its members one by one.
theorem gathers_write (acc : List (String × Json))
    (h : ∀ m ∈ members, Scan.Takes (scanWith inner depth) (m.2.write l k) m.2.settled) :
    Scan.Gathers l (fun members key => do
        Scan.colon
        return set key (← scanWith inner depth) members) (writeMembers l k members) acc
      ((settledMembers members).foldl (fun acc (k, v) => set k v acc) acc) := by
  induction members generalizing acc
  case nil => exact .nil
  case cons m members hi =>
    have ⟨hm, h⟩ := List.forall_mem_cons.mp h
    refine .cons (fun ht => ?_) (hi _ h)
    have := hm.scan_colon (l := l) ht
    rw [← bind_assoc, Scan.bind_of_ok this]
    rfl

theorem takes_word {c : Char} {cs : List Char} {j : Json} (hc : opens c)
    (h : ∀ s : Symbols, scanWith inner depth (.char c :: s) =
      (do Scan.word cs; return j : Scan Json) s) :
    Scan.Takes (scanWith inner depth) (c :: cs) j :=
  .of_dropBlanks (fun _ => scanWith_dropBlanks) ⟨c, cs, rfl, hc⟩ fun _ =>
    (h _).trans <| Scan.bind_of_ok <| Scan.word_append cs

theorem takes_array
    (h : ∀ item ∈ items, Scan.Takes (scanWith inner depth) (item.write l (k + 1)) item.settled) :
    Scan.Takes (scanWith inner (depth + 1)) ((arr items).write l k) (arr items).settled := by
  have hf : List.Forall₂ (Scan.Takes (scanWith inner depth)) (writeItems l (k + 1) items)
      (settledItems items) := by
    simpa only [writeItems_eq, settledItems_eq, List.forall₂_map_left_iff,
      List.forall₂_map_right_iff, List.forall₂_same] using h
  refine .of_dropBlanks (fun _ => scanWith_dropBlanks) ⟨_, _, Layout.bracket_eq, by decide⟩
    fun {t} _ => ?_
  rw [write, Layout.array, Layout.bracket_eq, List.map_cons, List.cons_append, scanWith.eq_def,
    Scan.bind_of_ok (Scan.token_cons (by decide))]
  simp only [Scan.skip_bind]
  rw [Scan.bind_of_ok (Scan.list_enclosed hf)]
  rfl

-- The first key is looked at before the others are read, as it may mark an embedded text.
theorem takes_object (first : ∀ m ∈ members.head?, m.1 ≠ embeddingKey)
    (h : ∀ m ∈ members, Scan.Takes (scanWith inner depth) (m.2.write l (k + 1)) m.2.settled) :
    Scan.Takes (scanWith inner (depth + 1)) ((obj members).write l k) (obj members).settled := by
  refine .of_dropBlanks (fun _ => scanWith_dropBlanks) ⟨_, _, Layout.bracket_eq, by decide⟩
    fun {t} _ => ?_
  have hg := gathers_write [] h
  have he : Scan.endObject (.char '\x7d' :: t) = .ok ((), t) := rfl
  rw [write, Layout.object, Layout.bracket_eq, List.map_cons, List.cons_append, scanWith.eq_def,
    Scan.bind_of_ok (Scan.token_cons (by decide))]
  simp only [Scan.skip_bind]
  cases members
  case nil =>
    have hk := Scan.nextKey_closing (w := []) (t := t) true areBlank_nil
    exact (Scan.bind_of_ok hk).trans <| Scan.bind_of_ok he
  case cons m members =>
    cases hg
    case cons st' hm hr =>
      have hm := hm (t := (l.resumed k '\x7d'
        (Scan.entryTexts l (writeMembers l (k + 1) members))).map .char ++ t) <|
          Layout.stops_resumed (b := .object)
      have hk := Scan.nextKey_enclosed (l := l) (k := k) (u := m.2.write l (k + 1)) (t := t) m.1
        (writeMembers l (k + 1) members)
      refine (Scan.bind_of_ok hk).trans ?_
      dsimp only
      rw [if_neg (first m rfl), Scan.bind_of_ok hm, Scan.bind_of_ok (Scan.membersFrom_resumed hr),
        Scan.bind_of_ok he]
      rfl

-- A legible value is taken from its text as the same value settled.
theorem takes_write (inner : Symbols → Except Fault Json) {j : Json} (h : Legible depth j) :
    Scan.Takes (scanWith inner depth) (j.write l k) j.settled := by
  induction h generalizing k
  case null =>
    refine takes_word (by decide) fun s => ?_
    rw [scanWith.eq_def, Scan.bind_of_ok (Scan.token_cons (by decide))]
    rfl
  case bool b =>
    cases b
    all_goals
      refine takes_word (by decide) fun s => ?_
      rw [scanWith.eq_def, Scan.bind_of_ok (Scan.token_cons (by decide))]
      rfl
  case int h           => exact takes_writeInt h
  case str s           => exact takes_quote s
  case arr hi          => exact takes_array fun item h => hi item h
  case obj first _ hi  => exact takes_object first fun m h => hi m h

theorem takes_scan {j : Json} (h : Legible depth j) :
    Scan.Takes (scan depth) (j.write l k) j.settled where
  opens := (takes_write read h).opens
  scan hw ht := (takes_write _ h).scan hw ht

-- A legible value survives being written and read, but for the order of its members.
theorem read_write {j : Json} (h : Legible depthLimit j) (l : Layout) :
    read ((j.write l 0).map .char) = .ok j.settled :=
  Scan.all_of_takes <| takes_scan h

end Countersign.Json
