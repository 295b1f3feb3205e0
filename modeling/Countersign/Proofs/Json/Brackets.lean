import Countersign.Json.Writer
import Countersign.Proofs.Json.Extent

namespace Countersign

open Json Symbols

namespace Layout

variable (l : Layout) (k : Nat)

-- What comes behind the opening bracket.
def enclosed (closing : Char) : List (List Char) → List Char
  | [] => [closing]
  | item :: rest =>
    l.lineBreak (k + 1) ++ item ++ l.following (k + 1) rest ++ l.lineBreak k ++ [closing]

-- What comes behind an item: a comma and the next one, or the closing bracket.
def resumed (closing : Char) : List (List Char) → List Char
  | [] => l.lineBreak k ++ [closing]
  | item :: rest => ',' :: l.lineBreak (k + 1) ++ item ++ resumed closing rest

variable {l k}

theorem following_append {closing : Char} {items : List (List Char)} :
    l.following (k + 1) items ++ l.lineBreak k ++ [closing] =
      l.resumed k closing items := by
  induction items
  case nil => simp [following, resumed]
  case cons hi => simp [following, resumed, ← hi]

theorem enclosed_cons {closing : Char} {item : List Char} {items : List (List Char)} :
    l.enclosed k closing (item :: items) =
      l.lineBreak (k + 1) ++ item ++ l.resumed k closing items := by
  simp [enclosed, ← following_append]

theorem bracket_eq {opening closing : Char} {items : List (List Char)} :
    l.bracket k opening closing items = opening :: l.enclosed k closing items := by
  cases items <;> rfl

theorem areBlank_lineBreak : AreBlank (l.lineBreak k) := by
  cases l
  case compact => exact areBlank_nil
  case pretty =>
    refine List.forall_mem_cons.mpr ⟨by decide, fun c hc => ?_⟩
    rw [List.eq_of_mem_replicate hc]
    decide

theorem stops_resumed {b : Extent.Bracket} {items : List (List Char)} {t : Symbols} :
    Stops ((l.resumed k b.closing items).map .char ++ t) := by
  cases items
  case cons => exact .cons (.inl rfl)
  case nil =>
    have hc : Stops (.char b.closing :: t) := .cons (by cases b <;> simp [Extent.Bracket.closing])
    simpa [resumed] using areBlank_lineBreak.stops hc

-- A value behind the colon is written with blanks in front of it, if any.
theorem exists_colon (l : Layout) : ∃ w, AreBlank w ∧ l.colon = ':' :: w := by
  cases l
  case compact => exact ⟨[], areBlank_nil, rfl⟩
  case pretty  => exact ⟨[' '], by simp [AreBlank, Symbol.isBlank], rfl⟩

end Layout

namespace Scan

variable {α σ : Type} {l : Layout} {k : Nat} {s t : Symbols} {w u : List Char}

-- The reader takes the text for the value, whatever blanks stand in front of it.
structure Takes (p : Scan α) (u : List Char) (a : α) : Prop where
  opens : Opens u
  scan  : ∀ {w : List Char} {t : Symbols}, AreBlank w → Stops t →
    p (w.map .char ++ (u.map .char ++ t)) = .ok (a, t)

namespace Takes

variable {p : Scan α} {a : α}

-- A reader that passes over blanks has to take the text without them.
theorem of_dropBlanks (hp : ∀ s : Symbols, p s.dropBlanks = p s) (ho : Opens u)
    (h : ∀ {t : Symbols}, Stops t → p (u.map .char ++ t) = .ok (a, t)) : Takes p u a where
  opens := ho
  scan {w t} hw ht := by
    have ha := h ht
    obtain ⟨c, v, rfl, hc⟩ := ho
    rw [← hp, dropBlanks_append hw]
    rwa [List.map_cons, List.cons_append, dropBlanks_cons (isBlank_of_opens hc)]

theorem scan_nil (h : Takes p u a) (ht : Stops t) : p (u.map .char ++ t) = .ok (a, t) :=
  h.scan areBlank_nil ht

theorem map {β : Type} (f : α → β) (h : Takes p u a) : Takes (do return f (← p)) u (f a) where
  opens := h.opens
  scan hw ht := bind_of_ok (h.scan hw ht)

theorem scan_colon (h : Takes p u a) (ht : Stops t) :
    (do colon; p : Scan α) ((l.colon ++ u).map .char ++ t) = .ok (a, t) := by
  have ⟨w, hw, hc⟩ := l.exists_colon
  have hs : colon (.char ':' :: (w.map .char ++ (u.map .char ++ t))) =
      .ok ((), w.map .char ++ (u.map .char ++ t)) := rfl
  rw [hc, List.map_append, List.map_cons, List.append_assoc, List.cons_append, bind_of_ok hs]
  exact h.scan hw ht

end Takes

-- What is taken from a text that ends there is all that is read of it.
theorem all_of_takes {p : Scan α} {a : α} (h : Takes p u a) : all p (u.map .char) = .ok a := by
  have hs := h.scan_nil stops_nil
  rw [List.append_nil] at hs
  have hf : (do let a ← p; finish; return a : Scan α) (u.map .char) = .ok (a, []) :=
    bind_of_ok hs
  rw [all, StateT.run', hf]
  rfl

theorem token_bind_dropBlanks {m : Malformation} {f : Symbol → Scan α} :
    (token m >>= f) s.dropBlanks = (token m >>= f) s := by
  simp only [token, bind_assoc, modify_bind, dropBlanks_dropBlanks]

section Lists

variable {item : Scan α} {items : List (List Char)} {as : List α}

-- One turn of the reader of lists, which collects the items in reverse.
def collectItem (item : Scan α) : Bool × List α → Scan (Option (Bool × List α)) :=
  fun (first, items) => do
    if ← another first then return some (false, (← item) :: items) else return none

theorem list_eq : list item = (do
    let (_, reversed) ← exhaust (collectItem item) (true, [])
    endList
    return reversed.reverse) :=
  rfl

theorem another_closing (first : Bool) (hw : AreBlank w) :
    another first (w.map .char ++ .char ']' :: t) = .ok (false, .char ']' :: t) := by
  rw [another, bind_of_ok (token_append hw (by decide))]
  rfl

theorem another_first {c : Char} (hw : AreBlank w) (hc : opens c) :
    another true (w.map .char ++ .char c :: t) = .ok (true, .char c :: t) := by
  rw [another, bind_of_ok (token_append hw (isBlank_of_opens hc))]
  generalize hy : Symbol.char c = y
  split
  case h_1 =>
    cases hy
    cases hc
  all_goals rfl

theorem another_comma {c : Char} (hw : AreBlank w) (hc : opens c) :
    another false (.char ',' :: (w.map .char ++ .char c :: t)) = .ok (true, .char c :: t) := by
  rw [another, bind_of_ok (token_cons (by decide))]
  simp only [Bool.false_eq_true, if_false, skip_bind]
  rw [bind_of_ok (token_append hw (isBlank_of_opens hc))]
  generalize hy : Symbol.char c = y
  split
  case h_1 =>
    cases hy
    cases hc
  case h_2 => rfl

-- A further item is found behind its comma.
theorem another_resumed (hu : Opens u) :
    another false ((l.resumed k ']' (u :: items)).map .char ++ t) =
      .ok (true, u.map .char ++ ((l.resumed k ']' items).map .char ++ t)) := by
  obtain ⟨c, v, rfl, hc⟩ := hu
  have := another_comma (t := v.map .char ++ ((l.resumed k ']' items).map .char ++ t))
    (Layout.areBlank_lineBreak (l := l) (k := k + 1)) hc
  simpa only [Layout.resumed, List.map_append, List.map_cons, List.append_assoc, List.cons_append]
    using this

theorem another_enclosed (hu : Opens u) :
    another true ((l.enclosed k ']' (u :: items)).map .char ++ t) =
      .ok (true, u.map .char ++ ((l.resumed k ']' items).map .char ++ t)) := by
  obtain ⟨c, v, rfl, hc⟩ := hu
  have := another_first (t := v.map .char ++ ((l.resumed k ']' items).map .char ++ t))
    (Layout.areBlank_lineBreak (l := l) (k := k + 1)) hc
  simpa only [Layout.enclosed_cons, List.map_append, List.map_cons, List.append_assoc,
    List.cons_append] using this

theorem collectItem_of_another {first : Bool} {a : α} {acc : List α} (hu : Takes item u a)
    (ha : another first s = .ok (true, u.map .char ++ ((l.resumed k ']' items).map .char ++ t))) :
    collectItem item (first, acc) s =
      .ok (some (false, a :: acc), (l.resumed k ']' items).map .char ++ t) := by
  have ht := hu.scan_nil (t := (l.resumed k ']' items).map .char ++ t) <|
    Layout.stops_resumed (b := .list)
  rw [collectItem, bind_of_ok ha, if_pos rfl]
  exact bind_of_ok ht

theorem length_resumed_lt {closing : Char} :
    ((l.resumed k closing items).map Symbol.char ++ t).length <
      ((l.resumed k closing (u :: items)).map Symbol.char ++ t).length := by
  simp [Layout.resumed]
  omega

theorem length_resumed_lt_enclosed {closing : Char} (hu : u ≠ []) :
    ((l.resumed k closing items).map Symbol.char ++ t).length <
      ((l.enclosed k closing (u :: items)).map Symbol.char ++ t).length := by
  have := List.length_pos_iff.mpr hu
  simp only [Layout.enclosed_cons, List.map_append, List.length_append, List.length_map]
  omega

theorem repeats_of_resumed {items : List (List Char)} {as : List α}
    (h : List.Forall₂ (Takes item) items as) (acc : List α) :
    Repeats (collectItem item) (false, acc) ((l.resumed k ']' items).map .char ++ t)
      (false, as.reverse ++ acc) (.char ']' :: t) := by
  induction h generalizing acc
  case nil =>
    refine .stop ?_
    have := another_closing (t := t) false (Layout.areBlank_lineBreak (l := l) (k := k))
    simp only [Layout.resumed, List.map_append, List.map_cons, List.map_nil, List.append_assoc,
      List.cons_append, List.nil_append]
    rw [collectItem, bind_of_ok this]
    rfl
  case cons a _ _ hu _ hi =>
    refine .more (collectItem_of_another hu <| another_resumed hu.opens) length_resumed_lt ?_
    simpa using hi (a :: acc)

-- All items of a list are read.
theorem list_enclosed {items : List (List Char)} {as : List α}
    (h : List.Forall₂ (Takes item) items as) :
    list item ((l.enclosed k ']' items).map .char ++ t) = .ok (as, t) := by
  suffices hr : ∃ first, Repeats (collectItem item) (true, [])
      ((l.enclosed k ']' items).map .char ++ t) (first, as.reverse) (.char ']' :: t) by
    obtain ⟨first, hr⟩ := hr
    have he : endList (.char ']' :: t) = .ok ((), t) := rfl
    rw [list_eq, bind_of_ok (exhaust_of_repeats hr)]
    dsimp only
    rw [bind_of_ok he, List.reverse_reverse, pure_apply]
  cases h
  case nil =>
    refine ⟨true, .stop ?_⟩
    have := another_closing (w := []) (t := t) true areBlank_nil
    exact bind_of_ok this
  case cons a _ _ hu h =>
    refine ⟨false, .more (collectItem_of_another hu <| another_enclosed hu.opens)
      (length_resumed_lt_enclosed hu.opens.ne_nil) ?_⟩
    simpa using repeats_of_resumed h [a]

end Lists

section Objects

variable {member : σ → String → Scan σ} {st st' last : σ} {key : String}

-- The members are taken in one after the other.
inductive Gathers (l : Layout) (member : σ → String → Scan σ) :
    List (String × List Char) → σ → σ → Prop
  | nil {st : σ} : Gathers l member [] st st
  | cons {key : String} {u : List Char} {entries : List (String × List Char)} {st st' last : σ}
    (h : ∀ {t : Symbols}, Stops t → member st key ((l.colon ++ u).map .char ++ t) = .ok (st', t))
    (rest : Gathers l member entries st' last) : Gathers l member ((key, u) :: entries) st last

-- The entries of an object, each with its key.
def entryTexts (l : Layout) (entries : List (String × List Char)) : List (List Char) :=
  entries.map fun (key, value) => l.entry key value

theorem string_quote (key : String) (t : Symbols) :
    string (((key.toList.flatMap Json.escape ++ ['"']).map .char) ++ t) = .ok (key, t) := by
  have := string_of_spells (t := t) <| spells_flatMap_escape key.toList
  simpa using this

theorem nextKey_closing (first : Bool) (hw : AreBlank w) :
    nextKey first (w.map .char ++ .char '\x7d' :: t) = .ok (none, .char '\x7d' :: t) := by
  rw [nextKey, bind_of_ok (token_append hw (by decide))]
  rfl

theorem nextKey_first (key : String) (hw : AreBlank w) :
    nextKey true (w.map .char ++ ((quote key).map .char ++ t)) = .ok (some key, t) := by
  rw [quote, List.cons_append, List.map_cons, List.cons_append, nextKey,
    bind_of_ok (token_append hw (by decide))]
  simp only [if_true, skip_bind]
  rw [bind_of_ok (string_quote key t), pure_apply]

theorem onlyKey_quote (key : String) (hw : AreBlank w) :
    onlyKey (w.map .char ++ ((quote key).map .char ++ t)) = .ok (key, t) := by
  rw [quote, List.cons_append, List.map_cons, List.cons_append, onlyKey,
    bind_of_ok (token_append hw (by decide))]
  simp only [skip_bind]
  exact string_quote key t

theorem nextKey_comma (key : String) (hw : AreBlank w) :
    nextKey false (.char ',' :: (w.map .char ++ ((quote key).map .char ++ t))) =
      .ok (some key, t) := by
  rw [nextKey, bind_of_ok (token_cons (by decide))]
  simp only [Bool.false_eq_true, if_false, skip_bind]
  rw [quote, List.cons_append, List.map_cons, List.cons_append,
    bind_of_ok (token_append hw (by decide))]
  simp only [skip_bind]
  rw [bind_of_ok (string_quote key t), pure_apply]

-- One turn of the reader of members.
def gather (member : σ → String → Scan σ) : Bool × σ → Scan (Option (Bool × σ)) :=
  fun (first, st) => do
    match ← nextKey first with
    | some key => return some (false, ← member st key)
    | none => return none

theorem membersFrom_eq {first : Bool} : membersFrom first member st = (do
    let (_, st) ← exhaust (gather member) (first, st)
    return st) :=
  rfl

-- A further key is found behind its comma.
theorem nextKey_resumed (key : String) (entries : List (String × List Char)) :
    nextKey false ((l.resumed k '\x7d' (entryTexts l ((key, u) :: entries))).map .char ++ t) =
      .ok (some key, (l.colon ++ u).map .char ++
        ((l.resumed k '\x7d' (entryTexts l entries)).map .char ++ t)) := by
  have := nextKey_comma key
    (t := (l.colon ++ u).map .char ++ ((l.resumed k '\x7d' (entryTexts l entries)).map .char ++ t))
    (Layout.areBlank_lineBreak (l := l) (k := k + 1))
  simpa only [entryTexts, List.map_cons, Layout.resumed, Layout.entry, List.map_append,
    List.append_assoc, List.cons_append] using this

theorem nextKey_enclosed (key : String) (entries : List (String × List Char)) :
    nextKey true ((l.enclosed k '\x7d' (entryTexts l ((key, u) :: entries))).map .char ++ t) =
      .ok (some key, (l.colon ++ u).map .char ++
        ((l.resumed k '\x7d' (entryTexts l entries)).map .char ++ t)) := by
  have := nextKey_first key
    (t := (l.colon ++ u).map .char ++ ((l.resumed k '\x7d' (entryTexts l entries)).map .char ++ t))
    (Layout.areBlank_lineBreak (l := l) (k := k + 1))
  simpa only [entryTexts, List.map_cons, Layout.enclosed_cons, Layout.entry, List.map_append,
    List.append_assoc] using this

theorem gather_of_nextKey {first : Bool} {entries : List (String × List Char)}
    (hk : nextKey first s = .ok (some key, (l.colon ++ u).map .char ++
      ((l.resumed k '\x7d' (entryTexts l entries)).map .char ++ t)))
    (hm : ∀ {t : Symbols}, Stops t →
      member st key ((l.colon ++ u).map .char ++ t) = .ok (st', t)) :
    gather member (first, st) s =
      .ok (some (false, st'), (l.resumed k '\x7d' (entryTexts l entries)).map .char ++ t) := by
  rw [gather, bind_of_ok hk]
  exact bind_of_ok <| hm <| Layout.stops_resumed (b := .object)

theorem repeats_of_gathers {entries : List (String × List Char)}
    (h : Gathers l member entries st last) : Repeats (gather member) (false, st)
      ((l.resumed k '\x7d' (entryTexts l entries)).map .char ++ t) (false, last)
      (.char '\x7d' :: t) := by
  induction h
  case nil =>
    have := nextKey_closing (t := t) false (Layout.areBlank_lineBreak (l := l) (k := k))
    refine .stop ?_
    simp only [entryTexts, List.map_nil, Layout.resumed, List.map_append, List.map_cons,
      List.append_assoc, List.cons_append, List.nil_append]
    exact bind_of_ok this
  case cons key _ entries _ _ _ hm _ hi =>
    exact .more (gather_of_nextKey (nextKey_resumed key entries) hm) length_resumed_lt hi

theorem membersFrom_resumed {entries : List (String × List Char)}
    (h : Gathers l member entries st last) : membersFrom false member st
      ((l.resumed k '\x7d' (entryTexts l entries)).map .char ++ t) =
        .ok (last, .char '\x7d' :: t) := by
  rw [membersFrom_eq]
  exact bind_of_ok <| exhaust_of_repeats <| repeats_of_gathers h

-- All members of an object are taken in.
theorem members_enclosed {entries : List (String × List Char)}
    (h : Gathers l member entries st last) : members member st
      ((l.enclosed k '\x7d' (entryTexts l entries)).map .char ++ t) =
        .ok (last, .char '\x7d' :: t) := by
  suffices hr : ∃ first, Repeats (gather member) (true, st)
      ((l.enclosed k '\x7d' (entryTexts l entries)).map .char ++ t) (first, last)
      (.char '\x7d' :: t) by
    obtain ⟨first, hr⟩ := hr
    exact bind_of_ok <| exhaust_of_repeats hr
  cases h
  case nil =>
    have := nextKey_closing (w := []) (t := t) true areBlank_nil
    exact ⟨true, .stop <| bind_of_ok this⟩
  case cons key _ entries _ hm h =>
    refine ⟨false, .more (gather_of_nextKey (nextKey_enclosed key entries) hm) ?_
      (repeats_of_gathers h)⟩
    exact length_resumed_lt_enclosed (by simp [Layout.entry, quote])

end Objects

end Scan
end Countersign
