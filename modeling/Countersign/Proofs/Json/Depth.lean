import Countersign.Proofs.Json.Settling

namespace Countersign

open Json Symbols

namespace Scan

variable {α σ : Type} {l : Layout} {k : Nat} {s t : Symbols} {u : List Char}

-- The reader has nothing to make of the text, whatever blanks stand in front of it.
structure Rejects (p : Scan α) (u : List Char) : Prop where
  opens : Opens u
  scan  : ∀ {w : List Char} {t : Symbols}, AreBlank w → Stops t → ∀ r,
    p (w.map .char ++ (u.map .char ++ t)) ≠ .ok r

namespace Rejects

variable {p : Scan α}

theorem of_dropBlanks (hp : ∀ s : Symbols, p s.dropBlanks = p s) (ho : Opens u)
    (h : ∀ {t : Symbols}, Stops t → ∀ r, p (u.map .char ++ t) ≠ .ok r) : Rejects p u where
  opens := ho
  scan {w t} hw ht r := by
    have ha := h ht r
    obtain ⟨c, v, rfl, hc⟩ := ho
    rw [← hp, dropBlanks_append hw]
    rwa [List.map_cons, List.cons_append, dropBlanks_cons (isBlank_of_opens hc)]

theorem scan_nil (h : Rejects p u) (ht : Stops t) (r : α × Symbols) :
    p (u.map .char ++ t) ≠ .ok r :=
  h.scan areBlank_nil ht r

theorem scan_colon (h : Rejects p u) (ht : Stops t) (r : α × Symbols) :
    (do colon; p : Scan α) ((l.colon ++ u).map .char ++ t) ≠ .ok r := by
  have ⟨w, hw, hc⟩ := l.exists_colon
  have hs : colon (.char ':' :: (w.map .char ++ (u.map .char ++ t))) =
      .ok ((), w.map .char ++ (u.map .char ++ t)) := rfl
  rw [hc, List.map_append, List.map_cons, List.append_assoc, List.cons_append, bind_of_ok hs]
  exact h.scan hw ht r

end Rejects

theorem bind_ne_ok {β : Type} {p : Scan α} {f : α → Scan β} (h : ∀ r, p s ≠ .ok r)
    (r : β × Symbols) : (p >>= f) s ≠ .ok r := by
  intro hr
  obtain ⟨_, _, hp, _⟩ := bind_eq_ok_iff.mp hr
  exact h _ hp

section Repetition

variable {step : σ → Scan (Option σ)} {st st' : σ}

-- Taking the step again and again comes to a point where it cannot be taken.
inductive Stuck (step : σ → Scan (Option σ)) : σ → Symbols → Prop
  | now {st : σ} {s : Symbols} (h : ∀ r, step st s ≠ .ok r) : Stuck step st s
  | later {st st' : σ} {s mid : Symbols} (h : step st s = .ok (some st', mid))
    (shorter : mid.length < s.length) (rest : Stuck step st' mid) : Stuck step st s

theorem Stuck.exhaust_ne_ok (h : Stuck step st s) (r : σ × Symbols) : exhaust step st s ≠ .ok r := by
  suffices hr : ∀ fuel, s.length < fuel → repeatStep step fuel st s ≠ .ok r from
    hr _ (Nat.lt_succ_self _)
  induction h
  all_goals
    intro fuel hf
    obtain ⟨fuel, rfl⟩ := Nat.exists_eq_succ_of_ne_zero (Nat.ne_zero_of_lt hf)
    rw [repeatStep]
  case now h => exact bind_ne_ok h r
  case later h hl _ hi =>
    rw [bind_of_ok h]
    exact hi fuel (by omega)

end Repetition

section Lists

variable {item : Scan α} {before behind : List (List Char)} {as : List α}

theorem stuck_of_another {first : Bool} {acc : List α} (hu : Rejects item u)
    (ha : another first s = .ok (true, u.map .char ++ ((l.resumed k ']' behind).map .char ++ t))) :
    Stuck (collectItem item) (first, acc) s := by
  refine .now fun r => ?_
  rw [collectItem, bind_of_ok ha, if_pos rfl]
  exact bind_ne_ok (hu.scan_nil <| Layout.stops_resumed (b := .list)) r

theorem stuck_of_resumed (h : List.Forall₂ (Takes item) before as) (hu : Rejects item u)
    (acc : List α) : Stuck (collectItem item) (false, acc)
      ((l.resumed k ']' (before ++ u :: behind)).map .char ++ t) := by
  induction h generalizing acc
  case nil => exact stuck_of_another hu <| another_resumed hu.opens
  case cons a _ _ ha _ hi =>
    exact .later (collectItem_of_another ha <| another_resumed ha.opens) length_resumed_lt (hi _)

-- A list cannot be read if one of its items cannot.
theorem list_ne_ok (h : List.Forall₂ (Takes item) before as) (hu : Rejects item u)
    (r : List α × Symbols) :
    list item ((l.enclosed k ']' (before ++ u :: behind)).map .char ++ t) ≠ .ok r := by
  rw [list_eq]
  refine bind_ne_ok (Stuck.exhaust_ne_ok ?_) r
  cases h
  case nil => exact stuck_of_another hu <| another_enclosed hu.opens
  case cons ha h =>
    exact .later (collectItem_of_another ha <| another_enclosed ha.opens)
      (length_resumed_lt_enclosed ha.opens.ne_nil) (stuck_of_resumed h hu _)

end Lists

section Objects

variable {member : σ → String → Scan σ} {st last : σ} {key : String}
  {before behind : List (String × List Char)}

theorem stuck_of_gathers (h : Gathers l member before st last)
    (hu : ∀ {t : Symbols}, Stops t → ∀ r, member last key ((l.colon ++ u).map .char ++ t) ≠ .ok r) :
    Stuck (gather member) (false, st)
      ((l.resumed k '\x7d' (entryTexts l (before ++ (key, u) :: behind))).map .char ++ t) := by
  induction h
  case nil =>
    refine .now fun r => ?_
    rw [List.nil_append, gather, bind_of_ok (nextKey_resumed key behind)]
    exact bind_ne_ok (hu <| Layout.stops_resumed (b := .object)) r
  case cons name _ _ _ _ _ hm _ hi =>
    exact .later (gather_of_nextKey (nextKey_resumed name _) hm) length_resumed_lt (hi hu)

theorem membersFrom_ne_ok (h : Gathers l member before st last)
    (hu : ∀ {t : Symbols}, Stops t → ∀ r, member last key ((l.colon ++ u).map .char ++ t) ≠ .ok r)
    (r : σ × Symbols) : membersFrom false member st
      ((l.resumed k '\x7d' (entryTexts l (before ++ (key, u) :: behind))).map .char ++ t) ≠ .ok r := by
  rw [membersFrom_eq]
  exact bind_ne_ok (stuck_of_gathers h hu).exhaust_ne_ok r

end Objects

end Scan

namespace Json

variable {l : Layout} {depth d k : Nat} {j : Json} {inner : Symbols → Except Fault Json}

theorem Legible.of_height_le (h : j.Legible d) (hh : j.height ≤ depth) : j.Legible depth := by
  induction h generalizing depth
  case null   => exact .null
  case bool b => exact .bool b
  case int h  => exact .int h
  case str s  => exact .str s
  case arr hi =>
    obtain ⟨depth, rfl⟩ := Nat.exists_eq_add_one_of_ne_zero <| Nat.ne_zero_of_lt hh
    have hh := heightItems_le_iff.mp <| Nat.le_of_succ_le_succ hh
    exact .arr fun item h => hi item h (hh item h)
  case obj hf _ hi =>
    obtain ⟨depth, rfl⟩ := Nat.exists_eq_add_one_of_ne_zero <| Nat.ne_zero_of_lt hh
    have hh := heightMembers_le_iff.mp <| Nat.le_of_succ_le_succ hh
    exact .obj hf fun m h => hi m h (hh m h)

-- The first of the parts that are too high, behind those that are not.
theorem exists_first {α : Type} {f : α → Nat} {as : List α} (h : ¬∀ a ∈ as, f a ≤ depth) :
    ∃ before a behind, as = before ++ a :: behind ∧ (∀ b ∈ before, f b ≤ depth) ∧ depth < f a := by
  induction as
  case nil => exact absurd nofun h
  case cons a as hi =>
    by_cases ha : f a ≤ depth
    case neg => exact ⟨[], a, as, rfl, nofun, Nat.lt_of_not_le ha⟩
    case pos =>
      obtain ⟨before, b, behind, rfl, hb, hl⟩ := hi fun h' => h <| List.forall_mem_cons.mpr ⟨ha, h'⟩
      exact ⟨a :: before, b, behind, rfl, List.forall_mem_cons.mpr ⟨ha, hb⟩, hl⟩

theorem writeMembers_append {ms ns : List (String × Json)} :
    writeMembers l k (ms ++ ns) = writeMembers l k ms ++ writeMembers l k ns := by
  simp [writeMembers_eq]

-- A bracket cannot be opened where none may be open.
theorem rejects_bracket {b : Extent.Bracket} {texts : List (List Char)} :
    Scan.Rejects (scanWith inner 0) (l.bracket k b.opening b.closing texts) := by
  refine .of_dropBlanks (fun _ => scanWith_dropBlanks) ⟨_, _, Layout.bracket_eq, by cases b <;> rfl⟩
    fun {t} _ r => ?_
  rw [Layout.bracket_eq, List.map_cons, List.cons_append, scanWith.eq_def,
    Scan.bind_of_ok (Scan.token_cons (by cases b <;> rfl))]
  cases b
  all_goals exact Scan.failNext_ne_ok

theorem rejects_array {before behind : List Json} {item : Json}
    (h : ∀ i ∈ before, Scan.Takes (scanWith inner depth) (i.write l (k + 1)) i.settled)
    (hu : Scan.Rejects (scanWith inner depth) (item.write l (k + 1))) :
    Scan.Rejects (scanWith inner (depth + 1)) ((arr (before ++ item :: behind)).write l k) := by
  have hf : List.Forall₂ (Scan.Takes (scanWith inner depth)) (before.map (write l (k + 1)))
      (before.map settled) := by
    simpa only [List.forall₂_map_left_iff, List.forall₂_map_right_iff, List.forall₂_same] using h
  refine .of_dropBlanks (fun _ => scanWith_dropBlanks) ⟨_, _, Layout.bracket_eq, by decide⟩
    fun {t} _ r => ?_
  rw [write, Layout.array, Layout.bracket_eq, List.map_cons, List.cons_append, scanWith.eq_def,
    Scan.bind_of_ok (Scan.token_cons (by decide))]
  simp only [Scan.skip_bind]
  rw [writeItems_eq, List.map_append, List.map_cons]
  exact Scan.bind_ne_ok (Scan.list_ne_ok hf hu) r

theorem member_ne_ok {key : String} {u : List Char} {t : Symbols}
    (hu : Scan.Rejects (scanWith inner depth) u) (ht : Stops t) (acc : List (String × Json))
    (r : List (String × Json) × Symbols) : (do
      Scan.colon
      return set key (← scanWith inner depth) acc : Scan _)
        ((l.colon ++ u).map .char ++ t) ≠ .ok r := by
  rw [← bind_assoc]
  exact Scan.bind_ne_ok (hu.scan_colon ht) r

theorem rejects_object {before behind : List (String × Json)} {m : String × Json}
    (first : ∀ n ∈ (before ++ m :: behind).head?, n.1 ≠ embeddingKey)
    (h : ∀ n ∈ before, Scan.Takes (scanWith inner depth) (n.2.write l (k + 1)) n.2.settled)
    (hu : Scan.Rejects (scanWith inner depth) (m.2.write l (k + 1))) :
    Scan.Rejects (scanWith inner (depth + 1)) ((obj (before ++ m :: behind)).write l k) := by
  refine .of_dropBlanks (fun _ => scanWith_dropBlanks) ⟨_, _, Layout.bracket_eq, by decide⟩
    fun {t} _ r => ?_
  rw [write, Layout.object, Layout.bracket_eq, List.map_cons, List.cons_append, scanWith.eq_def,
    Scan.bind_of_ok (Scan.token_cons (by decide))]
  simp only [Scan.skip_bind]
  intro hr
  cases before
  case nil =>
    have hk := Scan.nextKey_enclosed (l := l) (k := k) (u := m.2.write l (k + 1)) (t := t) m.1
      (writeMembers l (k + 1) behind)
    have hr := (Scan.bind_of_ok hk).symm.trans hr
    dsimp only at hr
    rw [if_neg (first m rfl)] at hr
    exact Scan.bind_ne_ok (member_ne_ok hu (Layout.stops_resumed (b := .object)) []) _ hr
  case cons n before =>
    have hg := gathers_write (l := l) (k := k + 1) [] h
    have hk := Scan.nextKey_enclosed (l := l) (k := k) (u := n.2.write l (k + 1)) (t := t) n.1
      (writeMembers l (k + 1) (before ++ m :: behind))
    have hr := (Scan.bind_of_ok hk).symm.trans hr
    dsimp only at hr
    rw [if_neg (first n rfl)] at hr
    cases hg
    case cons hn hg =>
      have hn := hn (t := (l.resumed k '\x7d' (Scan.entryTexts l
        (writeMembers l (k + 1) (before ++ m :: behind)))).map .char ++ t) <|
          Layout.stops_resumed (b := .object)
      rw [Scan.bind_of_ok hn, writeMembers_append, writeMembers] at hr
      exact Scan.bind_ne_ok (Scan.membersFrom_ne_ok hg fun ht => member_ne_ok hu ht _) _ hr

-- What is nested too deep is not read.
theorem rejects_write (inner : Symbols → Except Fault Json) (h : j.Legible d)
    (hd : depth < j.height) : Scan.Rejects (scanWith inner depth) (j.write l k) := by
  induction h generalizing depth k
  case arr items h hi =>
    cases depth
    case zero => exact rejects_bracket (b := .list)
    case succ depth =>
      have hn : ¬∀ item ∈ items, item.height ≤ depth := fun hn =>
        absurd (heightItems_le_iff.mpr hn) (Nat.not_le_of_lt <| Nat.lt_of_succ_lt_succ hd)
      obtain ⟨before, item, behind, rfl, hb, hl⟩ := exists_first hn
      refine rejects_array (fun i hm => ?_) (hi item (by simp) hl)
      exact takes_write inner <| (h i (by simp [hm])).of_height_le (hb i hm)
  case obj members first h hi =>
    cases depth
    case zero => exact rejects_bracket (b := .object)
    case succ depth =>
      have hn : ¬∀ m ∈ members, m.2.height ≤ depth := fun hn =>
        absurd (heightMembers_le_iff.mpr hn) (Nat.not_le_of_lt <| Nat.lt_of_succ_lt_succ hd)
      obtain ⟨before, m, behind, rfl, hb, hl⟩ := exists_first (f := fun m : String × Json => m.2.height) hn
      refine rejects_object first (fun n hm => ?_) (hi m (by simp) hl)
      exact takes_write inner <| (h n (by simp [hm])).of_height_le (hb n hm)
  all_goals cases hd

theorem read_write_ne_ok (h : j.Legible d) (hd : depthLimit < j.height) (l : Layout) (k : Json) :
    read ((j.write l 0).map .char) ≠ .ok k := by
  intro hr
  obtain ⟨_, _, hs⟩ := Scan.exists_of_all hr
  have hn inner := (rejects_write (l := l) (k := 0) inner h hd).scan_nil stops_nil
  simp only [List.append_nil] at hn
  exact hn _ _ hs

end Json
end Countersign
