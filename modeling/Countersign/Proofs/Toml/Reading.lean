import Countersign.Proofs.Toml.Scanning

namespace Countersign.Toml

namespace Statement

def before : Statement → List String
  | table before _ | element before _ | assign before _ _ => before

def alter (d : Document) : Statement → Option Document
  | table before last       => d.openBy openTable before last
  | element before last     => d.openBy openElement before last
  | assign before last item => d.set before last item

-- What a statement does to a document. Keys of too many parts are refused.
def apply (d : Document) (s : Statement) : Option Document :=
  if s.before.length + 1 < Scan.keyLimit then s.alter d else none

theorem map_apply {α : Type} (d : Document) (s : Statement) (f : Document → α) :
    (s.apply d).map f =
      if s.before.length + 1 < Scan.keyLimit then (s.alter d).map f else none := by
  rw [apply]
  split
  all_goals rfl

end Statement

namespace Scan

variable {s t u v w b c rest : List Char} {d : Document} {item : Item}

section Values

theorem value_of_basicString {text : String} (h : BasicString t text) (hr : rest.head? ≠ some '"') :
    value depthLimit (t ++ rest) = some (.text text, rest) := by
  have hh : (t ++ rest).head? = some '"' := by
    cases h
    rfl
  unfold value
  rw [peek_bind, hh]
  exact bind_of_some <| basicString_of_basicString h hr

-- Neither blanks nor the end of a line come first in a value.
theorem exists_head_of_value (h : Value v item) : ∃ x v', v = x :: v' ∧ isBlank x = false := by
  cases h
  case text h =>
    cases h
    exact ⟨_, _, rfl, rfl⟩
  case true  => exact ⟨_, _, rfl, rfl⟩
  case false => exact ⟨_, _, rfl, rfl⟩
  case other h =>
    have hv := h [] [] [] [] .nil .none .eof
    cases v
    case nil =>
      have hn : value depthLimit [] = none := by
        unfold value
        rfl
      exact absurd (hn.symm.trans hv) nofun
    case cons x v =>
      refine ⟨x, v, rfl, Bool.eq_false_iff.mpr fun hb => ?_⟩
      have hx : x = ' ' ∨ x = '\t' := by simpa [isBlank] using hb
      have hn : value depthLimit (x :: v ++ []) = none := by
        unfold value
        rcases hx with rfl | rfl
        all_goals rfl
      exact absurd (hn.symm.trans hv) nofun

-- What stands behind a value cannot go on with it.
theorem head_ne_quote (hw : AreBlank w) (hc : Comment c) (he : Ends b rest) :
    (w ++ (c ++ (b ++ rest))).head? ≠ some '"' := by
  refine fun hh => head_append (hw.head_ne rfl) (head_append ?_ fun x hx hq => ?_) '"' hh rfl
  case refine_1 =>
    cases hc
    case none => exact nofun
    case some => exact head_cons (by decide)
  case refine_2 =>
    cases he.head (hq ▸ hx)
    all_goals contradiction

theorem value_of_value (hv : Value v item) (hw : AreBlank w) (hc : Comment c) (he : Ends b rest) :
    value depthLimit (v ++ (w ++ (c ++ (b ++ rest)))) = some (item, w ++ (c ++ (b ++ rest))) := by
  cases hv
  case text h => exact value_of_basicString h <| head_ne_quote hw hc he
  case true =>
    unfold value
    rw [List.cons_append, peek_bind, List.head?_cons]
    exact bind_of_some <| expect_append ['t', 'r', 'u', 'e'] _
  case false =>
    unfold value
    rw [List.cons_append, peek_bind, List.head?_cons]
    exact bind_of_some <| expect_append ['f', 'a', 'l', 's', 'e'] _
  case other h => exact h w c b rest hw hc he

end Values

section Lines

variable {k : List Char} {before : List String} {last : String}

theorem endsKey_of_plain {x : Char} (hp : isBare x = false ∧ isBlank x = false ∧ x ≠ '.') :
    EndsKey (x :: rest) where
  part _ hx := Option.some.inj hx ▸ hp.left
  blank _ hx := Option.some.inj hx ▸ hp.right.left
  dot hx := hp.right.right <| Option.some.inj hx

theorem head_ne_bracket (hw : AreBlank w) (hk : Key k (before ++ [last])) :
    (w ++ (k ++ rest)).head? ≠ some '[' := by
  obtain ⟨x, k, rfl, hx⟩ := beginsKey_of_key hk
  exact fun hh => head_append (hw.head_ne rfl) (head_cons <| hx.ne (by decide)) '[' hh rfl

theorem lift_apply {α : Type} (o : Option α) (s : List Char) :
    (liftM o : Scan α) s = o.map ((·, s)) := by
  cases o
  all_goals rfl

variable (hw : AreBlank w) (hk : Key k (before ++ [last])) (hu : AreBlank u) (hc : Comment c)
  (he : Ends b rest)
include hw hk

theorem key_bind {α : Type} {f : List String × String → Scan α} (hr : EndsKey rest) :
    (key >>= f) (w ++ (k ++ rest)) =
      if before.length + 1 < keyLimit then f (before, last) rest else none := by
  have hr := key_of_key hw hk hr
  split
  case isTrue hl  => exact bind_of_some <| hr.trans <| if_pos hl
  case isFalse hl => exact bind_of_none <| hr.trans <| if_neg hl

include hu hc he

-- What is common to the lines that open tables.
theorem opening_of_key (close : List Char) {open? : List String → String → Option Document}
    (hn : EndsKey (close ++ (u ++ (c ++ (b ++ rest))))) :
    (do
      let (before, last) ← key
      expect close
      lineEnd
      open? before last : Scan Document) (w ++ (k ++ (close ++ (u ++ (c ++ (b ++ rest)))))) =
      if before.length + 1 < keyLimit then (open? before last).map ((·, rest)) else none := by
  refine (key_bind hw hk hn).trans <| ite_congr rfl (fun _ => ?_) fun _ => rfl
  simp only [bind_of_some (expect_append close _), bind_of_some (lineEnd_of_comment hu hc he),
    lift_apply]

theorem header_of_table :
    header d ('[' :: (w ++ (k ++ (']' :: (u ++ (c ++ (b ++ rest))))))) =
      ((Statement.table before last).apply d).map ((·, rest)) := by
  have hb : (w ++ (k ++ ']' :: (u ++ (c ++ (b ++ rest))))).head? ≠ some '[' := head_ne_bracket hw hk
  have hn :
      ['[', '['].isPrefixOf ('[' :: (w ++ (k ++ ']' :: (u ++ (c ++ (b ++ rest)))))) = false := by
    generalize w ++ (k ++ ']' :: (u ++ (c ++ (b ++ rest)))) = s at hb
    cases s
    case nil => rfl
    case cons x s =>
      have hx : '[' ≠ x := fun h => hb <| congrArg some h.symm
      simp [List.isPrefixOf, hx]
  rw [header, bind_of_some (take?_of_not hn), Statement.map_apply]
  exact (bind_of_some <| expect_cons '[' _).trans <|
    opening_of_key hw hk hu hc he [']'] <| endsKey_of_plain (by decide)

theorem header_of_element :
    header d ('[' :: '[' :: (w ++ (k ++ (']' :: ']' :: (u ++ (c ++ (b ++ rest))))))) =
      ((Statement.element before last).apply d).map ((·, rest)) := by
  rw [header, Statement.map_apply]
  exact (bind_of_some <| take?_append ['[', '['] _).trans <|
    opening_of_key hw hk hu hc he [']', ']'] <| endsKey_of_plain (by decide)

omit hw in
theorem assignment_of_value (hw : AreBlank w) (hv : Value v item) :
    assignment d (k ++ '=' :: (w ++ (v ++ (u ++ (c ++ (b ++ rest)))))) =
      ((Statement.assign before last item).apply d).map ((·, rest)) := by
  have ⟨x, _, hx, hb⟩ := exists_head_of_value hv
  have hn : ∀ y ∈ (v ++ (u ++ (c ++ (b ++ rest)))).head?, isBlank y = false :=
    hx ▸ head_cons hb
  rw [Statement.map_apply]
  refine (key_bind .nil hk <| endsKey_of_plain (by decide)).trans <|
    ite_congr rfl (fun _ => ?_) fun _ => rfl
  dsimp only
  rw [bind_of_some (expect_cons '=' _), bind_of_some (blanks_append hw hn),
    bind_of_some (value_of_value hv hu hc he), bind_of_some (lineEnd_of_comment hu hc he), lift_apply]
  rfl

omit hw hk hu hc he

theorem bind_of_map {α β γ : Type} {p : Scan β} {f : β → Scan γ} {o : Option α} {g : α → β}
    (h : p s = o.map fun a => (g a, t)) : (p >>= f) s = o.bind fun a => f (g a) t := by
  cases o
  case none   => exact bind_of_none h
  case some a => exact bind_of_some h

theorem line_of_blank (hw : AreBlank w) : line d w = some (none, []) := by
  have hb : blanks (w ++ []) = some ((), []) := blanks_append hw nofun
  rw [List.append_nil] at hb
  rw [line, bind_of_some hb]
  rfl

include hc he in
theorem line_of_comment (hw : AreBlank w) (hn : c ++ b ≠ []) :
    line d (w ++ (c ++ (b ++ rest))) = some (some d, rest) := by
  have hl := lineEnd_of_comment .nil hc he
  rw [line, bind_of_some (blanks_append hw (isBlank_of_comment hc he)), peek_bind]
  cases hc
  case some => exact bind_of_some hl
  case none =>
    cases he
    case eof => contradiction
    case lineBreak hb =>
      cases hb
      all_goals exact bind_of_some hl

theorem line_of_beginsKey {x : Char} (hw : AreBlank w) (hx : BeginsKey x) :
    line d (w ++ x :: t) = (return some (← assignment d) : Scan _) (x :: t) := by
  rw [line, bind_of_some (blanks_append hw (head_cons hx.isBlank_eq_false)), peek_bind]
  generalize hy : (x :: t).head? = y?
  split
  case h_6 => rfl
  case h_1 => cases hy
  all_goals exact absurd (Option.some.inj hy) <| hx.ne (by decide)

theorem line_of_bracket (hw : AreBlank w) :
    line d (w ++ '[' :: t) = (return some (← header d) : Scan _) ('[' :: t) := by
  rw [line, bind_of_some (blanks_append hw (head_cons rfl))]
  rfl

include hu hc he in
theorem line_of_statement {s : Statement} (hw : AreBlank w) (hs : s.Spelled t) :
    line d (w ++ (t ++ (u ++ (c ++ (b ++ rest))))) = (s.apply d).map fun d => (some d, rest) := by
  have hm {p : Scan Document} {t} (h : p t = (s.apply d).map ((·, rest))) :
      (return some (← p) : Scan _) t = (s.apply d).map fun d => (some d, rest) := by
    rw [bind_of_map h]
    cases s.apply d
    all_goals rfl
  cases hs
  case table hv hk =>
    simp only [List.cons_append, List.append_assoc, List.nil_append]
    rw [line_of_bracket hw]
    exact hm <| header_of_table hv hk hu hc he
  case element hv hk =>
    simp only [List.cons_append, List.append_assoc, List.nil_append]
    rw [line_of_bracket hw]
    exact hm <| header_of_element hv hk hu hc he
  case assign k _ _ _ _ _ hk hv hi =>
    obtain ⟨x, k, rfl, hx⟩ := beginsKey_of_key hk
    have ha := assignment_of_value (d := d) hk hu hc he hv hi
    simp only [List.cons_append, List.append_assoc] at ha ⊢
    rw [line_of_beginsKey hw hx]
    exact hm ha

end Lines

section Documents

variable {s? : Option Statement} {ss : List Statement}

-- A line either does what its statement does, or ends the text.
inductive Passes (d : Document) (s? : Option Statement) (s t : List Char) : Prop
  | more (shorter : t.length < s.length)
    (h : line d s = (s?.toList.foldlM Statement.apply d).map fun d => (some d, t))
  | last (none : s? = none) (h : AreBlank s)

theorem passes_of_spelledLine (h : SpelledLine s? t) (he : Ends b rest) :
    Passes d s? (t ++ (b ++ rest)) rest := by
  cases h
  case blank w c hw hc =>
    rw [List.append_assoc]
    by_cases hn : c ++ b = []
    case pos =>
      obtain ⟨rfl, rfl⟩ := List.append_eq_nil_iff.mp hn
      cases he
      case lineBreak hb => cases hb
      case eof =>
        simp only [List.append_nil]
        exact .last rfl hw
    case neg =>
      refine .more ?_ <| line_of_comment hc he hw hn
      have hl := List.length_pos_iff.mpr hn
      simp only [List.length_append] at hl ⊢
      omega
  case statement w t u c s hw hs hu hc =>
    simp only [List.append_assoc]
    refine .more ?_ ?_
    · have ht : 0 < t.length := by
        cases hs
        case assign =>
          simp only [List.length_append, List.length_cons]
          omega
        all_goals exact Nat.succ_pos _
      simp only [List.length_append]
      omega
    · rw [line_of_statement hu hc he hw hs]
      simp [List.foldlM]

-- The statements of a spelled text are applied in order, whatever they do.
theorem exhaust_of_spelled (h : Spelled ss t) :
    exhaust line d t = (ss.foldlM Statement.apply d).map ((·, [])) := by
  suffices hr : ∀ fuel d, t.length < fuel →
      repeatStep line fuel d t = (ss.foldlM Statement.apply d).map ((·, [])) from
    hr _ _ (Nat.lt_succ_self _)
  induction h
  all_goals
    intro fuel d hf
    obtain ⟨fuel, rfl⟩ := Nat.exists_eq_succ_of_ne_zero (Nat.ne_zero_of_lt hf)
    rw [repeatStep]
  case last s? t h =>
    have hp := passes_of_spelledLine (d := d) h .eof
    simp only [List.append_nil] at hp
    cases hp
    case last hs hw =>
      rw [bind_of_some (line_of_blank hw), hs]
      rfl
    case more hl ho =>
      obtain ⟨fuel, rfl⟩ := Nat.exists_eq_succ_of_ne_zero (show fuel ≠ 0 by omega)
      rw [bind_of_map ho, Option.map_eq_bind]
      exact Option.bind_congr fun d _ => bind_of_some <| line_of_blank .nil
  case more s? ss t b u h hb _ hi =>
    cases passes_of_spelledLine (d := d) h (.lineBreak hb)
    case last _ hw =>
      have hn : ∃ x ∈ b, ¬isBlank x := by
        cases hb
        case lf   => exact ⟨'\n', by simp, by decide⟩
        case crlf => exact ⟨'\r', by simp, by decide⟩
      obtain ⟨x, hx, hn⟩ := hn
      exact absurd (hw x <| by simp [hx]) hn
    case more hl ho =>
      rw [bind_of_map ho, List.foldlM_append, Option.bind_eq_bind, Option.map_bind]
      exact Option.bind_congr fun d _ => hi fuel d (by omega)

theorem ne_byteOrderMark_of_spelledLine (h : SpelledLine s? t) : ∀ x ∈ t.head?, x ≠ '\ufeff' := by
  cases h
  case blank hw hc =>
    refine head_append (hw.head_ne rfl) ?_
    cases hc
    case none => exact nofun
    case some => exact head_cons (by decide)
  case statement hw hs _ _ =>
    refine head_append (hw.head_ne rfl) ?_
    cases hs
    case assign hk _ _ =>
      obtain ⟨x, k, rfl, hx⟩ := beginsKey_of_key hk
      exact head_cons <| hx.ne (by decide)
    all_goals exact head_cons (by decide)

-- A byte order mark would be passed over, but it is not part of a spelled line.
theorem head_ne_byteOrderMark (h : Spelled ss t) : t.head? ≠ some '\ufeff' := by
  suffices hn : ∀ x ∈ t.head?, x ≠ '\ufeff' from fun hh => hn _ hh rfl
  cases h
  case last h => exact ne_byteOrderMark_of_spelledLine h
  case more h hb _ =>
    refine head_append (ne_byteOrderMark_of_spelledLine h) ?_
    cases hb
    all_goals exact head_cons (by decide)

end Documents

end Scan

-- A spelled text is read as what its statements do to the tables, one after the other.
theorem read?_of_spelled {ss : List Statement} {text : String} (h : Spelled ss text.toList) :
    read? text = (ss.foldlM Statement.apply .empty).map (·.root) := by
  have hm : Scan.take? ['\ufeff'] text.toList = some (false, text.toList) :=
    Scan.take?_of_head_ne <| Scan.head_ne_byteOrderMark h
  have hd : Scan.document text.toList =
      (ss.foldlM Statement.apply .empty).map fun d => (d.root, []) := by
    rw [Scan.document, Scan.bind_of_some hm, Scan.bind_of_map (Scan.exhaust_of_spelled h)]
    exact (Option.map_eq_bind ..).symm
  rw [read?, StateT.run', hd]
  exact Option.map_map ..

-- The statements can stand together in a text.
def IsAccepted (ss : List Statement) : Prop :=
  ∃ text : String, Spelled ss text.toList ∧ (read? text).isSome

theorem IsAccepted.isSome {ss : List Statement} (h : IsAccepted ss) :
    (ss.foldlM Statement.apply .empty).isSome := by
  have ⟨_, hs, hr⟩ := h
  simpa [read?_of_spelled hs] using hr

end Countersign.Toml
