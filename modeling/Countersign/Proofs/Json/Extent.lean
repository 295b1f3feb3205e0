import Countersign.Proofs.Json.Quotation

namespace Countersign

open Json Symbols

namespace Json

variable {s : Symbols} {u : List Char}

theorem Stops.cons {c : Char} (h : c = ',' ∨ c = ']' ∨ c = '\x7d') : Stops (.char c :: s) := by
  rintro _ ⟨⟩
  rcases h with rfl | rfl | rfl <;> simp

theorem stops_nil : Stops [] :=
  nofun

-- Text that a value can be followed by, up to the first character that is no blank.
theorem AreBlank.stops (h : AreBlank u) (hs : Stops s) : Stops (u.map .char ++ s) := by
  cases u
  case nil => exact hs
  case cons c u =>
    rintro _ ⟨⟩
    exact .inl <| h c List.mem_cons_self

-- The text does not go on with a digit, a point or an exponent.
theorem Stops.head_ne (h : Stops s) :
    ∀ c ∈ s.head?, c.isDigit = false ∧ c ≠ .char '.' ∧ c ≠ .char 'e' ∧ c ≠ .char 'E' := by
  intro c hc
  rcases h c hc with hb | rfl | rfl | rfl
  case inl =>
    simp only [Symbol.isBlank] at hb
    split at hb
    case h_5 => contradiction
    all_goals decide
  all_goals decide

end Json

namespace Extent

variable {s t rest : Symbols} {u v w ds : List Char} {b : Bracket} {bs : List Bracket}
  {next : Option (List Bracket)}

section Strings

theorem escape_of_escaped {e : Char} (h : (Scan.escaped? e).isSome) :
    escape (.char e :: s) = .ok ((), s) := by
  have ⟨c, hc⟩ := Option.isSome_iff_exists.mp h
  simp [escape, Scan.escaped?_ne_u hc, hc]

theorem escape_of_code {q : List Char} {n : Nat} (h : HexQuad q n) :
    escape (.char 'u' :: (q.map .char ++ s)) = .ok ((), s) := by
  change (Scan.hexQuad >>= fun _ => pure ()) (q.map .char ++ s) = _
  rw [Scan.bind_of_ok (Scan.hexQuad_append h), Scan.pure_apply]

theorem repeats_of_content (h : Content u) :
    Scan.Repeats (fun _ => character) () (u.map .char ++ .char '"' :: t) () t := by
  induction h
  case nil => exact .stop rfl
  case plain hq hb hc _ hi =>
    refine .more ?_ (by simp) hi
    simp [character, hc]
  case escaped h _ hi =>
    refine .more ?_ ?_ hi
    · simp [character, Scan.map_of_ok (escape_of_escaped h)]
    · simp only [List.map_cons, List.cons_append, List.length_cons]
      omega
  case code q u n h _ hi =>
    have hc : character (('\\' :: 'u' :: q ++ u).map .char ++ .char '"' :: t) =
        .ok (some (), u.map .char ++ .char '"' :: t) := by
      simp [character, Scan.map_of_ok (escape_of_code h)]
    refine .more hc ?_ hi
    simp only [List.map_cons, List.map_append, List.cons_append, List.append_assoc,
      List.length_cons, List.length_append]
    omega

theorem string_of_content (h : Content u) : string (u.map .char ++ .char '"' :: t) = .ok ((), t) :=
  Scan.exhaust_of_repeats <| repeats_of_content h

end Strings

section Numerals

theorem digits_append (hd : ∀ d ∈ ds, (Symbol.char d).isDigit)
    (ht : ∀ c ∈ t.head?, c.isDigit = false) : digits (ds.map .char ++ t) = .ok ((), t) := by
  have hm : ∀ c ∈ ds.map Symbol.char, c.isDigit := by simpa using hd
  have hd : t.dropWhile Symbol.isDigit = t := by
    cases t
    case nil      => rfl
    case cons c t => simp [ht c rfl]
  change Except.ok ((), (ds.map Symbol.char ++ t).dropWhile Symbol.isDigit) = _
  rw [List.dropWhile_append_of_pos hm, hd]

theorem someDigits_append (hd : AreDigits ds) (ht : ∀ c ∈ t.head?, c.isDigit = false) :
    someDigits (ds.map .char ++ t) = .ok ((), t) := by
  have ⟨d, ds', hs⟩ := List.exists_cons_of_ne_nil hd.ne_nil
  rw [someDigits, Scan.peek_bind]
  subst hs
  simp only [List.map_cons, List.cons_append, List.head?_cons, hd.isDigit d List.mem_cons_self,
    if_true]
  exact digits_append hd.isDigit ht

theorem exponent_of_stops (ht : Stops t) : exponent t = .ok ((), t) := by
  have hn c hc := (ht.head_ne c hc).right.right
  rw [exponent, Scan.peek_bind]
  generalize t.head? = y? at hn
  split
  case h_1 => simp at hn
  case h_2 => simp at hn
  case h_3 => rfl

theorem exponent_unsigned {e : Char} (he : e = 'e' ∨ e = 'E')
    (hs : ∀ c ∈ s.head?, c ≠ .char '+' ∧ c ≠ .char '-') :
    exponent (.char e :: s) = someDigits s := by
  rcases he with rfl | rfl
  all_goals
    simp [exponent]
    generalize s.head? = y? at hs
    split
    case h_1 => simp at hs
    case h_2 => simp at hs
    case h_3 => rfl

theorem exponent_append (h : Exponent u) (ht : Stops t) :
    exponent (u.map .char ++ t) = .ok ((), t) := by
  have hn c hc := (ht.head_ne c hc).left
  cases h
  case none => exact exponent_of_stops ht
  case digits ds he hd =>
    have ⟨d, _, hds⟩ := List.exists_cons_of_ne_nil hd.ne_nil
    have hsign : ∀ c ∈ (ds.map Symbol.char ++ t).head?, c ≠ .char '+' ∧ c ≠ .char '-' := by
      have := hd.isDigit d (hds ▸ List.mem_cons_self)
      subst hds
      rintro _ ⟨⟩
      constructor
      all_goals
        rintro ⟨⟩
        cases this
    exact (exponent_unsigned he hsign).trans <| someDigits_append hd hn
  case signed he hs hd =>
    have := someDigits_append hd hn
    rcases he with rfl | rfl
    all_goals
      rcases hs with rfl | rfl
      all_goals simpa [exponent] using this

-- Behind the digits of a numeral comes none that belongs to them.
theorem head_of_exponent (h : Exponent u) (ht : Stops t) :
    ∀ c ∈ (u.map Symbol.char ++ t).head?, c.isDigit = false ∧ c ≠ .char '.' := by
  cases h
  case none => exact fun c hc => ⟨(ht.head_ne c hc).left, (ht.head_ne c hc).right.left⟩
  case digits he _ =>
    rintro _ ⟨⟩
    rcases he with rfl | rfl <;> decide
  case signed he _ _ =>
    rintro _ ⟨⟩
    rcases he with rfl | rfl <;> decide

-- The part of a numeral behind its integer digits.
def afterWhole : Scan Unit := do
  match ← Scan.peek with
  | some (.char '.') => do Scan.skip; someDigits; exponent
  | _ => exponent

theorem magnitude_eq : magnitude = (do
    match ← Scan.peek with
    | some (.char '0') => do
      Scan.skip
      match ← Scan.peek with
      | some s => if s.isDigit then do Scan.failNext .invalidNumber; afterWhole else afterWhole
      | none => afterWhole
    | _ => do someDigits; afterWhole) :=
  rfl

theorem afterWhole_append (hf : Fraction u) (he : Exponent v) (ht : Stops t) :
    afterWhole (u.map .char ++ (v.map .char ++ t)) = .ok ((), t) := by
  have hn := head_of_exponent he ht
  cases hf
  case none =>
    have := exponent_append he ht
    simp only [List.map_nil, List.nil_append, afterWhole, Scan.peek_bind]
    generalize (List.map Symbol.char v ++ t).head? = y? at hn
    split
    case h_1 => simp at hn
    case h_2 => exact this
  case digits hd =>
    have := someDigits_append hd fun c hc => (hn c hc).left
    simp [afterWhole, Scan.bind_of_ok this, exponent_append he ht]

theorem afterWhole_head (hf : Fraction u) (he : Exponent v) (ht : Stops t) :
    ∀ c ∈ (u.map Symbol.char ++ (v.map Symbol.char ++ t)).head?, c.isDigit = false := by
  cases hf
  case none => exact fun c hc => (head_of_exponent he ht c hc).left
  case digits =>
    rintro _ ⟨⟩
    decide

theorem magnitude_zero (h : ∀ c ∈ s.head?, c.isDigit = false) :
    magnitude (.char '0' :: s) = afterWhole s := by
  simp only [magnitude_eq, Scan.peek_bind, List.head?_cons, Scan.skip_bind]
  generalize s.head? = y? at h
  split
  case h_1 => simp [h]
  case h_2 => rfl

theorem magnitude_digits {d : Char} (hd : d ≠ '0') :
    magnitude (.char d :: s) = (do someDigits; afterWhole : Scan Unit) (.char d :: s) := by
  rw [magnitude_eq, Scan.peek_bind]
  generalize hy : (Symbol.char d :: s).head? = y?
  split
  case h_1 => simp [hd] at hy
  case h_2 => rfl

theorem magnitude_append (h : Magnitude u) (ht : Stops t) :
    magnitude (u.map .char ++ t) = .ok ((), t) := by
  obtain ⟨hi, hf, he⟩ := h
  have hn := afterWhole_head hf he ht
  have ha := afterWhole_append hf he ht
  simp only [List.map_append, List.append_assoc]
  cases hi
  case zero         => exact (magnitude_zero hn).trans ha
  case digits hd hz =>
    exact (magnitude_digits hz).trans <| (Scan.bind_of_ok <| someDigits_append hd hn).trans ha

end Numerals

section Brackets

theorem token_of_opens {m : Malformation} {c : Char} (hw : AreBlank w) (hc : opens c) :
    Scan.token m (w.map .char ++ .char c :: s) = .ok (.char c, .char c :: s) :=
  Scan.token_append hw (isBlank_of_opens hc)

theorem enter_opening (hw : AreBlank w) (b : Bracket) :
    enter (w.map .char ++ .char b.opening :: s) = .ok (some b, s) := by
  cases b
  all_goals
    rw [enter, Scan.bind_of_ok (Scan.token_append hw (by decide))]
    rfl

theorem enter_digit {d : Char} (hw : AreBlank w) (hd : (Symbol.char d).isDigit) :
    enter (w.map .char ++ .char d :: s) = (do magnitude; return none : Scan _) (.char d :: s) := by
  rw [enter, Scan.bind_of_ok (token_of_opens hw (opens_of_isDigit hd))]
  generalize Symbol.char d = y at hd
  split
  case h_8 => rw [if_pos hd]
  all_goals cases hd

theorem enter_of_atom (hw : AreBlank w) (h : Atom u) (ht : Stops t) :
    enter (w.map .char ++ (u.map .char ++ t)) = .ok (none, t) := by
  cases h
  case numeral h =>
    have ⟨d, ds, hs, hd⟩ := h.exists_digit
    have hm := magnitude_append h ht
    subst hs
    exact (enter_digit hw hd).trans <| Scan.bind_of_ok hm
  case text h =>
    rw [enter, enquote, List.cons_append, List.map_cons, List.cons_append,
      Scan.bind_of_ok (token_of_opens hw (by decide))]
    simp [Scan.map_of_ok (string_of_content h)]
  case negative h =>
    rw [enter, List.map_cons, List.cons_append, Scan.bind_of_ok (token_of_opens hw (by decide))]
    simp [Scan.map_of_ok (magnitude_append h ht)]
  all_goals
    rw [enter, List.map_cons, List.cons_append, Scan.bind_of_ok (token_of_opens hw (by decide))]
    simp only [Scan.skip_bind, bind_pure_comp]
    exact Scan.map_of_ok <| Scan.word_append _

theorem colon_append (hw : AreBlank w) : Scan.colon (w.map .char ++ .char ':' :: s) = .ok ((), s) := by
  rw [Scan.colon, Scan.bind_of_ok (Scan.token_append hw (by decide))]
  simp

-- A key is passed, if there has to be one; the blanks in front of the value may be left.
theorem exists_key (h : Lead b u v) : ∃ w, AreBlank w ∧ w.length ≤ v.length ∧
    key b (v.map .char ++ t) = .ok ((), w.map .char ++ t) := by
  cases h
  case item hw => exact ⟨_, hw, Nat.le_refl _, rfl⟩
  case member w₁ k w₂ w₃ h₁ hk h₂ h₃ =>
    refine ⟨w₃, h₃, by simp; omega, ?_⟩
    simp only [enquote, List.map_append, List.map_cons, List.append_assoc, List.cons_append]
    rw [key, Scan.bind_of_ok (Scan.token_append h₁ (by decide))]
    simp only [Scan.skip_bind, List.map_nil, List.nil_append]
    rw [Scan.bind_of_ok (string_of_content hk), colon_append h₂]

theorem ne_closing_of_opens {c : Char} (h : opens c) : Symbol.char c ≠ .char b.closing := by
  rintro ⟨⟩
  cases b <;> cases h

-- In a bracket that has just been opened, the first value comes behind its key.
theorem close_first (bs : List Bracket) (h : Lead b u v) {c : Char} (hc : opens c) :
    ∃ w, AreBlank w ∧ w.length ≤ v.length ∧
      close false (b :: bs) (v.map .char ++ .char c :: t) =
        .ok (some (b :: bs), w.map .char ++ .char c :: t) := by
  cases h
  case item hw =>
    refine ⟨[], areBlank_nil, Nat.zero_le _, ?_⟩
    rw [close, Scan.bind_of_ok (token_of_opens hw hc), if_neg (ne_closing_of_opens hc)]
    rfl
  case member h₁ hk h₂ h₃ =>
    have ⟨w, hw, hl, hk⟩ := exists_key (t := .char c :: t) <| Lead.member areBlank_nil hk h₂ h₃
    refine ⟨w, hw, Nat.le_trans hl (by simp), ?_⟩
    simp only [enquote, List.append_assoc, List.map_append, List.map_cons, List.cons_append,
      List.nil_append] at hk ⊢
    rw [close, Scan.bind_of_ok (Scan.token_append h₁ (by decide)),
      if_neg (ne_closing_of_opens (by decide))]
    exact Scan.bind_of_ok hk

-- Behind a value, a comma leads to the next one.
theorem close_comma (bs : List Bracket) (hw : AreBlank w) (h : Lead b u v) :
    ∃ w', AreBlank w' ∧ w'.length ≤ v.length ∧
      close true (b :: bs) (w.map .char ++ .char ',' :: (v.map .char ++ t)) =
        .ok (some (b :: bs), w'.map .char ++ t) := by
  have ⟨w', hw', hl, hk⟩ := exists_key (t := t) h
  refine ⟨w', hw', hl, ?_⟩
  have hb : Symbol.char ',' ≠ .char b.closing := by cases b <;> decide
  rw [close, Scan.bind_of_ok (Scan.token_append hw (by decide)), if_neg hb]
  simp [Scan.map_of_ok hk]

-- A closing bracket is passed, whether or not a value stands before it.
theorem close_closing (afterItem : Bool) (hw : AreBlank w) :
    close afterItem (b :: bs) (w.map .char ++ .char b.closing :: t) = close true bs t := by
  rw [close, Scan.bind_of_ok (Scan.token_append hw (by cases b <;> decide)), if_pos rfl,
    Scan.skip_bind]

end Brackets

section Values

-- The value that comes next is passed, and what follows it up to the last bracket.
def Passes (bs : List Bracket) (s rest : Symbols) : Prop :=
  ∃ last, Scan.Repeats step bs s last rest

-- What follows a value up to the last bracket is passed.
def Finishes (bs : List Bracket) (s rest : Symbols) : Prop :=
  close true bs s = .ok (none, rest) ∨
    ∃ bs' mid, close true bs s = .ok (some bs', mid) ∧ mid.length ≤ s.length ∧ Passes bs' mid rest

-- The text is passed as a value, inside of any brackets.
def IsPassed (u : List Char) : Prop :=
  ∀ {bs : List Bracket} {w : List Char} {t rest : Symbols}, AreBlank w → Stops t →
    Finishes bs t rest → Passes bs (w.map .char ++ (u.map .char ++ t)) rest

theorem passes_of_step (hs : step bs s = close true bs t) (ht : t.length < s.length)
    (h : Finishes bs t rest) : Passes bs s rest := by
  rcases h with hc | ⟨bs', mid, hc, hm, last, hr⟩
  case inl => exact ⟨bs, .stop <| hs.trans hc⟩
  case inr => exact ⟨last, .more (hs.trans hc) (by omega) hr⟩

theorem finishes_of_tail {parts : List Part} (h : Tail b u parts)
    (hp : ∀ p ∈ parts, IsPassed p.value) (hf : Finishes bs t rest) :
    Stops (u.map .char ++ t) ∧ Finishes (b :: bs) (u.map .char ++ t) rest := by
  induction h
  case close w hw =>
    have hc : close true (b :: bs) (w.map .char ++ .char b.closing :: t) = close true bs t :=
      close_closing true hw
    simp only [List.map_append, List.map_cons, List.map_nil, List.append_assoc, List.cons_append,
      List.nil_append]
    refine ⟨hw.stops <| .cons (by cases b <;> simp [Bracket.closing]), ?_⟩
    rcases hf with hf | ⟨bs', mid, hf, hm, hr⟩
    case inl => exact .inl <| hc.trans hf
    case inr => exact .inr ⟨bs', mid, hc.trans hf, by simp; omega, hr⟩
  case more w k lead v tl parts hw hl _ hi =>
    have ⟨hv, hp⟩ := List.forall_mem_cons.mp hp
    have ⟨hs, hf⟩ := hi hp
    have ⟨w', hw', hn, hc⟩ := close_comma bs (t := v.map .char ++ (tl.map .char ++ t)) hw hl
    simp only [List.map_append, List.map_cons, List.append_assoc, List.cons_append]
    refine ⟨hw.stops <| .cons (.inl rfl), .inr ⟨_, _, hc, ?_, hv hw' hs hf⟩⟩
    simp
    omega

theorem isPassed_of_spelled (h : Spelled u) : IsPassed u := by
  induction h
  case atom h =>
    intro bs w t rest hw ht hf
    refine passes_of_step (Scan.bind_of_ok <| enter_of_atom hw h ht) ?_ hf
    have ⟨c, v, hu, _⟩ := (Spelled.atom h).opens
    simp [hu]
    omega
  case group b s parts h hp hi =>
    intro bs w t rest hw ht hf
    have he {s : Symbols} : step bs (w.map .char ++ .char b.opening :: s) = close false (b :: bs) s :=
      Scan.bind_of_ok <| enter_opening hw b
    cases h
    case empty w' hw' =>
      refine passes_of_step (t := t) ?_ ?_ hf
      · simpa using he.trans <| close_closing false hw'
      · simp
        omega
    case parts k lead v tl parts hl htl =>
      have ⟨hv, hi⟩ := List.forall_mem_cons.mp hi
      have ⟨hs, hf⟩ := finishes_of_tail htl hi hf
      have ⟨c, v', hc, ho⟩ := (hp _ List.mem_cons_self).opens
      have ⟨w', hw', hn, hcl⟩ := close_first bs (t := v'.map .char ++ (tl.map .char ++ t)) hl ho
      have ⟨last, hr⟩ := hv hw' hs hf
      dsimp only at hc hr
      subst hc
      refine ⟨last, .more ?_ ?_ hr⟩
      · simpa using he.trans hcl
      · simp
        omega

-- The text of a value is passed over, whatever it may be followed by.
theorem value_of_spelled (h : Spelled u) (hw : AreBlank w) (ht : Stops t) :
    value (w.map .char ++ (u.map .char ++ t)) = .ok ((), t) := by
  have hf : Finishes [] t t := .inl rfl
  have ⟨last, hr⟩ := isPassed_of_spelled h hw ht hf
  exact Scan.bind_of_ok <| Scan.exhaust_of_repeats hr

-- It is kept as it stands, without the blanks around it.
theorem raw_of_spelled (h : Spelled u) (hw : AreBlank w) (ht : Stops t) :
    raw (w.map .char ++ (u.map .char ++ t)) = .ok (String.ofList u, t) := by
  have ⟨c, v, hu, hc⟩ := h.opens
  have hd : dropBlanks (w.map .char ++ (u.map .char ++ t)) = u.map .char ++ t := by
    rw [dropBlanks_append hw, hu]
    exact dropBlanks_cons (isBlank_of_opens hc)
  have hv := value_of_spelled (w := []) h areBlank_nil ht
  rw [List.map_nil, List.nil_append] at hv
  rw [raw, Scan.modify_bind, hd, Scan.get_bind, Scan.bind_of_ok hv, Scan.get_bind]
  simp

end Values

end Extent
end Countersign
