import Countersign.Json.Scan
import Mathlib.Data.List.DropRight

namespace Countersign

namespace Symbols

variable {s t : Symbols} {cs ds : List Char}

@[simp]
theorem chars_append : chars (s ++ t) = chars s ++ chars t := by
  induction s
  case nil => rfl
  case cons c s hi => cases c <;> simp [chars, hi]

@[simp]
theorem chars_map_char : chars (cs.map .char) = cs := by
  induction cs
  case nil => rfl
  case cons c cs hi => simp [chars, hi]

theorem ofString_ofList : ofString (String.ofList cs) = cs.map .char := by
  simp [ofString]

end Symbols

-- Blanks between the tokens of a text.
def Json.AreBlank (w : List Char) : Prop :=
  ∀ c ∈ w, (Symbol.char c).isBlank

namespace Symbols

open Json

variable {s t : Symbols} {c : Symbol} {w cs : List Char}

theorem dropBlanks_cons (h : c.isBlank = false) : dropBlanks (c :: s) = c :: s := by
  simp [dropBlanks, h]

theorem dropBlanks_append (h : AreBlank w) : dropBlanks (w.map .char ++ s) = dropBlanks s := by
  refine List.dropWhile_append_of_pos fun c hc => ?_
  have ⟨_, hw, hc⟩ := List.mem_map.mp hc
  exact hc ▸ h _ hw

theorem dropBlanks_dropBlanks : s.dropBlanks.dropBlanks = s.dropBlanks :=
  List.dropWhile_idempotent _ _

-- What is dropped are blanks, and none of them is a stray byte.
theorem exists_dropBlanks (s : Symbols) :
    ∃ w, AreBlank w ∧ s = w.map .char ++ dropBlanks s := by
  induction s
  case nil => exact ⟨[], nofun, rfl⟩
  case cons c s hi =>
    have ⟨w, hw, hs⟩ := hi
    cases hb : c.isBlank
    case false => exact ⟨[], nofun, (dropBlanks_cons hb).symm⟩
    case true =>
      cases c
      case stray => cases hb
      case char c =>
        refine ⟨c :: w, List.forall_mem_cons.mpr ⟨hb, hw⟩, ?_⟩
        rw [dropBlanks, List.dropWhile_cons_of_pos hb, List.map_cons, List.cons_append]
        exact congrArg _ hs

-- What stands between `s` and `t` are the given characters, stray bytes left out.
def Passed (s : Symbols) (u : List Char) (t : Symbols) : Prop :=
  ∃ p, s = p ++ t ∧ chars p = u

namespace Passed

variable {u v : List Char} {mid : Symbols} {x : Char}

theorem refl (s : Symbols) : Passed s [] s :=
  ⟨[], rfl, rfl⟩

theorem map_char (u : List Char) (t : Symbols) : Passed (u.map .char ++ t) u t :=
  ⟨u.map .char, rfl, chars_map_char⟩

theorem char_cons (x : Char) (t : Symbols) : Passed (.char x :: t) [x] t :=
  map_char [x] t

theorem trans (h₁ : Passed s u mid) (h₂ : Passed mid v t) : Passed s (u ++ v) t := by
  obtain ⟨p, rfl, rfl⟩ := h₁
  obtain ⟨q, rfl, rfl⟩ := h₂
  exact ⟨p ++ q, by simp, chars_append⟩

theorem cons (h : Passed s u t) : Passed (.char x :: s) (x :: u) t :=
  (char_cons x s).trans h

theorem length_le (h : Passed s u t) : t.length ≤ s.length := by
  obtain ⟨p, rfl, _⟩ := h
  simp

theorem length_lt_of_ne_nil (h : Passed s u t) (hu : u ≠ []) : t.length < s.length := by
  obtain ⟨p, rfl, rfl⟩ := h
  have : p ≠ [] := by
    rintro rfl
    exact hu rfl
  simpa using List.length_pos_iff.mpr this

theorem length_lt (h : Passed s (x :: u) t) : t.length < s.length :=
  h.length_lt_of_ne_nil nofun

theorem head_of_char (h : Passed (.char x :: s) u t) (hu : u ≠ []) : u.head? = some x := by
  obtain ⟨p, hs, rfl⟩ := h
  cases p
  case nil => exact absurd rfl hu
  case cons =>
    obtain ⟨rfl, _⟩ := List.cons.inj hs
    rfl

-- In a text without stray bytes, what has been passed is all there was.
theorem eq_of_map_char (h : Passed (cs.map .char) u t) :
    ∃ ds, t = ds.map .char ∧ cs = u ++ ds := by
  obtain ⟨p, hs, rfl⟩ := h
  obtain ⟨us, ds, rfl, rfl, rfl⟩ := List.map_eq_append_iff.mp hs
  exact ⟨ds, rfl, by simp⟩

end Passed

theorem passed_dropBlanks (s : Symbols) : ∃ w, AreBlank w ∧ Passed s w (dropBlanks s) := by
  have ⟨w, hw, hs⟩ := s.exists_dropBlanks
  exact ⟨w, hw, w.map .char, hs, chars_map_char⟩

end Symbols

namespace Json

variable {v w : List Char}

theorem areBlank_nil : AreBlank [] :=
  nofun

theorem AreBlank.append (h₁ : AreBlank v) (h₂ : AreBlank w) : AreBlank (v ++ w) :=
  List.forall_mem_append.mpr ⟨h₁, h₂⟩

end Json

namespace Scan

section Steps

-- These hold of every reader that carries the text it has left.
variable {α β ε τ : Type} {p : StateT τ (Except ε) α} {f : α → StateT τ (Except ε) β} {a : α}
  {b : β} {s t rest : τ}

theorem bind_of_ok (h : p s = .ok (a, t)) : (p >>= f) s = f a t := by
  simp only [bind, StateT.bind, h, Except.bind]

theorem bind_eq_ok_iff : (p >>= f) s = .ok (b, rest) ↔
    ∃ a t, p s = .ok (a, t) ∧ f a t = .ok (b, rest) where
  mp h := by
    cases hp : p s
    case error => simp [bind, StateT.bind, hp, Except.bind] at h
    case ok r => exact ⟨r.1, r.2, rfl, bind_of_ok hp |>.symm.trans h⟩
  mpr h := have ⟨_, _, hp, hf⟩ := h; bind_of_ok hp |>.trans hf

theorem map_of_ok {g : α → β} (h : p s = .ok (a, t)) : (g <$> p) s = .ok (g a, t) := by
  rw [← bind_pure_comp, bind_of_ok h]
  rfl

theorem map_eq_ok_iff {g : α → β} :
    (g <$> p) s = .ok (b, t) ↔ ∃ a, p s = .ok (a, t) ∧ g a = b := by
  rw [← bind_pure_comp, bind_eq_ok_iff]
  constructor
  case mp =>
    rintro ⟨a, _, hp, ⟨⟩⟩
    exact ⟨a, hp, rfl⟩
  case mpr =>
    rintro ⟨a, hp, rfl⟩
    exact ⟨a, t, hp, rfl⟩

@[simp]
theorem pure_apply : (pure a : StateT τ (Except ε) α) s = .ok (a, s) :=
  rfl

@[simp]
theorem modify_bind {g : τ → τ} {f : Unit → StateT τ (Except ε) β} :
    ((modify g : StateT τ (Except ε) Unit) >>= f) s = f () (g s) :=
  rfl

@[simp]
theorem get_bind {f : τ → StateT τ (Except ε) β} :
    ((get : StateT τ (Except ε) τ) >>= f) s = f s s :=
  rfl

@[simp]
theorem set_bind {f : Unit → StateT τ (Except ε) β} :
    ((set t : StateT τ (Except ε) Unit) >>= f) s = f () t :=
  rfl

end Steps

variable {α β σ : Type} {p : Scan α} {a : α} {c : Symbol} {s t rest : Symbols} {m : Malformation}

section Places

@[simp]
theorem skip_cons : skip (c :: s) = .ok ((), s) :=
  rfl

@[simp]
theorem map_skip_cons {g : Unit → β} : (g <$> skip) (c :: s) = .ok (g (), s) :=
  rfl

@[simp]
theorem skip_bind {f : Unit → Scan β} : (skip >>= f) (c :: s) = f () s :=
  rfl

@[simp]
theorem peek_bind {f : Option Symbol → Scan β} : (peek >>= f) s = f s.head? s :=
  rfl

@[simp]
theorem fail_ne_ok {r : α × Symbols} : (fail m : Scan α) s ≠ .ok r :=
  nofun

@[simp]
theorem failNext_ne_ok {r : α × Symbols} : (failNext m : Scan α) s ≠ .ok r :=
  nofun

theorem placedBy_eq_ok_iff {close : Symbols → Symbols} :
    placedBy close p s = .ok (a, rest) ↔ p s = .ok (a, rest) := by
  unfold placedBy
  split
  case h_1 h => simp [h]
  case h_2   => rfl

end Places

section Tokens

theorem token_eq_ok_iff : token m s = .ok (c, t) ↔ ∃ r, s.dropBlanks = c :: r ∧ t = c :: r := by
  simp only [token, modify_bind, peek_bind]
  cases s.dropBlanks
  case nil => simp
  case cons d r =>
    simp only [List.head?_cons, pure_apply, Except.ok.injEq, Prod.mk.injEq, List.cons.injEq]
    constructor
    case mp =>
      rintro ⟨rfl, rfl⟩
      exact ⟨r, ⟨rfl, rfl⟩, rfl⟩
    case mpr =>
      rintro ⟨r, ⟨rfl, rfl⟩, rfl⟩
      exact ⟨rfl, rfl⟩

theorem token_of_dropBlanks (h : s.dropBlanks = c :: t) : token m s = .ok (c, c :: t) :=
  token_eq_ok_iff.mpr ⟨t, h, rfl⟩

-- A token is what comes behind the blanks.
theorem token_append {w : List Char} (hw : Json.AreBlank w) (hc : c.isBlank = false) :
    token m (w.map .char ++ c :: s) = .ok (c, c :: s) :=
  token_of_dropBlanks <| by rw [Symbols.dropBlanks_append hw, Symbols.dropBlanks_cons hc]

theorem token_cons (hc : c.isBlank = false) : token m (c :: s) = .ok (c, c :: s) :=
  token_of_dropBlanks <| Symbols.dropBlanks_cons hc

theorem exists_of_token (h : token m s = .ok (c, t)) :
    ∃ w r, Json.AreBlank w ∧ s.Passed w t ∧ t = c :: r := by
  have ⟨r, hs, ht⟩ := token_eq_ok_iff.mp h
  have ⟨w, hw, hp⟩ := s.passed_dropBlanks
  exact ⟨w, r, hw, hs.trans ht.symm ▸ hp, ht⟩

theorem word_eq_ok_iff {cs : List Char} :
    word cs s = .ok ((), t) ↔ s = cs.map .char ++ t := by
  induction cs generalizing s
  case nil => simp [word]
  case cons c cs hi =>
    rw [word, peek_bind]
    cases s
    case nil => simp
    case cons d s =>
      simp only [List.head?_cons]
      split
      case isTrue hd  => simp [hd, hi]
      case isFalse hd => simp [hd]

theorem word_append (cs : List Char) : word cs (cs.map .char ++ t) = .ok ((), t) :=
  word_eq_ok_iff.mpr rfl

theorem exists_of_finish (h : finish s = .ok ((), t)) :
    ∃ w, Json.AreBlank w ∧ s = w.map .char := by
  rw [finish, modify_bind, peek_bind] at h
  generalize hy : s.dropBlanks.head? = y? at h
  split at h
  case h_2 => cases h
  case h_1 =>
    have ⟨w, hw, hs⟩ := s.exists_dropBlanks
    rw [List.head?_eq_none_iff.mp hy, List.append_nil] at hs
    exact ⟨w, hw, hs⟩

-- What is read as a whole text is read from its front, with blanks left over.
theorem exists_of_all (h : p.all s = .ok a) :
    ∃ w, Json.AreBlank w ∧ p s = .ok (a, w.map .char) := by
  rw [all, StateT.run'] at h
  generalize hx : (do let a ← p; finish; return a : Scan α) s = x at h
  cases x
  case error => cases h
  case ok r =>
    cases h
    obtain ⟨b, mid, hp, hx⟩ := Scan.bind_eq_ok_iff.mp hx
    obtain ⟨_, _, hf, ⟨⟩⟩ := Scan.bind_eq_ok_iff.mp hx
    obtain ⟨w, hw, rfl⟩ := exists_of_finish hf
    exact ⟨w, hw, hp⟩

end Tokens

section Outcomes

variable {α β σ : Type} {p : Scan α} {f : α → Scan β} {a : α} {P : α → Prop} {Q : β → Prop}
  {m : Malformation} {why : Mismatch}

-- Whatever the reader returns is as `P` says.
def Yields (p : Scan α) (P : α → Prop) : Prop :=
  ∀ ⦃s : Symbols⦄ ⦃a : α⦄ ⦃t : Symbols⦄, p s = .ok (a, t) → P a

namespace Yields

theorem andThen (hp : p.Yields P) (h : ∀ a, P a → (f a).Yields Q) : (p >>= f).Yields Q := by
  intro s b t hs
  have ⟨a, mid, ha, hf⟩ := bind_eq_ok_iff.mp hs
  exact h a (hp ha) hf

-- What a reader returns is up to what comes last in it.
theorem bind (h : ∀ a, (f a).Yields Q) : (p >>= f).Yields Q :=
  andThen (P := fun _ => True) (fun _ _ _ _ => trivial) fun a _ => h a

theorem pure (h : P a) : (pure a : Scan α).Yields P := by
  rintro _ _ _ ⟨⟩
  exact h

theorem fail : (fail m : Scan α).Yields P :=
  fun _ _ _ => nofun

theorem failNext : (failNext m : Scan α).Yields P :=
  fun _ _ _ => nofun

theorem reject : (reject why : Scan α).Yields P :=
  fun _ _ _ => nofun

theorem of_all {text : Symbols} (hp : p.Yields P) (h : p.all text = .ok a) : P a :=
  have ⟨_, _, hs⟩ := exists_of_all h
  hp hs

-- What a step keeps is kept by taking it again and again.
theorem exhaust {step : σ → Scan (Option σ)} {I : σ → Prop}
    (h : ∀ st, I st → (step st).Yields fun next => ∀ st' ∈ next, I st') {st : σ} (hs : I st) :
    Yields (exhaust step st) I := by
  suffices hr : ∀ fuel st, I st → Yields (repeatStep step fuel st) I from
    fun s _ _ ha => hr (s.length + 1) st hs ha
  intro fuel
  induction fuel
  case zero => exact fun st hs => pure hs
  case succ hi =>
    refine fun st hs => andThen (h st hs) fun next hn => ?_
    cases next
    case none => exact pure hs
    case some => exact hi _ (hn _ rfl)

end Yields

end Outcomes

section Repetition

-- The step is taken again and again until it has nothing to add.
inductive Repeats (step : σ → Scan (Option σ)) : σ → Symbols → σ → Symbols → Prop
  | stop {st : σ} {s t : Symbols} (h : step st s = .ok (none, t)) : Repeats step st s st t
  | more {st st' last : σ} {s mid t : Symbols} (h : step st s = .ok (some st', mid))
    (shorter : mid.length < s.length) (rest : Repeats step st' mid last t) :
    Repeats step st s last t

variable {step : σ → Scan (Option σ)} {st st' : σ}

theorem Repeats.repeatStep (h : Repeats step st s st' t) {fuel : Nat} (hf : s.length < fuel) :
    repeatStep step fuel st s = .ok (st', t) := by
  induction h generalizing fuel
  all_goals
    obtain ⟨fuel, rfl⟩ := Nat.exists_eq_succ_of_ne_zero (Nat.ne_zero_of_lt hf)
    rw [Countersign.repeatStep, bind_of_ok ‹_›]
  case stop => rfl
  case more hl _ hi => exact hi (by omega)

theorem exhaust_of_repeats (h : Repeats step st s st' t) : exhaust step st s = .ok (st', t) :=
  h.repeatStep (Nat.lt_succ_self _)

theorem repeats_of_repeatStep
    (hp : ∀ {st s st' t}, step st s = .ok (some st', t) → t.length < s.length) {fuel : Nat}
    (hf : s.length < fuel) (h : repeatStep step fuel st s = .ok (st', t)) :
    Repeats step st s st' t := by
  induction fuel generalizing st s
  case zero => contradiction
  case succ fuel hi =>
    have ⟨next?, mid, hs, hn⟩ := bind_eq_ok_iff.mp h
    cases next?
    case none =>
      cases hn
      exact .stop hs
    case some next =>
      have hl := hp hs
      exact .more hs hl <| hi (by omega) hn

-- A step that always takes something never runs out of turns.
theorem repeats_of_exhaust
    (hp : ∀ {st s st' t}, step st s = .ok (some st', t) → t.length < s.length)
    (h : exhaust step st s = .ok (st', t)) : Repeats step st s st' t :=
  repeats_of_repeatStep hp (Nat.lt_succ_self _) h

end Repetition

end Scan
end Countersign
