import Countersign.Proofs.Json.Enclosure

namespace Countersign.Json

open Extent (Bracket)

-- The text does not begin with a blank.
def IsBare (t : List Char) : Prop :=
  ∀ c ∈ t.head?, (Symbol.char c).isBlank = false

variable {b : Bracket} {c d : Char} {k k' lead lead' t t' u v v' w w' : List Char}
  {parts parts' : List Part}

theorem isBare_cons (h : (Symbol.char c).isBlank = false) : IsBare (c :: t) := by
  rintro _ ⟨⟩
  exact h

theorem isBare_enquote : IsBare (enquote k ++ t) :=
  isBare_cons rfl

theorem Spelled.isBare (h : Spelled v) : IsBare (v ++ t) := by
  obtain ⟨c, v, rfl, hc⟩ := h.opens
  exact isBare_cons <| isBlank_of_opens hc

theorem AreBlank.parting (hw : AreBlank w) (hw' : AreBlank w') (ht : IsBare t) (ht' : IsBare t')
    (h : w ++ t = w' ++ t') : w = w' ∧ t = t' := by
  induction w generalizing w'
  case nil =>
    cases w'
    case nil => exact ⟨rfl, h⟩
    case cons c w' =>
      have := ht c <| by rw [← List.nil_append t, h]; rfl
      cases this.symm.trans <| hw' c List.mem_cons_self
  case cons c w hi =>
    cases w'
    case nil =>
      have := ht' c <| by rw [← List.nil_append t', ← h]; rfl
      cases this.symm.trans <| hw c List.mem_cons_self
    case cons =>
      obtain ⟨rfl, he⟩ := List.cons.inj h
      have ⟨hw, ht⟩ := hi (List.forall_mem_cons.mp hw).right (List.forall_mem_cons.mp hw').right he
      exact ⟨congrArg _ hw, ht⟩

theorem eq_of_reader {p : Scan Unit} (h : p (u.map .char) = .ok ((), t.map .char))
    (h' : p (u.map .char) = .ok ((), t'.map .char)) : t = t' :=
  List.map_injective_iff.mpr (fun _ _ h => Symbol.char.inj h) <|
    congrArg Prod.snd <| Except.ok.inj <| h.symm.trans h'

theorem Spelled.parting (hv : Spelled v) (hv' : Spelled v') (ht : Stops (t.map .char))
    (ht' : Stops (t'.map .char)) (h : v ++ t = v' ++ t') : v = v' ∧ t = t' := by
  have hs := Extent.value_of_spelled hv areBlank_nil ht
  have hs' := Extent.value_of_spelled hv' areBlank_nil ht'
  simp only [List.map_nil, List.nil_append, ← List.map_append] at hs hs'
  obtain rfl := eq_of_reader hs (h ▸ hs')
  exact ⟨List.append_cancel_right h, rfl⟩

theorem Content.parting (hk : Content k) (hk' : Content k')
    (h : enquote k ++ t = enquote k' ++ t') : k = k' ∧ t = t' := by
  have hs := Extent.string_of_content (t := t.map .char) hk
  have hs' := Extent.string_of_content (t := t'.map .char) hk'
  simp only [enquote, List.cons_append, List.append_assoc, List.cons.injEq, true_and,
    List.nil_append] at h
  simp only [← List.map_cons, ← List.map_append] at hs hs'
  obtain rfl := eq_of_reader hs (h ▸ hs')
  exact ⟨List.append_cancel_right h, rfl⟩

theorem Lead.parting (hl : Lead b k lead) (hl' : Lead b k' lead') (ht : IsBare t) (ht' : IsBare t')
    (h : lead ++ t = lead' ++ t') : k = k' ∧ lead = lead' ∧ t = t' := by
  cases hl
  case item hw =>
    cases hl'
    case item hw' => exact ⟨rfl, hw.parting hw' ht ht' h⟩
  case member h₁ hk h₂ h₃ =>
    cases hl'
    case member h₁' hk' h₂' h₃' =>
      simp only [List.append_assoc, List.cons_append] at h
      have ⟨hw₁, h⟩ := h₁.parting h₁' isBare_enquote isBare_enquote h
      obtain ⟨rfl, he⟩ := hk.parting hk' h
      have ⟨hw₂, h⟩ := h₂.parting h₂' (isBare_cons rfl) (isBare_cons rfl) he
      have ⟨hw₃, h⟩ := h₃.parting h₃' ht ht' (List.cons.inj h).right
      exact ⟨rfl, by rw [hw₁, hw₂, hw₃], h⟩

theorem Tail.stops (h : Tail b u parts) : Stops (u.map .char) := by
  cases h
  case close hw =>
    rw [List.map_append]
    exact hw.stops <| .cons <| by cases b <;> simp [Bracket.closing]
  case more hw _ _ =>
    simp only [List.map_append, List.append_assoc, List.cons_append, List.map_cons]
    exact hw.stops <| .cons <| .inl rfl

theorem Tail.parting (h : Tail b u parts) (h' : Tail b u parts')
    (hv : ∀ p ∈ parts, Spelled p.value) (hv' : ∀ p ∈ parts', Spelled p.value) : parts = parts' := by
  have hb : IsBare (b.closing :: []) := isBare_cons <| by cases b <;> rfl
  generalize hu : u = u' at h'
  induction h generalizing parts' u'
  case close w hw =>
    cases h'
    case close => rfl
    case more hw' _ _ =>
      simp only [List.append_assoc, List.cons_append] at hu
      have ⟨_, h⟩ := hw.parting hw' hb (isBare_cons rfl) hu
      cases b <;> cases (List.cons.inj h).left
  case more w k lead v t parts hw hl hr hi =>
    have ⟨hv, hvs⟩ := List.forall_mem_cons.mp hv
    cases h'
    case close hw' =>
      simp only [List.append_assoc, List.cons_append] at hu
      have ⟨_, h⟩ := hw.parting hw' (isBare_cons rfl) hb hu
      cases b <;> cases (List.cons.inj h).left
    case more hw' hl' hr' =>
      have ⟨hv', hvs'⟩ := List.forall_mem_cons.mp hv'
      simp only [List.append_assoc, List.cons_append] at hu
      have ⟨_, h⟩ := hw.parting hw' (isBare_cons rfl) (isBare_cons rfl) hu
      obtain ⟨rfl, _, h⟩ := hl.parting hl' hv.isBare hv'.isBare (List.cons.inj h).right
      obtain ⟨rfl, rfl⟩ := hv.parting hv' hr.stops hr'.stops h
      rw [hi hvs hvs' _ rfl hr']

-- Where a part begins, the bracket does not close.
theorem Lead.ne_closing (hl : Lead b k lead) (hv : Spelled v) (hw : AreBlank w) :
    w ++ [b.closing] ≠ lead ++ (v ++ t) := by
  intro h
  have hb : IsBare [b.closing] := isBare_cons <| by cases b <;> rfl
  cases hl
  case item hw' =>
    have ⟨_, h⟩ := hw.parting hw' hb hv.isBare h
    obtain ⟨c, v, rfl, hc⟩ := hv.opens
    obtain ⟨rfl, _⟩ := List.cons.inj h
    cases hc
  case member hw' _ _ _ =>
    simp only [List.append_assoc] at h
    have ⟨_, h⟩ := hw.parting hw' hb isBare_enquote h
    cases (List.cons.inj h).left

-- A list or an object has one way of being split into its parts.
theorem Splits.unique (h : Splits b u parts) (h' : Splits b u parts') : parts = parts' := by
  obtain ⟨hg, hv⟩ := h
  obtain ⟨hg', hv'⟩ := h'
  generalize hu : u = u' at hg'
  cases hg
  case empty hw =>
    cases hg'
    case empty => rfl
    case parts hl' _ =>
      simp only [List.cons_append, List.append_assoc, List.cons.injEq, true_and] at hu
      exact absurd hu <| hl'.ne_closing (List.forall_mem_cons.mp hv').left hw
  case parts hl hr =>
    have ⟨hv, hvs⟩ := List.forall_mem_cons.mp hv
    cases hg'
    case empty hw' =>
      simp only [List.cons_append, List.append_assoc, List.cons.injEq, true_and] at hu
      exact absurd hu.symm <| hl.ne_closing hv hw'
    case parts hl' hr' =>
      have ⟨hv', hvs'⟩ := List.forall_mem_cons.mp hv'
      simp only [List.cons_append, List.append_assoc, List.cons.injEq, true_and] at hu
      obtain ⟨rfl, _, h⟩ := hl.parting hl' hv.isBare hv'.isBare hu
      obtain ⟨rfl, rfl⟩ := hv.parting hv' hr.stops hr'.stops h
      rw [hr.parting hr' hvs hvs']

theorem Sole.mem {name : String} {p : Part} (h : Sole parts name p) : p ∈ parts := by
  obtain ⟨l, r, rfl, _⟩ := h
  simp

theorem Sole.eq_of_hasKey {name : String} {p q : Part} (h : Sole parts name p) (hq : q ∈ parts)
    (hk : q.HasKey name) : q = p := by
  obtain ⟨l, r, rfl, _, hn⟩ := h
  by_contra hne
  refine hn q ?_ hk
  simpa [hne] using hq

-- The text of a field of a record: that of the only member under its name, or of the item at its
-- place in a list; none if there is no such member or item.
inductive FieldText (v : List Char) (name : String) (index : Nat) : Option (List Char) → Prop
  | member {parts : List Part} {p : Part} (h : Splits .object v parts) (hp : Sole parts name p) :
    FieldText v name index (some p.value)
  | missing {parts : List Part} (h : Splits .object v parts) (hn : ∀ p ∈ parts, ¬p.HasKey name) :
    FieldText v name index none
  | item {parts : List Part} (h : Splits .list v parts) :
    FieldText v name index (parts[index]?.map Part.value)

theorem Splits.opening (h : Splits b u parts) : u.head? = some b.opening := by
  cases h.group
  all_goals rfl

-- The text of a field is determined by that of the record.
theorem FieldText.unique {name : String} {index : Nat} {u? u'? : Option (List Char)}
    (h : FieldText v name index u?) (h' : FieldText v name index u'?) : u? = u'? := by
  cases h
  case member p h hp =>
    cases h'
    case member h' hp' =>
      cases h.unique h'
      have ⟨_, _, _, hk, _⟩ := hp'
      rw [hp.eq_of_hasKey hp'.mem hk]
    case missing h' hn =>
      cases h.unique h'
      have ⟨_, _, _, hk, _⟩ := hp
      exact absurd hk <| hn p hp.mem
    case item h' => cases h.opening.symm.trans h'.opening
  case missing h hn =>
    cases h'
    case member p h' hp =>
      cases h.unique h'
      have ⟨_, _, _, hk, _⟩ := hp
      exact absurd hk <| hn p hp.mem
    case missing => rfl
    case item h' => cases h.opening.symm.trans h'.opening
  case item h =>
    cases h'
    case member h' _  => cases h.opening.symm.trans h'.opening
    case missing h' _ => cases h.opening.symm.trans h'.opening
    case item h' => rw [h.unique h']

-- The text of the field is the given one, and no other.
def OnlyFieldText (v : List Char) (name : String) (index : Nat) (u? : Option (List Char)) : Prop :=
  ∀ u'?, FieldText v name index u'? ↔ u'? = u?

theorem FieldText.only {name : String} {index : Nat} {u? : Option (List Char)}
    (h : FieldText v name index u?) : OnlyFieldText v name index u? :=
  fun _ => ⟨fun h' => h'.unique h, fun he => he ▸ h⟩

end Countersign.Json
