import Countersign.Proofs.Codec.Reading
import Countersign.Proofs.Codec.Taking

namespace Countersign

open Json Scan Symbols

namespace Presence

variable {α : Type}

-- What a missing field stands for, if it may be missing.
def default? : Presence α → Option α
  | required => none
  | optional default _ _ => some default

section

variable {b : α} {blank : α → Bool} {h : ∀ a, blank a = true → a = b}

@[simp]
theorem default?_required : (required : Presence α).default? = none :=
  rfl

@[simp]
theorem default?_optional : (optional b blank h).default? = some b :=
  rfl

end

end Presence

mutual

-- The texts that are kept in the value as they were given stand at their places in its text.
def Codec.Cites : {α : Type} → Codec α → List Char → α → Prop
  | _, .raw, v, s => s.toList = v
  | _, .option _, v, none => v = ['n', 'u', 'l', 'l']
  | _, .option c, v, some a => v ≠ ['n', 'u', 'l', 'l'] ∧ c.Cites v a
  | _, .list c, v, as =>
    ∃ parts, Splits .list v parts ∧ List.Forall₂ (fun p a => c.Cites p.value a) parts as
  | _, .record _ fields, v, a =>
    (∃ parts, Splits .object v parts ∧ fields.CiteMembers parts a) ∨
      ∃ parts, Splits .list v parts ∧ fields.CiteItems parts a
  | _, .via into _ _ c, v, b => ∃ a, b = into a ∧ c.Cites v a
  | _, .text, _, _ => True
  | _, .flag, _, _ => True
  | _, .natural _ _, _, _ => True
  | _, .formatted _ _ _, _, _ => True
  | _, .json, _, _ => True
  | _, .choice _, _, _ => True

-- Each field comes from the only member under its name, or is missing.
def Fields.CiteMembers : {α σ : Type} → Fields α σ → List Part → α → Prop
  | _, _, .nil, _, _ => True
  | _, _, .cons name presence c rest, parts, (a, b) =>
    ((∃ p, Sole parts name p ∧ c.Cites p.value a) ∨
      (∀ p ∈ parts, ¬p.HasKey name) ∧ presence.default? = some a) ∧ rest.CiteMembers parts b

-- The fields come from the items in their order; the last ones may be missing.
def Fields.CiteItems : {α σ : Type} → Fields α σ → List Part → α → Prop
  | _, _, .nil, parts, _ => parts = []
  | _, _, .cons _ _ c rest, p :: parts, (a, b) => c.Cites p.value a ∧ rest.CiteItems parts b
  | _, _, .cons _ presence _ rest, [], (a, b) =>
    presence.default? = some a ∧ rest.CiteItems [] b

end

mutual

-- Whatever is parsed can be printed and parsed again, and what missing fields stand for can be
-- written and read again.
def Codec.IsStable : {α : Type} → Codec α → (depth : Nat) → Prop
  | _, .formatted _ parse print, _ => ∀ s a, parse s = .ok a → parse (print a) = .ok a
  | _, .option c, depth => c.IsStable depth
  | _, .list c, depth => ∀ d, depth = d + 1 → c.IsStable d
  | _, .record _ fields, depth =>
    fields.names.Nodup ∧ ∀ d, depth = d + 1 → fields.AreStable d
  | _, .choice variants, depth => variants.AreStable depth
  | _, .via into back _ c, depth => (∀ a, back (into a) = a) ∧ c.IsStable depth
  | _, .text, _ => True
  | _, .flag, _ => True
  | _, .natural _ _, _ => True
  | _, .raw, _ => True
  | _, .json, _ => False

def Fields.AreStable : {α σ : Type} → Fields α σ → (depth : Nat) → Prop
  | _, _, .nil, _ => True
  | _, _, .cons _ presence c rest, depth => c.IsStable depth ∧
    (∀ a, presence.default? = some a → presence.isBlank a = false → c.Fits depth a) ∧
    rest.AreStable depth

def Variants.AreStable : {α : Type} → Variants α → (depth : Nat) → Prop
  | _, .nil, _ => True
  | _, .cons _ payload rest, depth => payload.IsStable depth ∧ rest.AreStable depth

def Payload.IsStable : {α : Type} → Payload α → (depth : Nat) → Prop
  | _, .unit, _ => True
  | _, .wrapped c, depth => ∀ d, depth = d + 1 → c.IsStable d
  | _, .record _ fields, depth =>
    fields.names.Nodup ∧ ∀ d, depth = d + 2 → fields.AreStable d

end

attribute [simp] Codec.IsStable Fields.AreStable Variants.AreStable Payload.IsStable

namespace Fields

variable {α β σ : Type} {depth : Nat} {key : String} {parts : List Part} {p : Part}

-- Every field that has been read comes from the only member under its name so far.
def Hold (depth : Nat) (parts : List Part) : {α σ : Type} → Fields α σ → σ → Prop
  | _, _, .nil, _ => True
  | _, _, .cons name _ c rest, (some a, slots) =>
    (∃ p, Sole parts name p ∧ c.Cites p.value a ∧ c.Fits depth a) ∧ rest.Hold depth parts slots
  | _, _, .cons name _ _ rest, (none, slots) =>
    (∀ p ∈ parts, ¬p.HasKey name) ∧ rest.Hold depth parts slots

theorem hold_start : {α σ : Type} → (fields : Fields α σ) → fields.Hold depth [] fields.start
  | _, _, .nil => trivial
  | _, _, .cons _ _ _ rest => ⟨nofun, rest.hold_start⟩

theorem sole_concat {name : String} {q : Part} (h : Sole parts name q) (hp : ¬p.HasKey name) :
    Sole (parts ++ [p]) name q := by
  obtain ⟨l, r, rfl, hq, hn⟩ := h
  refine ⟨l, r ++ [p], by simp, hq, ?_⟩
  rw [← List.append_assoc]
  exact List.forall_mem_append.mpr ⟨hn, List.forall_mem_singleton.mpr hp⟩

-- A member of another name changes nothing about a field.
theorem hold_concat : {α σ : Type} → (fields : Fields α σ) → {slots : σ} →
    (∀ name ∈ fields.names, ¬p.HasKey name) → fields.Hold depth parts slots →
    fields.Hold depth (parts ++ [p]) slots
  | _, _, .nil, _, _, _ => trivial
  | _, _, .cons name _ c rest, (some a, slots), hp, h => by
    have ⟨⟨q, hq, hc⟩, hr⟩ := h
    have ⟨hn, hp⟩ := List.forall_mem_cons.mp hp
    exact ⟨⟨q, sole_concat hq hn, hc⟩, rest.hold_concat hp hr⟩
  | _, _, .cons name _ _ rest, (none, slots), hp, h => by
    have ⟨hq, hr⟩ := h
    have ⟨hn, hp⟩ := List.forall_mem_cons.mp hp
    exact ⟨List.forall_mem_append.mpr ⟨hq, List.forall_mem_singleton.mpr hn⟩, rest.hold_concat hp hr⟩

-- The first field is read from the member that comes next.
theorem hold_concat_self {name : String} {presence : Presence α} {c : Codec α} {rest : Fields β σ}
    {slots : σ} {u v : List Char} {a : α} (hm : name ∉ rest.names) (hu : Spells u name.toList)
    (ha : c.Cites v a ∧ c.Fits depth a)
    (h : (cons name presence c rest).Hold depth parts (none, slots)) :
    (cons name presence c rest).Hold depth (parts ++ [⟨enquote u, v⟩]) (some a, slots) := by
  have ⟨hq, hr⟩ := h
  have hk : Part.HasKey ⟨enquote u, v⟩ name := ⟨u, rfl, hu⟩
  refine ⟨⟨⟨enquote u, v⟩, ⟨parts, [], rfl, hk, by simpa using hq⟩, ha⟩, ?_⟩
  exact rest.hold_concat (fun key hkey h => hm <| (hk.unique h) ▸ hkey) hr

-- One of the other fields is read from it.
theorem hold_concat_rest {name : String} {presence : Presence α} {c : Codec α} {rest : Fields β σ}
    {slot : Option α} {slots slots' : σ} (hp : ¬p.HasKey name)
    (hr : rest.Hold depth parts slots → rest.Hold depth (parts ++ [p]) slots')
    (h : (cons name presence c rest).Hold depth parts (slot, slots)) :
    (cons name presence c rest).Hold depth (parts ++ [p]) (slot, slots') := by
  cases slot
  case some a =>
    have ⟨⟨q, hq, ha⟩, h⟩ := h
    exact ⟨⟨q, sole_concat hq hp, ha⟩, hr h⟩
  case none =>
    have ⟨hq, h⟩ := h
    exact ⟨List.forall_mem_append.mpr ⟨hq, List.forall_mem_singleton.mpr hp⟩, hr h⟩

-- A closed record has its fields from its members, or leaves them out.
theorem cite_of_finish : {α σ : Type} → (fields : Fields α σ) → {slots : σ} → {a : α} →
    fields.AreStable depth → fields.Hold depth parts slots → fields.finish slots = .ok a →
    fields.CiteMembers parts a ∧ fields.Fit depth a
  | _, _, .nil, _, _, _, _, _ => ⟨trivial, trivial⟩
  | _, _, .cons name presence c rest, (some a, slots), _, hs, h, hf => by
    have ⟨_, _, hs⟩ := hs
    have ⟨⟨p, hp, hc, ha⟩, hr⟩ := h
    obtain ⟨_, ⟨⟩, hf⟩ := Countersign.bind_eq_ok_iff.mp hf
    obtain ⟨b, hb, ⟨⟩⟩ := Countersign.bind_eq_ok_iff.mp hf
    have ⟨hc', hr⟩ := rest.cite_of_finish hs hr hb
    exact ⟨⟨.inl ⟨p, hp, hc⟩, hc'⟩, fun _ => ha, hr⟩
  | _, _, .cons name presence c rest, (none, slots), _, hs, h, hf => by
    have ⟨_, hd, hsr⟩ := hs
    have ⟨hn, hr⟩ := h
    cases presence
    case required => cases hf
    case optional =>
      obtain ⟨_, ⟨⟩, hf⟩ := Countersign.bind_eq_ok_iff.mp hf
      obtain ⟨b, hb, ⟨⟩⟩ := Countersign.bind_eq_ok_iff.mp hf
      have ⟨hc', hr⟩ := rest.cite_of_finish hsr hr hb
      exact ⟨⟨.inr ⟨hn, rfl⟩, hc'⟩, hd _ rfl, hr⟩

theorem scanField_eq_none_iff : {α σ : Type} → (fields : Fields α σ) → (slots : σ) →
    (fields.scanField depth slots key = none ↔ key ∉ fields.names)
  | _, _, .nil, _ => by simp [scanField, names]
  | _, _, .cons name _ c rest, (slot, slots) => by
    have hr := rest.scanField_eq_none_iff slots
    by_cases hk : key = name
    case pos => cases slot <;> simp [scanField, names, hk]
    case neg => simp [scanField_cons_of_ne hk, names, hk, hr]

-- A member that no field is named after is passed over.
theorem gains_takeIn {fields : Fields α σ} (h : ∀ slots key p,
    fields.scanField depth slots key = some p → Adds (fields.Hold depth) key slots p) :
    Gains (Fields.takeIn (fields.scanField depth)) (fields.Hold depth) := by
  intro slots key slots' s t hs
  rw [takeIn] at hs
  generalize hk : fields.scanField depth slots key = p? at hs
  split at hs
  case h_1 => exact h slots key _ hk hs
  case h_2 =>
    obtain ⟨_, mid, hc, hs⟩ := Scan.bind_eq_ok_iff.mp hs
    obtain ⟨_, _, hv, ⟨⟩⟩ := Scan.bind_eq_ok_iff.mp hs
    have hm := scanField_eq_none_iff fields slots |>.mp hk
    obtain ⟨w, hw, hc⟩ := Extent.exists_of_colon hc
    obtain ⟨v, hv, hp⟩ := Extent.exists_of_value hv
    obtain ⟨w', hw', hd⟩ := passed_dropBlanks mid
    refine ⟨w, w', v, hw, hw', hv, by simpa using hc.trans <| hd.trans hp, fun parts u hl hu => ?_⟩
    exact fields.hold_concat (fun name hn hq => hm <| (hq.unique ⟨u, rfl, hu⟩).symm ▸ hn) hl

-- What is read as an object of the fields is one.
theorem closes_members {fields : Fields α σ} (hs : fields.AreStable depth)
    (hg : Gains (Fields.takeIn (fields.scanField depth)) (fields.Hold depth)) :
    Closes .object (do fields.close (← members (Fields.takeIn (fields.scanField depth)) fields.start))
      endObject fun parts a => fields.CiteMembers parts a ∧ fields.Fit depth a := by
  intro s mid a t h he
  obtain ⟨slots, m, hm, hc⟩ := Scan.bind_eq_ok_iff.mp h
  rw [close] at hc
  generalize hf : fields.finish slots = x at hc
  split at hc
  case h_2 => cases hc
  case h_1 =>
    cases hc
    have ⟨u, parts, hu, hp, hl⟩ := exists_of_members hg hm he fields.hold_start
    exact ⟨u, parts, hu, hp, fields.cite_of_finish hs hl hf⟩

-- What is read as a list of the fields is one.
theorem closes_items {fields : Fields α σ} {expected : String}
    (h : ∀ {s mid t : Symbols} {a : α}, fields.scanItems depth expected 0 s = .ok (a, mid) →
      endList mid = .ok ((), t) → ∃ u parts, Rest .list true u parts ∧ s.Passed u t ∧
        (∀ p ∈ parts, Json.Spelled p.value) ∧ fields.CiteItems parts a ∧ fields.Fit depth a) :
    Closes .list (fields.scanItems depth expected 0) endList fun parts a =>
      fields.CiteItems parts a ∧ fields.Fit depth a :=
  fun _ _ _ _ hs he =>
    have ⟨u, parts, hu, hp, hv, hc⟩ := h hs he
    ⟨u, parts, ⟨hu, hv⟩, hp, hc⟩

end Fields

-- A value that is written as `null` can only be cited from there.
theorem Codec.eq_null_of_cites : {α : Type} → (c : Codec α) → {depth : Nat} → {v : List Char} →
    {a : α} → c.IsStable depth → c.Cites v a → c.IsNull a → v = ['n', 'u', 'l', 'l']
  | _, .raw, _, _, _, _, hc, hn => by
    rw [← show _ = _ from hc, show _ = _ from hn]
    rfl
  | _, .option _, _, _, none, _, hc, _ => hc
  | _, .option c, _, _, some _, hs, hc, hn => c.eq_null_of_cites hs hc.right hn
  | _, .via into back _ c, _, _, _, hs, hc, hn => by
    obtain ⟨a, rfl, hc⟩ := hc
    rw [IsNull, hs.left] at hn
    exact c.eq_null_of_cites hs.right hc hn

-- At the closing bracket there are no more parts.
theorem Json.Tail.of_closing {b : Extent.Bracket} {u : List Char} {parts : List Part}
    {r t : Symbols} (h : Tail b u parts) (hs : Passed (.char b.closing :: r) u t) :
    parts = [] ∧ ∃ w, AreBlank w ∧ u = w ++ [b.closing] := by
  cases h
  case close w hw => exact ⟨rfl, w, hw, rfl⟩
  case more w k lead v u parts hw hl _ =>
    have hh := hs.head_of_char (by simp)
    cases w
    case nil => cases b <;> cases hh
    case cons c w =>
      have hc := hw c List.mem_cons_self
      rw [Option.some.inj hh] at hc
      cases b <;> cases hc

mutual

-- Reading takes the text of a value that what is read cites, and that can be read again.
theorem Codec.cuts_scan : {α : Type} → (c : Codec α) → {depth : Nat} → c.IsStable depth →
    (c.scan depth).Cuts fun v a => c.Cites v a ∧ c.Fits depth a
  | _, .text, _, _ => cuts_text.imp fun _ _ _ => ⟨trivial, trivial⟩
  | _, .flag, _, _ => cuts_flag.imp fun _ _ _ => ⟨trivial, trivial⟩
  | _, .natural _ _, _, _ => cuts_natural.imp fun _ _ h => ⟨trivial, h⟩
  | _, .formatted _ _ _, _, hs => cuts_formatted.imp fun _ a ⟨s, h⟩ => ⟨trivial, hs s a h⟩
  | _, .raw, _, _ => cuts_raw
  | _, .option c, _, hs => (cuts_optional (c.cuts_scan hs)).imp fun v a? h => by
    cases a?
    case none => exact ⟨h, trivial⟩
    case some a =>
      have ⟨hn, hc, hf⟩ := h
      have hv : v ≠ ['n', 'u', 'l', 'l'] := fun h => hn <| h ▸ rfl
      exact ⟨⟨hv, hc⟩, fun hn => hv <| c.eq_null_of_cites hs hc hn, hf⟩
  | _, .list c, _, hs => (cuts_list fun d h => c.cuts_scan (hs d h)).imp fun v as h => by
    obtain ⟨d, rfl, parts, hg, h⟩ := h
    have hf : List.Forall₂ (fun a p => c.Fits d a ∧ c.Cites p.value a) as parts :=
      h.flip.imp fun _ _ h => h.symm
    exact ⟨⟨parts, hg, h.imp fun _ _ h => h.left⟩, d, rfl, ((List.forall₂_and_left _ _).mp hf).left⟩
  | _, .record name fields, depth, hs => by
    have ⟨hn, hs⟩ := hs
    rw [Codec.scan]
    refine (cuts_record (fun d h => Fields.closes_members (hs d h) <| Fields.gains_takeIn <|
        fields.adds_scanField hn (hs d h)) fun d h =>
      Fields.closes_items (fields.rest_of_scanItems (hs d h))).imp fun v a h => ?_
    obtain ⟨d, rfl, ⟨parts, hg, hc, hf⟩ | ⟨parts, hg, hc, hf⟩⟩ := h
    case inl => exact ⟨.inl ⟨parts, hg, hc⟩, d, rfl, hf⟩
    case inr => exact ⟨.inr ⟨parts, hg, hc⟩, d, rfl, hf⟩
  | _, .choice variants, _, hs => by
    rw [Codec.scan]
    refine (cuts_variant (P := fun a => variants.Fit _ a) (fun name p hk s a t h => ?_)
      fun d h name p hk => ?_).imp fun _ _ h => ⟨trivial, h⟩
    · exact variants.fit_of_scanBare hk h
    · subst h
      exact variants.cuts_scanContent hs hk
  | _, .via into back _ c, depth, hs => (c.cuts_scan hs.right).map fun v a h => by
    refine ⟨⟨a, rfl, h.left⟩, ?_⟩
    rw [Codec.Fits, hs.left]
    exact h.right

theorem Fields.adds_scanField : {α σ : Type} → (fields : Fields α σ) → {depth : Nat} →
    fields.names.Nodup → fields.AreStable depth → (slots : σ) → (key : String) → (p : Scan σ) →
    fields.scanField depth slots key = some p → Adds (fields.Hold depth) key slots p
  | _, _, .cons name presence c rest, depth, hn, hs, (slot, slots), key, p, hk => by
    have ⟨hm, hn⟩ := List.nodup_cons.mp hn
    have ⟨hc, _, hs⟩ := hs
    by_cases he : key = name
    case pos =>
      subst he
      cases slot
      case some =>
        simp only [Fields.scanField, if_true, Option.some.injEq] at hk
        subst hk
        intro _ _ _ h
        cases h
      case none =>
        simp only [Fields.scanField, if_true, Option.some.injEq] at hk
        subst hk
        intro slots' s t h
        have hc := (c.cuts_scan hc).map (f := fun a => (some a, slots)) (Q := fun v slots' =>
          ∃ a, slots' = (some a, slots) ∧ c.Cites v a ∧ c.Fits depth a) fun v a h => ⟨a, rfl, h⟩
        obtain ⟨w, w', v, hw, hw', hv, hp, a, rfl, ha⟩ := hc.exists_of_colon h
        refine ⟨w, w', v, hw, hw', hv, hp, fun parts u hl hu => ?_⟩
        exact Fields.hold_concat_self hm hu ha hl
    case neg =>
      rw [Fields.scanField_cons_of_ne he] at hk
      obtain ⟨q, hq, rfl⟩ := Option.map_eq_some_iff.mp hk
      intro slots' s t h
      obtain ⟨slots', ht, rfl⟩ := Scan.map_eq_ok_iff.mp h
      have ⟨w, w', v, hw, hw', hv, hp, hl⟩ := rest.adds_scanField hn hs slots key q hq ht
      refine ⟨w, w', v, hw, hw', hv, hp, fun parts u h hu => ?_⟩
      exact Fields.hold_concat_rest (fun h => he <| (h.unique ⟨u, rfl, hu⟩).symm) (fun h => hl parts u h hu) h

theorem Fields.rest_of_scanItems : {α σ : Type} → (fields : Fields α σ) → {depth : Nat} →
    {expected : String} → {index : Nat} → fields.AreStable depth → {s mid t : Symbols} → {a : α} →
    fields.scanItems depth expected index s = .ok (a, mid) → endList mid = .ok ((), t) →
    ∃ u parts, Rest .list (index == 0) u parts ∧ s.Passed u t ∧ (∀ p ∈ parts, Json.Spelled p.value) ∧
      fields.CiteItems parts a ∧ fields.Fit depth a
  | _, _, .nil, _, _, _, _, _, _, _, _, h, he => by
    cases h
    have ⟨w, hw, hp⟩ := exists_of_endList he
    exact ⟨_, [], .close hw, hp, nofun, rfl, trivial⟩
  | _, _, .cons name presence c rest, depth, expected, index, hs, s, mid, t, a, h, he => by
    have ⟨hc, hd, hr⟩ := hs
    rw [Fields.scanItems, Scan.bind_eq_ok_iff] at h
    obtain ⟨more, m, hm, h⟩ := h
    cases more
    case true =>
      obtain ⟨a, m', ha, h⟩ := Scan.bind_eq_ok_iff.mp h
      obtain ⟨b, _, hb, ⟨⟩⟩ := Scan.bind_eq_ok_iff.mp h
      have ⟨u, parts, hu, hp, hsp, hci, hf⟩ := rest.rest_of_scanItems hr hb he
      have ⟨v, hv, hpv, _, hcv, hfv⟩ := c.cuts_scan hc ha
      have ⟨u', hu', hp'⟩ := exists_rest_of_another_true hm hpv hu hp
      exact ⟨u', _, hu', hp', List.forall_mem_cons.mpr ⟨hv, hsp⟩, ⟨hcv, hci⟩, fun _ => hfv, hf⟩
    case false =>
      have ⟨w, r, hw, hpw, hm⟩ := exists_of_another_false hm
      cases presence
      case required => cases h
      case optional =>
        obtain ⟨a, _, ⟨⟩, h⟩ := Scan.bind_eq_ok_iff.mp h
        obtain ⟨b, _, hb, ⟨⟩⟩ := Scan.bind_eq_ok_iff.mp h
        have ⟨u, parts, hu, hp, hsp, hci, hf⟩ := rest.rest_of_scanItems hr hb he
        subst hm
        obtain ⟨rfl, w', hw', rfl⟩ := Tail.of_closing (b := .list) hu hp
        exact ⟨_, [], .close (hw.append hw'), by simpa using hpw.trans hp, nofun, ⟨rfl, hci⟩,
          hd _ rfl, hf⟩

theorem Variants.fit_of_scanBare : {α : Type} → (variants : Variants α) → {depth : Nat} →
    {name : String} → {p : Scan α} → variants.scanBare name = some p →
    {s t : Symbols} → {a : α} → p s = .ok (a, t) → s = t ∧ variants.Fit depth a
  | _, .cons name payload rest, _, key, p, hk, s, t, a, h => by
    rw [Variants.scanBare] at hk
    split at hk
    case isTrue =>
      obtain rfl := Option.some.inj hk
      obtain ⟨b, _, hb, ⟨⟩⟩ := Scan.bind_eq_ok_iff.mp h
      cases payload
      case unit =>
        cases hb
        exact ⟨rfl, trivial⟩
      case wrapped => cases hb
      case record  => cases hb
    case isFalse =>
      obtain ⟨q, hq, rfl⟩ := Option.map_eq_some_iff.mp hk
      obtain ⟨b, _, hb, ⟨⟩⟩ := Scan.bind_eq_ok_iff.mp h
      exact rest.fit_of_scanBare hq hb

theorem Variants.cuts_scanContent : {α : Type} → (variants : Variants α) → {depth : Nat} →
    {name : String} → {p : Scan α} → variants.AreStable (depth + 1) →
    variants.scanContent depth name = some p → p.Cuts fun _ a => variants.Fit (depth + 1) a
  | _, .cons name payload rest, depth, key, p, hs, hk => by
    rw [Variants.scanContent] at hk
    split at hk
    case isTrue =>
      obtain rfl := Option.some.inj hk
      exact (payload.cuts_scanContent hs.left).map fun _ _ h => h
    case isFalse =>
      obtain ⟨q, hq, rfl⟩ := Option.map_eq_some_iff.mp hk
      exact (rest.cuts_scanContent hs.right hq).map fun _ _ h => h

theorem Payload.cuts_scanContent : {α : Type} → (payload : Payload α) → {depth : Nat} →
    payload.IsStable (depth + 1) →
    (payload.scanContent depth).Cuts fun _ a => payload.Fits (depth + 1) a
  | _, .unit, _, _ => cuts_unit
  | _, .wrapped c, depth, hs => (c.cuts_scan (hs depth rfl)).imp fun _ _ h => ⟨depth, rfl, h.right⟩
  | _, .record name fields, depth, hs => by
    have ⟨hn, hs⟩ := hs
    rw [Payload.scanContent]
    refine (cuts_record (fun d h => Fields.closes_members (hs d (by rw [h])) <|
        Fields.gains_takeIn <| fields.adds_scanField hn (hs d (by rw [h]))) fun d h =>
      Fields.closes_items (fields.rest_of_scanItems (hs d (by rw [h])))).imp fun v a h => ?_
    obtain ⟨d, rfl, ⟨_, _, _, hf⟩ | ⟨_, _, _, hf⟩⟩ := h
    case inl => exact ⟨d, rfl, hf⟩
    case inr => exact ⟨d, rfl, hf⟩

end

namespace Codec

variable {α : Type} {c : Codec α} {text : Symbols} {a : α}

-- A text that can be read is that of one value, with blanks around it.
theorem exists_of_readText (hs : c.IsStable depthLimit) (h : c.readText text = .ok a) :
    ∃ w v w', AreBlank w ∧ AreBlank w' ∧ Json.Spelled v ∧ text.Passed (w ++ v) (w'.map .char) ∧
      c.Cites v a ∧ c.Fits depthLimit a :=
  have ⟨w', hw', hp⟩ := exists_of_all h
  have ⟨v, hv, hs, _, hc⟩ := c.cuts_scan hs hp
  have ⟨w, hw, hd⟩ := passed_dropBlanks text
  ⟨w, v, w', hw, hw', hv, hd.trans hs, hc⟩

-- A value is read back from both of its texts.
structure Survives (c : Codec α) (a : α) : Prop where
  compact : c.readText (ofString (c.compact a)) = .ok a
  pretty  : c.readText (ofString (c.pretty a)) = .ok a

theorem survives_of_fits (hc : c.isSound) (hf : c.Fits depthLimit a) : c.Survives a where
  compact := by
    rw [compact, ofString_ofList]
    exact readText_write hc hf .compact
  pretty := by
    rw [pretty, ofString_ofList]
    exact readText_write hc hf .pretty

theorem Survives.of_mem (h : c.Survives a) {s : String} (hs : s ∈ [c.compact a, c.pretty a]) :
    c.readText (ofString s) = .ok a := by
  rcases List.mem_pair.mp hs with rfl | rfl
  case inl => exact h.compact
  case inr => exact h.pretty

end Codec

end Countersign
