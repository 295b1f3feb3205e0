import Countersign.Proofs.Codec.Rereading
import Countersign.Proofs.Json.Settling

namespace Countersign

open Json

mutual

-- The description is made of texts, numbers, lists and records. The names in a record differ, and
-- none of them marks an embedded text.
def Codec.isPlain : {α : Type} → Codec α → Bool
  | _, .natural limit _ => limit ≤ Numeral.significandLimit
  | _, .option c => c.isPlain
  | _, .list c => c.isPlain
  | _, .record _ fields =>
    fields.names.Nodup && !fields.names.contains embeddingKey && fields.arePlain
  | _, .via _ _ _ c => c.isPlain
  | _, .text => true
  | _, .json => true
  | _, .flag => false
  | _, .formatted _ _ _ => false
  | _, .raw => false
  | _, .choice _ => false

def Fields.arePlain : {α σ : Type} → Fields α σ → Bool
  | _, _, .nil => true
  | _, _, .cons _ _ c rest => c.isPlain && rest.arePlain

end

mutual

-- What a plain description writes, as a JSON value with its members in the order of the fields.
def Codec.tree : {α : Type} → Codec α → α → Json
  | _, .text, s => .str s
  | _, .natural _ _, n => .num (.int n)
  | _, .json, j => j
  | _, .option _, none => .null
  | _, .option c, some a => c.tree a
  | _, .list c, as => .arr (as.map c.tree)
  | _, .record _ fields, a => .obj (fields.members a)
  | _, .via _ back _ c, b => c.tree (back b)
  | _, .flag, _ => .null
  | _, .formatted _ _ _, _ => .null
  | _, .raw, _ => .null
  | _, .choice _, _ => .null

-- The fields that are not left out.
def Fields.members : {α σ : Type} → Fields α σ → α → List (String × Json)
  | _, _, .nil, _ => []
  | _, _, .cons name presence c rest, (a, b) =>
    if presence.isBlank a then rest.members b else (name, c.tree a) :: rest.members b

end

theorem Codec.isPlain_record_iff {α σ : Type} {name : String} {fields : Fields α σ} :
    (record name fields).isPlain ↔
      fields.names.Nodup ∧ embeddingKey ∉ fields.names ∧ fields.arePlain := by
  simp [isPlain, and_assoc]

theorem Fields.arePlain_cons_iff {α β σ : Type} {name : String} {presence : Presence α}
    {c : Codec α} {rest : Fields β σ} :
    (cons name presence c rest).arePlain ↔ c.isPlain ∧ rest.arePlain := by
  simp [arePlain]

section Writing

theorem Json.writeInt_natCast (n : Nat) : writeInt n = Nat.toDigits 10 n := by
  simp [writeInt]

mutual

theorem Codec.write_tree {l : Layout} : {α : Type} → (c : Codec α) → c.isPlain →
    (k : Nat) → (a : α) → (c.tree a).write l k = c.write l k a
  | _, .text, _, _, _ => rfl
  | _, .natural _ _, _, _, n => writeInt_natCast n
  | _, .json, _, _, _ => rfl
  | _, .option _, _, _, none => rfl
  | _, .option c, hp, k, some a => c.write_tree hp k a
  | _, .list c, hp, k, as => by
    have hi : ∀ a ∈ as, (write l (k + 1) ∘ c.tree) a = c.write l (k + 1) a :=
      fun a _ => c.write_tree hp (k + 1) a
    rw [Codec.tree, Codec.write, Json.write, writeItems_eq, List.map_map, List.map_congr_left hi]
  | _, .record _ fields, hp, k, a => by
    have ⟨_, _, hp⟩ := Codec.isPlain_record_iff.mp hp
    rw [Codec.tree, Codec.write, Json.write, fields.writeMembers_members hp (k + 1) a]
  | _, .via _ back _ c, hp, k, b => c.write_tree hp k (back b)

theorem Fields.writeMembers_members {l : Layout} : {α σ : Type} → (fields : Fields α σ) →
    fields.arePlain → (k : Nat) → (a : α) → writeMembers l k (fields.members a) = fields.entries l k a
  | _, _, .nil, _, _, _ => rfl
  | _, _, .cons name presence c rest, hp, k, (a, b) => by
    have ⟨hc, hr⟩ := Fields.arePlain_cons_iff.mp hp
    have hi := rest.writeMembers_members (l := l) hr k b
    rw [Fields.members, Fields.entries]
    split
    case isTrue  => exact hi
    case isFalse => rw [writeMembers, hi, c.write_tree hc k a]

end

end Writing

-- The keys that are written are names of fields, in their order.
theorem Fields.keys_sublist : {α σ : Type} → (fields : Fields α σ) → (a : α) →
    ((fields.members a).map Prod.fst).Sublist fields.names
  | _, _, .nil, _ => .slnil
  | _, _, .cons name presence c rest, (a, b) => by
    have hr := rest.keys_sublist b
    rw [names, members]
    split
    case isTrue  => exact hr.cons name
    case isFalse => exact hr.cons_cons name

theorem Fields.mem_names_of_mem {α σ : Type} {fields : Fields α σ} {a : α} {m : String × Json}
    (h : m ∈ fields.members a) : m.1 ∈ fields.names :=
  (fields.keys_sublist a).subset <| List.mem_map_of_mem h

theorem Json.keys_settledMembers {members : List (String × Json)} :
    (settledMembers members).map Prod.fst = members.map Prod.fst := by
  rw [settledMembers_eq, List.map_map]
  rfl

-- The members of a written record are its fields, put in order.
theorem Fields.settled_members {α σ : Type} {fields : Fields α σ} {a : α}
    (hn : fields.names.Nodup) : ∃ sorted, (Json.obj (fields.members a)).settled = .obj sorted ∧
      sorted.Perm (settledMembers (fields.members a)) :=
  ofMembers_perm <| by
    rw [keys_settledMembers]
    exact hn.sublist (fields.keys_sublist a)

section Legibility

mutual

-- What fits its description is legible.
theorem Codec.legible_tree : {α : Type} → (c : Codec α) → {depth : Nat} → {a : α} → c.isPlain →
    c.Fits depth a → (c.tree a).Legible depth
  | _, .text, _, s, _, _ => .str s
  | _, .natural _ _, _, n, hp, hn => by
    have hl := Nat.lt_of_lt_of_le hn (of_decide_eq_true hp)
    exact .int ⟨by omega, by omega⟩
  | _, .json, _, _, _, hj => hj.left
  | _, .option _, _, none, _, _ => .null
  | _, .option c, _, some _, hp, ha => c.legible_tree hp ha.right
  | _, .list c, _, as, hp, ha => by
    obtain ⟨d, rfl, ha⟩ := ha
    refine .arr fun item hi => ?_
    obtain ⟨a, hm, rfl⟩ := List.mem_map.mp hi
    exact c.legible_tree hp (ha a hm)
  | _, .record _ fields, _, a, hp, ha => by
    have ⟨_, he, hp⟩ := Codec.isPlain_record_iff.mp hp
    obtain ⟨d, rfl, ha⟩ := ha
    refine .obj (fun m hm hk => he ?_) (fields.legible_members hp ha)
    exact hk ▸ Fields.mem_names_of_mem (List.mem_of_mem_head? hm)
  | _, .via _ _ _ c, _, _, hp, hb => c.legible_tree hp hb

theorem Fields.legible_members : {α σ : Type} → (fields : Fields α σ) → {depth : Nat} → {a : α} →
    fields.arePlain → fields.Fit depth a → ∀ m ∈ fields.members a, m.2.Legible depth
  | _, _, .nil, _, _, _, _ => nofun
  | _, _, .cons name presence c rest, _, (a, b), hp, hf => by
    have ⟨hc, hr⟩ := Fields.arePlain_cons_iff.mp hp
    have ⟨ha, hb⟩ := hf
    have hi := rest.legible_members hr hb
    rw [Fields.members]
    split
    case isTrue    => exact hi
    case isFalse h => exact List.forall_mem_cons.mpr ⟨c.legible_tree hc <| ha (by simpa using h), hi⟩

end

end Legibility

namespace Fields

variable {α β σ : Type} {keys ks : List String} {key : String} {value : Json}

-- The slots that hold a record's fields under the given keys.
def under (keys : List String) : {α σ : Type} → Fields α σ → α → σ
  | _, _, .nil, _ => ()
  | _, _, .cons name _ _ rest, (a, b) =>
    (if name ∈ keys then some a else none, rest.under keys b)

-- The value of the key is read as the record's field of this name, if there is one.
def Gives : {α σ : Type} → Fields α σ → α → String → Json → Prop
  | _, _, .nil, _, _, _ => True
  | _, _, .cons name _ c rest, (a, b), key, value =>
    if key = name then c.ofJson value = .ok a else rest.Gives b key value

theorem gives_cons_iff {name : String} {presence : Presence α} {c : Codec α} {rest : Fields β σ} {a : α}
    {b : β} (hn : name ∉ rest.names) (hk : key ∈ rest.names) :
    (cons name presence c rest).Gives (a, b) key value ↔ rest.Gives b key value := by
  rw [Gives, if_neg fun h : key = name => hn <| h ▸ hk]

theorem under_nil : {α σ : Type} → (fields : Fields α σ) → (a : α) → fields.under [] a = fields.start
  | _, _, .nil, _ => rfl
  | _, _, .cons _ _ _ rest, (a, b) => by simp [under, start, rest.under_nil b]

theorem under_congr : {α σ : Type} → (fields : Fields α σ) → (a : α) →
    (∀ name ∈ fields.names, name ∈ keys ↔ name ∈ ks) → fields.under keys a = fields.under ks a
  | _, _, .nil, _, _ => rfl
  | _, _, .cons name _ _ rest, (a, b), h => by
    have ⟨hn, hr⟩ := List.forall_mem_cons.mp h
    simp only [under, hn, rest.under_congr b hr]

-- Taking in a member fills the slot of its key.
theorem takeMember_under : {α σ : Type} → (fields : Fields α σ) → {a : α} → fields.names.Nodup →
    fields.Gives a key value →
    fields.takeMember (fields.under keys a) (key, value) = .ok (fields.under (key :: keys) a)
  | _, _, .nil, _, _, _ => rfl
  | _, _, .cons name presence c rest, (a, b), hn, hg => by
    obtain ⟨hm, hn⟩ := List.nodup_cons.mp hn
    rw [Gives] at hg
    rw [under, takeMember]
    split
    case isTrue hk =>
      have hr : rest.under (key :: keys) b = rest.under keys b :=
        rest.under_congr b fun name hname => by
          have : name ≠ key := fun he => hm <| hk ▸ he ▸ hname
          simp [this]
      rw [if_pos hk] at hg
      rw [hg, under, hr, if_pos (hk ▸ List.mem_cons_self)]
      rfl
    case isFalse hk =>
      rw [if_neg hk] at hg
      have hs : name ∈ key :: keys ↔ name ∈ keys := by simp [Ne.symm hk]
      rw [rest.takeMember_under hn hg, under, if_congr hs rfl rfl]
      rfl

theorem foldlM_under {fields : Fields α σ} {a : α} {members : List (String × Json)}
    (keys : List String) (hn : fields.names.Nodup) (h : ∀ m ∈ members, fields.Gives a m.1 m.2) :
    members.foldlM fields.takeMember (fields.under keys a) =
      .ok (fields.under ((members.map Prod.fst).reverse ++ keys) a) := by
  induction members generalizing keys
  case nil => rfl
  case cons m members hi =>
    have ⟨hm, h⟩ := List.forall_mem_cons.mp h
    have hs := hi (m.1 :: keys) h
    rw [List.foldlM_cons, fields.takeMember_under hn hm, List.map_cons, List.reverse_cons,
      List.append_assoc]
    exact hs

-- Every field that is written fills its slot.
theorem under_members : {α σ : Type} → (fields : Fields α σ) → (a : α) → fields.names.Nodup →
    fields.under ((fields.members a).map Prod.fst) a = fields.taken a
  | _, _, .nil, _, _ => rfl
  | _, _, .cons name presence c rest, (a, b), hn => by
    obtain ⟨hm, hn⟩ := List.nodup_cons.mp hn
    have hr : name ∉ (rest.members b).map Prod.fst := fun h => hm <| (rest.keys_sublist b).subset h
    rw [under, taken, members]
    split
    case isTrue => rw [rest.under_members b hn]
    case isFalse =>
      have hc : rest.under (name :: (rest.members b).map Prod.fst) b =
          rest.under ((rest.members b).map Prod.fst) b :=
        rest.under_congr b fun key hkey => by
          have : key ≠ name := fun he => hm <| he ▸ hkey
          simp [this]
      rw [List.map_cons, if_pos List.mem_cons_self, hc, rest.under_members b hn]

-- A record is read from its members, whatever their order is.
theorem closed_of_perm {fields : Fields α σ} {a : α} {members : List (String × Json)}
    (hn : fields.names.Nodup) (hk : ∀ key, key ∈ members.map Prod.fst ↔
      key ∈ (fields.members a).map Prod.fst) (h : ∀ m ∈ members, fields.Gives a m.1 m.2) :
    (do fields.closed (← members.foldlM fields.takeMember fields.start)) = .ok a := by
  have hm := foldlM_under [] hn h
  have hu : fields.under ((members.map Prod.fst).reverse ++ []) a = fields.taken a := by
    rw [← fields.under_members a hn]
    exact fields.under_congr a fun name _ => by simpa using hk name
  rw [under_nil, hu] at hm
  rw [hm]
  exact congrArg (Except.mapError Mismatch.missingField) (fields.finish_taken a)

end Fields

section Reading

theorem mapM_map_eq_ok {ε α β : Type} {f : α → β} {g : β → Except ε α} {as : List α}
    (h : ∀ a ∈ as, g (f a) = .ok a) : (as.map f).mapM g = .ok as := by
  induction as
  case nil => rfl
  case cons a as hi =>
    have ⟨ha, h⟩ := List.forall_mem_cons.mp h
    rw [List.map_cons, List.mapM_cons, ha, hi h]
    rfl

-- Only what is written as `null` is read as `null`.
theorem Codec.isNull_of_tree : {α : Type} → (c : Codec α) → {a : α} → c.isPlain →
    (c.tree a).settled = .null → c.IsNull a
  | _, .json, j, _, h => by
    cases j
    case null => rfl
    all_goals cases h
  | _, .option _, none, _, _ => trivial
  | _, .option c, some _, hp, h => c.isNull_of_tree hp h
  | _, .via _ _ _ c, _, hp, h => c.isNull_of_tree hp h

theorem Codec.ofJson_option_of_ne {α : Type} {c : Codec α} {j : Json} (h : j ≠ .null) :
    (option c).ofJson j = some <$> c.ofJson j := by
  cases j
  case null => exact absurd rfl h
  all_goals rfl

mutual

theorem Codec.ofJson_tree : {α : Type} → (c : Codec α) → {depth : Nat} → {a : α} → c.isPlain →
    c.Fits depth a → c.ofJson (c.tree a).settled = .ok a
  | _, .text, _, _, _, _ => rfl
  | _, .natural limit _, _, n, _, hn => by
    have : n < limit := hn
    simp [Codec.tree, settled, Codec.ofJson, Scan.toNatural, this]
  | _, .json, _, j, _, hf => by
    have ⟨hl, hj⟩ := hf
    rw [Codec.tree, hj]
    exact j.unfold_eq_self hl.not_embeds
  | _, .option _, _, none, _, _ => rfl
  | _, .option c, _, some a, hp, hf => by
    have ⟨hn, ha⟩ := hf
    have hj : (c.tree a).settled ≠ .null := fun h => hn <| c.isNull_of_tree hp h
    rw [Codec.tree, Codec.ofJson_option_of_ne hj, c.ofJson_tree hp ha]
    rfl
  | _, .list c, _, as, hp, ha => by
    obtain ⟨d, rfl, ha⟩ := ha
    rw [Codec.tree, settled, settledItems_eq, List.map_map]
    exact mapM_map_eq_ok fun a hm => c.ofJson_tree hp (ha a hm)
  | _, .record _ fields, _, a, hp, ha => by
    have ⟨hn, _, hp⟩ := Codec.isPlain_record_iff.mp hp
    obtain ⟨d, rfl, ha⟩ := ha
    obtain ⟨sorted, hs, hm⟩ := fields.settled_members (a := a) hn
    rw [Codec.tree, hs]
    refine Fields.closed_of_perm hn (fun key => ?_) fun m h => ?_
    · rw [(hm.map Prod.fst).mem_iff, keys_settledMembers]
    · obtain ⟨n, hn', rfl⟩ := List.mem_map.mp <| settledMembers_eq ▸ hm.mem_iff.mp h
      exact fields.gives_members hn hp ha n hn'
  | _, .via into back into_back c, _, b, hp, hb => by
    rw [Codec.tree, Codec.ofJson, c.ofJson_tree hp hb]
    exact congrArg Except.ok (into_back b)

theorem Fields.gives_members : {α σ : Type} → (fields : Fields α σ) → {depth : Nat} → {a : α} →
    fields.names.Nodup → fields.arePlain → fields.Fit depth a →
    ∀ m ∈ fields.members a, fields.Gives a m.1 m.2.settled
  | _, _, .nil, _, _, _, _, _ => nofun
  | _, _, .cons name presence c rest, _, (a, b), hn, hp, hf => by
    have ⟨hm, hn⟩ := List.nodup_cons.mp hn
    have ⟨hc, hr⟩ := Fields.arePlain_cons_iff.mp hp
    have ⟨ha, hb⟩ := hf
    have hi : ∀ m ∈ rest.members b,
        (Fields.cons name presence c rest).Gives (a, b) m.1 m.2.settled := fun m h =>
      Fields.gives_cons_iff hm (Fields.mem_names_of_mem h) |>.mpr <| rest.gives_members hn hr hb m h
    rw [Fields.members]
    split
    case isTrue => exact hi
    case isFalse h =>
      have hv := c.ofJson_tree hc <| ha (by simpa using h)
      exact List.forall_mem_cons.mpr ⟨by rwa [Fields.Gives, if_pos rfl], hi⟩

end

end Reading

end Countersign
