import Countersign.Proofs.Codec.Returning
import Countersign.Proofs.Json.Depth
import Countersign.Proofs.Task.Strictness

namespace Countersign

open Json

mutual

-- What is written for the value is spelled out.
def Codec.Spells : {α : Type} → Codec α → α → Prop
  | _, .json, j => ∃ members, j = .obj members
  | _, .option _, none => False
  | _, .option c, some a => c.Spells a
  | _, .list c, as => ∀ a ∈ as, c.Spells a
  | _, .record _ fields, a => fields.Spell a
  | _, .via _ back _ c, b => c.Spells (back b)
  | _, .text, _ => True
  | _, .flag, _ => True
  | _, .natural _ _, _ => True
  | _, .formatted _ _ _, _ => True
  | _, .raw, _ => True
  | _, .choice _, _ => True

def Fields.Spell : {α σ : Type} → Fields α σ → α → Prop
  | _, _, .nil, _ => True
  | _, _, .cons _ presence c rest, (a, b) =>
    (presence.isBlank a = false → c.Spells a) ∧ rest.Spell b

end

attribute [simp] Codec.Spells Fields.Spell

mutual

theorem Codec.spelled_tree_iff : {α : Type} → (c : Codec α) → {depth : Nat} → {a : α} → c.isPlain →
    c.Fits depth a → (c.Spelled (c.tree a).settled ↔ c.Spells a)
  | _, .text, _, _, _, _ => .rfl
  | _, .natural _ _, _, _, _, _ => .rfl
  | _, .json, _, j, _, hf => by
    rw [Codec.tree, hf.right]
    rfl
  | _, .option _, _, none, _, _ => by
    simp [Codec.tree, settled]
  | _, .option c, _, some a, hp, hf => by
    have hj : (c.tree a).settled ≠ .null := fun h => hf.left <| c.isNull_of_tree hp h
    exact (and_iff_right hj).trans <| c.spelled_tree_iff hp hf.right
  | _, .list c, _, as, hp, hf => by
    obtain ⟨d, rfl, hf⟩ := hf
    have hi a ha := c.spelled_tree_iff hp (hf a ha)
    simpa [Codec.tree, settled, settledItems_eq] using forall₂_congr hi
  | _, .record _ fields, _, a, hp, hf => by
    have ⟨hn, _, hp⟩ := Codec.isPlain_record_iff.mp hp
    obtain ⟨d, rfl, hf⟩ := hf
    obtain ⟨sorted, hs, hm⟩ := fields.settled_members (a := a) hn
    have hk : ∀ m ∈ sorted, m.1 ∈ fields.names := fun m h =>
      have h := List.mem_map_of_mem (f := Prod.fst) <| hm.mem_iff.mp h
      (fields.keys_sublist a).subset <| keys_settledMembers ▸ h
    rw [Codec.tree, hs, Codec.Spelled, isObjectOf_obj_iff, and_iff_right hk]
    exact fields.spelled_iff hn hp hf fun key _ value => has_obj_iff.trans hm.mem_iff
  | _, .via _ _ _ c, _, _, hp, hf => c.spelled_tree_iff hp hf

theorem Fields.spelled_iff : {α σ : Type} → (fields : Fields α σ) → {depth : Nat} → {a : α} →
    {j : Json} → fields.names.Nodup → fields.arePlain → fields.Fit depth a →
    (∀ key ∈ fields.names, ∀ value,
      j.Has key value ↔ (key, value) ∈ settledMembers (fields.members a)) →
    (fields.Spelled j ↔ fields.Spell a)
  | _, _, .nil, _, _, _, _, _, _, _ => .rfl
  | _, _, .cons name presence c rest, _, (a, b), j, hn, hp, hf, hj => by
    have ⟨hm, hn⟩ := List.nodup_cons.mp hn
    have ⟨hc, hr⟩ := Fields.arePlain_cons_iff.mp hp
    have ⟨ha, hb⟩ := hf
    have ⟨hj, hr'⟩ := List.forall_mem_cons.mp hj
    rw [Fields.members] at hj hr'
    have hno value : (name, value) ∉ settledMembers (rest.members b) := fun h =>
      hm <| (rest.keys_sublist b).subset <| keys_settledMembers ▸ List.mem_map_of_mem (f := Prod.fst) h
    have hi := rest.spelled_iff hn hr hb fun key hkey value => by
      have hne : key ≠ name := fun h => hm <| h ▸ hkey
      rw [hr' key hkey value]
      split
      case isTrue  => rfl
      case isFalse => simp [settledMembers, hne]
    refine and_congr ?_ hi
    split at hj
    case isTrue h  => simp [hj, hno, h]
    case isFalse h =>
      have hb : presence.isBlank a = false := by simpa using h
      rw [← c.spelled_tree_iff hc (ha hb)]
      simp [hj, hno, hb, settledMembers]

end

namespace ApprovalTask

variable {t : ApprovalTask} {d : Nat}

theorem isPlain : codec.isPlain := by
  decide

section Unfolding

attribute [local simp] codec TaskSpec.codec TaskStatus.codec ApproverDetails.codec UserDetails.codec
  ApproverResponse.codec MemberResponse.codec

theorem isLossless : codec.IsLossless := by
  have hn : ¬Json.null.Embeds := nofun
  have hs : TaskSpec.empty.approvalsRequired < UInt64.size := by decide
  have ht : (Codec.option .text).IsProper TaskStatus.empty.startTime := trivial
  simp [Canonical.null, hn, hs, ht]

theorem isProper_iff : codec.IsProper t ↔
    (t.metadata.Canonical ∧ ¬t.metadata.Embeds) ∧ t.spec.approvalsRequired < UInt64.size := by
  rcases t with ⟨_, _, _, _, _, _, _, _ | _⟩
  all_goals simp

theorem fits_iff : codec.Fits (d + 6) t ↔
    (t.metadata.Legible (d + 5) ∧ t.metadata.settled = t.metadata) ∧
      t.spec.approvalsRequired < UInt64.size := by
  rcases t with ⟨_, _, _, _, _, _, _, _ | _⟩
  all_goals simp

theorem spells_iff : codec.Spells t ↔ ∃ members, t.metadata = .obj members := by
  rcases t with ⟨_, _, _, _, _, _, _, _ | _⟩
  all_goals simp

end Unfolding

theorem fits_of_isProper (h : codec.IsProper t) (hd : ¬t.metadata.HoldsDouble)
    (hh : t.metadata.height ≤ d + 5) : codec.Fits (d + 6) t :=
  have ⟨⟨hc, he⟩, hn⟩ := isProper_iff.mp h
  fits_iff.mpr ⟨⟨hc.legible hd he hh, hc.settled⟩, hn⟩

-- The text of the task on one line.
def text (t : ApprovalTask) : Symbols :=
  Symbols.ofString (codec.compact t)

theorem text_eq : t.text = ((codec.tree t).write .compact 0).map .char := by
  rw [text, Codec.compact, Symbols.ofString_ofList, codec.write_tree isPlain]

theorem text_ne_nil : t.text ≠ [] := by
  rw [text_eq]
  exact fun h => nomatch List.map_eq_nil_iff.mp h

-- The metadata are always written.
theorem height_lt_tree (t : ApprovalTask) : t.metadata.height < (codec.tree t).height := by
  have hm : ("metadata", t.metadata) ∈ [("apiVersion", Json.str t.apiVersion), ("kind", .str t.kind),
      ("metadata", t.metadata), ("spec", TaskSpec.codec.tree t.spec),
      ("status", TaskStatus.codec.tree t.status)] := by simp
  exact Nat.lt_succ_of_le <| heightMembers_le_iff.mp (Nat.le_refl _) _ hm

theorem read_text (h : codec.Fits depthLimit t) : read t.text = .ok (codec.tree t).settled := by
  rw [text_eq]
  exact read_write (codec.legible_tree isPlain h) .compact

end ApprovalTask

namespace TaskDecoder

variable {d : TaskDecoder} {role : ObjectRole} {body : Option Symbols} {text : Symbols} {v : Json}
  {t : ApprovalTask}

theorem decode_of_read (h : read text = .ok v) :
    d.decode role (some text) = d.decodeJson role v := by
  cases text
  case nil  => cases read_nil.symm.trans h
  case cons => simp [decode, h]

theorem decode_of_read_ne_ok (hn : text ≠ []) (h : ∀ v, read text ≠ .ok v) :
    ∃ e, (d.decode role (some text)).value = .error e := by
  cases text
  case nil => exact absurd rfl hn
  case cons c text =>
    cases hr : read (c :: text)
    case error => simp [decode, hr]
    case ok v  => exact absurd hr (h v)

-- Without a body a task is empty, and otherwise it is read from the body's value.
theorem cases_of_decode (h : (d.decode role body).value = .ok t) :
    t = .empty ∨ ∃ text v, read text = .ok v ∧ (d.decodeJson role v).value = .ok t := by
  rw [decode.eq_def] at h
  split at h
  case h_1 => exact .inl (Except.ok.inj h).symm
  case h_2 => exact .inl (Except.ok.inj h).symm
  case h_3 text _ =>
    split at h
    case h_1      => cases h
    case h_2 v hr => exact .inr ⟨text, v, hr, h⟩

theorem isProper_of_lenient (h : ((⟨false⟩ : TaskDecoder).decode role body).value = .ok t) :
    ApprovalTask.codec.IsProper t := by
  rcases cases_of_decode h with rfl | ⟨_, v, hr, h⟩
  · exact ApprovalTask.isProper_iff.mpr ⟨⟨.null, nofun⟩, by decide⟩
  · exact ApprovalTask.codec.isProper_of_ofJson ApprovalTask.isLossless (canonical_of_read hr) <|
      lenient_eq_ok_iff.mp h

-- Strict decoding takes a written task if its metadata are an object.
theorem strict_decodeJson_tree_iff (h : ApprovalTask.codec.Fits depthLimit t) :
    ((⟨true⟩ : TaskDecoder).decodeJson role (ApprovalTask.codec.tree t).settled).value = .ok t ↔
      ∃ members, t.metadata = .obj members := by
  have ht := ApprovalTask.codec.ofJson_tree ApprovalTask.isPlain h
  rw [strict_eq_ok_iff, and_iff_left ht,
    ApprovalTask.codec.accepts_iff_spelled ApprovalTask.hasSchema ⟨t, ht⟩,
    ApprovalTask.codec.spelled_tree_iff ApprovalTask.isPlain h, ApprovalTask.spells_iff]

theorem strict_decodeJson_tree_error (h : ApprovalTask.codec.Fits depthLimit t)
    (hm : ¬∃ members, t.metadata = .obj members) : ∃ e,
      ((⟨true⟩ : TaskDecoder).decodeJson role (ApprovalTask.codec.tree t).settled).value = .error e := by
  cases hx : ((⟨true⟩ : TaskDecoder).decodeJson role (ApprovalTask.codec.tree t).settled).value
  case error e => exact ⟨e, rfl⟩
  case ok t' =>
    -- No other task than `t` is read from this value, in whichever mode.
    have ht := (strict_eq_ok_iff.mp hx).right.symm.trans <|
      ApprovalTask.codec.ofJson_tree ApprovalTask.isPlain h
    rw [Except.ok.inj ht] at hx
    exact absurd (strict_decodeJson_tree_iff h |>.mp hx) hm

end TaskDecoder

-- What decoding makes of the text of a task: the task again, as long as the text is not nested too
-- deep for being read and, in strict mode, the metadata are an object.
structure ApprovalTask.IsReread (t : ApprovalTask) : Prop where
  lenient : t.metadata.height < depthLimit → ∀ role,
    ((⟨false⟩ : TaskDecoder).decode role (some t.text)).value = .ok t
  strict  : t.metadata.height < depthLimit → (∃ members, t.metadata = .obj members) → ∀ role,
    ((⟨true⟩ : TaskDecoder).decode role (some t.text)).value = .ok t
  refused : (¬∃ members, t.metadata = .obj members) → ∀ role,
    ∃ e, ((⟨true⟩ : TaskDecoder).decode role (some t.text)).value = .error e
  tooDeep : depthLimit ≤ t.metadata.height → ∀ (d : TaskDecoder) role,
    ∃ e, (d.decode role (some t.text)).value = .error e

namespace ApprovalTask

variable {t : ApprovalTask}

theorem refused_of_deep (h : codec.IsProper t) (hd : ¬t.metadata.HoldsDouble)
    (hh : depthLimit ≤ t.metadata.height) (d : TaskDecoder) (role : ObjectRole) :
    ∃ e, (d.decode role (some t.text)).value = .error e := by
  have hl := codec.legible_tree isPlain <| fits_of_isProper h hd <| Nat.le_add_right ..
  refine TaskDecoder.decode_of_read_ne_ok text_ne_nil fun v => ?_
  rw [text_eq]
  exact read_write_ne_ok hl (Nat.lt_of_le_of_lt hh t.height_lt_tree) .compact v

-- A task that has been decoded is decoded from its own text again.
theorem decoded_task_is_reread {role : ObjectRole} {body : Option Symbols}
    (h : ((⟨false⟩ : TaskDecoder).decode role body).value = .ok t)
    (hd : ¬t.metadata.HoldsDouble) : t.IsReread := by
  have hp := TaskDecoder.isProper_of_lenient h
  have hf (hh : t.metadata.height < depthLimit) : codec.Fits depthLimit t :=
    fits_of_isProper hp hd (d := 121) <| Nat.le_of_lt_succ hh
  constructor
  case lenient =>
    intro hh role
    rw [TaskDecoder.decode_of_read (read_text <| hf hh)]
    exact TaskDecoder.lenient_eq_ok_iff.mpr <| codec.ofJson_tree isPlain (hf hh)
  case strict =>
    intro hh hm role
    rw [TaskDecoder.decode_of_read (read_text <| hf hh)]
    exact TaskDecoder.strict_decodeJson_tree_iff (hf hh) |>.mpr hm
  case tooDeep => exact refused_of_deep hp hd
  case refused =>
    intro hm role
    rcases Nat.lt_or_ge t.metadata.height depthLimit with hh | hh
    case inr => exact refused_of_deep hp hd hh ⟨true⟩ role
    case inl =>
      rw [TaskDecoder.decode_of_read (read_text <| hf hh)]
      exact TaskDecoder.strict_decodeJson_tree_error (hf hh) hm

-- The body of a task with a name and one approver.
def namedBody : Symbols :=
  .ofString <| "\x7b\"metadata\":\x7b\"name\":\"deploy\"\x7d,\"spec\":\x7b" ++
    "\"approvers\":[\x7b\"name\":\"alice\"\x7d],\"numberOfApprovalsRequired\":1\x7d\x7d"

theorem exists_decode_of_any {p : ApprovalTask → Bool} {r : Except GateError ApprovalTask}
    (h : r.toOption.any p = true) : ∃ t, r = .ok t ∧ p t = true := by
  cases r
  case error => cases h
  case ok t  => exact ⟨t, rfl, h⟩

theorem named_task_is_reread : ∃ t,
    ((⟨false⟩ : TaskDecoder).decode .new (some namedBody)).value = .ok t ∧
      ¬t.metadata.HoldsDouble ∧ t.metadata.height < depthLimit ∧ t.qualifiedName = "deploy" ∧
      t.spec.approvalsRequired = 1 ∧ t.IsReread := by
  have h : ((⟨false⟩ : TaskDecoder).decode .new (some namedBody)).value.toOption.any (fun t =>
      ¬t.metadata.HoldsDouble ∧ t.metadata.height < depthLimit ∧ t.qualifiedName = "deploy" ∧
        t.spec.approvalsRequired = 1) = true := by decide +kernel
  obtain ⟨t, ht, h⟩ := exists_decode_of_any h
  obtain ⟨hd, hh, hq, hn⟩ := of_decide_eq_true h
  exact ⟨t, ht, hd, hh, hq, hn, decoded_task_is_reread ht hd⟩

-- A body in which as many brackets stand open as may, and two more in the text embedded in it.
def deepBody : Symbols :=
  Symbols.ofString "\x7b\"metadata\":" ++ List.replicate 125 (.char '[') ++
    Symbols.ofString "\x7b\"$serde_json::private::RawValue\":\"[[]]\"\x7d" ++
    List.replicate 125 (.char ']') ++ [.char '\x7d']

-- Not every task is decoded from its own text again. The brackets of an embedded text are counted
-- anew, but once it is written out with the rest of the metadata they count with all the others.
theorem deep_metadata_not_reread : ∃ t,
    ((⟨false⟩ : TaskDecoder).decode .new (some deepBody)).value = .ok t ∧ ¬t.metadata.HoldsDouble ∧
      ∀ (d : TaskDecoder) role, ∃ e, (d.decode role (some t.text)).value = .error e := by
  have h : ((⟨false⟩ : TaskDecoder).decode .new (some deepBody)).value.toOption.any (fun t =>
      ¬t.metadata.HoldsDouble ∧ depthLimit ≤ t.metadata.height) = true := by decide +kernel
  obtain ⟨t, ht, h⟩ := exists_decode_of_any h
  obtain ⟨hd, hh⟩ := of_decide_eq_true h
  exact ⟨t, ht, hd, refused_of_deep (TaskDecoder.isProper_of_lenient ht) hd hh⟩

end ApprovalTask

end Countersign
