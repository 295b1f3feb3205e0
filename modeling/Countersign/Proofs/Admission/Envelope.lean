import Countersign.Admission.Controller
import Countersign.Proofs.Codec.Places
import Countersign.Proofs.Format.Uuid

namespace Countersign

open Json Symbols

-- The body that a text stands for; `null` stands for none, as a missing one does.
def bodyOf : Option (List Char) → Option String
  | some u => if u = ['n', 'u', 'l', 'l'] then none else some (String.ofList u)
  | none => none

-- The bodies of the request are those in the given text, which has no others.
structure AdmissionRequest.Quotes (q : AdmissionRequest) (v : List Char) : Prop where
  object    : ∃ u?, OnlyFieldText v "object" 6 u? ∧ q.object = bodyOf u?
  oldObject : ∃ u?, OnlyFieldText v "oldObject" 7 u? ∧ q.oldObject = bodyOf u?

-- The review has the request in the given text, which has no other, with the bodies in that.
inductive AdmissionReview.Quotes (r : AdmissionReview) (v : List Char) : Prop
  | request {u : List Char} {q : AdmissionRequest} (h : OnlyFieldText v "request" 2 (some u))
    (hr : r.request = some q) (hu : u ≠ ['n', 'u', 'l', 'l']) (hq : q.Quotes u)
  | null (h : OnlyFieldText v "request" 2 (some ['n', 'u', 'l', 'l'])) (hr : r.request = none)
  | missing (h : OnlyFieldText v "request" 2 none) (hr : r.request = none)

-- What is so of a review that has been read from a text.
structure AdmissionReview.IsReadFrom [Wording] (r : AdmissionReview) (text : String) : Prop where
  -- Both texts of the review are read as the same review.
  survives   : codec.Survives r
  -- Its bodies are those in the text, without the blanks around them.
  bodies     : ∃ w v w', AreBlank w ∧ AreBlank w' ∧ text.toList = w ++ v ++ w' ∧ r.Quotes v
  -- Writing what has been read from what was written changes nothing.
  idempotent : ∀ s ∈ [codec.compact r, codec.pretty r], ∃ r', codec.readText (ofString s) = .ok r' ∧
    codec.compact r' = codec.compact r ∧ codec.pretty r' = codec.pretty r
  -- The gate answers the review in its own text as it answers the review.
  answer     : ∀ s ∈ [codec.compact r, codec.pretty r], ∃ r', codec.readText (ofString s) = .ok r' ∧
    ∀ (c : GateConfig) access now log, c.review access now log r' = c.review access now log r

section Bodies

variable {c : Codec String} {v : List Char}

theorem eq_bodyOf {u? : Option (List Char)} {body : Option String}
    (h : (Codec.option .raw).CitesField .option body u?) : body = bodyOf u? := by
  cases u?
  case none => exact (Option.some.inj h).symm
  case some u =>
    cases body
    case none =>
      rw [show u = _ from h]
      rfl
    case some s =>
      obtain ⟨hn, rfl⟩ := h
      rw [bodyOf, if_neg hn, String.ofList_toList]

variable [Wording]

theorem AdmissionRequest.quotes_of_cites {q : AdmissionRequest} (h : codec.Cites v q) :
    q.Quotes v := by
  obtain ⟨a, rfl, hc⟩ := h
  constructor
  case object =>
    have ⟨u?, ht, hf⟩ := Fields.Has.exists_text
      (.there <| .there <| .there <| .there <| .there <| .there .here) hc
    exact ⟨u?, ht.only, eq_bodyOf hf⟩
  case oldObject =>
    have ⟨u?, ht, hf⟩ := Fields.Has.exists_text
      (.there <| .there <| .there <| .there <| .there <| .there <| .there .here) hc
    exact ⟨u?, ht.only, eq_bodyOf hf⟩

theorem AdmissionReview.quotes_of_cites {r : AdmissionReview} (h : codec.Cites v r) :
    r.Quotes v := by
  obtain ⟨a, rfl, hc⟩ := h
  have ⟨u?, ht, hf⟩ := Fields.Has.exists_text (.there <| .there .here) hc
  cases u?
  case none => exact .missing ht.only (Option.some.inj hf).symm
  case some u =>
    obtain ⟨_, _, q?, _⟩ := a
    cases q?
    case none =>
      obtain rfl : u = _ := hf
      exact .null ht.only rfl
    case some q => exact .request ht.only rfl hf.left (AdmissionRequest.quotes_of_cites hf.right)

end Bodies

def AdmissionResponse.IsValid (r : AdmissionResponse) : Prop :=
  ∀ status ∈ r.result, ∀ code ∈ status.code, code < UInt16.size

section Stability

variable {d : Nat}

theorem UserInfo.isStable : UserInfo.codec.IsStable (d + 2) := by
  simp [UserInfo.codec]

theorem UserInfo.fits (u : UserInfo) : UserInfo.codec.Fits (d + 2) u := by
  simp [UserInfo.codec]

variable [Wording]

theorem Uuid.fits (u : Uuid) : Uuid.codec.Fits d u :=
  Uuid.read_text u

theorem Uuid.isStable : Uuid.codec.IsStable d :=
  fun _ u _ => Uuid.read_text u

theorem AdmissionResponse.fits_iff {r : AdmissionResponse} :
    AdmissionResponse.codec.Fits (d + 2) r ↔ r.IsValid := by
  obtain ⟨u, b, _ | ⟨m, _ | code⟩⟩ := r
  all_goals simp [AdmissionResponse.codec, DenialStatus.codec, Uuid.fits, IsValid]

theorem AdmissionResponse.isStable : AdmissionResponse.codec.IsStable d := by
  simp [AdmissionResponse.codec, DenialStatus.codec, Uuid.isStable]

theorem AdmissionRequest.isStable : AdmissionRequest.codec.IsStable (d + 3) := by
  simp [AdmissionRequest.codec, GroupVersionKind.codec, Operation.codec, Uuid.isStable,
    UserInfo.isStable, UserInfo.fits]

theorem AdmissionReview.isStable : AdmissionReview.codec.IsStable (d + 4) := by
  simp [AdmissionReview.codec, AdmissionRequest.isStable, AdmissionResponse.isStable]

end Stability

-- A review that has been read from a text can be stored and answered as well as the text itself.
theorem review_is_read_from [Wording] {text : String} {r : AdmissionReview}
    (h : AdmissionReview.codec.readText (ofString text) = .ok r) : r.IsReadFrom text := by
  have ⟨w, v, w', hw, hw', _, ht, hc, hf⟩ := Codec.exists_of_readText AdmissionReview.isStable h
  have ⟨ds, hd, hs⟩ := Symbols.Passed.eq_of_map_char ht
  obtain rfl : w' = ds := List.map_injective_iff.mpr (fun _ _ h => Symbol.char.inj h) hd
  have hr := Codec.survives_of_fits (c := AdmissionReview.codec) rfl hf
  exact {
    survives := hr
    bodies := ⟨w, v, w', hw, hw', hs, AdmissionReview.quotes_of_cites hc⟩
    idempotent := fun s hs => ⟨r, hr.of_mem hs, rfl, rfl⟩
    answer := fun s hs => ⟨r, hr.of_mem hs, fun _ _ _ _ => rfl⟩ }

-- The request is given as a list, and the body of its object holds a bracket in quotes.
def deliveredText : String :=
  "\x7b\"request\":[\"00000000000000000000000000000000\",\x7b\x7d,null,null,\"UPDATE\",\x7b\x7d," ++
    " [\"]\\\"\", 1e999] ,null]\x7d"

def deliveredReview : AdmissionReview :=
  ⟨"", "", some ⟨.zero, ⟨"", "", ""⟩, none, none, .update, .empty, some "[\"]\\\"\", 1e999]", none⟩,
    none⟩

section Delivery

attribute [local instance] Wording.brief

theorem readText_deliveredText :
    AdmissionReview.codec.readText (ofString deliveredText) = .ok deliveredReview := by
  decide +kernel

theorem delivered_review_is_read_from :
    AdmissionReview.codec.readText (ofString deliveredText) = .ok deliveredReview ∧
      deliveredReview.IsReadFrom deliveredText :=
  ⟨readText_deliveredText, review_is_read_from readText_deliveredText⟩

end Delivery

end Countersign
