import Countersign.Proofs.Audit.Digest
import Countersign.Proofs.Audit.Storage

namespace Countersign

theorem Codec.compact_inj {α : Type} {c : Codec α} {a b : α} (hc : c.isSound)
    (ha : c.Fits Json.depthLimit a) (hb : c.Fits Json.depthLimit b)
    (h : c.compact a = c.compact b) : a = b := by
  have hr := (survives_of_fits hc ha).compact
  rw [h, (survives_of_fits hc hb).compact] at hr
  exact (Except.ok.inj hr).symm

namespace DecisionRecord

-- What the text of a record tells.
abbrev Told := Uuid × String × String × Decision × String × Unit

def told (r : DecisionRecord) : Told :=
  (r.requestUid, r.task, r.requester, r.decision, r.timestamp.text, ())

-- A record is written as if its time were a text. The text of a time beyond the calendar cannot be
-- read as a time, but as a text it can.
def toldCodec [Wording] : Codec Told :=
  .record "DecisionRecord" <|
  .cons "request_uid" .required Uuid.codec <|
  .cons "task" .required .text <|
  .cons "requester" .required .text <|
  .cons "decision" .required Decision.codec <|
  .cons "timestamp" .required .text .nil

theorem compact_told [Wording] (r : DecisionRecord) : toldCodec.compact r.told = r.text :=
  rfl

theorem fits_told [Wording] (t : Told) : toldCodec.Fits Json.depthLimit t := by
  simp [toldCodec, Json.depthLimit, Uuid.fits, Decision.fits]

theorem told_eq_of_text_eq {a b : DecisionRecord} (h : a.text = b.text) : a.told = b.told :=
  let words := Wording.brief
  toldCodec.compact_inj rfl (fits_told _) (fits_told _) <| by rw [compact_told, compact_told, h]

end DecisionRecord

namespace Chain

variable {w v p q : String} {m n : Nat} {a b : DecisionRecord}

-- Behind one name, the link may have any length: the record's text ends no longer record's text.
theorem digestInput_inj_of_webhook (hm : m < 2 ^ 64) (hn : n < 2 ^ 64)
    (h : digestInput w m p a = digestInput w n q b) : m = n ∧ p = q ∧ a.text = b.text := by
  have ⟨hb, hr⟩ := digestInput_inj h
  simp only [List.append_assoc, List.append_cancel_left_eq] at hb
  have ⟨hs, hp⟩ := List.append_inj hb <| by simp [length_littleEndian]
  exact ⟨littleEndian_inj hm hn hs, eq_of_bytes_eq hp, hr⟩

-- The parts that follow the name agree, the records up to the moments of their times.
structure SameParts (m n : Nat) (p q : String) (a b : DecisionRecord) : Prop where
  sequence   : m = n
  prevDigest : p = q
  text       : a.text = b.text
  requestUid : a.requestUid = b.requestUid
  task       : a.task = b.task
  requester  : a.requester = b.requester
  decision   : a.decision = b.decision

theorem SameParts.of_text (hs : m = n) (hp : p = q) (hr : a.text = b.text) :
    SameParts m n p q a b := by
  have ht := DecisionRecord.told_eq_of_text_eq hr
  simp only [DecisionRecord.told, Prod.mk.injEq] at ht
  obtain ⟨hu, ht, hq, hd, _⟩ := ht
  exact ⟨hs, hp, hr, hu, ht, hq, hd⟩

end Chain

-- What is digested for one webhook, or behind links of the length that digests have, is digested
-- for the same webhook and has the same parts if it is the same.
theorem digest_input_readable {w v p q : String} {m n : Nat} {a b : DecisionRecord}
    (hm : m < 2 ^ 64) (hn : n < 2 ^ 64)
    (hw : w = v ∨ (Chain.bytes p).length = 64 ∧ (Chain.bytes q).length = 64)
    (h : Chain.digestInput w m p a = Chain.digestInput v n q b) :
    w = v ∧ Chain.SameParts m n p q a b := by
  cases hw
  case inl hw =>
    subst hw
    have ⟨hs, hp, hr⟩ := Chain.digestInput_inj_of_webhook hm hn h
    exact ⟨rfl, .of_text hs hp hr⟩
  case inr hl =>
    have ⟨hw, hs, hp, hr⟩ := Chain.digestInput_inj_of_length hm hn (hl.left.trans hl.right.symm) h
    exact ⟨hw, .of_text hs hp hr⟩

namespace Chain

-- A denial whose reason repeats how the JSON of a record begins.
def quotingRecord : DecisionRecord :=
  ⟨.zero, "ci/deploy", "bob", .deny (.invalidInput ⟨"\x7b\"request_uid\":\""⟩), .ofUnix 0⟩

end Chain

-- The case of a record that looks as if another one began inside it.
theorem quoting_record_readable :
    2 ^ 32 < 2 ^ 64 ∧ (Chain.bytes Chain.genesis).length = 64 ∧
    "gate" = "gate" ∧
    Chain.SameParts (2 ^ 32) (2 ^ 32) Chain.genesis Chain.genesis
      Chain.quotingRecord Chain.quotingRecord :=
  have hs : 2 ^ 32 < 2 ^ 64 := by decide
  have hl := Chain.length_bytes_genesis
  ⟨hs, hl, digest_input_readable hs hs (.inr ⟨hl, hl⟩) rfl⟩

end Countersign
