import Countersign.Log.Record
import Countersign.Sha256

namespace Countersign

-- A record in a chain, with its position, the digest of the entry before it, and a digest over
-- both, the record and the name of the webhook.
structure LogEntry where
  sequence : Nat
  record : DecisionRecord
  prevDigest : String
  digest : String
  deriving DecidableEq, Repr

namespace LogEntry

def codec [Wording] : Codec LogEntry :=
  .via (fun (sequence, record, prevDigest, digest, ()) => ⟨sequence, record, prevDigest, digest⟩)
    (fun e => (e.sequence, e.record, e.prevDigest, e.digest, ())) (fun _ => rfl) <|
  .record "LogEntry" <|
  .cons "sequence" .required (.natural UInt64.size "u64") <|
  .cons "record" .required DecisionRecord.codec <|
  .cons "prev_digest" .required .text <|
  .cons "digest" .required .text .nil

end LogEntry

namespace Chain

-- What stands for the digest before the first entry.
def genesis : String :=
  "".pushn '0' 64

-- The lowest `count` bytes of a number, the lowest of them first.
def littleEndian : (count : Nat) → Nat → List UInt8
  | 0, _ => []
  | count + 1, n => UInt8.ofNat n :: littleEndian count (n / 256)

def bytes (s : String) : List UInt8 :=
  s.toUTF8.toList

-- The bytes that an entry's digest is taken over.
def digestInput (webhook : String) (sequence : Nat) (prevDigest : String) (r : DecisionRecord) :
    List UInt8 :=
  bytes webhook ++ littleEndian 8 sequence ++ bytes prevDigest ++
    bytes r.text

def digest (webhook : String) (sequence : Nat) (prevDigest : String) (r : DecisionRecord) :
    String :=
  String.ofList (Sha256.hexDigest (digestInput webhook sequence prevDigest r))

-- The entry that carries a record at the given place of the chain.
def link (webhook : String) (sequence : Nat) (prevDigest : String) (r : DecisionRecord) :
    LogEntry :=
  ⟨sequence, r, prevDigest, digest webhook sequence prevDigest r⟩

-- Checks the entries from position `sequence` on, which follow the digest `prevDigest`.
def verifyFrom (webhook : String) (sequence : Nat) (prevDigest : String) : List LogEntry → Bool
  | [] => true
  | e :: rest =>
    e.sequence == sequence && e.prevDigest == prevDigest &&
      e.digest == digest webhook e.sequence e.prevDigest e.record &&
      verifyFrom webhook (sequence + 1) e.digest rest

-- Whether positions, links and digests are all as they should be.
def verify (webhook : String) (entries : List LogEntry) : Bool :=
  verifyFrom webhook 0 genesis entries

def lastDigest? (entries : List LogEntry) : Option String :=
  entries.getLast?.map LogEntry.digest

-- The digest of the last entry; empty for an empty chain.
def head (entries : List LogEntry) : String :=
  (lastDigest? entries).getD ""

end Chain

structure DecisionTrail where
  webhook : String
  entries : List LogEntry
  exportedAt : Timestamp
  head : String
  deriving DecidableEq, Repr

namespace DecisionTrail

def codec [Wording] : Codec DecisionTrail :=
  .via (fun (webhook, entries, exportedAt, head, ()) => ⟨webhook, entries, exportedAt, head⟩)
    (fun t => (t.webhook, t.entries, t.exportedAt, t.head, ())) (fun _ => rfl) <|
  .record "DecisionTrail" <|
  .cons "webhook" .required .text <|
  .cons "entries" .required (.list LogEntry.codec) <|
  .cons "exported_at" .required Timestamp.codec <|
  .cons "head" .required .text .nil

def allowed (t : DecisionTrail) : Nat :=
  t.entries.countP (·.record.decision.isAllowed)

def denied (t : DecisionTrail) : Nat :=
  t.entries.length - t.allowed

def verify (t : DecisionTrail) : Bool :=
  Chain.verify t.webhook t.entries

end DecisionTrail
end Countersign
