import Countersign.Main
import Countersign.Proofs.Update.Slot
import Countersign.Proofs.Update.Isolation
import Countersign.Proofs.Update.Location
import Countersign.Proofs.Update.Admission
import Countersign.Proofs.Update.Kind
import Countersign.Proofs.Update.Provenance
import Countersign.Proofs.Update.Members
import Countersign.Proofs.Update.Race
import Countersign.Proofs.Update.Refusal
import Countersign.Proofs.Update.Terms
import Countersign.Proofs.Update.Threshold
import Countersign.Proofs.Update.View
import Countersign.Proofs.Update.Groups
import Countersign.Proofs.Update.Relevance
import Countersign.Proofs.Update.Commutation
import Countersign.Proofs.Update.Explanation
import Countersign.Proofs.Update.Finding
import Countersign.Proofs.Update.Events
import Countersign.Proofs.Audit.Bytes
import Countersign.Proofs.Audit.Chain
import Countersign.Proofs.Audit.Commitment
import Countersign.Proofs.Audit.Log
import Countersign.Proofs.Audit.Recording
import Countersign.Proofs.Audit.Session
import Countersign.Proofs.Audit.Calls
import Countersign.Proofs.Task.Strictness
import Countersign.Proofs.Task.Rereading
import Countersign.Proofs.Audit.Selection
import Countersign.Proofs.Audit.Storage
import Countersign.Proofs.Audit.DigestInput
import Countersign.Proofs.Admission.Envelope
import Countersign.Proofs.Admission.Events
import Countersign.Proofs.CommandLine.Arguments
import Countersign.Proofs.CommandLine.Console
import Countersign.Proofs.CommandLine.Agreement
import Countersign.Proofs.CommandLine.Completeness
import Countersign.Proofs.Toml.Spelling
import Countersign.Proofs.Toml.Scanning
import Countersign.Proofs.Toml.Reading
import Countersign.Proofs.Toml.Tables
import Countersign.Proofs.Settings.Field
import Countersign.Proofs.Settings.Overlay
import Countersign.Proofs.Settings.Loading
