import Countersign.CommandLine.Run
import Std.Time.DateTime.Timestamp

namespace Countersign.Program

-- What there is to say about a file that cannot be read.
def failureText : IO.Error → String
  | .noFileOrDirectory .. => "No such file or directory (os error 2)"
  | .permissionDenied .. => "Permission denied (os error 13)"
  | .inappropriateType .. => "Is a directory (os error 21)"
  | e => toString e

def readFile (path : String) : IO (Except String ByteArray) := do
  try
    return .ok (← IO.FS.readBinFile path)
  catch e =>
    return .error (failureText e)

-- The files that an invocation may look into.
def filesOf (i : CommandLine.Invocation) : List String :=
  i.config.toList ++
    match i.command with
    | .review request _ => [request]
    | .decide old new _ _ => old.toList ++ [new]
    | .scenarios => []

def now : IO Timestamp := do
  let t ← Std.Time.Timestamp.now
  let nanos := t.toNanosecondsSinceUnixEpoch.val
  return { Timestamp.ofUnix (nanos / 1000000000) with nanos := (nanos % 1000000000).toNat }

-- A random identifier, marked as such by its version and variant.
def freshUid : IO Uuid := do
  let digits ← (List.range 32).mapM fun i => do
    let d ← IO.rand 0 15
    return Uuid.digitOf (if i = 12 then 4 else if i = 16 then 8 + d % 4 else d)
  match Uuid.ofDigits? digits with
  | some u => return u
  | none => return .zero

def surroundings (args : List String) : IO CommandLine.Surroundings := do
  let paths := ((CommandLine.readArguments args).map filesOf).getD []
  let files ← paths.mapM fun path => return (path, ← readFile path)
  let uids ← (List.range 8).mapM fun _ => freshUid
  let spare ← freshUid
  let times ← (List.range 8).mapM fun _ => now
  let last ← now
  return {
    file := fun path => (files.lookup path).getD (.error "No such file or directory (os error 2)")
    clock := fun n => times[n]?.getD last
    uid := fun n => uids[n]?.getD spare }

end Countersign.Program

open Countersign in
def main (args : List String) : IO UInt32 := do
  let around ← Program.surroundings args
  let filter := LogFilter.ofText (← IO.getEnv "RUST_LOG")
  let report := @CommandLine.run around .brief filter (fun n => (around.clock n).text) args
  for line in report.stdout do
    IO.println line
  match report.stderr with
  | some message => IO.eprintln message
  | none => pure ()
  return UInt32.ofNat report.exit
