import Countersign.Admission.Controller
import Countersign.CommandLine.Arguments
import Countersign.CommandLine.LogFilter
import Countersign.CommandLine.Scenarios
import Countersign.Settings.Loader

namespace Countersign.CommandLine

-- What a command puts out, in order.
inductive Output
  | line (text : String)
  | event (e : Event)
  deriving DecidableEq, Repr

inductive Failure
  | gate (e : GateError)
  | scenarios (count : Nat)
  deriving DecidableEq, Repr

def Failure.message : Failure → String
  | gate e => "gatectl error: " ++ e.message
  | scenarios count => toString count ++ " scenario(s) produced an unexpected outcome"

abbrev Console := ExceptT Failure (Emitting Output)

-- What a command finds around it.
structure Surroundings where
  -- The bytes of a file, or why it cannot be read.
  file : String → Except String ByteArray
  -- The time at each place where it is asked for.
  clock : Nat → Timestamp
  -- Identifiers for records that answer no request.
  uid : Nat → Uuid

namespace Console

def print (text : String) : Console Unit :=
  ExceptT.lift (.report (.line text))

-- Runs a step of the gate and puts out its events.
def traced {α : Type} (t : Traced α) : Console α :=
  ExceptT.lift (t.mapEvents .event)

def event (e : Event) : Console Unit :=
  traced (.report e)

def gate {α : Type} : Except GateError α → Console α
  | .ok a => pure a
  | .error e => throw (.gate e)

-- Runs a step of the gate that may fail.
def tracedGate {α : Type} (t : Traced (Except GateError α)) : Console α := do
  gate (← traced t)

end Console

variable (around : Surroundings)

def notText : String :=
  "stream did not contain valid UTF-8"

def readText (path : String) : Except String String := do
  match String.fromUTF8? (← around.file path) with
  | some s => return s
  | none => throw notText

def defaultsEvent : Event :=
  ⟨.debug, .commandLine, "no configuration file given; using defaults", []⟩

def loadConfig [Wording] : Option String → Console GateConfig
  | none => do
    Console.event defaultsEvent
    return .default
  | some path => do
    let text ← Console.gate ((readText around path).mapError (GateConfig.fileError path))
    Console.tracedGate (GateConfig.ofToml text)

def readFile (path : String) : Console String :=
  Console.gate ((readText around path).mapError fun cause =>
    .decode ("cannot read " ++ path ++ ": " ++ cause))

def readReview [Wording] (path : String) : Console AdmissionReview := do
  let text := Symbols.ofString (← readFile around path)
  Console.gate ((AdmissionReview.codec.readText text).mapError fun fault =>
    .decode ("invalid AdmissionReview in " ++ path ++ ": " ++ fault.messageIn text))

def readyEvent (c : GateConfig) : Event :=
  ⟨.debug, .commandLine, "controller ready", [("path", .quoted c.webhook.path)]⟩

def review [Wording] (c : GateConfig) (request : String) (trail : Bool) : Console Unit := do
  let review ← readReview around request
  Console.event (readyEvent c)
  let (answer, log) ←
    Console.traced (c.review .granted (around.clock 0) (.empty c.webhook.name) review)
  Console.print (AdmissionReview.codec.pretty (← Console.gate answer))
  if trail then
    Console.print (DecisionTrail.codec.pretty (← Console.gate (log.trail (around.clock 1))))

def describe (d : Decision) : String :=
  match d.message? with
  | none => "allowed"
  | some message => "denied: " ++ message

def decide (c : GateConfig) (old : Option String) (new : String) (r : Requester) :
    Console Unit := do
  let oldText ← old.mapM (readFile around)
  let newText ← readFile around new
  let oldTask ← Console.tracedGate (c.decoder.decode .old (oldText.map Symbols.ofString))
  let newTask ← Console.tracedGate (c.decoder.decode .new (some (Symbols.ofString newText)))
  Console.print (describe (← Console.traced (judge oldTask.toState newTask.toState r)))

-- Runs a scenario, the one numbered `n`, and returns whether it came out as expected.
def scenario (n : Nat) (log : DecisionLog) (s : Scenario) : Console (Bool × DecisionLog) := do
  let d ← Console.traced (judge s.old s.new s.requester)
  let expected := d.isAllowed == s.expectAllowed
  Console.print ("[" ++ (if expected then "ok" else "MISMATCH") ++ "] Scenario " ++ toString n ++
    ": " ++ s.title)
  Console.print ("      requester: " ++ s.requester.username)
  Console.print ("      outcome:   " ++ describe d)
  let log ← Console.tracedGate (log.record .granted
    ⟨around.uid n, "scenarios/scenario-" ++ toString n, s.requester.username, d, around.clock n⟩)
  return (expected, log)

-- Runs scenarios from number `n` on, and counts those that came out otherwise than expected.
def scenariosFrom (n unexpected : Nat) (log : DecisionLog) :
    List Scenario → Console (Nat × DecisionLog)
  | [] => return (unexpected, log)
  | s :: rest => do
    let (expected, log) ← scenario around n log s
    scenariosFrom (n + 1) (if expected then unexpected else unexpected + 1) log rest

def scenarios : Console Unit := do
  let (unexpected, log) ← scenariosFrom around 1 0 (.empty "gatectl-scenarios") Scenario.reference
  let trail ← Console.gate (log.trail (around.clock (Scenario.reference.length + 1)))
  Console.print ""
  Console.print ("Decision log: " ++ toString trail.entries.length ++ " entries (" ++
    toString trail.allowed ++ " allowed, " ++ toString trail.denied ++ " denied), chain " ++
    if log.verify then "intact" else "BROKEN")
  Console.print ("Head digest:  " ++ trail.head)
  if unexpected ≠ 0 then throw (.scenarios unexpected)

def perform [Wording] (i : Invocation) : Console Unit := do
  let c ← loadConfig around i.config
  match i.command with
  | .review request trail => review around c request trail
  | .decide old new user groups => decide around c old new (.ofClaims user groups)
  | .scenarios => scenarios around

structure Report where
  exit : Nat
  stdout : List String
  stderr : Option String
  deriving DecidableEq, Repr

def Output.shown? (filter : LogFilter) (time : String) : Output → Option String
  | line text => some text
  | event e => if filter.shows e then some (e.line time) else none

-- Runs the command line with the given filter, `time` telling what stands before the event at each
-- place of the output. Nothing is done if the arguments cannot be understood.
def run [Wording] (filter : LogFilter) (time : Nat → String) (args : List String) : Report :=
  match readArguments args with
  | none => ⟨2, [], some (Wording.usage args)⟩
  | some i =>
    let done := (perform around i).run
    let stdout := done.events.zipIdx.filterMap fun (out, n) => out.shown? filter (time n)
    match done.value with
    | .ok () => ⟨0, stdout, none⟩
    | .error failure => ⟨1, stdout, some failure.message⟩

end Countersign.CommandLine
