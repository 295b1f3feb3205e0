namespace Countersign.CommandLine

inductive Command
  -- Answer the review in a file, and show the decision log if `trail` is set.
  | review (request : String) (trail : Bool)
  -- Decide on the update from one file to another.
  | decide (old : Option String) (new user : String) (groups : List String)
  | scenarios
  deriving DecidableEq, Repr

structure Invocation where
  config : Option String
  command : Command
  deriving DecidableEq, Repr

inductive Usage
  -- Takes the name of a file.
  | path
  -- Takes any text.
  | text
  -- Takes any text, any number of times.
  | texts
  -- Takes nothing.
  | switch
  deriving DecidableEq, Repr

abbrev Options := List (String × Usage)

-- Options as given, each with its value.
abbrev Given := List (String × String)

def commonOptions : Options :=
  [("config", .path)]

def reviewOptions : Options :=
  commonOptions ++ [("request", .path), ("trail", .switch)]

def decideOptions : Options :=
  commonOptions ++ [("old", .path), ("new", .path), ("user", .text), ("group", .texts)]

-- Whether an argument can be the value of the option before it.
def canBeValue (arg : String) : Bool :=
  arg == "-" || arg.toList.head? != some '-'

-- Splits an option into its name and the value attached to it.
def splitOption (arg : String) : Option (String × Option String) :=
  match arg.toList with
  | '-' :: '-' :: c :: rest =>
    let cs := c :: rest
    let name := String.ofList (cs.takeWhile (· != '='))
    match cs.dropWhile (· != '=') with
    | [] => some (name, none)
    | _ :: value => some (name, some (String.ofList value))
  | _ => none

-- Adds an option to those given before, if it may be given. Every option but `--group` may be given
-- once.
def addGiven (usage : Usage) (name value : String) (given : Given) : Option Given :=
  if usage = .path ∧ value = "" then none
  else if usage ≠ .texts ∧ (given.lookup name).isSome then none
  else some (given ++ [(name, value)])

-- Reads options up to the first argument that is none, and leaves the rest. Options are written
-- `--name value` or `--name=value`.
def readOptions (options : Options) : (args : List String) → Given → Option (Given × List String)
  | [], given => some (given, [])
  | arg :: rest, given =>
    match splitOption arg with
    | none => some (given, arg :: rest)
    | some (name, attached) =>
      match options.lookup name, attached, rest with
      | none, _, _ => none
      | some .switch, some _, _ => none
      | some .switch, none, rest => do readOptions options rest (← addGiven .switch name "" given)
      | some usage, some value, rest => do readOptions options rest (← addGiven usage name value given)
      | some _, none, [] => none
      | some usage, none, value :: rest =>
        if canBeValue value then do readOptions options rest (← addGiven usage name value given)
        else none

-- Reads the options behind the name of a command, which end the line.
def readAll (options : Options) (args : List String) : Option Given := do
  let (given, rest) ← readOptions options args []
  if rest = [] ∨ rest = ["--"] then some given else none

def Given.all (given : Given) (name : String) : List String :=
  (given.filter (·.1 == name)).map Prod.snd

def reviewCommand (given : Given) : Option Command := do
  return .review (← given.lookup "request") (given.lookup "trail").isSome

def decideCommand (given : Given) : Option Command := do
  return .decide (given.lookup "old") (← given.lookup "new") (← given.lookup "user")
    (given.all "group")

-- What the arguments ask for, if they can be understood. Of a `--config` before the name of the
-- command and one behind it, the latter counts.
def readArguments (args : List String) : Option Invocation := do
  let (before, rest) ← readOptions commonOptions args []
  match rest with
  | "review" :: args =>
    let given ← readAll reviewOptions args
    return ⟨(given.lookup "config").or (before.lookup "config"), ← reviewCommand given⟩
  | "decide" :: args =>
    let given ← readAll decideOptions args
    return ⟨(given.lookup "config").or (before.lookup "config"), ← decideCommand given⟩
  | "scenarios" :: args =>
    let given ← readAll commonOptions args
    return ⟨(given.lookup "config").or (before.lookup "config"), .scenarios⟩
  | _ => none

end Countersign.CommandLine
