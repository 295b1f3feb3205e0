import Countersign.CommandLine.Directive
import Countersign.Text.Quoted

namespace Countersign

-- Of several directives the one with the longest path decides, and of two for one path the one that
-- names a field.
abbrev LogFilter := List Directive

namespace LogFilter

-- Reads a filter; the empty one shows nothing.
def read? (s : String) : Option LogFilter :=
  (((s.toList.splitOn ',').map String.ofList).filter (· != "")).mapM Directive.read?

-- Shows warnings and errors.
def standard : LogFilter :=
  [⟨"", none, none, some .warn⟩]

def ofText (s? : Option String) : LogFilter :=
  (s?.bind read?).getD standard

-- The directive that decides on an event: of two as specific as each other, the later.
def deciding? (f : LogFilter) (e : Event) : Option Directive :=
  (f.filter (·.concerns e)).foldl (fun best d =>
    match best with
    | none => some d
    | some b => if d.overrides b then some d else best) none

def shows (f : LogFilter) (e : Event) : Bool :=
  match (f.deciding? e).bind Directive.least with
  | some least => least.rank ≤ e.level.rank
  | none => false

end LogFilter

def FieldValue.text : FieldValue → String
  | shown s => s
  | quoted s => Text.quoted s
  | count n => toString n
  | flag b => toString b

-- The level, filled up to five characters.
def Level.padded (l : Level) : String :=
  String.ofList (List.replicate (5 - l.name.length) ' ') ++ l.name

-- The event on a line, behind the given time.
def Event.line (time : String) (e : Event) : String :=
  time ++ " " ++ e.level.padded ++ " " ++ e.message ++
    String.join (e.fields.map fun (name, value) => " " ++ name ++ "=" ++ value.text)

end Countersign
