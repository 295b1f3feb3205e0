namespace Countersign.Toml

-- How a table came to be. A header may open an implied table, once; a dotted key may only add to
-- tables that dotted keys made; inline tables are closed.
inductive Origin
  | header
  | implied
  | dotted
  | inlined
  deriving DecidableEq, Repr

-- Whether the table has not been defined as a whole.
def Origin.isImplicit : Origin → Bool
  | implied | dotted => true
  | header | inlined => false

inductive Item
  | text (s : String)
  | flag (b : Bool)
  | integer (i : Int)
  | float
  | moment
  | array (items : List Item)
  | table (origin : Origin) (entries : List (String × Item))
  -- Tables that each have a header of their own.
  | tables (elements : List (List (String × Item)))

abbrev Entries := List (String × Item)

namespace Entries

def find? (key : String) : Entries → Option Item
  | [] => none
  | (k, item) :: rest => if k = key then some item else find? key rest

-- Sets a key, in its place if it is there already.
def put (key : String) (item : Item) : Entries → Entries
  | [] => [(key, item)]
  | (k, i) :: rest => if k = key then (key, item) :: rest else (k, i) :: put key item rest

end Entries

-- A change to a table of a given origin.
abbrev Change := Origin → Entries → Option Entries

-- Changes the table that a path of keys leads to, making the tables on the way that are not there.
-- Of tables with headers of their own, the last one is meant.
def descend (byDots : Bool) (change : Change) : List String → Change
  | [], origin, entries => change origin entries
  | key :: path, _, entries =>
    match entries.find? key with
    | none => do
      let made := if byDots then .dotted else .implied
      return entries.put key (.table made (← descend byDots change path made []))
    | some (.table origin inner) =>
      if origin = .inlined ∨ (byDots ∧ !origin.isImplicit) then none
      else do return entries.put key (.table origin (← descend byDots change path origin inner))
    | some (.tables elements) => do
      let last ← elements.getLast?
      return entries.put key (.tables (elements.dropLast ++ [← descend byDots change path .header last]))
    | some _ => none

def addKey (key : String) (item : Item) (entries : Entries) : Option Entries :=
  match entries.find? key with
  | none => some (entries.put key item)
  | some _ => none

-- Adds the value of a dotted key to a table.
def assign (path : List String) (key : String) (item : Item) : Change :=
  descend true (fun origin entries =>
    -- The last table on the way must be one that dotted keys made.
    if path.isEmpty ∨ origin = .dotted then addKey key item entries else none) path

def openTable (key : String) : Change := fun _ entries =>
  match entries.find? key with
  | none => some (entries.put key (.table .header []))
  | some (.table .implied inner) => some (entries.put key (.table .header inner))
  | some _ => none

-- Opens another of the tables that share a header.
def openElement (key : String) : Change := fun _ entries =>
  match entries.find? key with
  | none => some (entries.put key (.tables [[]]))
  | some (.tables elements) => some (entries.put key (.tables (elements ++ [[]])))
  | some _ => none

end Countersign.Toml
