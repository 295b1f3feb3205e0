import Countersign.Double

namespace Countersign

inductive Number
  | int (i : Int)
  | double (d : Double)
  deriving DecidableEq, Repr

-- An object holds each key once, in ascending order of its characters.
inductive Json
  | null
  | bool (b : Bool)
  | num (n : Number)
  | str (s : String)
  | arr (items : List Json)
  | obj (members : List (String × Json))
  deriving Repr, Inhabited

namespace Json

-- The key that marks an embedded text: an object whose first key is this one stands for the value
-- of the JSON text under it.
def embeddingKey : String := "$serde_json::private::RawValue"

-- Sets a key of an object, keeping its keys in order.
def set (key : String) (value : Json) : List (String × Json) → List (String × Json)
  | [] => [(key, value)]
  | (k, v) :: rest =>
    if k < key then (k, v) :: set key value rest
    else if k = key then (key, value) :: rest
    else (key, value) :: (k, v) :: rest

-- The object with the given members; of two with one key the later one stays.
def ofMembers (members : List (String × Json)) : Json :=
  obj (members.foldl (fun acc (k, v) => set k v acc) [])

def member? (key : String) : List (String × Json) → Option Json
  | [] => none
  | (k, v) :: rest => if k = key then some v else member? key rest

def get? (key : String) : Json → Option Json
  | obj members => member? key members
  | _ => none

def str? : Json → Option String
  | str s => some s
  | _ => none

end Json
end Countersign
