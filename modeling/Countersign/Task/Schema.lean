import Countersign.Json.Writer

namespace Countersign

-- A type with the constraints that go with it. Objects are closed, so every unknown key is a
-- violation, except where nothing at all is said about their keys.
inductive Schema
  | text
  | integer (minimum : Int)
  | list (items : Schema)
  | anyObject
  | object (required : List String) (properties : List (String × Schema))

namespace Schema

def typeName : Schema → String
  | text => "string"
  | integer _ => "integer"
  | list _ => "array"
  | anyObject | object _ _ => "object"

-- A number counts as an integer when it has no fractional part, however it is written.
def hasType : Schema → Json → Bool
  | text, .str _ => true
  | integer _, .num (.int _) => true
  | integer _, .num (.double d) => d.isInteger
  | list _, .arr _ => true
  | anyObject, .obj _ => true
  | object _ _, .obj _ => true
  | _, _ => false

mutual

def toJson : Schema → Json
  | text => .ofMembers [("type", .str "string")]
  | integer minimum => .ofMembers [("type", .str "integer"), ("minimum", .num (.int minimum))]
  | list items => .ofMembers [("type", .str "array"), ("items", items.toJson)]
  | anyObject => .ofMembers [("type", .str "object")]
  | object required properties =>
    .ofMembers <|
      [("type", .str "object"), ("properties", .ofMembers (propertiesToJson properties)),
        ("additionalProperties", .bool false)] ++
      if required.isEmpty then [] else [("required", .arr (required.map .str))]

def propertiesToJson : List (String × Schema) → List (String × Json)
  | [] => []
  | (name, schema) :: rest => (name, schema.toJson) :: propertiesToJson rest

end

structure Violation where
  message : String
  -- The keys and indices that lead to the place.
  path : List String
  deriving DecidableEq, Repr

def Violation.describe (v : Violation) : String :=
  v.message ++ " at '" ++ String.join (v.path.map ("/" ++ ·)) ++ "'"

def typeMessage (s : Schema) (j : Json) : String :=
  j.compact ++ " is not of type \"" ++ s.typeName ++ "\""

def additionalMessage (names : List String) : String :=
  "Additional properties are not allowed (" ++
    ", ".intercalate (names.map fun name => "'" ++ name ++ "'") ++
    (if names.length = 1 then " was unexpected)" else " were unexpected)")

def requiredMessage (name : String) : String :=
  (Json.str name).compact ++ " is a required property"

def isBelow (minimum : Int) : Json → Bool
  | .num (.int i) => i < minimum
  | .num (.double d) =>
    let (n, den) := d.ratio
    (if d.negative then -(n : Int) else n) < minimum * den
  | _ => false

def minimumMessage (minimum : Int) (j : Json) : String :=
  j.compact ++ " is less than the minimum of " ++ toString minimum

mutual

-- Everything that is wrong with a value found under the given path.
def violations (path : List String) : Schema → Json → List Violation
  | list items, .arr values =>
    values.zipIdx.flatMap fun (value, index) => items.violations (path ++ [toString index]) value
  | object required properties, .obj members =>
    let unknown := (members.map Prod.fst).filter fun key => !(properties.map Prod.fst).contains key
    let missing := required.filter fun name => (Json.member? name members).isNone
    members.flatMap (fun (key, value) => propertyViolations path key value properties) ++
      (if unknown.isEmpty then [] else [⟨additionalMessage unknown, path⟩]) ++
      missing.map fun name => ⟨requiredMessage name, path⟩
  | integer minimum, j =>
    (if isBelow minimum j then [⟨minimumMessage minimum j, path⟩] else []) ++
      if (integer minimum).hasType j then [] else [⟨typeMessage (integer minimum) j, path⟩]
  | s, j => if s.hasType j then [] else [⟨typeMessage s j, path⟩]

-- Everything that is wrong with the value of a key, if it is one of the properties.
def propertyViolations (path : List String) (key : String) (value : Json) :
    List (String × Schema) → List Violation
  | [] => []
  | (name, schema) :: rest =>
    if key = name then schema.violations (path ++ [key]) value
    else propertyViolations path key value rest

end

-- A named thing with a text.
def named (text : String) : Schema :=
  .object ["name"] [("name", .text), (text, .text)]

def approver : Schema :=
  .object ["name"] [("name", .text), ("input", .text), ("type", .text),
    ("users", .list (named "input"))]

def response : Schema :=
  .object ["name"] [("name", .text), ("type", .text), ("response", .text),
    ("groupMembers", .list (named "response"))]

-- The schema of an `ApprovalTask`; its metadata belong to whoever stores it.
def approvalTask : Schema :=
  .object [] [
    ("apiVersion", .text),
    ("kind", .text),
    ("metadata", .anyObject),
    ("spec", .object [] [
      ("approvers", .list approver),
      ("numberOfApprovalsRequired", .integer 0),
      ("description", .text)]),
    ("status", .object [] [
      ("approvers", .list .text),
      ("approversResponse", .list response),
      ("state", .text),
      ("startTime", .text)])]

end Schema
end Countersign
