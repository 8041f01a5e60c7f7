import RowGraph.Number.Shortest
import RowGraph.Text.Hex

/-!
# JSON values

A value keeps the members of an object in the order in which they were written. Numbers without a
fraction and an exponent are integers where sixty-four bits hold them; all others are floating-point
numbers.

`Json.render` writes a value without blanks.

Modelled: JSON as values are made from it and written to it: the tree, its text, and the members of
an object that are given twice.
-/

namespace RowGraph

/-- A JSON value. -/
inductive Json
  | null
  | bool (b : Bool)
  | integer (i : Int)
  | float (x : Binary64)
  | string (s : String)
  | array (items : List Json)
  | object (members : List (String × Json))
deriving Inhabited

namespace Json

/-- The member of an object with this name. -/
def member? (name : String) : Json → Option Json
  | .object members => members.lookup name
  | _ => none

/-- A character inside a quoted text: quotes, backslashes and control characters are escaped. -/
def escaped (c : Char) : List Char :=
  if c = '"' then ['\\', '"']
  else if c = '\\' then ['\\', '\\']
  else if c = '\n' then ['\\', 'n']
  else if c = '\r' then ['\\', 'r']
  else if c = '\t' then ['\\', 't']
  else if c = '\x08' then ['\\', 'b']
  else if c = '\x0c' then ['\\', 'f']
  else if c.toNat < 0x20 then ['\\', 'u'] ++ Text.hexDigits 4 c.toNat
  else [c]

/-- A text in quotes. -/
def quoted (s : String) : String :=
  "\"" ++ .ofList (s.toList.flatMap escaped) ++ "\""

mutual

/-- The value as text without blanks; a number that is no finite one is `null`. -/
def render : Json → String
  | .null => "null"
  | .bool b => if b then "true" else "false"
  | .integer i => Text.ofInt i
  | .float x => if x.isFinite then FloatStyle.json.render x else "null"
  | .string s => quoted s
  | .array items => "[" ++ renderItems true items ++ "]"
  | .object members => "\x7b" ++ renderMembers true members ++ "\x7d"

/-- The items of an array, a comma before each but the first. -/
def renderItems (first : Bool) : List Json → String
  | [] => ""
  | item :: rest => (if first then "" else ",") ++ render item ++ renderItems false rest

/-- The members of an object, a comma before each but the first. -/
def renderMembers (first : Bool) : List (String × Json) → String
  | [] => ""
  | (name, value) :: rest =>
    (if first then "" else ",") ++ quoted name ++ ":" ++ render value ++ renderMembers false rest

end

/-- The members with `name` set: a name that is there keeps its place, a new one comes last. -/
def put (name : String) (value : Json) : List (String × Json) → List (String × Json)
  | [] => [(name, value)]
  | (n, v) :: rest => if n = name then (n, value) :: rest else (n, v) :: put name value rest

mutual

/-- The value with one member for each name: the place of the first, the value of the last. -/
def settled : Json → Json
  | .array items => .array (settledItems items)
  | .object members => .object (settledMembers [] members)
  | other => other

/-- The settled items of an array. -/
def settledItems : List Json → List Json
  | [] => []
  | item :: rest => settled item :: settledItems rest

/-- The members put one after the other into those already there. -/
def settledMembers (done : List (String × Json)) : List (String × Json) → List (String × Json)
  | [] => done
  | (name, value) :: rest => settledMembers (put name (settled value) done) rest

end

theorem map_fst_put_of_mem {name : String} {value : Json} {members : List (String × Json)}
    (h : name ∈ members.map Prod.fst) :
    (put name value members).map Prod.fst = members.map Prod.fst := by
  induction members with
  | nil => simp at h
  | cons m rest ih =>
    by_cases hm : m.1 = name
    · simp [put, hm]
    · have : name ∈ rest.map Prod.fst := by
        simp only [List.map_cons, List.mem_cons] at h
        exact h.resolve_left fun e => hm e.symm
      simp [put, hm, ih this]

end Json

end RowGraph
