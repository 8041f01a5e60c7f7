import RowGraph.Json.Basic
import RowGraph.Settings.Basic
import RowGraph.Text.Decimal
import RowGraph.Yaml.Reader

/-!
# Reading settings

Settings come from three variables of the environment, from JSON or from a text in YAML. What is not
said has its standard value, and names that are not known are passed over. As a list the settings
are read by position. Settings read from variables or from YAML are validated at once.

Modelled: `from_env` (`ofVariables`) with `parse_env_var`, and `from_yaml_file` (`ofText`) behind
the reading of the file.

Left out: the file itself: its text is given, or why it cannot be read.
-/

namespace RowGraph

namespace Settings

/-! ## Variables -/

/-- The truth value of a variable. -/
def boolVariable (name : String) : (value : Option String) → Except ConfigError Bool
  | none | some "false" => .ok false
  | some "true" => .ok true
  | some value =>
    .error (.parse name value "provided string was not `true` or `false`")

/-- The number of a variable. -/
def natVariable (name : String) (standard : Nat) :
    (value : Option String) → Except ConfigError Nat
  | none => .ok standard
  | some value =>
    match Text.readNat (UInt64.size - 1) value with
    | .ok n => .ok n
    | .error why => .error (.parse name value why.message)

/-- The settings of the variables with these values. -/
def ofVariables (caseInsensitive strictColumnMapping inBatchSize : Option String) :
    Except ConfigError Settings := do
  let caseInsensitive ← boolVariable "ORMGRAPH_CASE_INSENSITIVE" caseInsensitive
  let strictColumnMapping ← boolVariable "ORMGRAPH_STRICT_COLUMN_MAPPING" strictColumnMapping
  let inBatchSize ← natVariable "ORMGRAPH_IN_BATCH_SIZE" standard.inBatchSize inBatchSize
  validated ⟨caseInsensitive, strictColumnMapping, inBatchSize⟩

/-! ## Trees of values -/

/-- The one value under a name, or nothing; two are an error. -/
def unique? {α : Type} (name : String) (members : List (String × α)) : Option (Option α) :=
  match members.filter (·.1 == name) with
  | [] => some none
  | [(_, value)] => some (some value)
  | _ => none

/-- A value read where there is one, else the standard value. -/
def readOr {α β : Type} (read : α → Option β) (standard : β) : Option α → Option β
  | none => some standard
  | some a => read a

/-- The settings of three values, each of which may be missing. -/
def ofParts? {α : Type} (bool? : α → Option Bool) (nat? : α → Option Nat)
    (caseInsensitive strictColumnMapping inBatchSize : Option α) : Option Settings := do
  return ⟨← readOr bool? standard.caseInsensitive caseInsensitive,
    ← readOr bool? standard.strictColumnMapping strictColumnMapping,
    ← readOr nat? standard.inBatchSize inBatchSize⟩

/-- The settings of values under names. -/
def ofMembers? {α : Type} (bool? : α → Option Bool) (nat? : α → Option Nat)
    (members : List (String × α)) : Option Settings := do
  ofParts? bool? nat? (← unique? "case_insensitive" members)
    (← unique? "strict_column_mapping" members) (← unique? "in_batch_size" members)

/-- The settings of values by position. -/
def ofItems? {α : Type} (bool? : α → Option Bool) (nat? : α → Option Nat) (items : List α) :
    Option Settings :=
  if items.length ≤ 3 then ofParts? bool? nat? items[0]? items[1]? items[2]? else none

/-- A truth value in JSON. -/
def jsonBool? : Json → Option Bool
  | .bool b => some b
  | _ => none

/-- A natural number of sixty-four bits in JSON. -/
def jsonNat? : Json → Option Nat
  | .integer i => if 0 ≤ i ∧ i < UInt64.size then some i.toNat else none
  | _ => none

/-- The settings in JSON, not yet validated. -/
def ofJson? : Json → Option Settings
  | .object members => ofMembers? jsonBool? jsonNat? members
  | .array items => ofItems? jsonBool? jsonNat? items
  | _ => none

/-- The settings in YAML, not yet validated; an empty document says nothing. -/
def ofYaml? (root : Yaml.Node) : Option Settings :=
  match root with
  | .mapping _ members => do
    let members ← members.mapM fun (key, value) => (root.scalarIn? key).map (·.text, value)
    ofMembers? (root.scalarIn? · >>= Yaml.Scalar.asBool?) (root.scalarIn? · >>= Yaml.Scalar.asNat?)
      members
  | .scalar _ s => if s.isNothing then some standard else none
  | _ => none

/-- What can be wrong with a file of settings. -/
inductive FileError
  /-- The file cannot be read. -/
  | unreadable
  /-- The text is no settings. -/
  | malformed
  | invalid (why : ConfigError)
deriving DecidableEq, Repr

/-- The settings of a text in YAML. -/
def ofText (text : String) : Except FileError Settings :=
  match (Yaml.read? text).bind ofYaml? with
  | some s => s.validated.mapError .invalid
  | none => .error .malformed

end Settings

end RowGraph
