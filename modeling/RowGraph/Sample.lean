import RowGraph.Entity.Description

/-!
# A sample catalog

Entities to try things out with: references in both directions and in cycles, a key that is a text,
an entity that refers to itself, and tables with schemas, aliases and capabilities.

Main statement: `map_fst_descriptions`, every name has a description.

Modelled: the entities that the program's own tests are about, such as `Team` and `TeamUser`, and
some more.
-/

namespace RowGraph.Sample

/-- The names of the entities. -/
def names : List String :=
  ["Team", "TeamUser", "Author", "Book", "Region", "Store", "Customer", "CustomerAddress",
    "Employee", "Staff", "Log"]

/-- The type with a name. -/
def type (name : String) : EntityType := ⟨names.idxOf name, name⟩

/-- The type with a name, if there is an entity of this name. -/
def type? (name : String) : Option EntityType :=
  if name ∈ names then some (type name) else none

/-- A field without anything special. -/
def field (name : String) (type : ColumnType) : Field :=
  ⟨name, none, type, false, false, false, none⟩

/-- A field that may be null. -/
def optional (name : String) (type : ColumnType) : Field :=
  { field name type with isNullable := true }

/-- A field whose column has another name. -/
def renamed (name column : String) (type : ColumnType) : Field :=
  { field name type with columnAlias := some column }

/-- A generated primary key. -/
def generatedKey : Field :=
  { field "Id" .int with isPrimaryKey := true, isGenerated := true }

/-- A foreign key. -/
def foreignKey (name target : String) (kind : KeyKind) (isNullable : Bool) : Field :=
  { field name .int with isNullable, foreignKey := some ⟨type target, kind⟩ }

/-- A reference to one row. -/
def one (name target : String) : Clause := .reference ⟨name, type target, .one, none, none⟩

/-- A reference to several rows. -/
def many (name target : String) : Clause := .reference ⟨name, type target, .many, none, none⟩

/-- A team with its users, one of whom leads it. -/
def team : Description where
  name := "Team"
  clauses := [.field generatedKey, .field (field "Name" .text),
    .field (foreignKey "TeamLeaderId" "TeamUser" .aliased true), many "Users" "TeamUser",
    one "TeamLeader" "TeamUser"]

/-- A user of a team. -/
def teamUser : Description where
  name := "TeamUser"
  clauses := [.field generatedKey, .field (field "Name" .text),
    .field (foreignKey "TeamId" "Team" .owning true), .field (field "IsDeleted" .bool),
    .capability "SoftDelete"]

/-- An author with a favourite book. -/
def author : Description where
  name := "Author"
  clauses := [.field generatedKey, .field (field "Name" .text),
    .field (foreignKey "FavoriteBookId" "Book" .selfReference true), one "FavoriteBook" "Book"]

/-- A book with its author. -/
def book : Description where
  name := "Book"
  clauses := [.field generatedKey, .field (field "Title" .text),
    .field (foreignKey "AuthorId" "Author" .owning true), one "Author" "Author"]

/-- A region under a code, with its stores. -/
def region : Description where
  name := "Region"
  clauses := [.field { field "Code" .text with isPrimaryKey := true },
    .field (field "Name" .text), many "Stores" "Store"]

/-- A store of a region. -/
def store : Description where
  name := "Store"
  clauses := [.field generatedKey,
    .field { foreignKey "RegionCode" "Region" .owning false with type := .text }]

/-- A customer with an address. -/
def customer : Description where
  name := "Customer"
  clauses := [.field generatedKey, .field (field "Name" .text),
    one "PrimaryAddress" "CustomerAddress"]

/-- An address of a customer. -/
def customerAddress : Description where
  name := "CustomerAddress"
  clauses := [.field generatedKey, .field (foreignKey "CustomerId" "Customer" .owning false),
    .field (field "City" .text)]

/-- An employee with a manager and those who report to the employee. -/
def employee : Description where
  name := "Employee"
  clauses := [.field generatedKey, .field (field "Name" .text),
    .field (foreignKey "ManagerId" "Employee" .owning true), one "Manager" "Employee",
    many "Reports" "Employee"]

/-- A person in a schema, under an alias and with columns of other names. -/
def staff : Description where
  name := "Person"
  clauses := [.table "people", .schema "hr", .defaultAlias "p",
    .field { renamed "Id" "person_id" .bigInt with isPrimaryKey := true, isGenerated := true },
    .field (renamed "FullName" "full_name" .text), .field (optional "Email" .text),
    .field (renamed "Active" "is_active" .bool), .field (optional "Rate" .float),
    .field { renamed "BornOn" "born" .date with isNullable := true },
    .field (optional "TeamId" .int), .capability "SoftDelete", .capability "Audited"]

/-- An entry of a log, known by its time. -/
def log : Description where
  name := "Log"
  clauses := [.schema "app", .field { field "At" .dateTime with isPrimaryKey := true },
    .field (renamed "Text" "log text" .text), .field (optional "Blob" .bytes),
    .field (optional "Token" .uuid), .field (optional "PersonId" .bigInt)]

/-- The descriptions under the names of their types. -/
def descriptions : List (String × Description) :=
  [("Team", team), ("TeamUser", teamUser), ("Author", author), ("Book", book),
    ("Region", region), ("Store", store), ("Customer", customer),
    ("CustomerAddress", customerAddress), ("Employee", employee), ("Staff", staff), ("Log", log)]

/-- The sample catalog. -/
def catalog : Catalog := .ofDescriptions (descriptions.map fun (name, d) => (type name, d))

/-- Every name has a description. -/
theorem map_fst_descriptions : descriptions.map Prod.fst = names := rfl

end RowGraph.Sample
