import RowGraph.Sample

/-!
# Primary keys and inheritance

The key of an entity is meant to be the first field that was declared as one, by the entity itself
or by a base, and was not declared again as something else; where none was, the first field named
`Id`, else the first field. A base is a finished entity, though, which flags the key that was chosen
for it and no other field. So an inherited flag need not have been declared, and a declared one need
not be inherited.

The rule is stated here over `declaredFields`, where every field is flagged by the declaration that
prevails: the last one of the entity itself, else that of a base.

Results:
* `map_keyIndex?_eq_some_iff`: the key that is chosen among fields is the one that the rule gives.
* `named_declaredFields`: a description has one field of each name.
* `fields_addAll`: where every base declares exactly one key, the fields of an entity are flagged as
  they were declared.
* `oneKey_of_keyAsDeclared`: no other base can be extended without harm.
* **`key_as_declared_of_bases`**: the key follows the declarations, and goes on to do so in every
  entity that extends this one, exactly if it declares one key itself or has no field.
-/

namespace RowGraph

/-! ## The rule -/

/-- The first field with a property. -/
def FirstWith (p : Field → Bool) (fields : List Field) (i : Nat) : Prop :=
  ∃ f, fields[i]? = some f ∧ p f = true ∧ ∀ j < i, ∀ g, fields[j]? = some g → p g = false

/-- **The rule for the key**: the first declared one, else the first field named `Id` in any case,
else the first field. -/
def IsKey (fields : List Field) (i : Nat) : Prop :=
  FirstWith Field.isPrimaryKey fields i ∨
    (∀ f ∈ fields, f.isPrimaryKey = false) ∧
      (FirstWith (Text.sameName ·.name "id") fields i ∨
        (∀ f ∈ fields, Text.sameName f.name "id" = false) ∧ fields ≠ [] ∧ i = 0)

variable {fields : List Field} {i : Nat}

theorem map_findFinIdx?_eq_some_iff {p : Field → Bool} :
    (fields.findFinIdx? p).map Fin.val = some i ↔ FirstWith p fields i := by
  rw [Option.map_eq_some_iff]
  constructor
  · rintro ⟨k, found, rfl⟩
    rw [List.findFinIdx?_eq_some_iff] at found
    refine ⟨fields[k], by simp, found.1, fun j hj g hg => ?_⟩
    obtain ⟨inside, rfl⟩ := List.getElem?_eq_some_iff.mp hg
    simpa using found.2 ⟨j, inside⟩ hj
  · rintro ⟨f, at_i, holds, first⟩
    obtain ⟨inside, rfl⟩ := List.getElem?_eq_some_iff.mp at_i
    refine ⟨⟨i, inside⟩, ?_, rfl⟩
    rw [List.findFinIdx?_eq_some_iff]
    exact ⟨holds, fun j hj => by simpa using first j hj fields[j] (by simp)⟩

theorem map_findFinIdx?_eq_none_iff {p : Field → Bool} :
    (fields.findFinIdx? p).map Fin.val = none ↔ ∀ f ∈ fields, p f = false := by
  simp [List.findFinIdx?_eq_none_iff]

/-- The key that is chosen among fields is the one that the rule gives. -/
theorem map_keyIndex?_eq_some_iff : (keyIndex? fields).map Fin.val = some i ↔ IsKey fields i := by
  have front : (if h : 0 < fields.length then some (⟨0, h⟩ : Fin fields.length) else none).map
      Fin.val = some i ↔ fields ≠ [] ∧ i = 0 := by
    cases fields <;> simp [eq_comm]
  unfold keyIndex? IsKey
  simp only [Option.orElse_eq_orElse, Option.orElse_eq_or, Option.map_or, Option.or_eq_some_iff,
    map_findFinIdx?_eq_some_iff, map_findFinIdx?_eq_none_iff, front]

/-- Fields have a key unless there are none. -/
theorem exists_isKey (h : fields ≠ []) : ∃ i, (keyIndex? fields).map Fin.val = some i := by
  have front : 0 < fields.length := List.length_pos_iff.mpr h
  have some : (keyIndex? fields).isSome = true := by
    simp [keyIndex?, front]
  obtain ⟨k, found⟩ := Option.isSome_iff_exists.mp some
  exact ⟨k, by rw [found]; rfl⟩

/-- A declared key in front of other fields keeps the key in front. -/
theorem IsKey.lt_of_declared {front rest : List Field} {f : Field}
    (h : IsKey (front ++ rest) i) (hf : f ∈ front) (declared : f.isPrimaryKey = true) :
    i < front.length := by
  obtain ⟨place, inside, at_place⟩ := List.mem_iff_getElem.mp hf
  obtain ⟨-, -, -, first⟩ | ⟨none, -⟩ := h
  · refine Nat.lt_of_not_le fun behind => ?_
    have flag := first place (by omega) f (by simp [List.getElem?_append, inside, at_place])
    rw [declared] at flag
    cases flag
  · have flag := none f (List.mem_append_left _ hf)
    rw [declared] at flag
    cases flag

/-- A declared key behind fields that are none moves the key behind them. -/
theorem IsKey.le_of_declared {front rest : List Field} {f : Field}
    (h : IsKey (front ++ rest) i) (none : ∀ g ∈ front, g.isPrimaryKey = false) (hf : f ∈ rest)
    (declared : f.isPrimaryKey = true) : front.length ≤ i := by
  obtain ⟨g, at_i, flag, -⟩ | ⟨undeclared, -⟩ := h
  · refine Nat.le_of_not_lt fun inside => ?_
    rw [List.getElem?_append_left inside] at at_i
    rw [none g (List.mem_of_getElem? at_i)] at flag
    cases flag
  · have flag := undeclared f (List.mem_append_right _ hf)
    rw [declared] at flag
    cases flag

/-! ## Fields as they were declared -/

open EntityDraft (declare inherit add addAll nodup_declare nodup_inherit)

mutual

/-- The fields after one more clause, each one flagged as it was declared. -/
def Clause.declaring : Clause → List Field → List Field
  | .field f, fields => declare Field.name f fields
  | .extending base, fields => inherit Field.name (declaringAll base []) fields
  | .table _, fields | .schema _, fields | .defaultAlias _, fields | .capability _, fields
  | .reference _, fields => fields

/-- The fields after more clauses in order. -/
def declaringAll : List Clause → List Field → List Field
  | [], fields => fields
  | c :: rest, fields => declaringAll rest (c.declaring fields)

end

/-- The fields of a description in their order, each one flagged as it was declared. -/
def declaredFields (clauses : List Clause) : List Field := declaringAll clauses []

/-- Every field has another name. -/
def Named (fields : List Field) : Prop := (fields.map Field.name).Nodup

mutual

theorem Clause.named_declaring : ∀ (c : Clause) {fields : List Field}, Named fields →
    Named (c.declaring fields)
  | .field _, _, h => nodup_declare h
  | .extending base, _, h => nodup_inherit (named_declaringAll base List.nodup_nil) h
  | .table _, _, h | .schema _, _, h | .defaultAlias _, _, h | .capability _, _, h
  | .reference _, _, h => h

theorem named_declaringAll : ∀ (clauses : List Clause) {fields : List Field}, Named fields →
    Named (declaringAll clauses fields)
  | [], _, h => h
  | c :: rest, _, h => named_declaringAll rest (c.named_declaring h)

end

/-- A description has one field of each name. -/
theorem named_declaredFields (clauses : List Clause) : Named (declaredFields clauses) :=
  named_declaringAll clauses List.nodup_nil

/-! ## Where the flags are the declared ones -/

/-- The field at a place is declared as a key. -/
def DeclaredAt (fields : List Field) (i : Nat) : Prop :=
  ∃ f, fields[i]? = some f ∧ f.isPrimaryKey = true

/-- Exactly one field is declared as a key, unless there is no field. -/
def OneKey (fields : List Field) : Prop :=
  fields ≠ [] → ∃ i, DeclaredAt fields i ∧ ∀ j, DeclaredAt fields j → j = i

/-- A field that is the only declared key is the key. -/
theorem isKey_of_only (h : DeclaredAt fields i) (only : ∀ j, DeclaredAt fields j → j = i) :
    IsKey fields i := by
  obtain ⟨f, at_i, flag⟩ := h
  refine .inl ⟨f, at_i, flag, fun j before g at_j => ?_⟩
  by_cases declared : g.isPrimaryKey = true
  · exact absurd (only j ⟨g, at_j, declared⟩) (Nat.ne_of_lt before)
  · simpa using declared

theorem getElem?_keyed (j : Nat) : (keyed fields)[j]? =
    fields[j]?.map fun f => { f with isPrimaryKey := (keyIndex? fields).any (·.val == j) } := by
  simp [keyed]

/-- Fields that declare one key are flagged already as a finished entity flags them. -/
theorem keyed_eq_self (h : OneKey fields) : keyed fields = fields := by
  by_cases none : fields = []
  · subst none
    rfl
  obtain ⟨i, declared, only⟩ := h none
  obtain ⟨k, found, rfl⟩ :=
    Option.map_eq_some_iff.mp (map_keyIndex?_eq_some_iff.mpr (isKey_of_only declared only))
  refine List.ext_getElem? fun j => ?_
  rw [getElem?_keyed, found]
  cases at_j : fields[j]? with
  | none => rfl
  | some f =>
    have flag : f.isPrimaryKey = (k.val == j) := by
      rw [Bool.eq_iff_iff, beq_iff_eq]
      constructor
      · intro flag
        exact (only j ⟨f, at_j, flag⟩).symm
      · rintro rfl
        obtain ⟨g, at_k, flag⟩ := declared
        rwa [Option.some.inj (at_j.symm.trans at_k)]
    simp [← flag]

mutual

/-- The base that the clause takes over, and every base behind it, declares one key or has no
field. -/
def Clause.KeyedBases : Clause → Prop
  | .extending base => AllKeyedBases base ∧ OneKey (declaredFields base)
  | .field _ | .table _ | .schema _ | .defaultAlias _ | .capability _ | .reference _ => True

/-- Every base of these clauses declares one key or has no field. -/
def AllKeyedBases : List Clause → Prop
  | [] => True
  | c :: rest => c.KeyedBases ∧ AllKeyedBases rest

end

theorem allKeyedBases_append {before after : List Clause} (h : AllKeyedBases before)
    (k : AllKeyedBases after) : AllKeyedBases (before ++ after) := by
  induction before with
  | nil => exact k
  | cons c rest ih => exact ⟨h.1, ih h.2⟩

mutual

theorem Clause.fields_add : ∀ (c : Clause) (d : EntityDraft), c.KeyedBases →
    (add c d).fields = c.declaring d.fields
  | .extending base, d, h => by
    have inherited : (addAll base .empty).fields = declaredFields base :=
      fields_addAll base .empty h.1
    rw [add, EntityDraft.extend, inherited, keyed_eq_self h.2]
    rfl
  | .field _, _, _ | .table _, _, _ | .schema _, _, _ | .defaultAlias _, _, _
  | .capability _, _, _ | .reference _, _, _ => rfl

/-- **Where every base declares one key, fields are flagged as they were declared.** -/
theorem fields_addAll : ∀ (clauses : List Clause) (d : EntityDraft), AllKeyedBases clauses →
    (addAll clauses d).fields = declaringAll clauses d.fields
  | [], _, _ => rfl
  | c :: rest, d, h => by
    rw [addAll, fields_addAll rest (add c d) h.2, c.fields_add d h.1, declaringAll]

end

/-! ## The key of an entity -/

/-- The key of the entity that clauses describe is the one that the rule gives for its fields as
they were declared. -/
def KeyAsDeclared (clauses : List Clause) : Prop :=
  ∀ name type i, ((⟨name, clauses⟩ : Description).build type).primaryKey.map Fin.val = some i ↔
    IsKey (declaredFields clauses) i

theorem map_primaryKey_build (d : Description) (type : EntityType) :
    (d.build type).primaryKey.map Fin.val =
      (keyIndex? (addAll d.clauses .empty).fields).map Fin.val := by
  rw [Description.build, Option.map_map]
  rfl

theorem keyAsDeclared_of_bases {clauses : List Clause} (h : AllKeyedBases clauses) :
    KeyAsDeclared clauses := by
  intro name type i
  rw [map_primaryKey_build, fields_addAll clauses .empty h, map_keyIndex?_eq_some_iff]
  rfl

/-! ## Bases that do harm -/

/-- Fields in front of one that is declared anew are those of other names. -/
theorem inherit_single (base : List Field) (own : Field) :
    inherit Field.name base [own] = base.filter (own.name != ·.name) ++ [own] := by
  simp [inherit, bne]

theorem map_name_keyed : (keyed fields).map Field.name = fields.map Field.name := by
  refine List.ext_getElem? fun j => ?_
  rw [List.getElem?_map, getElem?_keyed, Option.map_map, List.getElem?_map]
  rfl

theorem length_filter_keyed (name : String) :
    ((keyed fields).filter (name != ·.name)).length =
      (fields.filter (name != ·.name)).length := by
  have counted : ∀ list : List Field, (list.filter (name != ·.name)).length =
      (list.map Field.name).countP (name != ·) := by
    intro list
    rw [List.countP_map, List.countP_eq_length_filter]
    rfl
  rw [counted, counted, map_name_keyed]

/-- The key of an entity with one field of its own and this base, as it was declared and as it is
chosen. -/
theorem exists_isKey_of_keyAsDeclared {base : List Clause} {own : Field}
    (h : AllKeyedBases base) (k : KeyAsDeclared [.field own, .extending base]) :
    ∃ i, IsKey ((declaredFields base).filter (own.name != ·.name) ++ [own]) i ∧
      IsKey ((keyed (declaredFields base)).filter (own.name != ·.name) ++ [own]) i := by
  have inherited : (addAll base .empty).fields = declaredFields base :=
    fields_addAll base .empty h
  have chosen : (addAll [.field own, .extending base] .empty).fields =
      (keyed (declaredFields base)).filter (own.name != ·.name) ++ [own] := by
    rw [← inherit_single, ← inherited]
    rfl
  have declared : declaredFields [.field own, .extending base] =
      (declaredFields base).filter (own.name != ·.name) ++ [own] := by
    rw [← inherit_single]
    rfl
  have nonempty : (addAll [.field own, .extending base] .empty).fields ≠ [] := by simp [chosen]
  obtain ⟨i, key⟩ := exists_isKey nonempty
  have asDeclared := k "" ⟨0, ""⟩ i
  rw [map_primaryKey_build, key, declared] at asDeclared
  rw [map_keyIndex?_eq_some_iff, chosen] at key
  exact ⟨i, asDeclared.mp rfl, key⟩

/-- A base without a declared key puts the key chosen for it before one that is declared. -/
theorem exists_declared_of_keyAsDeclared {base : List Clause} (h : AllKeyedBases base)
    (k : ∀ own, KeyAsDeclared [.field own, .extending base])
    (nonempty : declaredFields base ≠ []) :
    ∃ f ∈ declaredFields base, f.isPrimaryKey = true := by
  obtain ⟨i, key⟩ := exists_isKey nonempty
  obtain ⟨place, found, rfl⟩ := Option.map_eq_some_iff.mp key
  let f := (declaredFields base)[place]
  have undeclared_or := Classical.em (∃ g ∈ declaredFields base, g.isPrimaryKey = true)
  refine undeclared_or.resolve_right fun undeclared => ?_
  -- The chosen field is flagged in the base, and no field is declared before the derived one.
  let own : Field := { f with name := f.name ++ "'", isPrimaryKey := true }
  obtain ⟨i, asDeclared, asChosen⟩ := exists_isKey_of_keyAsDeclared h (k own)
  have behind := asDeclared.le_of_declared
    (fun g hg => by
      have hg := (List.mem_filter.mp hg).1
      by_cases flag : g.isPrimaryKey = true
      · exact absurd ⟨g, hg, flag⟩ undeclared
      · simpa using flag)
    List.mem_cons_self rfl
  let flagged : Field := { f with isPrimaryKey := true }
  have at_place : (keyed (declaredFields base))[place.val]? = some flagged := by
    rw [getElem?_keyed, found]
    simp [flagged, f]
  have front : flagged ∈ (keyed (declaredFields base)).filter (own.name != ·.name) := by
    refine List.mem_filter.mpr ⟨List.mem_of_getElem? at_place, ?_⟩
    simp [own, flagged]
  have before := asChosen.lt_of_declared front rfl
  rw [length_filter_keyed] at before
  omega

/-- Of the fields of a finished entity, those with another name than its key are not flagged. -/
theorem isPrimaryKey_of_keyed {f m : Field}
    (key : (keyIndex? fields).map Fin.val = some i) (at_i : fields[i]? = some f)
    (hm : m ∈ keyed fields) (other : f.name ≠ m.name) : m.isPrimaryKey = false := by
  obtain ⟨place, found, rfl⟩ := Option.map_eq_some_iff.mp key
  obtain ⟨j, at_j⟩ := List.mem_iff_getElem?.mp hm
  rw [getElem?_keyed, found] at at_j
  obtain ⟨g, from_g, rfl⟩ := Option.map_eq_some_iff.mp at_j
  have differ : place.val ≠ j := by
    rintro rfl
    rw [from_g] at at_i
    cases at_i
    exact other rfl
  simpa using differ

/-- Fields with the same name stand in the same place. -/
theorem Named.eq_of_name {j : Nat} {f g : Field} (h : Named fields) (at_i : fields[i]? = some f)
    (at_j : fields[j]? = some g) (same : f.name = g.name) : i = j := by
  have inside : i < (fields.map Field.name).length := by
    obtain ⟨inside, -⟩ := List.getElem?_eq_some_iff.mp at_i
    simpa using inside
  refine (List.getElem?_inj inside h).mp ?_
  simp [at_i, at_j, same]

/-- A base with two declared keys loses the second, also where the first is declared anew. -/
theorem eq_of_keyAsDeclared {base : List Clause} (h : AllKeyedBases base)
    (k : ∀ own, KeyAsDeclared [.field own, .extending base]) {i j : Nat} {f g : Field}
    (key : (keyIndex? (declaredFields base)).map Fin.val = some i)
    (at_i : (declaredFields base)[i]? = some f)
    (at_j : (declaredFields base)[j]? = some g) (hg : g.isPrimaryKey = true) : j = i := by
  have named : Named (declaredFields base) := named_declaredFields base
  refine Decidable.byContradiction fun differ => ?_
  -- The key of the base is declared anew, as a key, behind the other one.
  let own : Field := { f with isPrimaryKey := true }
  obtain ⟨place, asDeclared, asChosen⟩ := exists_isKey_of_keyAsDeclared h (k own)
  have other : own.name ≠ g.name := fun same => differ (named.eq_of_name at_i at_j same).symm
  have before := asDeclared.lt_of_declared
    (List.mem_filter.mpr ⟨List.mem_of_getElem? at_j, by simpa using other⟩) hg
  have behind := asChosen.le_of_declared
    (fun m hm => by
      obtain ⟨inherited, kept⟩ := List.mem_filter.mp hm
      exact isPrimaryKey_of_keyed key at_i inherited (by simpa using kept))
    List.mem_cons_self rfl
  rw [length_filter_keyed] at behind
  omega

/-- No other base can be extended without harm. -/
theorem oneKey_of_keyAsDeclared {base : List Clause} (h : AllKeyedBases base)
    (k : ∀ own, KeyAsDeclared [.field own, .extending base]) : OneKey (declaredFields base) := by
  intro nonempty
  obtain ⟨g, hg, declared⟩ := exists_declared_of_keyAsDeclared h k nonempty
  obtain ⟨j, at_j⟩ := List.mem_iff_getElem?.mp hg
  obtain ⟨i, key⟩ := exists_isKey nonempty
  obtain ⟨place, -, place_eq⟩ := Option.map_eq_some_iff.mp key
  have at_i : (declaredFields base)[i]? = some (declaredFields base)[place] := by
    simp [← place_eq]
  have only : ∀ j, DeclaredAt (declaredFields base) j → j = i := by
    rintro j ⟨g, at_j, declared⟩
    exact eq_of_keyAsDeclared h k key at_i at_j declared
  have first : j = i := only j ⟨g, at_j, declared⟩
  exact ⟨i, first ▸ ⟨g, at_j, declared⟩, only⟩

/-- **Keys follow the declarations where every base declares one key.** They go on to do so in
every entity that extends this one exactly if it declares one key itself or has no field. -/
theorem key_as_declared_of_bases {clauses : List Clause} (h : AllKeyedBases clauses) :
    KeyAsDeclared clauses ∧
      ((∀ before after, AllKeyedBases before → AllKeyedBases after →
        KeyAsDeclared (before ++ .extending clauses :: after)) ↔
          OneKey (declaredFields clauses)) := by
  refine ⟨keyAsDeclared_of_bases h, ?_, ?_⟩
  · intro extended
    exact oneKey_of_keyAsDeclared h fun own => extended [.field own] [] ⟨trivial, trivial⟩ trivial
  · intro one before after hb ha
    have between : AllKeyedBases (.extending clauses :: after) := ⟨⟨h, one⟩, ha⟩
    exact keyAsDeclared_of_bases (allKeyedBases_append hb between)

namespace Sample

/-- A document: its name, and its key behind it. -/
def document : List Clause := [.field (field "Name" .text), .field generatedKey]

/-- A report is a document with a title. -/
def report : List Clause := [.field (field "Title" .text), .extending document]

/-- The key of a report is that of its document, and what extends a report can rely on it. -/
theorem key_report :
    AllKeyedBases report ∧
      ((⟨"Report", report⟩ : Description).build ⟨0, "Report"⟩).primaryKey.map Fin.val = some 1 ∧
      KeyAsDeclared [.field (field "Code" .text), .extending report] := by
  have oneKey : ∀ {third : List Field}, (∀ f ∈ third, f.isPrimaryKey = false) →
      OneKey (field "Name" .text :: generatedKey :: third) := by
    intro third none _
    refine ⟨1, ⟨generatedKey, rfl, rfl⟩, ?_⟩
    rintro (_ | _ | j) ⟨f, at_j, declared⟩
    · cases at_j
      cases declared
    · rfl
    · rw [none f (List.mem_of_getElem? at_j)] at declared
      cases declared
  have bases : AllKeyedBases report :=
    ⟨trivial, ⟨⟨trivial, trivial, trivial⟩, oneKey (by decide)⟩, trivial⟩
  obtain ⟨asDeclared, extended⟩ := key_as_declared_of_bases bases
  have one : OneKey (declaredFields report) := oneKey (by decide)
  have key : IsKey (declaredFields report) 1 := map_keyIndex?_eq_some_iff.mp rfl
  exact ⟨bases, (asDeclared _ _ 1).mpr key,
    extended.mpr one [.field (field "Code" .text)] [] ⟨trivial, trivial⟩ trivial⟩

/-- A note without a declared key. -/
def note : List Clause := [.field (field "Name" .text)]

/-- A note that is known by its `Id`, which is declared as the key. -/
def numberedNote : List Clause := [.extending note, .field generatedKey]

/-- The key that was chosen for a note is put before the one that is declared. -/
theorem not_keyAsDeclared_numberedNote :
    (declaredFields numberedNote)[1]? = some generatedKey ∧ IsKey (declaredFields numberedNote) 1 ∧
      ((⟨"NumberedNote", numberedNote⟩ : Description).build ⟨0, "NumberedNote"⟩).primaryKey.map
        Fin.val = some 0 ∧
      ¬ KeyAsDeclared numberedNote := by
  have declared : IsKey (declaredFields numberedNote) 1 := map_keyIndex?_eq_some_iff.mp rfl
  have chosen : ((⟨"NumberedNote", numberedNote⟩ : Description).build
      ⟨0, "NumberedNote"⟩).primaryKey.map Fin.val = some 0 := by
    rw [map_primaryKey_build]
    rfl
  refine ⟨rfl, declared, chosen, fun asDeclared => ?_⟩
  have other := (asDeclared "NumberedNote" ⟨0, "NumberedNote"⟩ 1).mpr declared
  rw [chosen] at other
  cases other

end Sample

end RowGraph
