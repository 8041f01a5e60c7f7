import RowGraph.Proofs.Compile.Parts
import RowGraph.Proofs.Compile.Tree
import RowGraph.Sample

/-!
# Expressions are read back from their fragments

An expression of columns, literals and operators is compiled to the writing of an operator tree, and
the tree says which expression it was, up to columns that are written alike. A condition may be
written in another way than a value: a truth value becomes a word, and a column of truth values a
comparison with one. No comparison that was an expression is written so, since its operands are
values.

Results:
* `written_part`: such an expression is written as a tree.
* `same_of_written`: the tree determines the expression.
* **`same_of_compile_eq`**: expressions that compile to one fragment in a clause are the same, up to
  columns with the same qualified text.
-/

namespace RowGraph

open Attempt

/-- Columns, literals other than null, and operators over them. -/
inductive Expr.Plain : Expr → Prop
  | column (c : ColumnRef) : Plain (.column c)
  | qualified (c : ColumnRef) (aliasName : String) (kind : QualifierKind) :
    Plain (.qualified c aliasName kind)
  | literal {v : Value} (h : v ≠ .null) : Plain (.literal v)
  | not {e : Expr} (h : Plain e) : Plain (.not e)
  | negate {e : Expr} (h : Plain e) : Plain (.negate e)
  | compare (op : Comparison) {left right : Expr} (hl : Plain left) (hr : Plain right) :
    Plain (.compare op left right)
  | connect (op : Connective) {left right : Expr} (hl : Plain left) (hr : Plain right) :
    Plain (.connect op left right)
  | compute (op : Arithmetic) {left right : Expr} (hl : Plain left) (hr : Plain right) :
    Plain (.compute op left right)

namespace Compiler

variable (t : Compiler)

/-- What stands before a column of the source with an alias, if the alias may be used. -/
def qualifierOf? (aliasName : String) (kind : QualifierKind) : Option String :=
  match t.scope.byAlias t.catalog aliasName, kind with
  | .ok source, _ => some (source.qualifier t.catalog t.dialect)
  | .error _, .join => some (t.dialect.quoteName aliasName)
  | .error _, .table => none

/-- The qualified text of a column, and its field. -/
def qualifiedColumn? : Expr → Option (String × Field)
  | .column c =>
    match t.resolve c with
    | .ok (source, field) => some (source.qualify t.catalog t.dialect field.column, field)
    | .error _ => none
  | .qualified c aliasName kind => do
    let field ← (t.catalog.entity c.entity).field? c.field
    let qualifier ← t.qualifierOf? aliasName kind
    return (qualifier ++ "." ++ t.dialect.quoteName field.column, field)
  | _ => none

/-- The same expression, up to columns with the same qualified text. -/
inductive Same : Expr → Expr → Prop
  | column {e e' : Expr} {text : String} {field field' : Field}
    (h : t.qualifiedColumn? e = some (text, field))
    (h' : t.qualifiedColumn? e' = some (text, field')) : Same e e'
  | literal (v : Value) : Same (.literal v) (.literal v)
  | not {e e' : Expr} (h : Same e e') : Same (.not e) (.not e')
  | negate {e e' : Expr} (h : Same e e') : Same (.negate e) (.negate e')
  | compare (op : Comparison) {left left' right right' : Expr} (hl : Same left left')
    (hr : Same right right') : Same (.compare op left right) (.compare op left' right')
  | connect (op : Connective) {left left' right right' : Expr} (hl : Same left left')
    (hr : Same right right') : Same (.connect op left right) (.connect op left' right')
  | compute (op : Arithmetic) {left left' right right' : Expr} (hl : Same left left')
    (hr : Same right right') : Same (.compute op left right) (.compute op left' right')

end Compiler

/-! ## Columns -/

namespace Dialect

/-- The word that a column of truth values is compared with. -/
def yes : Dialect → Word
  | .postgresql => .always
  | _ => .one

theorem text_yes (d : Dialect) : d.yes.text d = d.boolLiteral true := by
  cases d <;> rfl

/-- A single name is a path. -/
theorem path_single (d : Dialect) (name : String) :
    signsOf (d.quoteName name) = d.path name [] := by
  simp [path, dotted]

/-- One more name behind a path. -/
theorem path_concat {d : Dialect} {text first : String} {others : List String}
    (h : signsOf text = d.path first others) (name : String) :
    signsOf (text ++ "." ++ d.quoteName name) = d.path first (others ++ [name]) := by
  have dot : signsOf "." = [.char '.'] := by simp [signsOf]
  simp [h, dot, path, dotted]

/-- A table is written as one name or as two. -/
theorem quoteTable_path (d : Dialect) (schema : Option String) (table : String) :
    ∃ first others, signsOf (d.quoteTable schema table) = d.path first others := by
  cases schema with
  | none => exact ⟨table, [], d.path_single table⟩
  | some schema =>
    by_cases hd : d = .sqlite
    · subst hd
      exact ⟨schema ++ "_" ++ table, [], path_single _ _⟩
    · have two : d.quoteTable (some schema) table =
          d.quoteName schema ++ "." ++ d.quoteName table := by
        cases d with
        | sqlite => exact absurd rfl hd
        | _ => rfl
      exact ⟨schema, [table], by rw [two, path_concat (d.path_single schema)]; rfl⟩

end Dialect

theorem Source.qualifier_path (c : Catalog) (d : Dialect) (s : Source) :
    ∃ first others, signsOf (s.qualifier c d) = d.path first others := by
  unfold qualifier
  cases s.aliasName c with
  | none => exact d.quoteTable_path _ _
  | some aliasName => exact ⟨aliasName, [], d.path_single aliasName⟩

namespace Compiler

variable {t : Compiler}

theorem qualifierOf?_path {aliasName qualifier : String} {kind : QualifierKind}
    (h : t.qualifierOf? aliasName kind = some qualifier) :
    ∃ first others, signsOf qualifier = t.dialect.path first others := by
  unfold qualifierOf? at h
  split at h
  · next source _ =>
    cases h
    exact source.qualifier_path _ _
  · cases h
    exact ⟨aliasName, [], t.dialect.path_single aliasName⟩
  · cases h

/-- The qualified text of a column is a path of names. -/
theorem qualifiedColumn?_path {e : Expr} {text : String} {field : Field}
    (h : t.qualifiedColumn? e = some (text, field)) :
    ∃ first others, signsOf text = t.dialect.path first others := by
  have onward : ∀ qualifier name : String,
      (∃ first others, signsOf qualifier = t.dialect.path first others) →
      ∃ first others, signsOf (qualifier ++ "." ++ t.dialect.quoteName name) =
        t.dialect.path first others := by
    rintro qualifier name ⟨first, others, path⟩
    exact ⟨first, others ++ [name], Dialect.path_concat path name⟩
  cases e with
  | column c =>
    simp only [qualifiedColumn?] at h
    cases hr : t.resolve c with
    | error why =>
      rw [hr] at h
      cases h
    | ok found =>
      rw [hr] at h
      cases h
      exact onward _ _ (found.1.qualifier_path _ _)
  | qualified c aliasName kind =>
    obtain ⟨field', -, rest⟩ := Option.bind_eq_some_iff.mp h
    obtain ⟨qualifier, hq, last⟩ := Option.bind_eq_some_iff.mp rest
    cases last
    exact onward _ _ (qualifierOf?_path hq)
  | _ => cases h

theorem column_eq_ok {x : Context} {c : ColumnRef} {f : Fragment} (h : t.column x c = .ok f) :
    ∃ text field, t.qualifiedColumn? (.column c) = some (text, field) ∧
      f = t.columnText x text field := by
  unfold column at h
  simp only [qualifiedColumn?]
  cases hr : t.resolve c with
  | error why =>
    rw [hr] at h
    cases h
  | ok found =>
    rw [hr] at h
    cases h
    exact ⟨_, _, rfl, rfl⟩

theorem qualified_eq_ok {x : Context} {c : ColumnRef} {aliasName : String} {kind : QualifierKind}
    {f : Fragment} (h : t.qualified x c aliasName kind = .ok f) :
    ∃ text field, t.qualifiedColumn? (.qualified c aliasName kind) = some (text, field) ∧
      f = t.columnText x text field := by
  unfold qualified at h
  simp only [qualifiedColumn?, qualifierOf?]
  cases hf : (t.catalog.entity c.entity).field? c.field with
  | none =>
    rw [hf] at h
    cases h
  | some field =>
    rw [hf] at h
    cases hs : t.scope.byAlias t.catalog aliasName with
    | ok source =>
      rw [hs] at h
      cases h
      exact ⟨_, _, rfl, rfl⟩
    | error why =>
      rw [hs] at h
      cases kind with
      | table => cases h
      | join =>
        cases h
        exact ⟨_, _, rfl, rfl⟩

/-! ## Expressions as trees -/

variable (t) in
/-- The tree that an expression is written as, where it is used as a condition or as a value. -/
inductive Written : (condition : Bool) → Expr → Tree → Prop
  | column {condition : Bool} {e : Expr} {text first : String} {others : List String}
    {field : Field} (h : t.qualifiedColumn? e = some (text, field))
    (path : signsOf text = t.dialect.path first others) :
    Written condition e (.name first others)
  | flag {e : Expr} {text first : String} {others : List String} {field : Field}
    (h : t.qualifiedColumn? e = some (text, field))
    (path : signsOf text = t.dialect.path first others) :
    Written true e (.operation (.compare .eq) (.name first others) (.word t.dialect.yes))
  | value {condition : Bool} (v : Value) : Written condition (.literal v) (.value v)
  | truth (b : Bool) : Written true (.literal (.bool b)) (.word (if b then .always else .never))
  | not {condition : Bool} {e : Expr} {a : Tree} (h : Written true e a) :
    Written condition (.not e) (.not a)
  | negate {condition : Bool} {e : Expr} {a : Tree} (h : Written false e a) :
    Written condition (.negate e) (.negate a)
  | compare {condition : Bool} (op : Comparison) {left right : Expr} {a b : Tree}
    (hl : Written false left a) (hr : Written false right b) :
    Written condition (.compare op left right) (.operation (.compare op) a b)
  | connect {condition : Bool} (op : Connective) {left right : Expr} {a b : Tree}
    (hl : Written true left a) (hr : Written true right b) :
    Written condition (.connect op left right) (.operation (.connect op) a b)
  | compute {condition : Bool} (op : Arithmetic) {left right : Expr} {a b : Tree}
    (hl : Written false left a) (hr : Written false right b) :
    Written condition (.compute op left right) (.operation (.compute op) a b)

/-- A tree determines the expression that is written so. -/
theorem same_of_written {condition : Bool} {e e' : Expr} {a : Tree} (h : t.Written condition e a)
    (h' : t.Written condition e' a) : t.Same e e' := by
  induction h generalizing e' with
  | column h path =>
    cases h' with
    | column h' path' =>
      obtain rfl := signsOf_inj (path.trans path'.symm)
      exact .column h h'
  | flag h path =>
    cases h' with
    | flag h' path' =>
      obtain rfl := signsOf_inj (path.trans path'.symm)
      exact .column h h'
    | compare op hl hr => cases hr
  | value v =>
    cases h'
    exact .literal v
  | truth b =>
    generalize hw : (if b then Word.always else .never) = w at h'
    cases h' with
    | truth b' =>
      obtain rfl : b = b' := by cases b <;> cases b' <;> first | rfl | cases hw
      exact .literal _
  | not h ih =>
    cases h' with
    | not h' => exact .not (ih h')
  | negate h ih =>
    cases h' with
    | negate h' => exact .negate (ih h')
  | compare op hl hr ihl ihr =>
    cases h' with
    | flag h' path' => cases hr
    | compare op' hl' hr' => exact .compare op (ihl hl') (ihr hr')
  | connect op hl hr ihl ihr =>
    cases h' with
    | connect op' hl' hr' => exact .connect op (ihl hl') (ihr hr')
  | compute op hl hr ihl ihr =>
    cases h' with
    | compute op' hl' hr' => exact .compute op (ihl hl') (ihr hr')

/-! ## Compiled expressions -/

theorem written_literal (x : Context) (v : Value) :
    ∃ a, t.Written x.isCondition (.literal v) a ∧ (t.literal x v).signs = a.print t.dialect := by
  cases v with
  | bool b =>
    cases hx : x.isCondition with
    | false => exact ⟨_, .value _, by simp [literal, hx, Tree.print]⟩
    | true =>
      refine ⟨_, .truth b, ?_⟩
      cases b <;> simp [literal, hx, Tree.print, Word.text]
  | _ => exact ⟨_, .value _, rfl⟩

/-- A column is a name or, as a condition, a comparison of a name with true. -/
theorem written_columnText (x : Context) {e : Expr} {text : String} {field : Field}
    (h : t.qualifiedColumn? e = some (text, field)) :
    ∃ a, t.Written x.isCondition e a ∧ (t.columnText x text field).signs = a.print t.dialect := by
  obtain ⟨first, others, path⟩ := qualifiedColumn?_path h
  unfold columnText
  split
  · next flag =>
    obtain ⟨hx, -⟩ := Bool.and_eq_true_iff.mp flag
    rw [hx]
    refine ⟨_, .flag h path, ?_⟩
    simp [Tree.print, Operator.before, Operator.between, Operator.text, Comparison.operator,
      Dialect.text_yes, ← path, signsOf]
  · exact ⟨_, .column h path, by rw [Fragment.signs_sql, path, Tree.print]⟩

/-- An arithmetic operation is written as its tree, if its operands are. -/
theorem signs_compute (op : Arithmetic) {f g : Fragment} {a b : Tree}
    (hf : f.signs = a.print t.dialect) (hg : g.signs = b.print t.dialect) :
    (t.compute op f g).signs = (Tree.operation (.compute op) a b).print t.dialect := by
  by_cases hop : op = .mod
  · subst hop
    exact Tree.signs_modulo hf hg
  · have same : t.compute op f g = Fragment.operation f (Operator.compute op).text g := by
      cases op with
      | mod => exact absurd rfl hop
      | _ => rfl
    rw [same]
    exact Tree.signs_operation (.compute op) (by simpa using hop) hf hg

/-- An operand that is a column, a literal or an operation is compiled like any part. -/
theorem operand_of_plain {e : Expr} (h : e.Plain) (x : Context) (before : List Nat) :
    t.operand x e (t.valueAt before e) = t.part x.value e := by
  cases h with
  | literal h =>
    rw [part, valueAt, operand]
  | _ => rw [valueAt_of_isValue t rfl, operand]

theorem valueAt_ne_null {e : Expr} (h : e.Plain) (before : List Nat) :
    t.valueAt before e ≠ some .null := by
  cases h with
  | literal h => exact fun null => h (Option.some.inj null)
  | _ => simp [valueAt]

/-- **Columns, literals and operators are written as a tree.** -/
theorem written_part (x : Context) {e : Expr} (h : e.Plain) {before after : List Nat} {f : Fragment}
    (run : Runs (t.part x e) before f after) :
    ∃ a, t.Written x.isCondition e a ∧ f.signs = a.print t.dialect := by
  induction h generalizing x before after f with
  | column c =>
    rw [part] at run
    obtain ⟨text, field, found, rfl⟩ := column_eq_ok (runs_lift.mp run).1
    exact written_columnText x found
  | qualified c aliasName kind =>
    rw [part] at run
    obtain ⟨text, field, found, rfl⟩ := qualified_eq_ok (runs_lift.mp run).1
    exact written_columnText x found
  | @literal v h =>
    rw [part] at run
    obtain ⟨rfl, -⟩ := runs_pure.mp run
    exact written_literal x v
  | not h ih =>
    rw [part] at run
    obtain ⟨g, inner, rfl⟩ := runs_return.mp run
    obtain ⟨a, written, signs⟩ := ih x.condition inner
    exact ⟨.not a, .not written, by rw [Fragment.signs_wrap, signs, Tree.print]⟩
  | negate h ih =>
    rw [part] at run
    obtain ⟨g, inner, rfl⟩ := runs_return.mp run
    obtain ⟨a, written, signs⟩ := ih x.arithmetic inner
    exact ⟨.negate a, .negate written, by rw [Fragment.signs_wrap, signs, Tree.print]⟩
  | @compare op left right hl hr ihl ihr =>
    have operands : Runs (do
        let l ← t.part x.value left
        let r ← t.part x.value right
        return Fragment.operation l op.operator r)
        (before ++ left.ownReads ++ right.ownReads) f after := by
      rwa [Runs, ending_compare, comparison_of_ne_null t (valueAt_ne_null hl _)
        (valueAt_ne_null hr _), operand_of_plain hl, operand_of_plain hr] at run
    obtain ⟨l, known, left, others⟩ := runs_bind.mp operands
    obtain ⟨r, right, rfl⟩ := runs_return.mp others
    obtain ⟨a, writtenLeft, signsLeft⟩ := ihl x.value left
    obtain ⟨b, writtenRight, signsRight⟩ := ihr x.value right
    exact ⟨.operation (.compare op) a b, .compare op writtenLeft writtenRight,
      Tree.signs_operation (.compare op) (by simp) signsLeft signsRight⟩
  | connect op hl hr ihl ihr =>
    rw [part] at run
    obtain ⟨l, known, left, others⟩ := runs_bind.mp run
    obtain ⟨r, right, rfl⟩ := runs_return.mp others
    obtain ⟨a, writtenLeft, signsLeft⟩ := ihl x.condition left
    obtain ⟨b, writtenRight, signsRight⟩ := ihr x.condition right
    exact ⟨.operation (.connect op) a b, .connect op writtenLeft writtenRight,
      Tree.signs_operation (.connect op) (by simp) signsLeft signsRight⟩
  | compute op hl hr ihl ihr =>
    rw [part] at run
    obtain ⟨l, known, left, others⟩ := runs_bind.mp run
    obtain ⟨r, right, rfl⟩ := runs_return.mp others
    obtain ⟨a, writtenLeft, signsLeft⟩ := ihl x.arithmetic left
    obtain ⟨b, writtenRight, signsRight⟩ := ihr x.arithmetic right
    exact ⟨.operation (.compute op) a b, .compute op writtenLeft writtenRight,
      signs_compute op signsLeft signsRight⟩

variable (t) in
/-- The clause does not matter for such an expression. -/
theorem compile_of_plain {e : Expr} (h : e.Plain) (position : Position) :
    t.compile position e = t.part (Context.top position) e := by
  unfold compile
  split
  · cases h
  · cases h
  · rfl

/-- **Expressions that compile to one fragment are the same**, up to columns with the same qualified
text: the parentheses that are written, and the remainder in each dialect's form, determine the
operators and their operands in every clause. -/
theorem same_of_compile_eq {position : Position} {e e' : Expr} (he : e.Plain) (he' : e'.Plain)
    {f : Fragment} (h : (t.compile position e).outcome = .ok f)
    (h' : (t.compile position e').outcome = .ok f) : t.Same e e' := by
  rw [compile_of_plain t he] at h
  rw [compile_of_plain t he'] at h'
  have run : Runs (t.part (Context.top position) e) [] f _ := Prod.ext h rfl
  have run' : Runs (t.part (Context.top position) e') [] f _ := Prod.ext h' rfl
  obtain ⟨a, written, signs⟩ := written_part _ he run
  obtain ⟨a', written', signs'⟩ := written_part _ he' run'
  have printed : a.print t.dialect ++ [] = a'.print t.dialect ++ [] := by rw [← signs, signs']
  obtain ⟨rfl, -⟩ := Tree.print_inj t.dialect.ends_nil t.dialect.ends_nil printed
  exact same_of_written written written'

end Compiler

namespace Sample

/-- A compiler over the users of teams. -/
def userCompiler (d : Dialect) : Compiler :=
  ⟨catalog, d, ⟨[⟨type "TeamUser", none⟩]⟩, none, fun _ _ => .null⟩

/-- Users with an odd identifier who are deleted or not in the first team, with the name of the flag
spelled like this. -/
def oddUsers (flag : String) : Expr :=
  .connect .and
    (.compare .eq
      (.compute .mod (.column ⟨type "TeamUser", "Id"⟩) (.literal (.int 2))) (.literal (.int 1)))
    (.connect .or (.column ⟨type "TeamUser", flag⟩)
      (.not (.compare .eq (.column ⟨type "TeamUser", "TeamId"⟩) (.literal (.int 1)))))

theorem plain_oddUsers (flag : String) : (oddUsers flag).Plain :=
  .connect .and (.compare .eq (.compute .mod (.column _) (.literal nofun)) (.literal nofun))
    (.connect .or (.column _) (.not (.compare .eq (.column _) (.literal nofun))))

/-- Two spellings of a field lead to one fragment, and to expressions that are the same. -/
theorem same_oddUsers :
    let t := userCompiler .oracle
    ∃ f, (t.compile .predicate (oddUsers "IsDeleted")).outcome = .ok f ∧
      (t.compile .predicate (oddUsers "isdeleted")).outcome = .ok f ∧
      t.Same (oddUsers "IsDeleted") (oddUsers "isdeleted") := by
  intro t
  have compiled : ∃ f, (t.compile .predicate (oddUsers "IsDeleted")).outcome = .ok f ∧
      (t.compile .predicate (oddUsers "isdeleted")).outcome = .ok f := ⟨_, rfl, rfl⟩
  obtain ⟨f, h, h'⟩ := compiled
  exact ⟨f, h, h', Compiler.same_of_compile_eq (plain_oddUsers _) (plain_oddUsers _) h h'⟩

end Sample

end RowGraph
