import RowGraph.Proofs.Compile.Alike
import RowGraph.Proofs.Inlined.Fitting

/-!
# Literals can be written into compiled expressions

Every construct of an expression but a value is written with text of its own in front, a parenthesis
or a word, so that its fragment is clean. A value is a literal alone; what stands in front of it
depends on the construct around it, and a negation is the only one that puts a hyphen there.

`Expr.Fits` says what that takes: in SQL as it stands every quote is closed, embedded queries are
tidy, and under a negation there is no value that is not allowed.

Main statements: `gives_part`, `gives_compile` and `gives_projection`.
-/

namespace RowGraph

open Attempt Dialect

namespace Expr

/-- A value has to be an allowed one. -/
def Allows (allowed : Value → Prop) (r : Readings) : Expr → Prop
  | .literal v => allowed v
  | .captured source => ∀ before, allowed (r before source)
  | _ => True

mutual

/-- Quotes are closed in SQL as it stands, embedded queries are tidy, and a negation is not one of a
value that is not allowed. -/
def Fits (d : Dialect) (allowed : Value → Prop) (r : Readings) : Expr → Prop
  | .column _ | .literal _ | .captured _ | .aggregateAll _ | .qualified _ _ _ | .endOfTuple
  | .allFields _ _ => True
  | .not e | .aggregate _ e | .aliased e _ | .ordered e _ | .cast e _ | .like _ e _ =>
    e.Fits d allowed r
  | .negate e => e.Fits d allowed r ∧ e.Allows allowed r
  | .compare _ left right | .connect _ left right | .compute _ left right =>
    left.Fits d allowed r ∧ right.Fits d allowed r
  | .coalesce args | .function _ args => FitAll d allowed r args
  | .isIn e source => e.Fits d allowed r ∧ ∀ query, source = .subQuery query → query.Tidy d allowed
  | .existence _ query => query.Tidy d allowed
  | .custom sql => d.ClosesQuotes sql

/-- All of the expressions do. -/
def FitAll (d : Dialect) (allowed : Value → Prop) (r : Readings) : List Expr → Prop
  | [] => True
  | e :: rest => e.Fits d allowed r ∧ FitAll d allowed r rest

end

end Expr

namespace Compiler

variable {t : Compiler} {allowed : Value → Prop}

/-! ## Texts that the compiler writes -/

theorem leads_quoteTable (d : Dialect) (schema : Option String) (table : String) :
    d.Leads (d.quoteTable schema table) := by
  have hdot : d.Leads "." := leads_of_unquoted (by decide) rfl
  cases schema with
  | none => exact leads_quoteName d table
  | some schema =>
    cases d with
    | sqlite => exact leads_quoteName _ _
    | _ => exact ((leads_quoteName _ schema).append hdot).append (leads_quoteName _ table)

theorem leads_qualifier (c : Catalog) (d : Dialect) (s : Source) : d.Leads (s.qualifier c d) := by
  rw [Source.qualifier]
  split
  · exact leads_quoteName d _
  · exact leads_quoteTable d _ _

theorem leads_under {d : Dialect} {qualifier : String} (h : d.Leads qualifier) (name : String) :
    d.Leads (qualifier ++ "." ++ d.quoteName name) :=
  (h.append (leads_of_unquoted (by decide) rfl)).append (leads_quoteName d name)

theorem leads_qualify (c : Catalog) (d : Dialect) (s : Source) (column : String) :
    d.Leads (s.qualify c d column) :=
  leads_under (leads_qualifier c d s) column

theorem closesQuotes_boolLiteral (d : Dialect) (b : Bool) : d.ClosesQuotes (d.boolLiteral b) :=
  closesQuotes_of_unquoted (by cases d <;> cases b <;> decide)

theorem closesQuotes_falseLiteral (d : Dialect) : d.ClosesQuotes d.falseLiteral :=
  closesQuotes_of_unquoted (by cases d <;> decide)

theorem closesQuotes_trueLiteral (d : Dialect) : d.ClosesQuotes d.trueLiteral :=
  closesQuotes_of_unquoted (by cases d <;> decide)

theorem closesQuotes_typeName (d : Dialect) (type : ColumnType) :
    d.ClosesQuotes (d.typeName type) :=
  closesQuotes_of_unquoted (by cases d <;> cases type <;> decide)

theorem closesQuotes_nullTest {d : Dialect} {op : Comparison} {test : String}
    (h : op.nullTest? = some test) : d.ClosesQuotes test := by
  cases op <;> cases h <;> exact closesQuotes_of_unquoted (by decide)

theorem closesQuotes_sqlName {d : Dialect} {name : String} {f : FunctionMapping}
    (h : d.function? name = some f) : d.ClosesQuotes f.sqlName := by
  have hall : ∀ f ∈ d.ownFunctions ++ commonFunctions, AllUnquoted f.sqlName.toList := by
    cases d <;> decide
  exact closesQuotes_of_unquoted (hall f (List.mem_of_find?_eq_some h))

theorem closesQuotes_escapeClause (d : Dialect) :
    d.ClosesQuotes (Dialect.escapeClause ++ ")") := by
  intro t ht
  cases t <;> cases d <;> first | decide | exact absurd ht (by decide)

/-! ## Constructs -/

section Constructs

variable {d : Dialect} {f g : Fragment} {x : Context}

theorem clean_columnText {sql : String} (h : t.dialect.Leads sql) (field : Field) :
    (t.columnText x sql field).Clean t.dialect allowed := by
  rw [columnText]
  split
  · have hequals : t.dialect.ClosesQuotes " = " := closesQuotes_of_unquoted (by decide)
    exact Fragment.clean_sql ((((Fragment.leads_paren.append h).closesQuotes.append hequals).append
      (closesQuotes_boolLiteral _ true)).append Fragment.closesQuotes_paren)
  · exact Fragment.clean_sql h.closesQuotes

/-- A value is a literal, or a condition without one. -/
theorem literal_eq_param_or_clean (allowed : Value → Prop) (x : Context) (v : Value) :
    t.literal x v = .param v ∨ (t.literal x v).Clean t.dialect allowed := by
  cases v with
  | bool b =>
    rw [literal]
    split
    · refine .inr (Fragment.clean_sql ?_)
      split
      · exact closesQuotes_trueLiteral _
      · exact closesQuotes_falseLiteral _
    · exact .inl rfl
  | _ => exact .inl rfl

theorem tidy_literal (x : Context) (v : Value) : (t.literal x v).Tidy t.dialect allowed := by
  rcases literal_eq_param_or_clean allowed x v with h | h
  · exact h ▸ Fragment.tidy_param v
  · exact h.tidy

theorem clean_literal (x : Context) {v : Value} (hv : allowed v) :
    (t.literal x v).Clean t.dialect allowed := by
  rcases literal_eq_param_or_clean allowed x v with h | h
  · exact h ▸ Fragment.clean_param hv
  · exact h

theorem clean_column {c : ColumnRef} (h : t.column x c = .ok f) : f.Clean t.dialect allowed := by
  rw [column] at h
  cases hresolve : t.resolve c with
  | error why => rw [hresolve] at h; cases h
  | ok found =>
    rw [hresolve] at h
    cases h
    exact clean_columnText (leads_qualify _ _ _ _) _

theorem clean_qualified {c : ColumnRef} {aliasName : String} {kind : QualifierKind}
    (h : t.qualified x c aliasName kind = .ok f) : f.Clean t.dialect allowed := by
  rw [qualified] at h
  split at h
  · cases h
  · split at h <;> cases h
    · exact clean_columnText (leads_under (leads_qualifier _ _ _) _) _
    · exact clean_columnText (leads_under (leads_quoteName _ _) _) _

theorem clean_named (name : String) (hname : AllUnquoted name.toList)
    {args : List Fragment} (h : ∀ f ∈ args, f.Tidy d allowed) :
    (Fragment.call name args).Clean d allowed :=
  Fragment.clean_call (closesQuotes_of_unquoted hname) h

theorem clean_concat {args : List Fragment} (h : ∀ f ∈ args, f.Tidy d allowed) :
    (d.concat args).Clean d allowed := by
  have hbars : d.Leads " || " := leads_of_unquoted (by decide) rfl
  cases d <;> first
    | exact clean_named "CONCAT" (by decide) h
    | exact Fragment.clean_parenthesized (Fragment.tidy_join hbars h)

/-- The rules for arguments keep them tidy. -/
theorem tidy_applyRule (rule : ArgumentRule) {args : List Fragment}
    (h : ∀ f ∈ args, f.Tidy d allowed) : ∀ f ∈ rule.apply args, f.Tidy d allowed := by
  cases rule with
  | keep => exact h
  | shiftLast =>
    rw [ArgumentRule.apply]
    split
    · next last hlast =>
      intro f hf
      obtain rfl := List.mem_singleton.mp hf
      exact (h last (List.mem_of_getLast? hlast)).append
        (Fragment.clean_sql (closesQuotes_of_unquoted (by decide)))
    · exact fun _ hf => (List.not_mem_nil hf).elim
  | trimEnds =>
    intro f hf
    obtain ⟨arg, harg, rfl⟩ := List.mem_map.mp hf
    exact (clean_named "RTRIM" (by decide) (by simpa using h arg harg)).tidy

theorem clean_function {name : String} {args : List Fragment}
    (h : ∀ f ∈ args, f.Tidy t.dialect allowed) (hok : t.function name args = .ok f) :
    f.Clean t.dialect allowed := by
  rw [function_eq] at hok
  split at hok
  · cases hok; exact clean_concat h
  split at hok
  · cases hok; exact clean_named "COALESCE" (by decide) h
  split at hok
  · cases hok; exact clean_named "LOWER" (by decide) h
  split at hok
  · cases hok; exact clean_named "UPPER" (by decide) h
  split at hok
  · next found hfound =>
    cases hok
    exact Fragment.clean_call (closesQuotes_sqlName hfound) (tidy_applyRule found.rule h)
  · cases hok

theorem clean_compute (op : Arithmetic) (hf : f.Tidy t.dialect allowed)
    (hg : g.Tidy t.dialect allowed) : (t.compute op f g).Clean t.dialect allowed := by
  have hop : ∀ op : Arithmetic, t.dialect.ClosesQuotes op.operator := fun op =>
    closesQuotes_of_unquoted (by cases op <;> decide)
  cases op with
  | mod =>
    simp only [compute, modulo]
    split
    · exact clean_named "MOD" (by decide) (by simp [hf, hg])
    · exact Fragment.clean_operation (hop .mod) hf hg
  | _ => exact Fragment.clean_operation (hop _) hf hg

theorem clean_aggregateOf (a : Aggregate) (hf : f.Tidy t.dialect allowed) :
    (t.aggregateOf a f).Clean t.dialect allowed := by
  have hname : AllUnquoted a.name.toList := by cases a <;> decide
  cases a with
  | countDistinct =>
    have hdistinct : t.dialect.Leads "DISTINCT " := leads_of_unquoted (by decide) rfl
    have harg := Fragment.clean_wrap hdistinct (closesQuotes_of_unquoted (s := "") (by decide)) hf
    exact clean_named "COUNT" (by decide) (by simpa using harg.tidy)
  | _ => exact clean_named _ hname (by simpa using hf)

theorem clean_aggregateAll {a : Aggregate} (h : aggregateAll x a = .ok f) : f.Clean d allowed := by
  have hcount : d.ClosesQuotes "COUNT(*)" := closesQuotes_of_unquoted (by decide)
  unfold aggregateAll at h
  cases hcheck : checkAggregate x a with
  | error why => rw [hcheck] at h; cases h
  | ok _ =>
    rw [hcheck] at h
    cases a <;> cases h
    exact Fragment.clean_sql hcount

theorem clean_like (kind : LikeKind) (hf : f.Tidy d allowed) (text : String) :
    (like kind f text).Clean d allowed := by
  have hlike : d.Leads " LIKE " := leads_of_unquoted (by decide) rfl
  rw [like, Fragment.append_assoc]
  exact Fragment.clean_wrap_append Fragment.leads_paren hlike hf
    ((Fragment.tidy_param _).append (Fragment.clean_sql (closesQuotes_escapeClause d)))

theorem clean_membership (hf : f.Tidy t.dialect allowed) {source : Membership}
    (h : ∀ query, source = .subQuery query → query.Tidy t.dialect allowed) :
    (t.membership f source).Clean t.dialect allowed := by
  have hin : t.dialect.Leads " IN (" := leads_of_unquoted (by decide) rfl
  have hclose : (Fragment.sql "))").Clean t.dialect allowed :=
    Fragment.clean_sql (closesQuotes_of_unquoted (by decide))
  have hlisted : ∀ g : Fragment, g.Tidy t.dialect allowed →
      (f.wrap "(" " IN (" ++ g ++ .sql "))").Clean t.dialect allowed := fun g hg => by
    rw [Fragment.append_assoc]
    exact Fragment.clean_wrap_append Fragment.leads_paren hin hf (hg.append hclose)
  cases source with
  | values list =>
    have hcomma : t.dialect.Leads "," := leads_of_unquoted (by decide) rfl
    rw [membership_values]
    split
    · exact Fragment.clean_sql (closesQuotes_falseLiteral _)
    · refine hlisted _ (Fragment.tidy_join hcomma fun g hg => ?_)
      obtain ⟨v, -, rfl⟩ := List.mem_map.mp hg
      exact Fragment.tidy_param v
  | subQuery query => exact hlisted _ (h query rfl).nested

end Constructs

/-! ## Expressions -/

theorem gives_read (source : Nat) :
    Gives (fun v => ∃ before, v = t.readings before source) (t.read source) := by
  intro before v after run
  cases run
  exact ⟨before, rfl⟩

theorem gives_operand {x : Context} {e : Expr}
    (h : Gives (Fragment.Tidy t.dialect allowed) (t.part x.value e)) (v : Option Value) :
    Gives (Fragment.Tidy t.dialect allowed) (t.operand x e v) := by
  cases v with
  | none => exact h
  | some v => exact gives_pure (tidy_literal x.value v)

theorem gives_comparison {x : Context} (op : Comparison) {left right : Expr}
    (hl : Gives (Fragment.Tidy t.dialect allowed) (t.part x.value left))
    (hr : Gives (Fragment.Tidy t.dialect allowed) (t.part x.value right)) (l r : Option Value) :
    Gives (Fragment.Clean t.dialect allowed) (t.comparison x op left right l r) := by
  have hoperation : Gives (Fragment.Clean t.dialect allowed) (do
      let a ← t.operand x left l
      let b ← t.operand x right r
      return .operation a op.operator b) :=
    gives_bind (gives_operand hl l) fun a ha => gives_return (gives_operand hr r) fun b hb =>
      Fragment.clean_operation (closesQuotes_of_unquoted (by cases op <;> decide)) ha hb
  rw [comparison_eq]
  cases htest : op.nullTest? with
  | none => exact hoperation
  | some test =>
    have htested : ∀ f : Fragment, f.Tidy t.dialect allowed →
        (f.wrap "(" test).Clean t.dialect allowed := fun f hf =>
      Fragment.clean_wrap Fragment.leads_paren (closesQuotes_nullTest htest) hf
    dsimp only
    split
    · exact gives_return (gives_operand hl l) htested
    · split
      · exact gives_return (gives_operand hr r) htested
      · exact hoperation

/-- What a construct has to give: a tidy fragment, and a clean one unless it is a value that is not
allowed. -/
def Writes (allowed : Value → Prop) (t : Compiler) (e : Expr) (f : Fragment) : Prop :=
  f.Tidy t.dialect allowed ∧ (e.Allows allowed t.readings → f.Clean t.dialect allowed)

theorem writes_of_clean {e : Expr} {f : Fragment} (h : f.Clean t.dialect allowed) :
    Writes allowed t e f := ⟨h.tidy, fun _ => h⟩

mutual

/-- An expression whose parts fit is compiled to a fragment that literals can be written into. -/
theorem gives_part (t : Compiler) (x : Context) : ∀ e : Expr,
    e.Fits t.dialect allowed t.readings → Gives (Writes allowed t e) (t.part x e)
  | .column c, _ => gives_lift fun _ h => writes_of_clean (clean_column h)
  | .literal v, _ => gives_pure ⟨tidy_literal x v, clean_literal x⟩
  | .captured source, _ => by
    rw [part]
    refine gives_return (gives_read source) fun v hv => ⟨tidy_literal x v, fun hallowed => ?_⟩
    obtain ⟨before, rfl⟩ := hv
    exact clean_literal x (hallowed before)
  | .not e, h => by
    rw [part]
    have hnot : t.dialect.Leads "(NOT " := leads_of_unquoted (by decide) rfl
    exact gives_return (gives_part t x.condition e h) fun f hf =>
      writes_of_clean (Fragment.clean_wrap hnot Fragment.closesQuotes_paren hf.1)
  | .negate e, h => by
    rw [part]
    have hminus : t.dialect.ClosesQuotes "(-" := closesQuotes_of_unquoted (by decide)
    exact gives_return (gives_part t x.arithmetic e h.1) fun f hf =>
      writes_of_clean ((hf.2 h.2).wrap hminus Fragment.closesQuotes_paren)
  | .connect op left right, h => by
    rw [part]
    have hop : t.dialect.ClosesQuotes op.operator :=
      closesQuotes_of_unquoted (by cases op <;> decide)
    exact gives_bind (gives_part t x.condition left h.1) fun f hf =>
      gives_return (gives_part t x.condition right h.2) fun g hg =>
        writes_of_clean (Fragment.clean_operation hop hf.1 hg.1)
  | .compute op left right, h => by
    rw [part]
    exact gives_bind (gives_part t x.arithmetic left h.1) fun f hf =>
      gives_return (gives_part t x.arithmetic right h.2) fun g hg =>
        writes_of_clean (clean_compute op hf.1 hg.1)
  | .compare op left right, h => by
    rw [part_compare]
    have hl := (gives_part t x.value left h.1).mono fun _ hf => hf.1
    have hr := (gives_part t x.value right h.2).mono fun _ hf => hf.1
    exact gives_bind (gives_true _) fun l _ => gives_bind (gives_true _) fun r _ =>
      (gives_comparison op hl hr l r).mono fun _ => writes_of_clean
  | .coalesce args, h => by
    rw [part]
    refine gives_unless _ _ ?_
    exact gives_return (gives_parts t x.value args h) fun fs hfs =>
      writes_of_clean (clean_named "COALESCE" (by decide) hfs)
  | .function name args, h => by
    rw [part]
    exact gives_bind (gives_parts t x.value args h) fun fs hfs =>
      gives_lift fun _ hok => writes_of_clean (clean_function hfs hok)
  | .like kind e pattern, h => by
    rw [part]
    refine gives_bind (gives_true _) fun v _ => ?_
    split
    · next text =>
      exact gives_return (gives_part t x.value e h) fun f hf =>
        writes_of_clean (clean_like kind hf.1 text)
    · exact gives_throw _
  | .isIn e source, h => by
    rw [part]
    refine gives_unless _ _ ?_
    exact gives_return (gives_part t x.value e h.1) fun f hf =>
      writes_of_clean (clean_membership hf.1 h.2)
  | .existence negated query, h => by
    rw [part]
    have hexists : t.dialect.Leads (if negated then "NOT EXISTS (" else "EXISTS (") := by
      cases negated <;> exact leads_of_unquoted (by decide) rfl
    have hquery : query.Tidy t.dialect allowed := h
    exact gives_unless _ _ (gives_pure
      (writes_of_clean (Fragment.clean_wrap hexists Fragment.closesQuotes_paren hquery.nested)))
  | .aggregate a arg, h => by
    rw [part]
    exact gives_bind (gives_true _) fun _ _ =>
      gives_return (gives_part t x.aggregate arg h) fun f hf =>
        writes_of_clean (clean_aggregateOf a hf.1)
  | .aggregateAll a, _ => gives_lift fun _ h => writes_of_clean (clean_aggregateAll h)
  | .aliased _ _, _ => gives_throw _
  | .custom sql, h => gives_pure (writes_of_clean (Fragment.clean_sql h))
  | .qualified c aliasName kind, _ => gives_lift fun _ h => writes_of_clean (clean_qualified h)
  | .ordered _ _, _ => gives_throw _
  | .endOfTuple, _ => gives_throw _
  | .allFields _ _, _ => gives_throw _
  | .cast e type, h => by
    rw [part]
    have hcast : t.dialect.Leads "CAST(" := leads_of_unquoted (by decide) rfl
    have has : t.dialect.ClosesQuotes " AS " := closesQuotes_of_unquoted (by decide)
    exact gives_return (gives_part t x.value e h) fun f hf =>
      writes_of_clean (Fragment.clean_wrap hcast
        ((has.append (closesQuotes_typeName _ type)).append Fragment.closesQuotes_paren) hf.1)

theorem gives_parts (t : Compiler) (x : Context) : ∀ es : List Expr,
    Expr.FitAll t.dialect allowed t.readings es →
      Gives (fun fs => ∀ f ∈ fs, f.Tidy t.dialect allowed) (t.parts x es)
  | [], _ => gives_pure fun _ hf => (List.not_mem_nil hf).elim
  | e :: rest, h => by
    rw [parts]
    exact gives_bind (gives_part t x e h.1) fun f hf =>
      gives_return (gives_parts t x rest h.2) fun fs hfs =>
        List.forall_mem_cons.mpr ⟨hf.1, hfs⟩

end

/-! ## Clauses and projections -/

theorem gives_aliased {x : Context} {e : Expr} (h : e.Fits t.dialect allowed t.readings)
    (aliasName : String) : Gives (Fragment.Tidy t.dialect allowed) (t.aliased x e aliasName) := by
  have has : t.dialect.ClosesQuotes " AS " := closesQuotes_of_unquoted (by decide)
  exact gives_return (gives_part t x e h) fun f hf =>
    hf.1.append (Fragment.clean_sql (has.append (leads_quoteName _ aliasName).closesQuotes))

theorem gives_compile (position : Position) {e : Expr} (h : e.Fits t.dialect allowed t.readings) :
    Gives (Fragment.Tidy t.dialect allowed) (t.compile position e) := by
  have hpart : Gives (Fragment.Tidy t.dialect allowed) (t.part (.top position) e) :=
    (gives_part t _ e h).mono fun _ hf => hf.1
  unfold compile
  split
  · next item descending =>
    have hdesc : t.dialect.ClosesQuotes " DESC" := closesQuotes_of_unquoted (by decide)
    have hitem : item.Fits t.dialect allowed t.readings := by rwa [Expr.Fits] at h
    refine gives_return (gives_part t _ item hitem) fun f hf => ?_
    split
    · exact hf.1.append (Fragment.clean_sql hdesc)
    · exact hf.1
  · exact gives_aliased (by rwa [Expr.Fits] at h) _
  · exact hpart

/-- The columns among the items of a projection are tidy. -/
def TidyItems (d : Dialect) (allowed : Value → Prop) (items : List ProjectionItem) : Prop :=
  ∀ column, .column column ∈ items → column.fragment.Tidy d allowed

theorem tidyItems_column {d : Dialect} {f : Fragment} (h : f.Tidy d allowed)
    (name : Option String) : TidyItems d allowed [.column ⟨f, name⟩] := by
  intro column hc
  cases List.mem_singleton.mp hc
  exact h

theorem gives_projectionItems {e : Expr} (h : e.Fits t.dialect allowed t.readings) :
    Gives (TidyItems t.dialect allowed) (t.projectionItems e) := by
  have hpart : ∀ name, Gives (TidyItems t.dialect allowed)
      (do return [.column ⟨← t.part (.top .projection) e, name⟩]) := fun name =>
    gives_return (gives_part t _ e h) fun f hf => tidyItems_column hf.1 name
  cases e with
  | column c =>
    refine gives_bind (gives_true _) fun found _ => gives_pure ?_
    exact tidyItems_column (Fragment.clean_sql (leads_qualify _ _ _ _).closesQuotes).tidy _
  | endOfTuple => exact gives_pure fun column hc => by cases List.mem_singleton.mp hc
  | allFields entity aliasName =>
    refine gives_bind (gives_true _) fun source _ => gives_pure fun column hc => ?_
    obtain ⟨_, hcolumn, heq⟩ := List.mem_map.mp hc
    cases heq
    obtain ⟨field, -, rfl⟩ := List.mem_map.mp hcolumn
    exact (Fragment.clean_sql (leads_qualify _ _ _ _).closesQuotes).tidy
  | aliased e aliasName =>
    exact gives_return (gives_aliased (by rwa [Expr.Fits] at h) aliasName) fun f hf =>
      tidyItems_column hf _
  | qualified c aliasName kind => exact hpart _
  | _ => exact hpart none

theorem gives_projection {items : List Expr}
    (h : ∀ e ∈ items, e.Fits t.dialect allowed t.readings) :
    Gives (fun p => ∀ column ∈ p.columns, column.fragment.Tidy t.dialect allowed)
      (Projection.compile t items) := by
  refine gives_bind (gives_mapM fun e he => gives_projectionItems (h e he)) fun parts hparts =>
    gives_lift fun p hp => ?_
  unfold Projection.ofItems at hp
  split at hp
  · cases hp
  · cases hp
    intro column hcolumn
    obtain ⟨item, hitem, hcolumn⟩ := List.mem_filterMap.mp hcolumn
    obtain ⟨part, hpart, hitem⟩ := List.mem_flatten.mp hitem
    cases item with
    | column other =>
      cases hcolumn
      exact hparts part hpart column hitem
    | tupleEnd => cases hcolumn

end Compiler

end RowGraph
