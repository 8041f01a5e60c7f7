import RowGraph.Proofs.Inlined.Compiled
import RowGraph.Proofs.Query.Calls
import RowGraph.Query.Statements

/-!
# Inlined statements

A query yields its statement with placeholders, and the same text with the literals in their place,
for logs and for people. Both are the texts of one fragment with marks between them, so one is the
other with each placeholder replaced by the literal of its parameter.

Whether they tell the same query is another matter, since a literal can come to stand in quotes, or
can make an opener of a comment together with the text before it. `Query.Fits` is an invariant of
all calls under which neither happens: calls that leave no quote open keep literals out of quotes,
and a literal stands behind a hyphen in two cases only. One is SQL by hand that has a hyphen before
a token. The other one is a negation: it puts its hyphen right in front of its operand, so that the
negation of a negative number begins a comment.

Quotes are read as the standard has them, where a quote is doubled and a backslash has no meaning.

Results:
* `Query.Fits.clean_toFragment`: literals can be written into a query whose clauses fit.
* `Call.maintains_run`, `Query.Fits.run`: they fit whatever is called.
* **`inlined_statement`**: the two texts, and the comments that begin in them.
-/

namespace RowGraph

open Attempt Dialect

variable {c : Catalog} {d : Dialect} {allowed : Value → Prop}

/-! ## Statements of a query -/

namespace Dialect

/-- Neither the numbers of a page nor the words around them are quoted. -/
theorem closesQuotes_pageClause {offset rows : Option Nat} {ordered : Bool} {text : String}
    (h : d.pageClause offset rows ordered = some text) : d.ClosesQuotes text := by
  have hword : ∀ s : String, AllUnquoted s.toList → d.ClosesQuotes s :=
    fun _ => closesQuotes_of_unquoted
  have hnumber : ∀ n : Nat, d.ClosesQuotes (Nat.repr n) := fun n =>
    closesQuotes_of_unquoted fun c hc => (isInert_of_mem_repr hc).1
  have hfetch : d.ClosesQuotes (fetchClause offset rows) := by
    have hbegin := ((hword "OFFSET " (by decide)).append (hnumber (offset.getD 0))).append
      (hword " ROWS" (by decide))
    refine hbegin.append ?_
    split
    · exact ((hword " FETCH NEXT " (by decide)).append (hnumber _)).append
        (hword " ROWS ONLY" (by decide))
    · exact hword "" (by decide)
  have hlimit : ∀ n, d.ClosesQuotes ("LIMIT " ++ Nat.repr n) := fun n =>
    (hword "LIMIT " (by decide)).append (hnumber n)
  have hoffset : ∀ n, d.ClosesQuotes ("OFFSET " ++ Nat.repr n) := fun n =>
    (hword "OFFSET " (by decide)).append (hnumber n)
  unfold pageClause at h
  split at h <;> cases h
  · refine ClosesQuotes.append ?_ hfetch
    split
    · exact hword "" (by decide)
    · exact hword "ORDER BY 1 " (by decide)
  · exact hfetch
  · exact hlimit _
  · exact ((hlimit _).append (hword ", " (by decide))).append (hnumber _)
  · exact ((hlimit _).append (hword ", " (by decide))).append (hnumber _)
  · exact ((hlimit _).append (hword " OFFSET " (by decide))).append (hnumber _)
  · exact hoffset _
  · exact (hword "LIMIT -1 OFFSET " (by decide)).append (hnumber _)

end Dialect

/-- Literals can be written into the condition of a join, or the join leaves no quote open. -/
def JoinForm.Fits (d : Dialect) (allowed : Value → Prop) : JoinForm → Prop
  | .on _ condition => condition.Tidy d allowed
  | .cross => True
  | .custom sql => d.ClosesQuotes sql

/-- Literals can be written into every clause of a query. -/
structure Query.Fits (d : Dialect) (allowed : Value → Prop) (q : Query c) : Prop where
  dialect : q.dialect = d
  joins : ∀ j ∈ q.joins, j.form.Fits d allowed
  filter : ∀ f, q.filter.fragment = some f → f.Tidy d allowed
  groupBy : ∀ f ∈ q.groupBy, f.Tidy d allowed
  having : ∀ f, q.having.fragment = some f → f.Tidy d allowed
  orderBy : ∀ f ∈ q.orderBy, f.Tidy d allowed
  projection : ∀ p, q.projection = some p → ∀ column ∈ p.columns, column.fragment.Tidy d allowed

namespace Query

theorem fits_ofRoot (root : Source) : (ofRoot d root : Query c).Fits d allowed := by
  constructor <;> simp [ofRoot, FilterChain.empty]

section Clauses

open Fragment

theorem leads_tableReference (s : Source) : d.Leads (s.tableReference c d) := by
  unfold Source.tableReference Dialect.tableReference
  split
  · exact ((Compiler.leads_quoteTable d _ _).append leads_blank).append (leads_quoteName d _)
  · exact Compiler.leads_quoteTable d _ _

theorem closesQuotes_keyword (form : JoinForm) : d.ClosesQuotes form.keyword := by
  have hkind : ∀ kind : JoinKind, AllUnquoted kind.keyword.toList := by
    intro kind
    cases kind <;> decide
  cases form with
  | on kind condition => exact closesQuotes_of_unquoted (hkind kind)
  | cross => exact closesQuotes_of_unquoted (s := "CROSS JOIN") (by decide)
  | custom sql => exact closesQuotes_of_unquoted (s := "") (by decide)

theorem tidy_join_toFragment {j : Join} (h : j.form.Fits d allowed) :
    (j.toFragment c d).Tidy d allowed := by
  have hhead : (sql (j.form.keyword ++ " " ++ j.source.tableReference c d)).Clean d allowed :=
    clean_sql ((((closesQuotes_keyword j.form).append leads_blank.closesQuotes).append_leads
      (leads_tableReference j.source)).closesQuotes)
  have hon : d.Leads " ON " := leads_of_unquoted (by decide) rfl
  obtain ⟨source, form⟩ := j
  cases form with
  | on kind condition => exact hhead.tidy.append (clean_textThen hon h)
  | cross => exact hhead.tidy
  | custom sql => exact (clean_sql h).tidy

theorem clean_joinLines {joins : List Join} (h : ∀ j ∈ joins, j.form.Fits d allowed) :
    (joinLines c d joins).Clean d allowed := by
  have hline : d.Leads "\n" := leads_of_unquoted (by decide) rfl
  induction joins with
  | nil => exact clean_empty
  | cons j rest ih =>
    rw [List.forall_mem_cons] at h
    exact clean_textThen hline ((tidy_join_toFragment h.1).append (ih h.2))

theorem clean_clause {word : String} (hword : d.Leads word) {condition : Option Fragment}
    (h : ∀ f, condition = some f → f.Tidy d allowed) : (clause word condition).Clean d allowed := by
  cases condition with
  | none => exact clean_empty
  | some f => exact clean_textThen hword (h f rfl)

theorem clean_listClause {word : String} (hword : d.Leads word) {parts : List Fragment}
    (h : ∀ f ∈ parts, f.Tidy d allowed) : (listClause word parts).Clean d allowed := by
  cases parts with
  | nil => exact clean_empty
  | cons f rest => exact clean_textThen hword (tidy_join leads_comma h)

/-- The statement of a query whose clauses fit can be embedded anywhere. -/
theorem Fits.clean_toFragment {q : Query c} (h : q.Fits d allowed) :
    q.toFragment.Clean d allowed := by
  obtain rfl := h.dialect
  have hword : ∀ word : String, AllUnquoted word.toList →
      word.toList.getLast?.any (· != '-') = true → q.dialect.Leads word :=
    fun _ => leads_of_unquoted
  have hbody : q.body.Clean q.dialect allowed := by
    have hfrom := hword "\nFROM " (by decide) rfl
    have hwhere := hword "\nWHERE " (by decide) rfl
    have hgroup := hword "\nGROUP BY " (by decide) rfl
    have hhaving := hword "\nHAVING " (by decide) rfl
    exact clean_textThen (hfrom.append (leads_tableReference q.root))
      ((((clean_joinLines h.joins).append (clean_clause hwhere h.filter)).append
        (clean_listClause hgroup h.groupBy)).append (clean_clause hhaving h.having)).tidy
  have hcolumns : q.columns.toFragment.Tidy q.dialect allowed := by
    refine tidy_join leads_comma fun f hf => ?_
    obtain ⟨column, hcolumn, rfl⟩ := List.mem_map.mp hf
    rw [columns] at hcolumn
    cases hp : q.projection with
    | some p => exact h.projection p hp column (by rwa [hp] at hcolumn)
    | none =>
      rw [hp] at hcolumn
      obtain ⟨field, -, rfl⟩ := List.mem_map.mp hcolumn
      exact (clean_sql (Compiler.leads_qualify _ _ _ _).closesQuotes).tidy
  have hpage : q.page.Clean q.dialect allowed := by
    rw [page]
    split
    · next text htext =>
      exact clean_sql ((hword "\n" (by decide) rfl).closesQuotes.append
        (closesQuotes_pageClause htext))
    · exact clean_empty
  have hselect : q.dialect.Leads (if q.distinct then "SELECT DISTINCT " else "SELECT ") := by
    split
    · exact hword "SELECT DISTINCT " (by decide) rfl
    · exact hword "SELECT " (by decide) rfl
  have horder := hword "\nORDER BY " (by decide) rfl
  exact clean_textThen hselect
    (((hcolumns.append hbody).append (clean_listClause horder h.orderBy)).append hpage)

end Clauses

/-! ## Calls -/

theorem tidy_push {chain : FilterChain} (h : ∀ f, chain.fragment = some f → f.Tidy d allowed)
    {condition : Fragment} (hc : condition.Tidy d allowed) (op : Connective) :
    ∀ f, (chain.push condition op).fragment = some f → f.Tidy d allowed := by
  have hop : d.Leads op.separator := by
    cases op <;> exact leads_of_unquoted (by decide) rfl
  intro f hf
  cases hbefore : chain.fragment with
  | none =>
    simp only [FilterChain.push, hbefore, Option.some.injEq] at hf
    exact hf ▸ Fragment.tidy_grouped hc
  | some before =>
    simp only [FilterChain.push, hbefore, Option.some.injEq] at hf
    subst hf
    refine Fragment.Tidy.append ?_ (Fragment.clean_textThen hop (Fragment.tidy_grouped hc))
    split
    · exact (Fragment.clean_parenthesized (h before hbefore)).tidy
    · exact h before hbefore

end Query

/-- What a call adds fits: its expressions do, in SQL as it stands every quote is closed, and
literals can be written into a condition by hand and into an embedded query. -/
def Call.Fits (d : Dialect) (allowed : Value → Prop) (env : Environment) : Call → Prop
  | .join _ _ e | .filter _ e | .groupBy e | .having e | .orderBy e | .thenBy e =>
    e.Fits d allowed env.readings
  | .select _ items => ∀ e ∈ items, e.Fits d allowed env.readings
  | .filterRaw sql params => ∀ f, Query.positionalFragment sql params = .ok f → f.Tidy d allowed
  | .filterNamed sql params =>
    ∀ f, Query.namedFragment env.parameterName sql params = .ok f → f.Tidy d allowed
  | .filterExists _ query => query.Tidy d allowed
  | .customJoin _ sql | .selectRaw sql => d.ClosesQuotes sql
  | .crossJoin _ | .joinByKey _ _ | .clearFilter | .clearOrder | .limit _ | .skip _ => True

namespace Query

variable {env : Environment}

/-- What a compilation gives is in its outcome. -/
theorem of_outcome_eq_ok {α : Type} {P : α → Prop} {x : Compilation α} (h : Gives P x) {a : α}
    (hok : x.outcome = .ok a) : P a :=
  h [] a _ (Prod.ext hok rfl)

theorem maintains_compile {position : Position} {e : Expr} (h : e.Fits d allowed env.readings) :
    Maintains (Fits d allowed) (Fragment.Tidy d allowed)
      (compile env position e : Builder c Fragment) := by
  refine maintains_get_bind fun q hq => ?_
  obtain rfl := hq.dialect
  split
  · next f hok =>
    exact maintains_pure (of_outcome_eq_ok (Compiler.gives_compile position h) hok)
  · exact maintains_throw _

theorem maintains_bindSource (new : Source) :
    Maintains (Fits d allowed) (fun _ => True) (bind new : Builder c Unit) := by
  refine maintains_get_bind fun q _ => ?_
  split
  · exact maintains_modify fun q hq => { hq with }
  · exact maintains_throw _

theorem maintains_unbind_throw (why : QueryError) :
    Maintains (Fits d allowed) (fun _ => True) (do unbind; throw why : Builder c Unit) :=
  maintains_bind (maintains_modify fun _ hq => { hq with }) fun _ _ => maintains_throw why

theorem maintains_addJoin (source : Source) {form : JoinForm} (h : form.Fits d allowed) :
    Maintains (Fits d allowed) (fun _ => True) (addJoin source form : Builder c Unit) :=
  maintains_modify fun q hq =>
    { hq with
      joins := by
        intro j hj
        rcases List.mem_append.mp hj with hj | hj
        · exact hq.joins j hj
        · exact List.mem_singleton.mp hj ▸ h }

theorem maintains_addFilter (op : Connective) {condition : Fragment}
    (h : condition.Tidy d allowed) :
    Maintains (Fits d allowed) (fun _ => True) (addFilter op condition : Builder c Unit) :=
  maintains_modify fun _ hq => { hq with filter := tidy_push hq.filter h op }

theorem maintains_addCondition (op : Connective) {e : Expr} (h : e.Fits d allowed env.readings) :
    Maintains (Fits d allowed) (fun _ => True) (addCondition env op e : Builder c Unit) :=
  maintains_bind (maintains_compile h) fun _ hf => maintains_addFilter op hf

/-- The condition along a foreign key has no literals. -/
theorem clean_inferCondition {existing : List Source} {new : Source} {f : Fragment}
    (h : Source.inferCondition? c d existing new = some f) : f.Clean d allowed := by
  have hequation : ∀ {left right : String}, d.Leads left → d.Leads right →
      (Source.equation left right).Clean d allowed := fun hl hr => by
    have hequals : d.Leads " = " := leads_of_unquoted (by decide) rfl
    exact Fragment.clean_sql ((((Fragment.leads_paren.append hl).append hequals).append
      hr).closesQuotes.append Fragment.closesQuotes_paren)
  obtain ⟨s, -, hs⟩ := List.exists_of_findSome?_eq_some h
  rw [Option.orElse_eq_some] at hs
  rcases hs with hs | ⟨-, hs⟩
  all_goals
    simp only [Source.keyToExisting?, Source.keyFromExisting?, Option.bind_eq_bind,
      Option.bind_eq_some_iff, Option.pure_def, Option.some.injEq] at hs
    obtain ⟨_, -, _, -, rfl⟩ := hs
    exact hequation (Compiler.leads_qualify _ _ _ _) (Compiler.leads_qualify _ _ _ _)

end Query

namespace Call

open Query

/-- A call whose parts fit keeps the clauses of the query fit, whether it fails or not. -/
theorem maintains_run {env : Environment} {call : Call} (h : call.Fits d allowed env) :
    Maintains (Query.Fits d allowed) (fun _ => True) (call.run env : Builder c Unit) := by
  cases call with
  | join kind new e =>
    refine maintains_bind (maintains_bindSource new) fun _ _ => maintains_get_bind fun q hq => ?_
    obtain rfl := hq.dialect
    split
    · next f hok =>
      have hgives := Compiler.gives_compile (t := q.compiler env.readings (some new)) .predicate h
      exact maintains_addJoin new (of_outcome_eq_ok hgives hok)
    · exact maintains_unbind_throw _
  | crossJoin new =>
    exact maintains_bind (maintains_bindSource new) fun _ _ => maintains_addJoin new trivial
  | joinByKey kind new =>
    refine maintains_get_bind fun q hq => ?_
    obtain rfl := hq.dialect
    refine maintains_bind (maintains_bindSource new) fun _ _ => ?_
    split
    · next f hf => exact maintains_addJoin new (clean_inferCondition hf).tidy
    · exact maintains_unbind_throw _
  | customJoin new sql =>
    exact maintains_bind (maintains_bindSource new) fun _ _ => maintains_addJoin new h
  | filter op e => exact maintains_addCondition op h
  | filterRaw sql params =>
    exact maintains_bind (maintains_lift h) fun _ hf => maintains_addFilter .and hf
  | filterNamed sql params =>
    exact maintains_bind (maintains_lift h) fun _ hf => maintains_addFilter .and hf
  | filterExists negated query => exact maintains_addCondition .and (by rwa [Expr.Fits])
  | clearFilter => exact maintains_modify fun _ hq => { hq with filter := by rintro _ ⟨⟩ }
  | groupBy e =>
    refine maintains_bind (maintains_compile h) fun f hf => maintains_modify fun q hq =>
      { hq with groupBy := ?_ }
    exact List.forall_mem_append.mpr ⟨hq.groupBy, by simpa using hf⟩
  | having e =>
    exact maintains_bind (maintains_compile h) fun f hf => maintains_modify fun q hq =>
      { hq with having := tidy_push hq.having hf .and }
  | orderBy e =>
    exact maintains_bind (maintains_compile h) fun f hf => maintains_modify fun q hq =>
      { hq with orderBy := by simpa using hf }
  | thenBy e =>
    refine maintains_bind (maintains_compile h) fun f hf => maintains_modify fun q hq =>
      { hq with orderBy := ?_ }
    exact List.forall_mem_append.mpr ⟨hq.orderBy, by simpa using hf⟩
  | clearOrder => exact maintains_modify fun _ hq => { hq with orderBy := by simp }
  | select distinct items =>
    refine maintains_get_bind fun q hq => ?_
    obtain rfl := hq.dialect
    split
    · next p hok =>
      have hgives := Compiler.gives_projection (t := q.compiler env.readings none) h
      refine maintains_modify fun _ hq => { hq with projection := ?_ }
      rintro _ ⟨⟩
      exact of_outcome_eq_ok hgives hok
    · exact maintains_throw _
  | selectRaw sql =>
    refine maintains_modify fun q hq => { hq with projection := ?_ }
    rintro _ ⟨⟩ column hcolumn
    exact List.mem_singleton.mp hcolumn ▸ (Fragment.clean_sql h).tidy
  | limit rows => exact maintains_modify fun _ hq => { hq with }
  | skip rows => exact maintains_modify fun _ hq => { hq with }

end Call

theorem Query.Fits.run {q : Query c} (hq : q.Fits d allowed) {calls : Calls}
    (h : ∀ p ∈ calls, p.2.Fits d allowed p.1) : (calls.run q).2.Fits d allowed := by
  induction calls generalizing q with
  | nil => exact hq
  | cons p rest ih =>
    obtain ⟨env, call⟩ := p
    rw [List.forall_mem_cons] at h
    exact ih (Call.maintains_run h.1 q hq).1 h.2

/-! ## Every query -/

/-- **An inlined statement is the statement with its literals in the place of their placeholders**,
for every query that calls build from a root.

As long as no literal stands in quotes, the comments that begin in it are those of the statement,
and one more for each negative number right behind a hyphen. If the calls leave no quote open, no
literal stands in quotes; and if besides no negation and no hyphen by hand has a negative number
behind it, as many comments begin in the inlined statement as in the one with placeholders. -/
theorem inlined_statement (calls : Calls) (d : Dialect) (root : Source) :
    let q : Query c := (calls.run (.ofRoot d root)).2
    let f := q.toFragment
    let select := q.selectStatement
    let openers := q.dialect.openersOf
    (f.gaps.length = select.slots.length + 1 ∧
      select.sql = weave f.gaps ((List.range select.slots.length).map q.dialect.placeholder) ∧
      q.inlinedStatement = weave f.gaps (select.values.map q.dialect.literal)) ∧
    ((∀ p ∈ f.placed q.dialect .free, p.1.IsOpen) →
      openers q.inlinedStatement = openers select.sql + (f.fused q.dialect).length) ∧
    (∀ allowed : Value → Prop, (∀ p ∈ calls, p.2.Fits d allowed p.1) →
      f.Clean q.dialect allowed ∧ (∀ p ∈ f.placed q.dialect .free, p.1.IsOpen) ∧
        ∀ v ∈ f.fused q.dialect, allowed v) ∧
    ((∀ p ∈ calls, p.2.Fits d (fun v => v.isNegative = false) p.1) →
      openers q.inlinedStatement = openers select.sql) := by
  intro q f select openers
  have hcount : select.slots.length = f.count := by
    have hvalues := congrArg List.length (Statement.values_ofFragment q.dialect f q.shape)
    rwa [Statement.values, List.length_map, ← Fragment.count_eq] at hvalues
  have hopeners : (∀ p ∈ f.placed q.dialect .free, p.1.IsOpen) →
      openers q.inlinedStatement = openers select.sql + (f.fused q.dialect).length :=
    fun hopen => Fragment.openersOf_inlined hopen q.shape
  have hfits : ∀ allowed : Value → Prop, (∀ p ∈ calls, p.2.Fits d allowed p.1) →
      f.Clean q.dialect allowed ∧ (∀ p ∈ f.placed q.dialect .free, p.1.IsOpen) ∧
        ∀ v ∈ f.fused q.dialect, allowed v := by
    intro allowed h
    have hq : q.Fits d allowed := (Query.fits_ofRoot root).run h
    have hclean : f.Clean q.dialect allowed := hq.dialect ▸ hq.clean_toFragment
    have hplaced := (hclean .free Trail.isOpen_free).1
    exact ⟨hclean, fun p hp => (hplaced p hp).1, fun v hv =>
      (hplaced _ (Fragment.mem_fused.mp hv).1).2 rfl⟩
  refine ⟨⟨?gaps, ?sql, ?inlined⟩, hopeners, hfits, fun h => ?equal⟩
  case gaps => rw [hcount, Fragment.length_gaps]
  case sql => rw [hcount]; exact Statement.sql_ofFragment q.dialect f q.shape
  case inlined =>
    rw [show select.values = f.literals from Statement.values_ofFragment _ _ _]
    exact Fragment.inlined_eq_weave q.dialect f
  case equal =>
    obtain ⟨-, hopen, hfused⟩ := hfits _ h
    have hnone : f.fused q.dialect = [] := by
      refine List.eq_nil_iff_forall_not_mem.mpr fun v hv => ?_
      exact Bool.false_ne_true ((hfused v hv).symm.trans (Fragment.mem_fused.mp hv).2)
    rw [hopeners hopen, hnone, List.length_nil, Nat.add_zero]

namespace Sample

/-- The teams with the negation of minus five for their key. -/
def negatedMinusFive : Calls :=
  [(plainly, .filter .and (.compare .eq (.column ⟨type "Team", "Id"⟩)
    (.negate (.literal (.int (-5))))))]

/-- Two hyphens side by side: no comment begins in the statement, which has an integer for its only
parameter, and one begins in the inlined text and takes the rest of the condition away. -/
theorem negated_minus_five :
    let q := (negatedMinusFive.run teams).2
    (negatedMinusFive.run teams).1 = [.ok ()] ∧ q.selectStatement.values = [.int (-5)] ∧
      q.selectStatement.sql =
        "SELECT \"Team\".\"Id\", \"Team\".\"Name\", \"Team\".\"TeamLeaderId\"\nFROM \"Team\"\n" ++
          "WHERE (\"Team\".\"Id\" = (-@0))" ∧
      q.inlinedStatement =
        "SELECT \"Team\".\"Id\", \"Team\".\"Name\", \"Team\".\"TeamLeaderId\"\nFROM \"Team\"\n" ++
          "WHERE (\"Team\".\"Id\" = (--5))" ∧
      q.dialect.openersOf q.selectStatement.sql = 0 ∧
      q.dialect.openersOf q.inlinedStatement = 1 := by
  decide +kernel

/-- A token that is written in quotes by hand: a literal with quotes of its own leaves them. -/
example :
    let q := (Calls.run [(plainly, .filterRaw "\"Name\" = '{0}'" [.text "--"])] teams).2
    q.dialect.openersOf q.selectStatement.sql = 0 ∧ q.dialect.openersOf q.inlinedStatement = 1 := by
  decide +kernel

/-- The teams whose negated key is minus five, and whose name, by hand, is not two hyphens. -/
def minusFive : Calls :=
  [(plainly, .filter .and (.compare .eq (.negate (.column ⟨type "Team", "Id"⟩))
      (.literal (.int (-5))))),
    (plainly, .filter .and (.compare .ne (.custom "\"Team\".\"Name\"") (.literal (.text "--"))))]

/-- A negated column and a negative number do no harm, nor does a text with hyphens. -/
theorem inlined_minus_five :
    let q := (minusFive.run teams).2
    (∀ p ∈ minusFive, p.2.Fits .sqlite (fun v => v.isNegative = false) p.1) ∧
      q.selectStatement.values = [.int (-5), .text "--"] ∧
      q.inlinedStatement = weave q.toFragment.gaps ["-5", "'--'"] ∧
      q.dialect.openersOf q.inlinedStatement = q.dialect.openersOf q.selectStatement.sql := by
  have hname : Dialect.sqlite.ClosesQuotes "\"Team\".\"Name\"" := by
    intro t ht
    cases t <;> first | decide | exact absurd ht (by decide)
  have hfits : ∀ p ∈ minusFive, p.2.Fits .sqlite (fun v => v.isNegative = false) p.1 := by
    simp [minusFive, Call.Fits, Expr.Fits, Expr.Allows, hname]
  have hmarks : (minusFive.run teams).2.selectStatement.values = [.int (-5), .text "--"] ∧
      (minusFive.run teams).2.selectStatement.values.map
        (minusFive.run teams).2.dialect.literal = ["-5", "'--'"] := by
    decide +kernel
  obtain ⟨⟨-, -, hinlined⟩, -, -, hequal⟩ :=
    inlined_statement minusFive .sqlite (⟨type "Team", none⟩ : Source) (c := catalog)
  rw [← hmarks.2]
  exact ⟨hfits, hmarks.1, hinlined, hequal hfits⟩

end Sample

end RowGraph
