import RowGraph.Proofs.Query.Chains
import RowGraph.Proofs.Query.Tokens

/-!
# Conditions written by hand

A condition written by hand goes into a chain as it stands, with literals in place of its tokens. If
it has an `AND` or `OR` outside of its own parentheses and quotes, it has to be put into
parentheses, or its connective binds to the conditions before and after it.

Whether it gets parentheses is found by a scan that knows the same two quotes in every dialect.
Where names stand in brackets or backticks, the scan takes them for bare text. An apostrophe, a
double quote or a parenthesis in a name can then hide what follows, and two groups with `OR` between
them look like one. Where names stand in double quotes this cannot happen.

Results:
* `Handwritten.apply_call`: what the calls push onto a chain.
* `Handwritten.isGroup_iff`: a filled condition is a group if its SQL is one.
* `Dialect.Written.wrapped`: with harmless names it gets parentheses.
* `Dialect.Written.isGroup_grouped_iff`: it is one operand exactly if it has got them.
* **`handwritten_conditions_wrapped`**: in which dialects all such conditions get parentheses, and
  what holds in the others.
-/

namespace RowGraph

open Fragment (Symbol symbolsOf)

/-! ## The parentheses of a chain -/

theorem Fragment.symbols_parenthesized (f : Fragment) :
    f.parenthesized.symbols = .char '(' :: f.symbols ++ [.char ')'] := by
  simp [parenthesized, wrap, symbolsOf]

/-- A chain adds parentheses where the scan does not find any. -/
theorem Fragment.grouped_eq_parenthesized_iff (f : Fragment) :
    f.grouped = f.parenthesized ↔ ¬ Lexis.quotes.IsGroup f.symbols := by
  rw [Lexis.isGroup_quotes_iff, grouped]
  by_cases group : f.isParenthesized = true
  · rw [if_pos group]
    constructor
    · intro same
      have length := congrArg (·.symbols.length) same
      rw [symbols_parenthesized, List.cons_append, List.length_cons, List.length_append] at length
      omega
    · exact fun h => absurd group h
  · simp [group]

/-! ## Conditions written by hand -/

/-- A condition written by hand, as it can be given to a query. -/
inductive Handwritten
  /-- With numbered tokens. -/
  | positional (sql : String) (params : List Value)
  /-- With named tokens. -/
  | named (sql : String) (params : List (String × Json))
  /-- As an expression, added with this connective. -/
  | custom (op : Connective) (sql : String)
  /-- As an expression on groups. -/
  | having (sql : String)

namespace Handwritten

open RawText (Piece)

/-- What is written. -/
def sql : Handwritten → String
  | .positional sql _ | .named sql _ | .custom _ sql | .having sql => sql

/-- Its characters and tokens; an expression has no tokens. -/
def pieces : Handwritten → List Piece
  | .positional sql _ => RawText.pieces RawText.numbers sql.toList
  | .named sql _ => RawText.pieces RawText.identifiers sql.toList
  | .custom _ sql | .having sql => sql.toList.map .char

/-- The call that adds it. -/
def call : Handwritten → Call
  | .positional sql params => .filterRaw sql params
  | .named sql params => .filterNamed sql params
  | .custom op sql => .filter op (.custom sql)
  | .having sql => .having (.custom sql)

/-- The condition with its tokens filled in. -/
def fragment (env : Environment) : Handwritten → Except QueryError Fragment
  | .positional sql params => Query.positionalFragment sql params
  | .named sql params => Query.namedFragment env.parameterName sql params
  | .custom _ sql | .having sql => .ok (.sql sql)

/-- The query with this condition pushed onto the chain that it is for. -/
def added {c : Catalog} (f : Fragment) (q : Query c) : Handwritten → Query c
  | .positional _ _ | .named _ _ => { q with filter := q.filter.push f .and }
  | .custom op _ => { q with filter := q.filter.push f op }
  | .having _ => { q with having := q.having.push f .and }

/-- **The calls push what is written**, or fail if a token has no value. -/
theorem apply_call {c : Catalog} (env : Environment) (h : Handwritten) (q : Query c) :
    h.call.apply env q =
      match h.fragment env with
      | .ok f => (.ok (), h.added f q)
      | .error why => (.error why, q) := by
  cases h with
  | positional sql params =>
    simp only [call, Call.apply, Call.run, fragment]
    cases Query.positionalFragment sql params <;> rfl
  | named sql params =>
    simp only [call, Call.apply, Call.run, fragment]
    cases Query.namedFragment env.parameterName sql params <;> rfl
  | custom op sql => rfl
  | having sql => rfl

theorem inertTokens_pieces (h : Handwritten) : RawText.InertTokens h.pieces := by
  have chars (cs : List Char) : RawText.InertTokens (cs.map .char) := fun name token => by
    simp at token
  cases h with
  | positional sql _ => exact RawText.inertTokens_pieces RawText.isInert_numbers sql.toList
  | named sql _ => exact RawText.inertTokens_pieces RawText.isInert_identifiers sql.toList
  | custom _ sql | having sql => exact chars sql.toList

theorem text_pieces (h : Handwritten) : h.pieces.flatMap Piece.text = h.sql.toList := by
  have chars (cs : List Char) : (cs.map Piece.char).flatMap Piece.text = cs := by
    induction cs with
    | nil => rfl
    | cons c cs ih => simpa [Piece.text] using ih
  cases h with
  | positional sql _ | named sql _ => exact RawText.text_pieces _ _
  | custom _ sql | having sql => exact chars sql.toList

variable {env : Environment} {h : Handwritten} {f : Fragment}

theorem symbols_fragment (made : h.fragment env = .ok f) :
    f.symbols = h.pieces.map Piece.symbol := by
  cases h with
  | positional sql params | named sql params => exact RawText.symbols_fill made
  | custom _ sql | having sql =>
    cases made
    simp [pieces, symbolsOf, Piece.symbol]

/-- A filled condition is a group if its SQL is one. -/
theorem isGroup_iff {l : Lexis} {known : l.State → Prop} (skips : l.Skips known)
    (made : h.fragment env = .ok f) :
    l.IsGroup f.symbols ↔ l.IsGroup (h.sql.toList.map .char) := by
  rw [symbols_fragment made, skips.isGroup_pieces h.inertTokens_pieces, h.text_pieces]

/-- In parentheses it is a group if its SQL is one in parentheses. -/
theorem isGroup_parenthesized_iff {l : Lexis} {known : l.State → Prop} (skips : l.Skips known)
    (made : h.fragment env = .ok f) :
    l.IsGroup f.parenthesized.symbols ↔
      l.IsGroup (('(' :: h.sql.toList ++ [')']).map .char) := by
  have inert : RawText.InertTokens (.char '(' :: h.pieces ++ [Piece.char ')']) := by
    intro name token
    exact h.inertTokens_pieces name (by simpa using token)
  have symbols : f.parenthesized.symbols =
      (.char '(' :: h.pieces ++ [Piece.char ')']).map Piece.symbol := by
    simp [Fragment.symbols_parenthesized, symbols_fragment made, Piece.symbol]
  have text : (.char '(' :: h.pieces ++ [Piece.char ')']).flatMap Piece.text =
      '(' :: h.sql.toList ++ [')'] := by
    simp [← h.text_pieces, Piece.text]
  rw [symbols, skips.isGroup_pieces inert, text]

end Handwritten

/-! ## One operand -/

namespace Dialect

/-- A fragment made of a condition written by hand for the dialect, with allowed names in it and a
connective outside of its parentheses and quotes. -/
def Written (d : Dialect) (allowed : String → Prop) (f : Fragment) : Prop :=
  ∃ env, ∃ h : Handwritten, h.fragment env = .ok f ∧ d.Connected allowed h.sql.toList

variable {d : Dialect} {allowed : String → Prop} {f : Fragment}

theorem Written.mono {more : String → Prop} (w : d.Written allowed f)
    (hs : ∀ s, allowed s → more s) : d.Written more f := by
  obtain ⟨env, h, made, connected⟩ := w
  exact ⟨env, h, made, connected.mono hs⟩

/-- **With harmless names it gets parentheses.** -/
theorem Written.wrapped (w : d.Written d.IsHarmless f) : f.grouped = f.parenthesized := by
  obtain ⟨env, h, made, connected⟩ := w
  rw [Fragment.grouped_eq_parenthesized_iff, Handwritten.isGroup_iff Lexis.skips_quotes made]
  exact connected.not_isGroup_quotes

/-- **It is one operand exactly if it has got parentheses.** -/
theorem Written.isGroup_grouped_iff (w : d.Written allowed f) :
    d.lexis.IsGroup f.grouped.symbols ↔ f.grouped = f.parenthesized := by
  obtain ⟨env, h, made, connected⟩ := w
  have bare : ¬ d.lexis.IsGroup f.symbols := by
    rw [Handwritten.isGroup_iff (Lexis.skips_lexis d) made]
    exact connected.not_isGroup_lexis
  have inside : d.lexis.IsGroup f.parenthesized.symbols := by
    rw [Handwritten.isGroup_parenthesized_iff (Lexis.skips_lexis d) made]
    exact connected.wellFormed.isGroup_lexis
  constructor
  · intro group
    rw [Fragment.grouped] at group ⊢
    split
    · next wrapped =>
      rw [if_pos wrapped] at group
      exact absurd group bare
    · rfl
  · intro same
    rwa [same]

/-! ### Names with an apostrophe -/

/-- A test of the column with this name, in parentheses. -/
def test (d : Dialect) (name : String) : String := "(" ++ d.quoteName name ++ " = 1)"

/-- Two tests with `OR` between them, of columns with an apostrophe in their names. -/
def eitherTest (d : Dialect) : String := d.test "Owner's id" ++ " OR " ++ d.test "Owner's team"

theorem toList_test (name : String) :
    (d.test name).toList = '(' :: ((d.quoteName name).toList ++ " = 1".toList) ++ [')'] := by
  simp [test]

theorem wellFormed_test (name : String) :
    d.WellFormed (fun _ => True) ((d.quoteName name).toList ++ " = 1".toList) := by
  have plain : ∀ c ∈ " = 1".toList, d.IsPlain c := by
    cases d <;> simp [IsPlain, openingQuote, closingQuote]
  have behind : d.WellFormed (fun _ => True) " = 1".toList := by
    simpa using WellFormed.plain_append plain .nil
  refine .enclosed .name (fun _ => trivial) ?_ behind
  cases d <;> decide

theorem connected_eitherTest (d : Dialect) :
    d.Connected (fun _ => True) d.eitherTest.toList := by
  have space : d.IsPlain ' ' := by cases d <;> decide
  refine ⟨(d.test "Owner's id").toList ++ [' '], "OR".toList,
    ' ' :: (d.test "Owner's team").toList, by simp [eitherTest], ?_, ⟨.or, by decide⟩, ?_⟩
  · rw [toList_test, List.append_assoc]
    exact .group (wellFormed_test _) (.plain space .nil)
  · rw [toList_test]
    exact .plain space (.group (wellFormed_test _) .nil)

theorem written_eitherTest (d : Dialect) : d.Written (fun _ => True) (.sql d.eitherTest) :=
  ⟨⟨fun _ _ => .null, id⟩, .custom .and d.eitherTest, rfl, d.connected_eitherTest⟩

/-- Between brackets or backticks the scan opens a quote at the first apostrophe, which hides all up
to the second, and takes both groups for one. -/
theorem isParenthesized_eitherTest (hd : d.closingQuote ≠ '"') :
    (Fragment.sql d.eitherTest).isParenthesized = true := by
  cases d with
  | sqlServer | mySql =>
    rw [Fragment.isParenthesized, Fragment.symbols_sql]
    cbv
  | sqlite | postgresql | oracle => exact absurd rfl hd

end Dialect

/-- **Where names stand in double quotes, every condition written by hand gets its parentheses**, if
it is well formed and has a connective outside of its own; in no other dialect do all get them. They
do in every dialect if the scan reads through their names, as it does where these have neither
parentheses nor one of the two usual quotes. Such a condition is one operand exactly if it has got
parentheses. In a chain of these and of any other groups the conditions are then read from left to
right, and what the calls push is these conditions. -/
theorem handwritten_conditions_wrapped (d : Dialect) :
    (d.closingQuote = '"' ↔
      ∀ f, d.Written (fun _ => True) f → f.grouped = f.parenthesized) ∧
    (∀ f, d.Written d.IsHarmless f → f.grouped = f.parenthesized) ∧
    (∀ s, (∀ c ∈ s.toList, Fragment.IsPlain c) → d.IsHarmless s) ∧
    (∀ f, d.Written (fun _ => True) f →
      (d.lexis.IsGroup f.grouped.symbols ↔ f.grouped = f.parenthesized)) ∧
    (∀ start : FilterChain, start.Fresh → ∀ first rest,
      (∀ j ∈ first :: rest, d.lexis.IsGroup j.condition.grouped.symbols ∨
        d.Written (fun _ => True) j.condition ∧
          j.condition.grouped = j.condition.parenthesized) →
      ∃ f, (start.addAll (first :: rest)).fragment = some f ∧
        ∀ value, d.lexis.Reads .condition ((first :: rest).map Judged.operand) f.symbols value ↔
          value = leftToRight first rest) ∧
    ∀ (c : Catalog) (env : Environment) (h : Handwritten) (q : Query c) f,
      h.fragment env = .ok f → h.call.apply env q = (.ok (), h.added f q) := by
  refine ⟨⟨fun quotes f w => ?_, fun wrapped => ?_⟩, fun f w => w.wrapped,
    fun s => Dialect.isHarmless_of_plain, fun f w => w.isGroup_grouped_iff,
    fun start fresh first rest operands => ?_, fun c env h q f made => ?_⟩
  · exact (w.mono fun s _ => Dialect.isHarmless_of_closingQuote quotes s).wrapped
  · by_cases quotes : d.closingQuote = '"'
    · exact quotes
    · have group := (Lexis.isGroup_quotes_iff _).mpr (Dialect.isParenthesized_eitherTest quotes)
      have bare := (Fragment.grouped_eq_parenthesized_iff _).mp (wrapped _ d.written_eitherTest)
      exact absurd group bare
  · refine FilterChain.reads_addAll fresh first rest fun j hj => ?_
    obtain group | ⟨written, wrapped⟩ := operands j hj
    · exact group
    · exact written.isGroup_grouped_iff.mpr wrapped
  · rw [h.apply_call, made]

namespace Sample

/-- The team with this identifier, for a dialect with brackets. -/
def bracketedTeam : Fragment := .operation (.sql "[Team].[Id]") "=" (.param (.int 1))

/-- The two tests get no parentheses, so `AND` binds to the first of them alone: what is read holds
with the second test, although the condition before both does not. -/
theorem unwrapped_eitherTest :
    let d := Dialect.sqlServer
    let tests := Fragment.sql d.eitherTest
    d.Written (fun _ => True) tests ∧ tests.grouped ≠ tests.parenthesized ∧
      ∃ f, (FilterChain.empty.addAll [⟨.and, bracketedTeam, false⟩, ⟨.and, tests, true⟩]).fragment =
          some f ∧
        d.lexis.Reads .condition [(bracketedTeam.grouped.symbols, false),
          (symbolsOf (d.test "Owner's id"), false),
          (symbolsOf (d.test "Owner's team"), true)] f.symbols true := by
  intro d tests
  have group : tests.isParenthesized = true := Dialect.isParenthesized_eitherTest (by decide)
  have bare : tests.grouped = tests := if_pos group
  have quoted (name : String) : d.lexis.IsGroup (symbolsOf (d.test name)) := by
    rw [symbolsOf, Dialect.toList_test]
    exact (Dialect.wellFormed_test name).isGroup_lexis
  have team : d.lexis.IsGroup bracketedTeam.grouped.symbols := ⟨_, rfl, rfl⟩
  refine ⟨d.written_eitherTest, ?_, bracketedTeam.grouped ++ .textThen " AND " tests, ?_, ?_⟩
  · intro same
    have scanned := (Lexis.isGroup_quotes_iff tests).mpr group
    exact (Fragment.grouped_eq_parenthesized_iff tests).mp same scanned
  · simp [FilterChain.addAll, FilterChain.push, FilterChain.empty, bare, Connective.separator,
      Connective.operator]
  · have symbols : (bracketedTeam.grouped ++ .textThen " AND " tests).symbols =
        (bracketedTeam.grouped.symbols ++ (symbolsOf " AND " ++ symbolsOf (d.test "Owner's id"))) ++
          (symbolsOf " OR " ++ symbolsOf (d.test "Owner's team")) := by
      simp [tests, Dialect.eitherTest]
    rw [symbols]
    exact .or (.and (.group false team) (.single (.group false (quoted _))))
      (.all (.single (.group true (quoted _))))

end Sample

end RowGraph
