import RowGraph.Proofs.Query.Calls
import RowGraph.Proofs.Query.Reading

/-!
# Chains of conditions are read from left to right

A chain only remembers how many conditions it has and which connective came last. Where the
connective changes, everything so far is put into parentheses; that this is enough for every order
of `AND` and `OR` is shown for a reader who knows nothing of chains: by the text alone, with
parentheses first, then `AND`, then `OR`, the conditions are connected in the order in which they
were added.

Each condition has to be one group once the chain has wrapped it, in the eyes of the reader, who may
follow any rule for quotes.

Results:
* `Reads.snoc`: one more operand behind a text of the same connective.
* `stands_push`: what a chain's text is read as, after one more condition.
* `reads_addAll`: after any number of them, by induction.
* **`reads_left_to_right`**: the text of a chain means its conditions from left to right, and holds
  their literals in order.
-/

namespace RowGraph

open Fragment (symbolsOf)

/-! ## One more operand -/

/-- What a text of operands between this connective is read as. -/
def Connective.level : Connective → Level
  | .and => .conjunction
  | .or => .condition

/-- The truth of two conditions that are connected. -/
def Connective.truth : Connective → Bool → Bool → Bool
  | .and, a, b => a && b
  | .or, a, b => a || b

namespace Lexis.Reads

variable {l : Lexis} {operands : List (List Fragment.Symbol × Bool)}
  {text more : List Fragment.Symbol} {truth holds : Bool}

theorem of_operand (op : Connective) (h : l.Reads .operand operands text truth) :
    l.Reads op.level operands text truth := by
  cases op with
  | and => exact .single h
  | or => exact .all (.single h)

theorem toCondition {op : Connective} (h : l.Reads op.level operands text truth) :
    l.Reads .condition operands text truth := by
  cases op with
  | and => exact .all h
  | or => exact h

/-- Behind a conjunction the operand joins the last place. -/
theorem conjunction_snoc (h : l.Reads .conjunction operands text truth) (k : l.IsGroup more) :
    l.Reads .conjunction (operands ++ [(more, holds)]) (text ++ (symbolsOf " AND " ++ more))
      (truth && holds) := by
  generalize hlevel : Level.conjunction = level at h
  induction h with
  | group | inside | all | or => cases hlevel
  | single h => exact .and h (.single (.group holds k))
  | and h _ _ ih =>
    rw [List.append_assoc, List.append_assoc, List.append_assoc, Bool.and_assoc]
    exact .and h (ih rfl)

theorem condition_snoc (h : l.Reads .condition operands text truth) (k : l.IsGroup more) :
    l.Reads .condition (operands ++ [(more, holds)]) (text ++ (symbolsOf " OR " ++ more))
      (truth || holds) := by
  generalize hlevel : Level.condition = level at h
  induction h with
  | group | inside | single | and => cases hlevel
  | all h => exact .or h (.all (.single (.group holds k)))
  | or h _ _ ih =>
    rw [List.append_assoc, List.append_assoc, List.append_assoc, Bool.or_assoc]
    exact .or h (ih rfl)

/-- **One more operand** behind a text of the same connective. -/
theorem snoc (op : Connective) (h : l.Reads op.level operands text truth) (k : l.IsGroup more) :
    l.Reads op.level (operands ++ [(more, holds)]) (text ++ (symbolsOf op.separator ++ more))
      (op.truth truth holds) := by
  cases op with
  | and => exact h.conjunction_snoc k
  | or => exact h.condition_snoc k

end Lexis.Reads

/-! ## What the text of a chain is read as -/

/-- A condition that is added to a chain, and whether it is taken to hold. -/
structure Judged where
  op : Connective
  condition : Fragment
  holds : Bool

/-- The condition as an operand of the chain. -/
def Judged.operand (j : Judged) : List Fragment.Symbol × Bool :=
  (j.condition.grouped.symbols, j.holds)

/-- The conditions from left to right: each one is connected with the truth of all before it. -/
def leftToRight (first : Judged) (rest : List Judged) : Bool :=
  rest.foldl (fun before j => j.op.truth before j.holds) first.holds

namespace FilterChain

/-- The chain with these conditions added in order. -/
def addAll (chain : FilterChain) (conditions : List Judged) : FilterChain :=
  conditions.foldl (fun chain j => chain.push j.condition j.op) chain

/-- A chain without conditions: an empty one, or the one of a query whose conditions have been
cleared. -/
inductive Fresh : FilterChain → Prop
  | empty : Fresh .empty
  | cleared {c : Catalog} (env : Environment) (q : Query c) :
    Fresh (Call.clearFilter.apply env q).2.filter

theorem Fresh.eq_empty {chain : FilterChain} (h : Fresh chain) : chain = .empty := by
  cases h <;> rfl

variable {l : Lexis} {chain : FilterChain} {operands : List (List Fragment.Symbol × Bool)}
  {truth : Bool}

/-- The text of a chain is read as true or false with these operands: as an operand while it is the
only one, then as a text of the connective that the chain remembers. -/
inductive Stands (l : Lexis) : FilterChain → List (List Fragment.Symbol × Bool) → Bool → Prop
  | one {f : Fragment} {last : Option Connective} {operands : List (List Fragment.Symbol × Bool)}
    {truth : Bool} (h : l.Reads .operand operands f.symbols truth) :
    Stands l ⟨some f, 1, last⟩ operands truth
  | several {f : Fragment} {count : Nat} {last : Connective}
    {operands : List (List Fragment.Symbol × Bool)} {truth : Bool}
    (h : l.Reads last.level operands f.symbols truth) :
    Stands l ⟨some f, count + 2, some last⟩ operands truth

theorem stands_first {condition : Fragment} (op : Connective)
    (h : l.IsGroup condition.grouped.symbols) (holds : Bool) :
    Stands l (push .empty condition op) [(condition.grouped.symbols, holds)] holds :=
  .one (.group holds h)

/-- A text of the right connective takes one more condition. -/
theorem reads_appended {before condition : Fragment} {op : Connective} {holds : Bool}
    (h : l.Reads op.level operands before.symbols truth)
    (k : l.IsGroup condition.grouped.symbols) :
    l.Reads op.level (operands ++ [(condition.grouped.symbols, holds)])
      (before ++ .textThen op.separator condition.grouped).symbols (op.truth truth holds) := by
  rw [Fragment.symbols_append, Fragment.symbols_textThen]
  exact h.snoc op k

/-- Parentheses make one operand of everything so far. -/
theorem reads_parenthesized {before : Fragment}
    (h : l.Reads .condition operands before.symbols truth) :
    l.Reads .operand operands before.parenthesized.symbols truth := by
  have symbols : before.parenthesized.symbols = .char '(' :: before.symbols ++ [.char ')'] := by
    simp [Fragment.parenthesized, Fragment.wrap, symbolsOf]
  rw [symbols]
  exact .inside h

/-- **One more condition** is connected with the truth of all before it. -/
theorem stands_push {condition : Fragment} {op : Connective} (holds : Bool)
    (h : Stands l chain operands truth) (k : l.IsGroup condition.grouped.symbols) :
    Stands l (chain.push condition op) (operands ++ [(condition.grouped.symbols, holds)])
      (op.truth truth holds) := by
  cases h with
  | one h => exact .several (reads_appended (h.of_operand op) k)
  | @several f count last _ _ h =>
    by_cases same : last = op
    · subst same
      have unwrapped : push ⟨some f, count + 2, some last⟩ condition last =
          ⟨some (f ++ .textThen last.separator condition.grouped), count + 1 + 2, some last⟩ := by
        simp [push]
      rw [unwrapped]
      exact .several (reads_appended h k)
    · have wrapped : push ⟨some f, count + 2, some last⟩ condition op =
          ⟨some (f.parenthesized ++ .textThen op.separator condition.grouped), count + 1 + 2,
            some op⟩ := by
        simp [push, same]
      rw [wrapped]
      exact .several (reads_appended ((reads_parenthesized h.toCondition).of_operand op) k)

theorem stands_addAll (conditions : List Judged) (h : Stands l chain operands truth)
    (groups : ∀ j ∈ conditions, l.IsGroup j.condition.grouped.symbols) :
    Stands l (chain.addAll conditions) (operands ++ conditions.map Judged.operand)
      (conditions.foldl (fun before j => j.op.truth before j.holds) truth) := by
  induction conditions generalizing chain operands truth with
  | nil => simpa [addAll] using h
  | cons j rest ih =>
    have next : Stands l (chain.push j.condition j.op) (operands ++ [j.operand])
        (j.op.truth truth j.holds) :=
      stands_push j.holds h (groups j List.mem_cons_self)
    have others := ih next fun i hi => groups i (List.mem_cons_of_mem j hi)
    rw [List.append_assoc] at others
    exact others

theorem literals_addAll (conditions : List Judged) :
    (chain.addAll conditions).literals =
      chain.literals ++ conditions.flatMap (·.condition.literals) := by
  induction conditions generalizing chain with
  | nil => simp [addAll]
  | cons j rest ih =>
    have others : ((chain.push j.condition j.op).addAll rest).literals =
        (chain.push j.condition j.op).literals ++ rest.flatMap (·.condition.literals) := ih
    rw [literals_push, List.append_assoc] at others
    simpa [addAll] using others

/-- The text is read as the conditions are, and in no other way. -/
theorem Stands.reads_iff {f : Fragment} (h : Stands l chain operands truth)
    (text : chain.fragment = some f) (value : Bool) :
    l.Reads .condition operands f.symbols value ↔ value = truth := by
  have reads : l.Reads .condition operands f.symbols truth := by
    cases h with
    | one h =>
      cases text
      exact (h.of_operand .and).toCondition
    | several h =>
      cases text
      exact h.toCondition
  constructor
  · intro other
    exact other.unique reads
  · rintro rfl
    exact reads

/-- A chain that has a condition has a text. -/
theorem Stands.exists_fragment (h : Stands l chain operands truth) :
    ∃ f, chain.fragment = some f := by
  cases h <;> exact ⟨_, rfl⟩

/-- The text of a chain to which these conditions have been added, the first one to none. -/
theorem reads_addAll {start : FilterChain} (fresh : start.Fresh) (first : Judged)
    (rest : List Judged) (groups : ∀ j ∈ first :: rest, l.IsGroup j.condition.grouped.symbols) :
    ∃ f, (start.addAll (first :: rest)).fragment = some f ∧
      ∀ value, l.Reads .condition ((first :: rest).map Judged.operand) f.symbols value ↔
        value = leftToRight first rest := by
  obtain rfl := fresh.eq_empty
  have one := stands_first first.op (groups first List.mem_cons_self) first.holds
  have all : Stands l (addAll .empty (first :: rest)) ((first :: rest).map Judged.operand)
      (leftToRight first rest) :=
    stands_addAll rest one fun j hj => groups j (List.mem_cons_of_mem first hj)
  obtain ⟨f, text⟩ := all.exists_fragment
  exact ⟨f, text, all.reads_iff text⟩

/-- **The text of a chain means its conditions from left to right**, whatever the order of `AND` and
`OR`: read with parentheses first, then `AND`, then `OR`, it is true or false as the conditions are
when each one is connected with the truth of all before it. Its literals are theirs in order, and a
last condition added with `AND` restricts all before it. -/
theorem reads_left_to_right (l : Lexis) {start : FilterChain} (fresh : start.Fresh)
    (first : Judged) (rest : List Judged)
    (groups : ∀ j ∈ first :: rest, l.IsGroup j.condition.grouped.symbols) :
    ∃ f, (start.addAll (first :: rest)).fragment = some f ∧
      f.literals = (first :: rest).flatMap (·.condition.literals) ∧
      (∀ value, l.Reads .condition ((first :: rest).map Judged.operand) f.symbols value ↔
        value = leftToRight first rest) ∧
      ∀ before later, rest = before ++ [later] → later.op = .and →
        ∃ g, (start.addAll (first :: before)).fragment = some g ∧
          (l.Reads .condition ((first :: rest).map Judged.operand) f.symbols true ↔
            l.Reads .condition ((first :: before).map Judged.operand) g.symbols true ∧
              later.holds = true) := by
  obtain ⟨f, text, reads⟩ := reads_addAll fresh first rest groups
  refine ⟨f, text, ?_, reads, ?_⟩
  · have literals : (start.addAll (first :: rest)).literals =
        start.literals ++ (first :: rest).flatMap (·.condition.literals) :=
      literals_addAll (first :: rest)
    rw [FilterChain.literals, text] at literals
    simpa [fresh.eq_empty, FilterChain.literals, empty] using literals
  · rintro before later rfl restricts
    have groups' : ∀ j ∈ first :: before, l.IsGroup j.condition.grouped.symbols := by
      intro j hj
      rw [← List.cons_append] at groups
      exact groups j (List.mem_append_left _ hj)
    obtain ⟨g, text', reads'⟩ := reads_addAll fresh first before groups'
    refine ⟨g, text', ?_⟩
    have last : leftToRight first (before ++ [later]) =
        (leftToRight first before && later.holds) := by
      simp [leftToRight, List.foldl_append, restricts, Connective.truth]
    rw [reads true, reads' true, last]
    cases leftToRight first before <;> simp

end FilterChain

namespace Sample

/-- The teams with an identifier. -/
def identifierIs (n : Int64) : Fragment :=
  .operation (.sql "\"Team\".\"Id\"") "=" (.param (.int n))

/-- One of two teams, unless it has been left: the first condition holds, the last does not. Read
without regard for the order of the calls, the first one would decide alone. -/
def eitherUnlessLeft : List Judged :=
  [⟨.or, identifierIs 2, false⟩, ⟨.and, .sql "NOT \"Team\".\"Left\"", false⟩]

/-- The last condition restricts both before it. -/
theorem reads_eitherUnlessLeft :
    let first : Judged := ⟨.or, identifierIs 1, true⟩
    FilterChain.empty.Fresh ∧
      (∀ j ∈ first :: eitherUnlessLeft, Lexis.quotes.IsGroup j.condition.grouped.symbols) ∧
      ∃ f, (FilterChain.empty.addAll (first :: eitherUnlessLeft)).fragment = some f ∧
        f.literals = [.int 1, .int 2] ∧
        ∀ value, Lexis.quotes.Reads .condition
          ((first :: eitherUnlessLeft).map Judged.operand) f.symbols value ↔ value = false := by
  intro first
  have groups : ∀ j ∈ first :: eitherUnlessLeft,
      Lexis.quotes.IsGroup j.condition.grouped.symbols := by
    simp only [Lexis.isGroup_quotes_iff]
    decide
  obtain ⟨f, text, literals, reads, -⟩ :=
    FilterChain.reads_left_to_right Lexis.quotes .empty first eitherUnlessLeft groups
  exact ⟨.empty, groups, f, text, literals.trans (by decide), reads⟩

end Sample

end RowGraph
