import RowGraph.Expr
import RowGraph.Proofs.Quoting

/-!
# Operator trees and how they are written

A tree of operators is written with parentheses around every operation, names in quotes and literals
left as they are. What is written begins with signs that say which construct it is, and every part
ends where its reader stops, so the signs determine the tree: no rule of precedence is needed to
read them back. A name may contain any characters, also those of operators and parentheses.

Results:
* `path_inj`: quoted names with dots between them are read back.
* `construct_print`: the first signs tell the construct.
* **`print_inj`**: what begins with a written tree says which tree it is, and what follows.
-/

namespace RowGraph

/-! ## Signs -/

/-- What a fragment is read as: characters, literals with their values, and embedded queries. -/
inductive Sign
  | char (c : Char)
  | value (v : Value)
  | query (inner : Fragment)
deriving DecidableEq

/-- The signs of a text. -/
def signsOf (s : String) : List Sign := s.toList.map .char

@[simp] theorem signsOf_append (s t : String) : signsOf (s ++ t) = signsOf s ++ signsOf t := by
  simp [signsOf]

theorem signsOf_inj {s t : String} (h : signsOf s = signsOf t) : s = t :=
  String.toList_inj.mp ((List.map_inj_right fun _ _ => Sign.char.inj).mp h)

namespace Fragment

/-- The signs of a fragment. -/
def signs : Fragment → List Sign
  | .empty => []
  | .text s rest => signsOf s ++ rest.signs
  | .literal v rest => .value v :: rest.signs
  | .subQuery inner rest => .query inner :: rest.signs

@[simp] theorem signs_textThen (s : String) (f : Fragment) :
    (textThen s f).signs = signsOf s ++ f.signs := by
  unfold textThen
  split
  · next h => simp [String.isEmpty_iff.mp h, signsOf]
  · cases f <;> simp [signs]

@[simp] theorem signs_append (f g : Fragment) : (f ++ g).signs = f.signs ++ g.signs := by
  induction f with
  | empty => rfl
  | text s rest ih => simp [text_append, signs, ih]
  | literal v rest ih => simp [signs, ih]
  | subQuery inner rest _ ih => simp [signs, ih]

@[simp] theorem signs_sql (s : String) : (sql s).signs = signsOf s := by simp [sql, signs]

@[simp] theorem signs_param (v : Value) : (param v).signs = [.value v] := rfl

@[simp] theorem signs_wrap (before after : String) (f : Fragment) :
    (f.wrap before after).signs = signsOf before ++ f.signs ++ signsOf after := by
  simp [wrap]

end Fragment

/-! ## Quoted names with dots between them -/

namespace Dialect

variable (d : Dialect)

/-- The signs of a name in quotes. -/
theorem signsOf_quoteName (name : String) :
    signsOf (d.quoteName name) =
      .char d.openingQuote ::
        ((Text.doubled d.closingQuote name.toList).map .char ++ [.char d.closingQuote]) := by
  simp [signsOf, quoteName, Text.enclosed]

/-- Further names in quotes, each one behind a dot. -/
def dotted (names : List String) : List Sign :=
  names.flatMap fun name => .char '.' :: signsOf (d.quoteName name)

/-- Names in quotes with dots between them. -/
def path (name : String) (others : List String) : List Sign :=
  signsOf (d.quoteName name) ++ d.dotted others

/-- Whether a name can end here: there is neither a dot nor another closing quote. -/
def Ends (rest : List Sign) : Prop :=
  rest.head? ≠ some (.char '.') ∧ rest.head? ≠ some (.char d.closingQuote)

theorem ends_nil : d.Ends [] := by simp [Ends]

theorem head?_dotted_append {names : List String} {rest : List Sign} (h : d.Ends rest) :
    (d.dotted names ++ rest).head? ≠ some (.char d.closingQuote) := by
  cases names with
  | nil => exact h.2
  | cons name names => cases d <;> simp [dotted, closingQuote]

variable {d}

/-- What begins with a quoted name says which name it is. -/
theorem quoteName_inj {m n : String} {r s : List Sign}
    (hr : r.head? ≠ some (.char d.closingQuote)) (hs : s.head? ≠ some (.char d.closingQuote))
    (h : signsOf (d.quoteName m) ++ r = signsOf (d.quoteName n) ++ s) : m = n ∧ r = s := by
  rw [signsOf_quoteName, signsOf_quoteName] at h
  simp only [List.cons_append, List.append_assoc, List.nil_append, List.cons.injEq, true_and] at h
  obtain ⟨names, rests⟩ := Text.doubled_inj (fun _ _ => Sign.char.inj) hr hs h
  exact ⟨String.toList_inj.mp names, rests⟩

theorem dotted_inj {ms ns : List String} {r s : List Sign} (hr : d.Ends r) (hs : d.Ends s)
    (h : d.dotted ms ++ r = d.dotted ns ++ s) : ms = ns ∧ r = s := by
  induction ms generalizing ns with
  | nil =>
    cases ns with
    | nil => exact ⟨rfl, h⟩
    | cons n ns => exact absurd (congrArg List.head? h) hr.1
  | cons m ms ih =>
    cases ns with
    | nil => exact absurd (congrArg List.head? h.symm) hs.1
    | cons n ns =>
      simp only [dotted, List.flatMap_cons, List.cons_append, List.append_assoc,
        List.cons.injEq, true_and] at h
      obtain ⟨rfl, others⟩ := quoteName_inj (d.head?_dotted_append hr)
        (d.head?_dotted_append hs) h
      obtain ⟨rfl, rests⟩ := ih others
      exact ⟨rfl, rests⟩

/-- What begins with a path says which path it is. -/
theorem path_inj {m n : String} {ms ns : List String} {r s : List Sign} (hr : d.Ends r)
    (hs : d.Ends s) (h : d.path m ms ++ r = d.path n ns ++ s) :
    (m = n ∧ ms = ns) ∧ r = s := by
  simp only [path, List.append_assoc] at h
  obtain ⟨rfl, others⟩ := quoteName_inj (d.head?_dotted_append hr) (d.head?_dotted_append hs) h
  obtain ⟨rfl, rests⟩ := dotted_inj hr hs others
  exact ⟨⟨rfl, rfl⟩, rests⟩

end Dialect

/-- Two texts that end at the first sign of one kind. -/
theorem append_cons_inj {x : Sign} {a b r s : List Sign} (ha : x ∉ a) (hb : x ∉ b)
    (h : a ++ x :: r = b ++ x :: s) : a = b ∧ r = s := by
  induction a generalizing b with
  | nil =>
    cases b with
    | nil => simpa using h
    | cons y b => exact absurd (List.mem_cons.mpr (.inl (List.cons.inj h).1)) hb
  | cons y a ih =>
    cases b with
    | nil => exact absurd (List.mem_cons.mpr (.inl (List.cons.inj h).1.symm)) ha
    | cons z b =>
      simp only [List.cons_append, List.cons.injEq, List.mem_cons, not_or] at h ha hb
      obtain ⟨rfl, rests⟩ := ih ha.2 hb.2 h.2
      exact ⟨by rw [h.1], rests⟩

/-! ## Trees -/

/-- An operator with two operands. -/
inductive Operator
  | compare (op : Comparison)
  | connect (op : Connective)
  | compute (op : Arithmetic)
deriving DecidableEq

/-- A word that stands for a truth value: a condition that always or never holds, or the number that
columns hold for true. -/
inductive Word
  | always
  | never
  | one
deriving DecidableEq

/-- A tree of operators over names, words and literals. -/
inductive Tree
  | name (first : String) (others : List String)
  | word (w : Word)
  | value (v : Value)
  | not (a : Tree)
  | negate (a : Tree)
  | operation (op : Operator) (left right : Tree)

namespace Operator

/-- The operator between its operands. -/
def text : Operator → String
  | .compare op => op.operator
  | .connect op => op.operator
  | .compute op => op.operator

/-- The operators. -/
def all : List Operator :=
  [.compare .eq, .compare .ne, .compare .lt, .compare .le, .compare .gt, .compare .ge,
    .connect .and, .connect .or, .compute .add, .compute .sub, .compute .mul, .compute .div,
    .compute .mod]

theorem find?_text (op : Operator) : all.find? (·.text == op.text) = some op := by
  rcases op with op | op | op <;> cases op <;> rfl

/-- No two operators are written in the same way. -/
theorem text_inj {a b : Operator} (h : a.text = b.text) : a = b := by
  have found := a.find?_text
  rw [h, find?_text] at found
  exact (Option.some.inj found).symm

theorem not_mem_text (op : Operator) : ' ' ∉ op.text.toList := by
  rcases op with op | op | op <;> cases op <;> decide

/-- What stands before the operands: one dialect has a function for the remainder. -/
def before (d : Dialect) (op : Operator) : String :=
  if d = .oracle ∧ op = .compute .mod then "MOD(" else "("

/-- What stands between the operands. -/
def between (d : Dialect) (op : Operator) : String :=
  if d = .oracle ∧ op = .compute .mod then ", " else " " ++ op.text ++ " "

theorem before_cases (d : Dialect) (op : Operator) :
    op.before d = "(" ∨ op.before d = "MOD(" := by
  unfold before
  split
  · exact .inr rfl
  · exact .inl rfl

theorem before_eq_mod_iff {d : Dialect} {op : Operator} :
    op.before d = "MOD(" ↔ d = .oracle ∧ op = .compute .mod := by
  unfold before
  split
  · next mod => simp [mod]
  · next mod => simp [mod]

theorem signsOf_between {d : Dialect} {op : Operator} (h : ¬ (d = .oracle ∧ op = .compute .mod)) :
    signsOf (op.between d) = .char ' ' :: (signsOf op.text ++ [.char ' ']) := by
  simp [between, h, signsOf]

end Operator

/-- The text of a word. -/
def Word.text (d : Dialect) : Word → String
  | .always => d.trueLiteral
  | .never => d.falseLiteral
  | .one => "1"

namespace Tree

/-- How a tree is written. -/
def print (d : Dialect) : Tree → List Sign
  | .name first others => d.path first others
  | .word w => signsOf (w.text d)
  | .value v => [.value v]
  | .not a => signsOf "(NOT " ++ a.print d ++ signsOf ")"
  | .negate a => signsOf "(-" ++ a.print d ++ signsOf ")"
  | .operation op left right =>
    signsOf (op.before d) ++ left.print d ++ signsOf (op.between d) ++ right.print d ++ signsOf ")"

/-- The constructs of trees. -/
inductive Construct
  | name
  | word
  | value
  | not
  | negate
  | operation
deriving DecidableEq

/-- The construct at the top. -/
def construct : Tree → Construct
  | .name _ _ => .name
  | .word _ => .word
  | .value _ => .value
  | .not _ => .not
  | .negate _ => .negate
  | .operation _ _ _ => .operation

/-- The construct of a group, from what follows its parenthesis. -/
def constructInside : List Sign → Construct
  | .char 'N' :: _ => .not
  | .char '-' :: _ => .negate
  | .char '1' :: .char '=' :: _ => .word
  | _ => .operation

/-- The construct that signs begin with. -/
def constructOf (d : Dialect) : List Sign → Construct
  | .char c :: rest =>
    if c = d.openingQuote then .name
    else if c = '(' then constructInside rest
    else if c = 'M' then .operation
    else .word
  | _ => .value

/-- An operand does not begin like what follows the parenthesis of another construct. -/
theorem constructInside_print (d : Dialect) (a : Tree) (rest : List Sign) :
    constructInside (a.print d ++ .char ' ' :: rest) = .operation := by
  cases a with
  | name first others =>
    rw [print, Dialect.path, Dialect.signsOf_quoteName]
    cases d <;> simp [constructInside, Dialect.openingQuote]
  | word w =>
    cases d <;> cases w <;>
      simp [print, Word.text, Dialect.trueLiteral, Dialect.falseLiteral, signsOf, constructInside]
  | value v => simp [print, constructInside]
  | not a => simp [print, signsOf, constructInside]
  | negate a => simp [print, signsOf, constructInside]
  | operation op left right =>
    rcases op.before_cases d with opening | opening
    · simp [print, opening, signsOf, constructInside]
    · simp [print, opening, signsOf, constructInside]

/-- The first signs tell the construct. -/
theorem construct_print (d : Dialect) (a : Tree) (rest : List Sign) :
    constructOf d (a.print d ++ rest) = a.construct := by
  cases a with
  | name first others =>
    simp [print, Dialect.path, Dialect.signsOf_quoteName, constructOf, construct]
  | word w =>
    cases d <;> cases w <;>
      simp [print, Word.text, Dialect.trueLiteral, Dialect.falseLiteral, signsOf, constructOf,
        constructInside, Dialect.openingQuote, construct]
  | value v => rfl
  | not a =>
    cases d <;> simp [print, signsOf, constructOf, constructInside, Dialect.openingQuote, construct]
  | negate a =>
    cases d <;> simp [print, signsOf, constructOf, constructInside, Dialect.openingQuote, construct]
  | operation op left right =>
    by_cases mod : d = .oracle ∧ op = .compute .mod
    · obtain ⟨rfl, rfl⟩ := mod
      simp [print, Operator.before, signsOf, constructOf, Dialect.openingQuote, construct]
    · have opening : signsOf (op.before d) = [.char '('] := by simp [Operator.before, mod, signsOf]
      have other : '(' ≠ d.openingQuote := by cases d <;> decide
      rw [print, opening, op.signsOf_between mod]
      simp only [List.cons_append, List.append_assoc, List.nil_append, constructOf, other, if_false,
        if_true]
      exact constructInside_print d left _

theorem construct_eq {d : Dialect} {a b : Tree} {r s : List Sign}
    (h : a.print d ++ r = b.print d ++ s) : a.construct = b.construct := by
  rw [← construct_print d a r, h, construct_print]

/-- No word begins with another one. -/
theorem word_inj {d : Dialect} {v w : Word} {r s : List Sign}
    (h : signsOf (v.text d) ++ r = signsOf (w.text d) ++ s) : v = w ∧ r = s := by
  cases d <;> cases v <;> cases w <;>
    simp_all [Word.text, Dialect.trueLiteral, Dialect.falseLiteral, signsOf]

/-- What stands between the operands says which operator it is. -/
theorem between_inj {d : Dialect} {op op' : Operator} {r s : List Sign}
    (hb : op.before d = op'.before d)
    (h : signsOf (op.between d) ++ r = signsOf (op'.between d) ++ s) : op = op' ∧ r = s := by
  by_cases mod : d = .oracle ∧ op = .compute .mod
  · have mod' := Operator.before_eq_mod_iff.mp (hb.symm.trans (Operator.before_eq_mod_iff.mpr mod))
    obtain rfl : op = op' := mod.2.trans mod'.2.symm
    exact ⟨rfl, List.append_cancel_left h⟩
  · have mod' : ¬ (d = .oracle ∧ op' = .compute .mod) := fun mod' =>
      mod (Operator.before_eq_mod_iff.mp (hb.trans (Operator.before_eq_mod_iff.mpr mod')))
    rw [op.signsOf_between mod, op'.signsOf_between mod'] at h
    simp only [List.cons_append, List.append_assoc, List.nil_append, List.cons.injEq, true_and] at h
    have blank : ∀ o : Operator, Sign.char ' ' ∉ signsOf o.text := fun o mem => by
      obtain ⟨c, hc, same⟩ := List.mem_map.mp mem
      cases same
      exact o.not_mem_text hc
    obtain ⟨texts, rests⟩ := append_cons_inj (blank op) (blank op') h
    exact ⟨Operator.text_inj (signsOf_inj texts), rests⟩

theorem before_inj {d : Dialect} {op op' : Operator} {r s : List Sign}
    (h : signsOf (op.before d) ++ r = signsOf (op'.before d) ++ s) :
    op.before d = op'.before d ∧ r = s := by
  rcases op.before_cases d with hb | hb <;> rcases op'.before_cases d with hb' | hb' <;>
    simp_all [signsOf]

/-- A name can end where an operation goes on behind its operands. -/
theorem ends_between (d : Dialect) (op : Operator) (rest : List Sign) :
    d.Ends (signsOf (op.between d) ++ rest) := by
  unfold Operator.between
  split
  · cases d <;> simp [signsOf, Dialect.Ends, Dialect.closingQuote]
  · cases d <;> simp [signsOf, Dialect.Ends, Dialect.closingQuote]

theorem ends_closing (d : Dialect) (rest : List Sign) : d.Ends (signsOf ")" ++ rest) := by
  cases d <;> simp [signsOf, Dialect.Ends, Dialect.closingQuote]

/-- **A tree is read back from its signs**, whatever follows them that no name can go on with. -/
theorem print_inj {d : Dialect} {a b : Tree} {r s : List Sign} (hr : d.Ends r) (hs : d.Ends s)
    (h : a.print d ++ r = b.print d ++ s) : a = b ∧ r = s := by
  induction a generalizing b r s with
  | name first others =>
    cases b with
    | name first' others' =>
      obtain ⟨⟨rfl, rfl⟩, rests⟩ := Dialect.path_inj hr hs h
      exact ⟨rfl, rests⟩
    | _ => cases construct_eq h
  | word w =>
    cases b with
    | word w' =>
      obtain ⟨rfl, rests⟩ := word_inj h
      exact ⟨rfl, rests⟩
    | _ => cases construct_eq h
  | value v =>
    cases b with
    | value v' =>
      simp only [print, List.cons_append, List.nil_append, List.cons.injEq, Sign.value.injEq] at h
      obtain ⟨rfl, rests⟩ := h
      exact ⟨rfl, rests⟩
    | _ => cases construct_eq h
  | not a ih =>
    cases b with
    | not a' =>
      simp only [print, List.append_assoc, List.append_cancel_left_eq] at h
      obtain ⟨rfl, rests⟩ := ih (ends_closing d r) (ends_closing d s) h
      exact ⟨rfl, List.append_cancel_left rests⟩
    | _ => cases construct_eq h
  | negate a ih =>
    cases b with
    | negate a' =>
      simp only [print, List.append_assoc, List.append_cancel_left_eq] at h
      obtain ⟨rfl, rests⟩ := ih (ends_closing d r) (ends_closing d s) h
      exact ⟨rfl, List.append_cancel_left rests⟩
    | _ => cases construct_eq h
  | operation op left right ihl ihr =>
    cases b with
    | operation op' left' right' =>
      simp only [print, List.append_assoc] at h
      obtain ⟨hb, operands⟩ := before_inj h
      obtain ⟨rfl, onward⟩ := ihl (ends_between d op _) (ends_between d op' _) operands
      obtain ⟨rfl, last⟩ := between_inj hb onward
      obtain ⟨rfl, rests⟩ := ihr (ends_closing d r) (ends_closing d s) last
      exact ⟨rfl, List.append_cancel_left rests⟩
    | _ => cases construct_eq h

/-! ## Fragments that are written trees -/

variable {d : Dialect} {f g : Fragment} {a b : Tree}

/-- An operation is written as its tree, if its operands are. -/
theorem signs_operation (op : Operator) (h : op ≠ .compute .mod) (hf : f.signs = a.print d)
    (hg : g.signs = b.print d) :
    (Fragment.operation f op.text g).signs = (operation op a b).print d := by
  simp [Fragment.operation, Fragment.parenthesized, print, Operator.before, Operator.between, h,
    hf, hg]

/-- The remainder is a function in one dialect, and an operation in all others. -/
theorem signs_modulo (hf : f.signs = a.print d) (hg : g.signs = b.print d) :
    (d.modulo f g).signs = (operation (.compute .mod) a b).print d := by
  cases d <;>
    simp [Dialect.modulo, Fragment.call, Fragment.join, Fragment.operation, Fragment.parenthesized,
      print, Operator.before, Operator.between, Operator.text, Arithmetic.operator, hf, hg]

end Tree

end RowGraph
