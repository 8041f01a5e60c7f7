import RowGraph.Value.Basic

/-!
# Fragments of SQL

A fragment is SQL text with its literals still attached. It holds no placeholder: literals stay
values and an embedded query stays nested until a whole statement is put together, so placeholders
are numbered once, at the end.

A fragment is a sequence of pieces. Neighbouring text is one piece and empty text none: `textThen`
keeps it so, and every operation that adds text goes through it.

Main statements: `append_assoc`, `empty_append`, and what an operation does to the literals
(`literals_append`), to the shown text (`render_append`) and to the count (`count_eq`).

Modelled: `Fragment` with `sql`, `param`, `sub_query` (`nested`), `call`, `infix` (`operation`),
`join`, `wrap`, `parenthesized`, `push_sql` (`textThen`), `append`, `values` (`literals`),
`param_count` (`count`), `is_empty` and the shown text (`render`).

Left out: `push_param` and `push_sub_query`, which are `append` of a single piece.
-/

namespace RowGraph

/-- SQL text, literals and embedded queries, in order. -/
inductive Fragment
  | empty
  | text (s : String) (rest : Fragment)
  | literal (v : Value) (rest : Fragment)
  | subQuery (inner rest : Fragment)
deriving DecidableEq, Inhabited

namespace Fragment

/-- Text in front of a fragment, one piece with the text it starts with. -/
def textThen (s : String) (f : Fragment) : Fragment :=
  if s.isEmpty then f
  else match f with
    | .text t rest => .text (s ++ t) rest
    | f => .text s f

/-- One fragment after the other. -/
def append : Fragment → Fragment → Fragment
  | .empty, g => g
  | .text s rest, g => textThen s (append rest g)
  | .literal v rest, g => .literal v (append rest g)
  | .subQuery inner rest, g => .subQuery inner (append rest g)

instance : Append Fragment := ⟨append⟩

/-- A fragment of text alone. -/
def sql (s : String) : Fragment := textThen s .empty

/-- A single literal. -/
def param (v : Value) : Fragment := .literal v .empty

/-- A single embedded query. -/
def nested (inner : Fragment) : Fragment := .subQuery inner .empty

/-- The fragments with a separator between each two of them. -/
def join (separator : String) : List Fragment → Fragment
  | [] => .empty
  | [f] => f
  | f :: rest => f ++ textThen separator (join separator rest)

/-- The fragment between two texts. -/
def wrap (before after : String) (f : Fragment) : Fragment :=
  textThen before (f ++ sql after)

/-- The fragment in parentheses. -/
def parenthesized (f : Fragment) : Fragment := f.wrap "(" ")"

/-- A function call. -/
def call (name : String) (args : List Fragment) : Fragment :=
  (join ", " args).wrap (name ++ "(") ")"

/-- Two operands with an operator between them, in parentheses. -/
def operation (left : Fragment) (op : String) (right : Fragment) : Fragment :=
  (left ++ textThen (" " ++ op ++ " ") right).parenthesized

/-- Whether there is no piece at all. -/
def isEmpty : Fragment → Bool
  | .empty => true
  | _ => false

/-- The literals in the order of the text, those of embedded queries in their place. -/
def literals : Fragment → List Value
  | .empty => []
  | .text _ rest => rest.literals
  | .literal v rest => v :: rest.literals
  | .subQuery inner rest => inner.literals ++ rest.literals

/-- How many literals there are, embedded queries included. -/
def count : Fragment → Nat
  | .empty => 0
  | .text _ rest => rest.count
  | .literal _ rest => rest.count + 1
  | .subQuery inner rest => inner.count + rest.count

/-- The text with a question mark for each literal. -/
def render : Fragment → String
  | .empty => ""
  | .text s rest => s ++ rest.render
  | .literal _ rest => "?" ++ rest.render
  | .subQuery inner rest => inner.render ++ rest.render

/-! ## Laws -/

@[simp] theorem textThen_empty (f : Fragment) : textThen "" f = f := by
  simp [textThen]

theorem textThen_append (s t : String) (f : Fragment) :
    textThen (s ++ t) f = textThen s (textThen t f) := by
  by_cases hs : s = ""
  · simp [hs]
  by_cases ht : t = ""
  · simp [ht]
  cases f <;> simp [textThen, hs, ht, String.append_assoc]

@[simp] theorem empty_append (f : Fragment) : Fragment.empty ++ f = f := rfl

theorem text_append (s : String) (f g : Fragment) : Fragment.text s f ++ g = textThen s (f ++ g) :=
  rfl

@[simp] theorem literal_append (v : Value) (f g : Fragment) :
    Fragment.literal v f ++ g = .literal v (f ++ g) := rfl

@[simp] theorem subQuery_append (i f g : Fragment) :
    Fragment.subQuery i f ++ g = .subQuery i (f ++ g) := rfl

@[simp] theorem textThen_append_left (s : String) (f g : Fragment) :
    textThen s f ++ g = textThen s (f ++ g) := by
  by_cases hs : s = ""
  · simp [hs]
  cases f with
  | text t rest =>
    have merged : textThen s (.text t rest) = .text (s ++ t) rest := by simp [textThen, hs]
    rw [merged, text_append, text_append, textThen_append]
  | _ => simp [textThen, hs, text_append]

/-- Joining fragments end to end is associative. -/
theorem append_assoc (f g h : Fragment) : f ++ g ++ h = f ++ (g ++ h) := by
  induction f with
  | empty => rfl
  | text s rest ih => rw [text_append, text_append, textThen_append_left, ih]
  | literal v rest ih => simp [ih]
  | subQuery i rest _ ih => simp [ih]

@[simp] theorem literals_textThen (s : String) (f : Fragment) :
    (textThen s f).literals = f.literals := by
  unfold textThen
  split
  · rfl
  · split <;> simp [literals]

/-- The literals of two fragments follow each other. -/
@[simp] theorem literals_append (f g : Fragment) :
    (f ++ g).literals = f.literals ++ g.literals := by
  induction f with
  | empty => rfl
  | text s rest ih => simp [text_append, literals, ih]
  | literal v rest ih => simp [literals, ih]
  | subQuery i rest _ ih => simp [literals, ih, List.append_assoc]

@[simp] theorem literals_sql (s : String) : (sql s).literals = [] := by
  simp [sql, literals]

@[simp] theorem literals_param (v : Value) : (param v).literals = [v] := rfl

@[simp] theorem literals_nested (f : Fragment) : (nested f).literals = f.literals := by
  simp [nested, literals]

@[simp] theorem literals_wrap (before after : String) (f : Fragment) :
    (f.wrap before after).literals = f.literals := by
  simp [wrap]

theorem literals_join (separator : String) (fs : List Fragment) :
    (join separator fs).literals = fs.flatMap literals := by
  induction fs with
  | nil => rfl
  | cons f rest ih => cases rest <;> simp_all [join]

/-- The count is the number of literals. -/
theorem count_eq (f : Fragment) : f.count = f.literals.length := by
  induction f <;> simp_all [count, literals]

@[simp] theorem render_textThen (s : String) (f : Fragment) :
    (textThen s f).render = s ++ f.render := by
  unfold textThen
  split
  · next h => simp [String.isEmpty_iff.1 h]
  · split <;> simp [render, String.append_assoc]

/-- The shown texts of two fragments follow each other. -/
@[simp] theorem render_append (f g : Fragment) : (f ++ g).render = f.render ++ g.render := by
  induction f with
  | empty => simp [render]
  | text s rest ih => simp [text_append, render, ih, String.append_assoc]
  | literal v rest ih => simp [render, ih, String.append_assoc]
  | subQuery i rest _ ih => simp [render, ih, String.append_assoc]

end Fragment

end RowGraph
