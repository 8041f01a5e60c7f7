import RowGraph.Fragment.Basic
import RowGraph.Text.DecimalDigit

/-!
# Tokens in SQL written by hand

A predicate written by hand refers to its parameters by tokens, names in braces. Tokens are found
from left to right and do not overlap; braces that hold no name stay as they are.

Main statements: `text_pieces` (nothing of the text is lost) and `literals_fill`.

Modelled: how `positional_fragment` and `named_fragment` find the tokens of a text and put fragments
in their place (`pieces`, `fill`).
-/

namespace RowGraph.RawText

/-- A character of a text, or a token with this name. -/
inductive Piece
  | char (c : Char)
  | token (name : List Char)
deriving DecidableEq, Repr

/-- What names are made of. -/
structure Alphabet where
  first : Char → Bool
  other : Char → Bool

/-- Names that are numbers. -/
def numbers : Alphabet := ⟨Text.isDecimalDigit, Text.isDecimalDigit⟩

/-- Names of ASCII letters, digits and underscores that do not start with a digit. -/
def identifiers : Alphabet := ⟨fun c => c.isAlpha || c = '_', fun c => c.isAlphanum || c = '_'⟩

/-- The token that the text starts with, and what follows it. -/
def token? (a : Alphabet) : List Char → Option (List Char × List Char)
  | '\x7b' :: c :: rest =>
    if a.first c then
      match rest.dropWhile a.other with
      | '\x7d' :: after => some (c :: rest.takeWhile a.other, after)
      | _ => none
    else none
  | _ => none

/-- The characters of a token. -/
def braced (name : List Char) : List Char := '\x7b' :: name ++ ['\x7d']

theorem braced_append_of_token? {a : Alphabet} {cs name after : List Char}
    (h : token? a cs = some (name, after)) : braced name ++ after = cs := by
  unfold token? at h
  split at h
  · next c rest =>
    split at h
    · split at h
      · next closing hd =>
        cases h
        simp [braced, ← hd]
      · cases h
    · cases h
  · cases h

theorem length_lt_of_token? {a : Alphabet} {cs name after : List Char}
    (h : token? a cs = some (name, after)) : after.length < cs.length := by
  rw [← braced_append_of_token? h]
  simp [braced]
  omega

/-- The pieces of a text. -/
def pieces (a : Alphabet) (cs : List Char) : List Piece :=
  match h : token? a cs with
  | some (name, after) =>
    have := length_lt_of_token? h
    .token name :: pieces a after
  | none =>
    match cs with
    | [] => []
    | c :: rest => .char c :: pieces a rest
termination_by cs.length

/-- The characters of a piece. -/
def Piece.text : Piece → List Char
  | .char c => [c]
  | .token name => braced name

/-- The name of a piece that is a token. -/
def Piece.name? : Piece → Option (List Char)
  | .char _ => none
  | .token name => some name

/-- The fragment with a literal for each token. -/
def fill {ε : Type} (value : String → Except ε Value) : List Piece → Except ε Fragment
  | [] => .ok .empty
  | .char c :: rest => do return .textThen (String.singleton c) (← fill value rest)
  | .token name :: rest => do
    let v ← value (.ofList name)
    return .literal v (← fill value rest)

/-- The pieces of a text make up the text. -/
theorem text_pieces (a : Alphabet) (cs : List Char) : (pieces a cs).flatMap Piece.text = cs := by
  induction cs using pieces.induct a with
  | case1 cs name after h _ ih =>
    rw [pieces]
    split
    · next h' =>
      rw [h] at h'
      cases h'
      simp [Piece.text, ih, braced_append_of_token? h]
    · next h' => simp [h] at h'
  | case2 h => rw [pieces]; simp [token?]
  | case3 c rest h ih =>
    rw [pieces]
    split
    · next h' => simp [h] at h'
    · simp [Piece.text, ih]

/-- The literals of a filled text are the values of its tokens in order. -/
theorem literals_fill {ε : Type} {value : String → Except ε Value} {ps : List Piece}
    {f : Fragment} (h : fill value ps = .ok f) :
    (ps.filterMap Piece.name?).mapM (fun name => value (.ofList name)) = .ok f.literals := by
  induction ps generalizing f with
  | nil => cases h; rfl
  | cons p rest ih =>
    cases p with
    | char c =>
      simp only [fill, bind, Except.bind] at h
      split at h
      · cases h
      · next g hg =>
        cases h
        simpa [List.filterMap_cons, Piece.name?] using ih hg
    | token name =>
      simp only [fill, bind, Except.bind] at h
      split at h
      · cases h
      · next v hv =>
        split at h
        · cases h
        · next g hg =>
          cases h
          simp [Piece.name?, hv, ih hg, bind, Except.bind, pure, Except.pure,
            Fragment.literals]

end RowGraph.RawText
