import RowGraph.Fragment.Basic

/-!
# The normal form of fragments

A fragment that the operations build holds no empty text and no two texts side by side, at any
depth (`IsNormal`), and every such fragment can be built. The operations keep it so because text is
merged where two fragments meet and nowhere else; `Part.push` is that one seam, a piece put behind
the pieces that are there, and appending is pushing the pieces of the second fragment one by one
(`parts_append`).

With it a fragment is what it reads as. Of two texts that are cut up in different ways only one is
in normal form, so two fragments are the same when the same characters, literals and queries follow
each other in them (`Flat`). That holds for equality and also for the equality of the program, which
compares literals as values and under which not-a-number is not itself.

The empty fragment is neutral on the right for fragments in normal form only: appending drops the
empty texts of the first fragment, which no built fragment has.

Main statements: `built_iff`, `parts_append`, `sameBy_eq` and `fragments_in_normal_form`.
-/

namespace RowGraph

/-- The fragment as a sequence: a character, a literal or a query that is embedded. -/
inductive Flat
  | nil
  | char (c : Char) (rest : Flat)
  | literal (v : Value) (rest : Flat)
  | subQuery (inner rest : Flat)
deriving DecidableEq

namespace Flat

/-- Characters in front of a sequence. -/
def chars (cs : List Char) (f : Flat) : Flat := cs.foldr .char f

/-- One sequence after the other. -/
def append : Flat → Flat → Flat
  | .nil, g => g
  | .char c rest, g => .char c (append rest g)
  | .literal v rest, g => .literal v (append rest g)
  | .subQuery inner rest, g => .subQuery inner (append rest g)

instance : Append Flat := ⟨append⟩

/-- The two sequences agree item by item, literals compared by `eq`. -/
def sameBy (eq : Value → Value → Bool) : Flat → Flat → Bool
  | .nil, .nil => true
  | .char c f, .char d g => c == d && sameBy eq f g
  | .literal v f, .literal w g => eq v w && sameBy eq f g
  | .subQuery i f, .subQuery j g => sameBy eq i j && sameBy eq f g
  | _, _ => false

/-- Whether the next item is a character. -/
def startsWithChar : Flat → Bool
  | .char _ _ => true
  | _ => false

variable {eq : Value → Value → Bool} {f g : Flat}

@[simp] theorem nil_append (g : Flat) : nil ++ g = g := rfl

@[simp] theorem chars_append (cs : List Char) (f g : Flat) :
    chars cs f ++ g = chars cs (f ++ g) := by
  induction cs with
  | nil => rfl
  | cons c cs ih => exact congrArg (char c) ih

theorem chars_chars (cs ds : List Char) (f : Flat) : chars cs (chars ds f) = chars (cs ++ ds) f :=
  List.foldr_append.symm

/-- Characters in front are compared first, where what follows does not begin with one. -/
theorem sameBy_chars (hf : f.startsWithChar = false) (hg : g.startsWithChar = false)
    (cs ds : List Char) :
    (chars cs f).sameBy eq (chars ds g) = (cs == ds && f.sameBy eq g) := by
  induction cs generalizing ds with
  | nil =>
    cases ds with
    | nil => simp [chars]
    | cons d ds => cases f <;> simp_all [chars, sameBy, startsWithChar]
  | cons c cs ih =>
    cases ds with
    | nil => cases g <;> simp_all [chars, sameBy, startsWithChar]
    | cons d ds =>
      have := ih ds
      simp_all [chars, sameBy, Bool.and_assoc]

/-- Characters and something that is none are never the same. -/
theorem sameBy_chars_left {cs : List Char} (hcs : cs ≠ []) (hg : g.startsWithChar = false) :
    (chars cs f).sameBy eq g = false := by
  cases cs with
  | nil => exact absurd rfl hcs
  | cons c cs => cases g <;> simp_all [chars, sameBy, startsWithChar]

theorem sameBy_chars_right {ds : List Char} (hds : ds ≠ []) (hf : f.startsWithChar = false) :
    f.sameBy eq (chars ds g) = false := by
  cases ds with
  | nil => exact absurd rfl hds
  | cons d ds => cases f <;> simp_all [chars, sameBy, startsWithChar]

theorem sameBy_beq : f.sameBy (· == ·) g = true ↔ f = g := by
  induction f generalizing g <;> cases g <;> simp_all [sameBy]

end Flat

namespace Fragment

/-- A piece of a fragment. -/
inductive Part
  | sql (s : String)
  | param (v : Value)
  | subQuery (inner : Fragment)
deriving DecidableEq

/-- A piece put behind those that are there. Text is put to the text at the end, if there is one,
and empty text is not put at all. -/
def Part.push (parts : List Part) : Part → List Part
  | .sql t =>
    if t.isEmpty then parts
    else match parts.getLast? with
      | some (.sql s) => parts.dropLast ++ [.sql (s ++ t)]
      | _ => parts ++ [.sql t]
  | p => parts ++ [p]

/-- The pieces in order. -/
def parts : Fragment → List Part
  | .empty => []
  | .text s rest => .sql s :: rest.parts
  | .literal v rest => .param v :: rest.parts
  | .subQuery inner rest => .subQuery inner :: rest.parts

/-- Whether the first piece is text. -/
def startsWithText : Fragment → Bool
  | .text _ _ => true
  | _ => false

/-- No text is empty and none follows another, in the fragment and in the queries embedded in it. -/
def IsNormal : Fragment → Prop
  | .empty => True
  | .text s rest => s ≠ "" ∧ rest.startsWithText = false ∧ rest.IsNormal
  | .literal _ rest => rest.IsNormal
  | .subQuery inner rest => inner.IsNormal ∧ rest.IsNormal

/-- The fragments that the operations build. A piece pushed to the end is one of the first three
appended. -/
inductive Built : Fragment → Prop
  | empty : Built .empty
  | sql (s : String) : Built (sql s)
  | param (v : Value) : Built (param v)
  | nested {inner : Fragment} (h : Built inner) : Built (nested inner)
  | append {f g : Fragment} (hf : Built f) (hg : Built g) : Built (f ++ g)
  | join (separator : String) {fs : List Fragment} (h : ∀ f ∈ fs, Built f) :
    Built (join separator fs)
  | wrap (before after : String) {f : Fragment} (h : Built f) : Built (f.wrap before after)
  | call (name : String) {args : List Fragment} (h : ∀ f ∈ args, Built f) : Built (call name args)
  | operation (op : String) {left right : Fragment} (hl : Built left) (hr : Built right) :
    Built (operation left op right)

/-- The fragment item by item. -/
def flat : Fragment → Flat
  | .empty => .nil
  | .text s rest => .chars s.toList rest.flat
  | .literal v rest => .literal v rest.flat
  | .subQuery inner rest => .subQuery inner.flat rest.flat

/-- The fragments agree piece by piece, literals compared by `eq`. -/
def sameBy (eq : Value → Value → Bool) : Fragment → Fragment → Bool
  | .empty, .empty => true
  | .text s f, .text t g => s == t && sameBy eq f g
  | .literal v f, .literal w g => eq v w && sameBy eq f g
  | .subQuery i f, .subQuery j g => sameBy eq i j && sameBy eq f g
  | _, _ => false

variable {eq : Value → Value → Bool} {f g h : Fragment} {s : String}

/-! ### The operations keep the normal form -/

theorem textThen_of_startsWithText (hs : s ≠ "") (h : f.startsWithText = false) :
    textThen s f = .text s f := by
  cases f <;> simp_all [textThen, startsWithText]

theorem IsNormal.textThen (hf : f.IsNormal) (s : String) : (textThen s f).IsNormal := by
  by_cases hs : s = ""
  · rwa [hs, textThen_empty]
  cases h : f.startsWithText with
  | false => exact textThen_of_startsWithText hs h ▸ ⟨hs, h, hf⟩
  | true => cases f <;> simp_all [Fragment.textThen, startsWithText, IsNormal]

theorem IsNormal.append (hf : f.IsNormal) (hg : g.IsNormal) : (f ++ g).IsNormal := by
  induction f with
  | empty => exact hg
  | text s rest ih => exact (ih hf.2.2).textThen s
  | literal v rest ih => exact ih hf
  | subQuery inner rest _ ih => exact ⟨hf.1, ih hf.2⟩

theorem isNormal_sql (s : String) : (sql s).IsNormal := IsNormal.textThen (f := .empty) trivial s

theorem isNormal_join (separator : String) {fs : List Fragment} (h : ∀ f ∈ fs, f.IsNormal) :
    (join separator fs).IsNormal := by
  induction fs with
  | nil => trivial
  | cons f rest ih =>
    rw [List.forall_mem_cons] at h
    cases rest with
    | nil => exact h.1
    | cons g rest => exact h.1.append ((ih h.2).textThen separator)

theorem IsNormal.wrap (hf : f.IsNormal) (before after : String) : (f.wrap before after).IsNormal :=
  (hf.append (isNormal_sql after)).textThen before

theorem Built.isNormal (h : Built f) : f.IsNormal := by
  induction h with
  | empty => trivial
  | sql s => exact isNormal_sql s
  | param v => trivial
  | nested _ ih => exact ⟨ih, trivial⟩
  | append _ _ hf hg => exact hf.append hg
  | join separator _ ih => exact isNormal_join separator ih
  | wrap before after _ ih => exact ih.wrap before after
  | call name _ ih => exact (isNormal_join ", " ih).wrap _ _
  | operation op _ _ hl hr => exact (hl.append (hr.textThen (" " ++ op ++ " "))).wrap "(" ")"

theorem sql_append (s : String) (f : Fragment) : sql s ++ f = textThen s f := by
  rw [sql, textThen_append_left, empty_append]

/-- Text at the beginning was put there. -/
theorem IsNormal.text_eq_append {rest : Fragment} (h : (text s rest).IsNormal) :
    text s rest = sql s ++ rest := by
  rw [sql_append, textThen_of_startsWithText h.1 h.2.1]

theorem IsNormal.built (h : f.IsNormal) : Built f := by
  induction f with
  | empty => exact .empty
  | text s rest ih => exact h.text_eq_append ▸ .append (.sql s) (ih h.2.2)
  | literal v rest ih => exact .append (.param v) (ih h)
  | subQuery inner rest ihi ih => exact .append (.nested (ihi h.1)) (ih h.2)

/-- What can be built is what is in normal form. -/
theorem built_iff : Built f ↔ f.IsNormal := ⟨Built.isNormal, IsNormal.built⟩

/-! ### The laws -/

/-- Nothing is neutral behind a fragment in normal form. -/
theorem IsNormal.append_empty (h : f.IsNormal) : f ++ .empty = f := by
  induction f with
  | empty => rfl
  | text s rest ih => rw [text_append, ih h.2.2, textThen_of_startsWithText h.1 h.2.1]
  | literal v rest ih => rw [literal_append, ih h]
  | subQuery inner rest _ ih => rw [subQuery_append, ih h.2]

/-- Joining is appending one fragment after the other, each behind a separator. -/
theorem join_eq_foldl (separator : String) (f : Fragment) (fs : List Fragment) :
    join separator (f :: fs) = fs.foldl (fun out g => out ++ sql separator ++ g) f := by
  induction fs generalizing f with
  | nil => rfl
  | cons g fs ih =>
    calc join separator (f :: g :: fs)
        = f ++ sql separator ++ join separator (g :: fs) := by
          rw [append_assoc, sql_append]; rfl
      _ = join separator ((f ++ sql separator ++ g) :: fs) := by
          cases fs with
          | nil => rfl
          | cons h fs => exact (append_assoc _ g _).symm
      _ = _ := ih _

/-- A push reaches the last piece alone, so the first stays where it is unless it is text and the
last. -/
theorem Part.push_cons {parts : List Part} (first p : Part) (h : ∀ s, first = .sql s → parts ≠ []) :
    push (first :: parts) p = first :: push parts p := by
  cases p with
  | sql t =>
    cases parts with
    | nil =>
      by_cases ht : t = ""
      · simp [push, ht]
      · cases first <;> simp_all [push]
    | cons q qs =>
      simp only [push, List.getLast?_cons_cons, List.dropLast_cons_cons]
      split
      · rfl
      · split <;> rfl
  | _ => rfl

/-- Text pushed to the end of a fragment. -/
theorem parts_append_sql (hf : f.IsNormal) (t : String) :
    (f ++ sql t).parts = Part.push f.parts (.sql t) := by
  by_cases ht : t = ""
  · rw [ht, sql, textThen_empty, hf.append_empty]; rfl
  have hsql : sql t = .text t .empty := textThen_of_startsWithText ht rfl
  rw [hsql]
  induction f with
  | empty => simp [parts, Part.push, ht]
  | text s rest ih =>
    by_cases hempty : rest = .empty
    · subst hempty
      simp [text_append, textThen, parts, Part.push, hf.1, ht]
    · have hstart : (rest ++ .text t .empty).startsWithText = false := by
        cases rest <;> simp_all [startsWithText, IsNormal]
      have hparts : rest.parts ≠ [] := by cases rest <;> simp_all [parts]
      rw [text_append, textThen_of_startsWithText hf.1 hstart, parts, ih hf.2.2]
      exact (Part.push_cons _ _ fun _ _ => hparts).symm
  | literal v rest ih =>
    rw [literal_append, parts, ih hf]
    exact (Part.push_cons _ _ fun _ h => by cases h).symm
  | subQuery inner rest _ ih =>
    rw [subQuery_append, parts, ih hf.2]
    exact (Part.push_cons _ _ fun _ h => by cases h).symm

/-- A literal or a query pushed to the end stands behind all that was there. -/
theorem parts_append_of_isNormal (hf : f.IsNormal) (g : Fragment)
    (hg : g.startsWithText = false) : (f ++ g).parts = f.parts ++ g.parts := by
  induction f with
  | empty => rfl
  | text s rest ih =>
    have hstart : (rest ++ g).startsWithText = false := by
      cases rest <;> simp_all [startsWithText, IsNormal]
    rw [text_append, textThen_of_startsWithText hf.1 hstart, parts, ih hf.2.2]
    rfl
  | literal v rest ih => rw [literal_append, parts, ih hf]; rfl
  | subQuery inner rest _ ih => rw [subQuery_append, parts, ih hf.2]; rfl

/-- Appending a fragment is pushing its pieces. -/
theorem parts_append (hf : f.IsNormal) (hg : g.IsNormal) :
    (f ++ g).parts = g.parts.foldl Part.push f.parts := by
  induction g generalizing f with
  | empty => rw [hf.append_empty]; rfl
  | text s rest ih =>
    calc (f ++ text s rest).parts
        = (f ++ sql s ++ rest).parts := by rw [append_assoc, ← hg.text_eq_append]
      _ = rest.parts.foldl Part.push (Part.push f.parts (.sql s)) := by
          rw [ih (hf.append (isNormal_sql s)) hg.2.2, parts_append_sql hf]
  | literal v rest ih =>
    have hsplit : Fragment.literal v rest = param v ++ rest := rfl
    rw [hsplit, ← append_assoc, ih (hf.append (g := param v) trivial) hg,
      parts_append_of_isNormal hf _ rfl]
    rfl
  | subQuery inner rest _ ih =>
    have hsplit : Fragment.subQuery inner rest = nested inner ++ rest := rfl
    rw [hsplit, ← append_assoc, ih (hf.append (g := nested inner) ⟨hg.1, trivial⟩) hg.2,
      parts_append_of_isNormal hf _ rfl]
    rfl

/-! ### Reading a fragment item by item -/

theorem flat_textThen (s : String) (f : Fragment) :
    (textThen s f).flat = .chars s.toList f.flat := by
  by_cases hs : s = ""
  · simp [hs, Flat.chars]
  cases f <;> simp [textThen, hs, flat, Flat.chars_chars]

/-- The items of two fragments follow each other. -/
theorem flat_append (f g : Fragment) : (f ++ g).flat = f.flat ++ g.flat := by
  induction f with
  | empty => rfl
  | text s rest ih => rw [text_append, flat_textThen, ih, flat, Flat.chars_append]
  | literal v rest ih => exact congrArg (Flat.literal v) ih
  | subQuery inner rest _ ih => exact congrArg (Flat.subQuery inner.flat) ih

theorem toList_ne_nil (hs : s ≠ "") : s.toList ≠ [] := mt String.toList_eq_nil_iff.1 hs

theorem startsWithChar_flat (hf : f.IsNormal) : f.flat.startsWithChar = f.startsWithText := by
  cases f with
  | text s rest =>
    obtain ⟨c, cs, hs⟩ := List.exists_cons_of_ne_nil (toList_ne_nil hf.1)
    rw [flat, hs]; rfl
  | _ => rfl

/-- Fragments in normal form agree piece by piece when they agree item by item. -/
theorem sameBy_eq (hf : f.IsNormal) (hg : g.IsNormal) :
    f.sameBy eq g = f.flat.sameBy eq g.flat := by
  induction f generalizing g with
  | empty =>
    cases g with
    | text t rest => exact (Flat.sameBy_chars_right (toList_ne_nil hg.1) rfl).symm
    | _ => rfl
  | text s rest ih =>
    cases g with
    | text t rest' =>
      have htexts : (s == t) = (s.toList == t.toList) := by
        rw [Bool.eq_iff_iff, beq_iff_eq, beq_iff_eq, String.toList_inj]
      rw [flat, flat, Flat.sameBy_chars ((startsWithChar_flat hf.2.2).trans hf.2.1)
        ((startsWithChar_flat hg.2.2).trans hg.2.1), sameBy, ih hf.2.2 hg.2.2, htexts]
    | _ => exact (Flat.sameBy_chars_left (toList_ne_nil hf.1) rfl).symm
  | literal v rest ih =>
    cases g with
    | text t rest' => exact (Flat.sameBy_chars_right (toList_ne_nil hg.1) rfl).symm
    | literal w rest' => exact congrArg (eq v w && ·) (ih hf hg)
    | _ => rfl
  | subQuery inner rest ihi ih =>
    cases g with
    | text t rest' => exact (Flat.sameBy_chars_right (toList_ne_nil hg.1) rfl).symm
    | subQuery inner' rest' => rw [sameBy, ihi hf.1 hg.1, ih hf.2 hg.2]; rfl
    | _ => rfl

theorem sameBy_beq : f.sameBy (· == ·) g = true ↔ f = g := by
  induction f generalizing g <;> cases g <;> simp_all [sameBy]

/-- Fragments in normal form are the same when they read the same. -/
theorem eq_iff_flat_eq (hf : f.IsNormal) (hg : g.IsNormal) : f = g ↔ f.flat = g.flat := by
  rw [← sameBy_beq, sameBy_eq hf hg, Flat.sameBy_beq]

/-- The operations build the fragments in normal form and no others; appending is associative, with
nothing neutral on both sides, and is the pieces of one fragment pushed behind those of the other;
joining is appending with separators; and two fragments are the same, as they are and as the program
compares them, when the same characters, literals and queries follow each other in them. -/
theorem fragments_in_normal_form :
    (∀ f, Built f ↔ f.IsNormal) ∧
    (∀ f g h : Fragment, f ++ g ++ h = f ++ (g ++ h)) ∧
    (∀ f, Built f → .empty ++ f = f ∧ f ++ .empty = f) ∧
    (∀ separator, join separator [] = .empty ∧ ∀ f fs,
      join separator (f :: fs) = fs.foldl (fun out g => out ++ sql separator ++ g) f) ∧
    (∀ f g, Built f → Built g → (f ++ g).parts = g.parts.foldl Part.push f.parts) ∧
    (∀ f g : Fragment, (f ++ g).flat = f.flat ++ g.flat) ∧
    (∀ f g, Built f → Built g → (f = g ↔ f.flat = g.flat) ∧
      f.sameBy Value.same g = f.flat.sameBy Value.same g.flat) := by
  refine ⟨fun _ => built_iff, append_assoc, ?neutral, fun separator => ⟨rfl, join_eq_foldl _⟩,
    fun f g hf hg => parts_append hf.isNormal hg.isNormal, flat_append, ?same⟩
  case neutral => exact fun f hf => ⟨empty_append f, hf.isNormal.append_empty⟩
  case same =>
    exact fun f g hf hg =>
      ⟨eq_iff_flat_eq hf.isNormal hg.isNormal, sameBy_eq hf.isNormal hg.isNormal⟩

/-- A text built in two steps and the same text built in one, before a literal. -/
theorem fragments_in_normal_form_two_steps :
    let f := sql "a" ++ sql " = " ++ param .null
    let g := sql "a = " ++ param .null
    Built f ∧ Built g ∧ f = g ∧
      (f ++ nested g).parts = [.sql "a = ", .param .null, .subQuery g] := by
  intro f g
  obtain ⟨-, -, -, -, hparts, -, hsame⟩ := fragments_in_normal_form
  have hf : Built f := .append (.append (.sql "a") (.sql " = ")) (.param .null)
  have hg : Built g := .append (.sql "a = ") (.param .null)
  exact ⟨hf, hg, (hsame f g hf hg).1.2 (by decide), hparts f (nested g) hf (.nested hg)⟩

end Fragment

end RowGraph
