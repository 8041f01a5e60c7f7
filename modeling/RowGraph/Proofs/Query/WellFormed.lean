import RowGraph.Dialect.Basic
import RowGraph.Proofs.Grouping
import RowGraph.Expr
import RowGraph.Proofs.Query.Reading
import RowGraph.Text.Name

/-!
# SQL that leaves nothing open

SQL is written for a dialect: texts stand in single quotes and names in the quotes of the dialect,
each with its closing quote doubled inside. `WellFormed` says so by a grammar, `Dialect.lexis` by a
reader that goes from left to right and knows whether it is inside of quotes.

The scan that looks for parentheses is another reader. It knows the same two quotes in every
dialect, so it reads a name in other quotes as if it stood there without them. A name is harmless if
that leaves nothing open. Where names stand in double quotes every name is.

Results:
* `WellFormed.behind_append`: what is well formed leaves the reader of the dialect between words.
* `isBody_enclosed`: a text in one of the two quotes is closed for the scan, doubled quotes and all.
* `WellFormed.isBody`: so is what is well formed, if its names are harmless.
* **`Connected.not_isGroup`**: a connective outside of parentheses and quotes is not in a group, for
  any reader that passes over what is well formed.
-/

namespace RowGraph

open Fragment (Symbol symbolsOf IsBody)

/-- Doubling brings in no new character. -/
theorem Text.mem_of_mem_doubled {quote c : Char} {cs : List Char} (h : c ∈ doubled quote cs) :
    c ∈ cs := by
  have found := List.count_pos_iff.mpr h
  rw [count_doubled] at found
  exact List.count_pos_iff.mp (Nat.pos_of_mul_pos_left found)

/-- A symbol that opens and closes no group leads to the next state. -/
theorem Lexis.behind_symbol {l : Lexis} {state : l.State} {x : Symbol}
    (h : l.counts state = true → x ≠ .char '(' ∧ x ≠ .char ')') (depth : Nat)
    (rest : List Symbol) :
    l.behind depth state (x :: rest) = l.behind depth (l.next state x) rest := by
  rw [behind]
  cases counts : l.counts state with
  | false => simp
  | true => simp [h counts]

namespace Dialect

/-! ## The grammar -/

/-- What stands in quotes. -/
inductive Enclosure
  | text
  | name
deriving DecidableEq, Repr

namespace Enclosure

/-- The quote in front. -/
def opening (d : Dialect) : Enclosure → Char
  | .text => '\''
  | .name => d.openingQuote

/-- The quote behind, which is doubled inside. -/
def closing (d : Dialect) : Enclosure → Char
  | .text => '\''
  | .name => d.closingQuote

/-- A text or a name in its quotes. -/
def write (d : Dialect) : Enclosure → String → String
  | .text, s => Text.stringLiteral s
  | .name, s => d.quoteName s

theorem write_eq (d : Dialect) (e : Enclosure) (s : String) :
    e.write d s = Text.enclosed (e.opening d) (e.closing d) s := by
  cases e <;> rfl

theorem toList_write (d : Dialect) (e : Enclosure) (s : String) :
    (e.write d s).toList =
      e.opening d :: (Text.doubled (e.closing d) s.toList ++ [e.closing d]) := by
  simp [write_eq, Text.enclosed]

end Enclosure

variable (d : Dialect)

/-- Not a parenthesis and not a quote: not one of the dialect and none of the two that the scan
knows. -/
def IsPlain (c : Char) : Prop := c ∉ ['(', ')', '\'', '"', d.openingQuote, d.closingQuote]

instance (c : Char) : Decidable (d.IsPlain c) := inferInstanceAs (Decidable (c ∉ _))

/-- SQL of the dialect whose parentheses and quotes are closed, with allowed names in it. -/
inductive WellFormed (allowed : String → Prop) : List Char → Prop
  | nil : WellFormed allowed []
  | plain {c : Char} {rest : List Char} (hc : d.IsPlain c) (h : WellFormed allowed rest) :
    WellFormed allowed (c :: rest)
  | group {inner rest : List Char} (hi : WellFormed allowed inner) (h : WellFormed allowed rest) :
    WellFormed allowed ('(' :: inner ++ ')' :: rest)
  /-- A text or a name, not followed by another closing quote. -/
  | enclosed (e : Enclosure) {s : String} {rest : List Char} (hs : e = .name → allowed s)
    (alone : rest.head? ≠ some (e.closing d)) (h : WellFormed allowed rest) :
    WellFormed allowed ((e.write d s).toList ++ rest)

/-- `AND` or `OR`, in letters of either case. -/
def IsConnective (word : List Char) : Prop :=
  ∃ op : Connective, Text.sameName (.ofList word) op.operator = true

/-- SQL that is well formed and has a connective outside of all its parentheses and quotes. -/
def Connected (allowed : String → Prop) (text : List Char) : Prop :=
  ∃ before word after, text = before ++ (word ++ after) ∧ d.WellFormed allowed before ∧
    IsConnective word ∧ d.WellFormed allowed after

variable {d} {allowed : String → Prop} {text : List Char}

theorem isPlain_of_toLower {c : Char} (h : c.toLower ∈ ['a', 'n', 'd', 'o', 'r']) :
    d.IsPlain c := by
  have others : ∀ q ∈ ['(', ')', '\'', '"', d.openingQuote, d.closingQuote],
      q.toLower ∉ ['a', 'n', 'd', 'o', 'r'] := by
    cases d <;> simp [openingQuote, closingQuote]
  exact fun hc => others c hc h

/-- A connective is made of letters. -/
theorem isPlain_of_connective {word : List Char} (h : IsConnective word) :
    ∀ c ∈ word, d.IsPlain c := by
  obtain ⟨op, same⟩ := h
  have letters : word.map Char.toLower = op.operator.toList.map Char.toLower := by
    simpa [Text.sameName_iff, Text.asciiLower, String.ofList_inj] using same
  have known : ∀ c ∈ op.operator.toList.map Char.toLower, c ∈ ['a', 'n', 'd', 'o', 'r'] := by
    cases op <;> simp [Connective.operator]
  exact fun c hc => isPlain_of_toLower (known _ (letters ▸ List.mem_map_of_mem hc))

theorem exists_cons_of_connective {word : List Char} (h : IsConnective word) :
    ∃ first others, word = first :: others := by
  cases word with
  | nil =>
    obtain ⟨op, same⟩ := h
    exact absurd same (by cases op <;> decide)
  | cons first others => exact ⟨first, others, rfl⟩

theorem opening_ne (e : Enclosure) : e.opening d ≠ '(' ∧ e.opening d ≠ ')' := by
  cases e <;> cases d <;> decide

theorem closing_ne (e : Enclosure) : e.closing d ≠ '(' ∧ e.closing d ≠ ')' := by
  cases e <;> cases d <;> decide

/-- A closing parenthesis is no closing quote. -/
theorem head?_close_ne (e : Enclosure) (rest : List Symbol) :
    (Symbol.char ')' :: rest).head? ≠ some (.char (e.closing d)) := by
  simpa using (closing_ne e).2.symm

theorem not_paren_of_isPlain {c : Char} (hc : d.IsPlain c) :
    Symbol.char c ≠ .char '(' ∧ Symbol.char c ≠ .char ')' := by
  constructor <;> rintro same <;> cases same <;> simp [IsPlain] at hc

theorem closing_ne_plain (e : Enclosure) {c : Char} (hc : d.IsPlain c) : c ≠ e.closing d := by
  rintro rfl
  cases e <;> simp [IsPlain, Enclosure.closing] at hc

/-- Plain characters can stand in front of anything. -/
theorem WellFormed.plain_append {front : List Char} (hf : ∀ c ∈ front, d.IsPlain c)
    (h : d.WellFormed allowed text) : d.WellFormed allowed (front ++ text) := by
  induction front with
  | nil => exact h
  | cons c front ih =>
    exact .plain (hf c List.mem_cons_self) (ih fun x hx => hf x (List.mem_cons_of_mem c hx))

/-- What is well formed goes on, unless the first closing quote would be doubled. -/
theorem WellFormed.append {more : List Char} (h : d.WellFormed allowed text)
    (k : d.WellFormed allowed more) (alone : ∀ e : Enclosure, more.head? ≠ some (e.closing d)) :
    d.WellFormed allowed (text ++ more) := by
  induction h with
  | nil => exact k
  | plain hc _ ih => exact .plain hc ih
  | group hi _ _ ih =>
    have whole := WellFormed.group hi ih
    simpa using whole
  | @enclosed e s rest hs behind _ ih =>
    rw [List.append_assoc]
    refine .enclosed e hs ?_ ih
    cases rest with
    | nil => exact alone e
    | cons c rest => exact behind

theorem Connected.wellFormed (h : d.Connected allowed text) : d.WellFormed allowed text := by
  obtain ⟨before, word, after, rfl, hb, hw, ha⟩ := h
  have plain := isPlain_of_connective (d := d) hw
  refine hb.append (.plain_append plain ha) fun e => ?_
  obtain ⟨first, others, rfl⟩ := exists_cons_of_connective hw
  simpa using closing_ne_plain e (plain first List.mem_cons_self)

/-- More names are allowed. -/
theorem WellFormed.mono {more : String → Prop} (h : d.WellFormed allowed text)
    (hs : ∀ s, allowed s → more s) : d.WellFormed more text := by
  induction h with
  | nil => exact .nil
  | plain hc _ ih => exact .plain hc ih
  | group _ _ ihi ih => exact .group ihi ih
  | enclosed e allowed alone _ ih => exact .enclosed e (fun name => hs _ (allowed name)) alone ih

theorem Connected.mono {more : String → Prop} (h : d.Connected allowed text)
    (hs : ∀ s, allowed s → more s) : d.Connected more text := by
  obtain ⟨before, word, after, same, hb, hw, ha⟩ := h
  exact ⟨before, word, after, same, hb.mono hs, hw, ha.mono hs⟩

/-! ## The reader of the dialect -/

/-- Where a reader is. -/
inductive Place
  | outside
  | inside (e : Enclosure)
  /-- Right behind a closing quote, which has ended nothing if another one like it follows. -/
  | behind (e : Enclosure)

namespace Place

variable (d) in
/-- Where a symbol leads to from outside. -/
def opened (x : Symbol) : Place :=
  if x = .char '\'' then .inside .text
  else if x = .char d.openingQuote then .inside .name
  else .outside

variable (d) in
/-- Where a symbol leads to. -/
def next : Place → Symbol → Place
  | .outside, x => opened d x
  | .inside e, x => if x = .char (e.closing d) then .behind e else .inside e
  | .behind e, x => if x = .char (e.closing d) then .inside e else opened d x

/-- Parentheses count where no quote is open. -/
def counts : Place → Bool
  | .inside _ => false
  | _ => true

theorem opened_plain {c : Char} (hc : d.IsPlain c) : opened d (.char c) = .outside := by
  simp only [IsPlain, List.mem_cons, List.not_mem_nil, or_false, not_or] at hc
  simp [opened, hc]

theorem opened_opening (e : Enclosure) : opened d (.char (e.opening d)) = .inside e := by
  cases e <;> cases d <;> rfl

end Place

variable (d) in
/-- The reader of the dialect. -/
def lexis : Lexis where
  State := Place
  start := .outside
  next := Place.next d
  counts := Place.counts
  counts_start := rfl
  next_start := by
    have plain : ∀ c ∈ [' ', 'A', 'N', 'D', 'O', 'R'], d.IsPlain c := by
      cases d <;> simp [IsPlain, openingQuote, closingQuote]
    exact fun c hc => Place.opened_plain (plain c hc)

section Reader

variable {depth : Nat} {rest : List Symbol}

/-- A symbol leads the reader on, unless it is a parenthesis that counts. -/
theorem behind_cons {place next : Place} {x : Symbol} (leads : place.next d x = next)
    (h : place.counts = true → x ≠ .char '(' ∧ x ≠ .char ')') :
    d.lexis.behind depth place (x :: rest) = d.lexis.behind depth next rest :=
  leads ▸ Lexis.behind_symbol h depth rest

/-- Inside of quotes no parenthesis counts. -/
theorem behind_inside_cons {next : Place} {x : Symbol} (e : Enclosure)
    (leads : (Place.inside e).next d x = next) :
    d.lexis.behind depth (.inside e) (x :: rest) = d.lexis.behind depth next rest :=
  behind_cons leads fun counts => by cases counts

theorem behind_plain_cons {c : Char} (hc : d.IsPlain c) :
    d.lexis.behind depth .outside (.char c :: rest) = d.lexis.behind depth .outside rest :=
  behind_cons (Place.opened_plain hc) fun _ => not_paren_of_isPlain hc

/-- Behind a closing quote the reader is outside, unless another one follows. -/
theorem behind_behind (e : Enclosure) (alone : rest.head? ≠ some (.char (e.closing d))) :
    d.lexis.behind depth (.behind e) rest = d.lexis.behind depth .outside rest := by
  cases rest with
  | nil => rfl
  | cons x rest =>
    have other : x ≠ .char (e.closing d) := fun same => alone (by rw [same]; rfl)
    have next : Place.next d (.behind e) x = Place.next d .outside x := if_neg other
    simp only [Lexis.behind, lexis, next]
    rfl

/-- Doubled quotes do not end what stands in quotes. -/
theorem behind_inside (e : Enclosure) (cs : List Char) :
    d.lexis.behind depth (.inside e)
        ((Text.doubled (e.closing d) cs).map .char ++ .char (e.closing d) :: rest) =
      d.lexis.behind depth (.behind e) rest := by
  have closing : Place.next d (.inside e) (.char (e.closing d)) = .behind e := if_pos rfl
  have again : Place.next d (.behind e) (.char (e.closing d)) = .inside e := if_pos rfl
  induction cs with
  | nil => exact behind_inside_cons e closing
  | cons c cs ih =>
    by_cases quote : c = e.closing d
    · -- The first quote seems to end the enclosure, the second one takes that back.
      subst quote
      simp only [Text.doubled, if_true, List.map_cons, List.cons_append]
      rw [behind_inside_cons e closing, behind_cons again fun _ => by simp [closing_ne], ih]
    · have other : Place.next d (.inside e) (.char c) = .inside e :=
        if_neg fun same => quote (Symbol.char.inj same)
      simp only [Text.doubled, if_neg quote, List.map_cons, List.cons_append]
      rw [behind_inside_cons e other, ih]

/-- The reader is outside again behind a text or a name. -/
theorem behind_write (e : Enclosure) (s : String)
    (alone : rest.head? ≠ some (.char (e.closing d))) :
    d.lexis.behind depth .outside (symbolsOf (e.write d s) ++ rest) =
      d.lexis.behind depth .outside rest := by
  have opening : Place.next d .outside (.char (e.opening d)) = .inside e := Place.opened_opening e
  rw [symbolsOf, Enclosure.toList_write, List.map_cons, List.cons_append,
    behind_cons opening fun _ => by simp [opening_ne], List.map_append, List.append_assoc]
  exact (behind_inside e s.toList).trans (behind_behind e alone)

/-- **What is well formed leaves the reader outside**, in the groups that it was in, as long as no
closing quote follows. -/
theorem WellFormed.behind_append (h : d.WellFormed allowed text)
    (alone : ∀ e : Enclosure, rest.head? ≠ some (.char (e.closing d))) :
    d.lexis.behind depth .outside (text.map .char ++ rest) =
      d.lexis.behind depth .outside rest := by
  induction h generalizing depth rest with
  | nil => rfl
  | plain hc _ ih => exact (behind_plain_cons hc).trans (ih alone)
  | @group inner others _ _ ihi ih =>
    have opened : d.lexis.behind depth .outside
        (.char '(' :: (inner.map .char ++ .char ')' :: (others.map .char ++ rest))) =
        d.lexis.behind (depth + 1) .outside
          (inner.map .char ++ .char ')' :: (others.map .char ++ rest)) := Lexis.behind_open
    simp only [List.cons_append, List.map_cons, List.map_append, List.append_assoc]
    rw [opened, ihi fun e => head?_close_ne e _]
    exact Lexis.behind_close.trans (ih alone)
  | @enclosed e s others _ behind _ ih =>
    have next : (others.map Symbol.char ++ rest).head? ≠ some (.char (e.closing d)) := by
      cases others with
      | nil => exact alone e
      | cons c others => simpa using behind
    rw [List.map_append, List.append_assoc]
    exact (behind_write e s next).trans (ih alone)

end Reader

/-! ## Groups -/

/-- **A connective outside of parentheses and quotes is not in a group**, for any reader who is not
in the first group any longer where it ends. -/
theorem Connected.not_isGroup {l : Lexis} (h : d.Connected allowed text)
    (passes : ∀ inner, d.WellFormed allowed inner → ∀ rest,
      l.behind 0 l.start (inner.map .char ++ .char ')' :: rest) = some [] → rest = []) :
    ¬ l.IsGroup (text.map .char) := by
  rintro ⟨inside, opens, closed⟩
  obtain ⟨before, word, after, rfl, hb, hw, -⟩ := h
  obtain ⟨first, others, rfl⟩ := exists_cons_of_connective hw
  have plain := isPlain_of_connective (d := d) hw first List.mem_cons_self
  cases hb with
  | nil =>
    obtain ⟨rfl, -⟩ : first = '(' ∧ _ := by simpa using opens
    simp [IsPlain] at plain
  | @plain c rest hc _ =>
    obtain ⟨rfl, -⟩ : c = '(' ∧ _ := by simpa using opens
    simp [IsPlain] at hc
  | @group inner rest hi _ =>
    -- The group that the text opens ends before the connective, so more follows it.
    obtain rfl : inner.map .char ++ .char ')' :: (rest ++ (first :: others ++ after)).map .char =
        inside := by
      simpa using opens
    have ended := passes inner hi _ closed
    simp at ended
  | @enclosed e s rest _ _ _ =>
    rw [Enclosure.toList_write] at opens
    obtain ⟨same, -⟩ : e.opening d = '(' ∧ _ := by simpa using opens
    exact (opening_ne e).1 same

/-- The dialect does not read it as one group. -/
theorem Connected.not_isGroup_lexis (h : d.Connected allowed text) :
    ¬ d.lexis.IsGroup (text.map .char) := by
  refine h.not_isGroup fun inner hi rest closed => ?_
  have passed : d.lexis.behind 0 .outside (.char ')' :: rest) = some [] :=
    (hi.behind_append fun e => head?_close_ne e rest).symm.trans closed
  simpa [Lexis.behind, lexis, Place.counts] using passed

/-- In parentheses the dialect reads it as one group. -/
theorem WellFormed.isGroup_lexis (h : d.WellFormed allowed text) :
    d.lexis.IsGroup (('(' :: text ++ [')']).map .char) := by
  refine ⟨text.map .char ++ [.char ')'], by simp, ?_⟩
  exact h.behind_append fun e => head?_close_ne e []

/-! ## Names that the scan reads through -/

variable (d) in
/-- In its quotes the name leaves no parenthesis open and no quote that the scan knows. -/
def IsHarmless (s : String) : Prop := IsBody (symbolsOf (d.quoteName s))

end Dialect

namespace Fragment

theorem IsBody.append {body more : List Symbol} (h : IsBody body) (k : IsBody more) :
    IsBody (body ++ more) := by
  induction h with
  | nil => exact k
  | hidden _ ih => exact .hidden ih
  | plain hc _ ih => exact .plain hc ih
  | group hi _ _ ih =>
    have whole := IsBody.group hi ih
    simpa using whole
  | quoted hq hi _ ih =>
    have whole := IsBody.quoted hq hi ih
    simpa using whole

/-- A body of plain characters. -/
theorem isBody_plain {cs : List Char} (h : ∀ c ∈ cs, IsPlain c) : IsBody (cs.map .char) := by
  induction cs with
  | nil => exact .nil
  | cons c cs ih =>
    exact .plain (h c List.mem_cons_self) (ih fun x hx => h x (List.mem_cons_of_mem c hx))

/-- Behind a quote and some symbols, the first of two quotes ends and the second begins again. -/
theorem isBody_doubled {quote : Char} (hq : quote = '\'' ∨ quote = '"') (cs : List Char)
    {inner : List Symbol} (hi : .char quote ∉ inner) :
    IsBody (.char quote :: (inner ++ ((Text.doubled quote cs ++ [quote]).map .char))) := by
  induction cs generalizing inner with
  | nil =>
    have whole := IsBody.quoted hq hi .nil
    simpa [Text.doubled] using whole
  | cons c cs ih =>
    by_cases same : c = quote
    · subst same
      have again := IsBody.quoted hq hi (ih List.not_mem_nil)
      simpa [Text.doubled] using again
    · have next : .char quote ∉ inner ++ [.char c] := by
        simpa [hi] using fun h => same h.symm
      have whole := ih next
      simpa [Text.doubled, same] using whole

/-- A text in one of the two quotes is closed for the scan. -/
theorem isBody_enclosed {quote : Char} (hq : quote = '\'' ∨ quote = '"') (s : String) :
    IsBody (symbolsOf (Text.enclosed quote quote s)) := by
  have whole := isBody_doubled hq s.toList List.not_mem_nil
  simpa [symbolsOf, Text.enclosed] using whole

end Fragment

namespace Dialect

variable {d : Dialect} {text : List Char}

/-- In double quotes every name is harmless. -/
theorem isHarmless_of_closingQuote (hd : d.closingQuote = '"') (s : String) : d.IsHarmless s := by
  have same : d.openingQuote = '"' := by cases d <;> first | rfl | cases hd
  rw [IsHarmless, quoteName, same, hd]
  exact Fragment.isBody_enclosed (.inr rfl) s

/-- In any dialect a name is harmless that has no parentheses and neither of the two quotes. -/
theorem isHarmless_of_plain {s : String} (h : ∀ c ∈ s.toList, Fragment.IsPlain c) :
    d.IsHarmless s := by
  by_cases hd : d.closingQuote = '"'
  · exact isHarmless_of_closingQuote hd s
  · have quotes : Fragment.IsPlain d.openingQuote ∧ Fragment.IsPlain d.closingQuote := by
      cases d <;> first | exact absurd rfl hd | decide
    have plain : ∀ c ∈ (d.quoteName s).toList, Fragment.IsPlain c := by
      intro c hc
      simp only [quoteName, Text.enclosed, String.toList_ofList, List.cons_append, List.mem_cons,
        List.mem_append, List.not_mem_nil, or_false] at hc
      rcases hc with rfl | hc | rfl
      · exact quotes.1
      · exact h c (Text.mem_of_mem_doubled hc)
      · exact quotes.2
    exact Fragment.isBody_plain plain

/-- What is well formed is closed for the scan, if its names are harmless. -/
theorem WellFormed.isBody (h : d.WellFormed d.IsHarmless text) : IsBody (text.map .char) := by
  induction h with
  | nil => exact .nil
  | @plain c _ hc _ ih =>
    have plain : Fragment.IsPlain c := by
      simp only [IsPlain, List.mem_cons, List.not_mem_nil, or_false, not_or] at hc
      simp [Fragment.IsPlain, hc]
    exact .plain plain ih
  | group _ _ ihi ih =>
    have whole := IsBody.group ihi ih
    simpa using whole
  | @enclosed e s rest hs _ _ ih =>
    have first : IsBody (symbolsOf (e.write d s)) := by
      cases e with
      | text => exact Fragment.isBody_enclosed (.inl rfl) s
      | name => exact hs rfl
    rw [List.map_append]
    exact first.append ih

/-- The scan does not take it for one group either, if its names are harmless. -/
theorem Connected.not_isGroup_quotes (h : d.Connected d.IsHarmless text) :
    ¬ Lexis.quotes.IsGroup (text.map .char) := by
  refine h.not_isGroup fun inner hi rest closed => ?_
  have passed := (Lexis.behind_quotes 0 none _).mp closed
  rw [hi.isBody.closesAtEnd_append] at passed
  simpa [Fragment.closesAtEnd] using passed

end Dialect

end RowGraph
