import RowGraph.Dialect.Basic
import RowGraph.Proofs.Number.PlainText
import RowGraph.Proofs.Text.Numerals

/-!
# Where comments begin in a text

Two hyphens, or a slash and a star, begin a comment wherever no quote is open. `Dialect.Trail` is a
reader from left to right that knows whether it is in a text, in a name or outside of both, and
outside whether the character before may be the first half of an opener. A text closes with the
quote that opens it, so a quote doubled in a text is read as an end and a beginning; a name may
close with a character of its own, so the reader remembers that it has just left one.

What stands for a parameter, a placeholder or a literal of any value, is a mark (`IsMark`). Read
from any place outside of quotes it leaves nothing behind: the reader is free after it, as after any
other mark. And it contains no opener and ends none, with one exception: a hyphen in front of it and
its own minus are an opener.

Main statements: `isUnsigned_placeholder` and `isMark_literal`.
-/

namespace RowGraph

/-- Whether the value is a number with a minus sign, which a floating-point zero may have. -/
def Value.isNegative : Value → Bool
  | .int i => i.toInt < 0
  | .float (.finite negative _ _ _) => negative
  | .float (.infinite negative) => negative
  | _ => false

namespace Dialect

/-- Where a reader stands that looks for comments. -/
inductive Trail
  /-- Outside of quotes, behind nothing that an opener begins with. -/
  | free
  /-- Outside of quotes, behind a hyphen. -/
  | hyphen
  /-- Outside of quotes, behind a slash. -/
  | slash
  | inText
  | inName
  /-- Outside of quotes, unless the closing quote of the name is doubled. -/
  | behindName
deriving DecidableEq, Repr

namespace Trail

/-- The reader is outside of quotes. -/
def IsOpen (t : Trail) : Prop := t ≠ .inText ∧ t ≠ .inName

instance (t : Trail) : Decidable t.IsOpen := inferInstanceAs (Decidable (_ ∧ _))

theorem isOpen_free : free.IsOpen := by decide

/-- Whether a character ends an opener. -/
def opens : Trail → Char → Bool
  | .hyphen, c => c == '-'
  | .slash, c => c == '*'
  | _, _ => false

variable (d : Dialect)

/-- Where a character leads to from outside of quotes. -/
def start (c : Char) : Trail :=
  if c = '\'' then .inText
  else if c = d.openingQuote then .inName
  else if c = '-' then .hyphen
  else if c = '/' then .slash
  else .free

/-- Where a character leads to. -/
def next : Trail → Char → Trail
  | .inText, c => if c = '\'' then .free else .inText
  | .inName, c => if c = d.closingQuote then .behindName else .inName
  | .behindName, c => if c = d.closingQuote then .inName else start d c
  | _, c => start d c

end Trail

variable (d : Dialect)

/-- Where a text leads to. -/
def ends (t : Trail) (cs : List Char) : Trail := cs.foldl (Trail.next d) t

/-- How many comments begin in a text. -/
def openers (t : Trail) : List Char → Nat
  | [] => 0
  | c :: rest => (if t.opens c then 1 else 0) + openers (t.next d c) rest

/-- How many comments begin in a statement. -/
def openersOf (sql : String) : Nat := d.openers .free sql.toList

/-- What stands for a parameter: whatever is outside of quotes before it, nothing of it is left over
behind it, and no comment begins in it, except by a minus in front that has a hyphen before it. -/
structure IsMark (cs : List Char) : Prop where
  ends_eq : ∀ t : Trail, t.IsOpen → d.ends t cs = .free
  openers_eq : ∀ t : Trail, t.IsOpen →
    d.openers t cs = if t = .hyphen ∧ cs.head? = some '-' then 1 else 0

/-- A mark that has no minus in front. -/
def IsUnsigned (cs : List Char) : Prop := d.IsMark cs ∧ cs.head? ≠ some '-'

variable {d} {t : Trail} {c : Char} {cs : List Char}

theorem ends_append (t : Trail) (cs ds : List Char) :
    d.ends t (cs ++ ds) = d.ends (d.ends t cs) ds := List.foldl_append

theorem openers_append (t : Trail) (cs ds : List Char) :
    d.openers t (cs ++ ds) = d.openers t cs + d.openers (d.ends t cs) ds := by
  induction cs generalizing t with
  | nil => simp [openers, ends]
  | cons c cs ih => simp only [List.cons_append, openers, ih, ends, List.foldl_cons]; omega

/-! ## Characters outside of quotes -/

/-- Not a quote of any dialect. -/
def IsUnquoted (c : Char) : Prop := c ∉ ['\'', '"', '\x60', '[', ']']

instance (c : Char) : Decidable (IsUnquoted c) := inferInstanceAs (Decidable (c ∉ _))

/-- No quotes among the characters. -/
def AllUnquoted (cs : List Char) : Prop := ∀ c ∈ cs, IsUnquoted c

instance (cs : List Char) : Decidable (AllUnquoted cs) := List.decidableBAll IsUnquoted cs

/-- Neither a quote nor a part of an opener. -/
def IsInert (c : Char) : Prop := IsUnquoted c ∧ c ∉ ['-', '/', '*']

instance (c : Char) : Decidable (IsInert c) := inferInstanceAs (Decidable (_ ∧ _))

/-- Neither quotes nor parts of openers among the characters. -/
def AllInert (cs : List Char) : Prop := ∀ c ∈ cs, IsInert c

instance (cs : List Char) : Decidable (AllInert cs) := List.decidableBAll IsInert cs

/-- Outside of quotes the reader stays there, and looks only for the first half of an opener. -/
theorem IsUnquoted.next (hc : IsUnquoted c) (ht : t.IsOpen) :
    t.next d c = if c = '-' then .hyphen else if c = '/' then .slash else .free := by
  have hne : c ≠ '\'' ∧ c ≠ d.openingQuote ∧ c ≠ d.closingQuote := by
    refine ⟨?_, ?_, ?_⟩ <;> rintro rfl <;> cases d <;> exact absurd hc (by decide)
  have hstart : Trail.start d c =
      if c = '-' then .hyphen else if c = '/' then .slash else .free := by
    rw [Trail.start, if_neg hne.1, if_neg hne.2.1]
  cases t with
  | inText => exact absurd rfl ht.1
  | inName => exact absurd rfl ht.2
  | behindName => exact (if_neg hne.2.2).trans hstart
  | _ => exact hstart

theorem IsInert.next (hc : IsInert c) (ht : t.IsOpen) : t.next d c = .free := by
  obtain ⟨hquote, hc⟩ := hc
  simp only [List.mem_cons, List.not_mem_nil, or_false, not_or] at hc
  rw [hquote.next ht, if_neg hc.1, if_neg hc.2.1]

theorem IsInert.opens (hc : IsInert c) (t : Trail) : t.opens c = false := by
  obtain ⟨-, hc⟩ := hc
  simp only [List.mem_cons, List.not_mem_nil, or_false, not_or] at hc
  cases t <;> simp [Trail.opens, hc]

/-- Inert characters leave the reader free and begin no comment. -/
theorem read_inert (hcs : AllInert cs) (ht : t.IsOpen) :
    d.ends t cs = (if cs = [] then t else .free) ∧ d.openers t cs = 0 := by
  induction cs generalizing t with
  | nil => exact ⟨rfl, rfl⟩
  | cons c cs ih =>
    rw [AllInert, List.forall_mem_cons] at hcs
    obtain ⟨hends, hopeners⟩ := ih hcs.2 Trail.isOpen_free
    constructor
    · rw [ends, List.foldl_cons, hcs.1.next ht, if_neg (List.cons_ne_nil c cs)]
      exact hends.trans (by split <;> rfl)
    · rw [openers, hcs.1.opens, hcs.1.next ht, hopeners]; rfl

theorem isInert_of_isDigit (h : c.isDigit = true) : IsInert c := by
  have hnone : (['\'', '"', '\x60', '[', ']'] ++ ['-', '/', '*']).all (!·.isDigit) = true := by
    decide
  have hdigit : c ∉ ['\'', '"', '\x60', '[', ']'] ++ ['-', '/', '*'] := fun hc => by
    simpa [h] using List.all_eq_true.mp hnone c hc
  rw [List.mem_append, not_or] at hdigit
  exact hdigit

/-- Inert characters are a mark. -/
theorem isUnsigned_of_inert (hne : cs ≠ []) (hcs : AllInert cs) : d.IsUnsigned cs := by
  have hhead : cs.head? ≠ some '-' := fun h =>
    absurd (hcs '-' (List.mem_of_head? h)) (by decide)
  refine ⟨⟨fun t ht => (read_inert hcs ht).1.trans (if_neg hne), fun t ht => ?_⟩, hhead⟩
  rw [(read_inert hcs ht).2, if_neg fun h => hhead h.2]

/-- A minus in front of inert characters ends an opener behind a hyphen, and nowhere else. -/
theorem isMark_minus (hne : cs ≠ []) (hcs : AllInert cs) : d.IsMark ('-' :: cs) := by
  have hnext : ∀ t : Trail, t.IsOpen → t.next d '-' = .hyphen := fun t ht =>
    IsUnquoted.next (by decide) ht
  constructor
  · intro t ht
    rw [ends, List.foldl_cons, hnext t ht]
    exact (read_inert hcs (t := .hyphen) (by decide)).1.trans (if_neg hne)
  · intro t ht
    rw [openers, hnext t ht, (read_inert hcs (t := .hyphen) (by decide)).2]
    cases t <;> rfl

/-! ## Texts in quotes -/

/-- A text with its quotes doubled inside is read to its end. -/
theorem read_doubled (cs : List Char) :
    d.ends .inText (Text.doubled '\'' cs) = .inText ∧
      d.openers .inText (Text.doubled '\'' cs) = 0 := by
  induction cs with
  | nil => exact ⟨rfl, rfl⟩
  | cons c cs ih =>
    by_cases hc : c = '\''
    · subst hc
      simp only [Text.doubled, if_true]
      exact ⟨ih.1, (Nat.zero_add _).trans ((Nat.zero_add _).trans ih.2)⟩
    · have hnext : Trail.next d .inText c = .inText := if_neg hc
      simp only [Text.doubled, if_neg hc, ends, List.foldl_cons, openers, hnext]
      exact ⟨ih.1, (Nat.zero_add _).trans ih.2⟩

/-- A text in quotes leaves the reader free, whatever is in it. -/
theorem read_stringLiteral (s : String) (ht : t.IsOpen) :
    d.ends t (Text.stringLiteral s).toList = .free ∧
      d.openers t (Text.stringLiteral s).toList = 0 := by
  have hlist : (Text.stringLiteral s).toList = '\'' :: (Text.doubled '\'' s.toList ++ ['\'']) := by
    simp [Text.stringLiteral, Text.enclosed]
  have hquote : t.next d '\'' = .inText ∧ t.opens '\'' = false := by
    cases t <;> cases d <;> first | exact ⟨rfl, rfl⟩ | exact absurd ht (by decide)
  obtain ⟨hends, hopeners⟩ := read_doubled (d := d) s.toList
  constructor
  · rw [hlist, ends, List.foldl_cons, hquote.1]
    exact (ends_append _ _ _).trans (by rw [hends]; rfl)
  · rw [hlist, openers, hquote.1, hquote.2, openers_append, hends, hopeners]; rfl

/-- A text in quotes, between inert characters, is a mark. -/
theorem isUnsigned_quoted {front back : List Char} (s : String) (hf : AllInert front)
    (hb : AllInert back) :
    d.IsUnsigned (front ++ ((Text.stringLiteral s).toList ++ back)) := by
  have hopen : ∀ t : Trail, t.IsOpen → (d.ends t front).IsOpen := by
    intro t ht
    rw [(read_inert hf ht).1]
    split
    · exact ht
    · decide
  have hback := read_inert (d := d) hb Trail.isOpen_free
  have hhead : (front ++ ((Text.stringLiteral s).toList ++ back)).head? ≠ some '-' := by
    cases front with
    | nil => simp [Text.stringLiteral, Text.enclosed]
    | cons c front => exact fun h => absurd (hf c List.mem_cons_self) (by cases h; decide)
  refine ⟨⟨fun t ht => ?ends, fun t ht => ?openers⟩, hhead⟩
  case ends =>
    rw [ends_append, ends_append, (read_stringLiteral s (hopen t ht)).1]
    exact hback.1.trans (ite_self _)
  case openers =>
    obtain ⟨hends, hopeners⟩ := read_stringLiteral (d := d) s (hopen t ht)
    rw [if_neg fun h => hhead h.2, openers_append, (read_inert hf ht).2, openers_append, hends,
      hopeners, hback.2]

theorem isUnsigned_stringLiteral (s : String) : d.IsUnsigned (Text.stringLiteral s).toList := by
  have h : d.IsUnsigned ([] ++ ((Text.stringLiteral s).toList ++ [])) :=
    isUnsigned_quoted s (by decide) (by decide)
  simpa using h

/-! ## Placeholders -/

theorem isInert_of_mem_repr {n : Nat} (h : c ∈ (Nat.repr n).toList) : IsInert c := by
  rw [Nat.toList_repr] at h
  exact isInert_of_isDigit (Nat.isDigit_of_mem_toDigits (by decide) (by decide) h)

/-- A placeholder is a mark without a minus. -/
theorem isUnsigned_placeholder (d : Dialect) (index : Nat) :
    d.IsUnsigned (d.placeholder index).toList := by
  have hsign : ∀ (sign : String) (n : Nat), (∃ c, sign.toList = [c] ∧ IsInert c) →
      d.IsUnsigned (sign ++ Nat.repr n).toList := by
    rintro sign n ⟨c, hsign, hc⟩
    rw [String.toList_append, hsign]
    refine isUnsigned_of_inert (by simp) fun x hx => ?_
    rcases List.mem_cons.mp hx with rfl | hx
    · exact hc
    · exact isInert_of_mem_repr hx
  cases d <;> exact hsign _ _ ⟨_, rfl, by decide⟩

/-! ## Literals -/

theorem isInert_of_mem_hexOfBytes {bytes : List UInt8} (h : c ∈ (Text.hexOfBytes bytes).toList) :
    IsInert c := by
  have hdigits : ∀ n : Nat, IsInert (Text.hexDigit (n % 16)) := by
    intro n
    have hall : ∀ m ∈ List.range 16, IsInert (Text.hexDigit m) := by decide
    exact hall _ (List.mem_range.mpr (Nat.mod_lt n (by decide)))
  rw [Text.hexOfBytes, String.toList_ofList, List.mem_flatMap] at h
  obtain ⟨b, -, hb⟩ := h
  simp only [Text.hexDigits, List.nil_append, List.cons_append, List.mem_cons, List.not_mem_nil,
    or_false] at hb
  rcases hb with rfl | rfl <;> exact hdigits _

/-- A text without a quote in it is only put between quotes. -/
theorem stringLiteral_eq {s : String} (h : '\'' ∉ s.toList) :
    Text.stringLiteral s = "'" ++ s ++ "'" := by
  have hdoubled : ∀ cs : List Char, '\'' ∉ cs → Text.doubled '\'' cs = cs := by
    intro cs hcs
    induction cs with
    | nil => rfl
    | cons c cs ih =>
      rw [List.mem_cons, not_or] at hcs
      rw [Text.doubled, if_neg (Ne.symm hcs.1), ih hcs.2]
  apply String.toList_inj.mp
  simp [Text.stringLiteral, Text.enclosed, hdoubled _ h]

theorem isUnsigned_bytesLiteral (d : Dialect) (bytes : List UInt8) :
    d.IsUnsigned (d.bytesLiteral bytes).toList := by
  have hnone : '\'' ∉ (Text.hexOfBytes bytes).toList := fun h =>
    absurd (isInert_of_mem_hexOfBytes h) (by decide)
  have hquoted : ∀ front back : String, ∀ s : String, '\'' ∉ s.toList →
      AllInert front.toList → AllInert back.toList →
      d.IsUnsigned (front ++ ("'" ++ s ++ "'") ++ back).toList := by
    intro front back s hs hf hb
    rw [← stringLiteral_eq hs, String.toList_append, String.toList_append, List.append_assoc]
    exact isUnsigned_quoted s hf hb
  cases d with
  | sqlServer =>
    refine isUnsigned_of_inert (by simp [bytesLiteral]) fun c hc => ?_
    rw [bytesLiteral, String.toList_append, List.mem_append] at hc
    rcases hc with hc | hc
    · exact (by decide : AllInert "0x".toList) c hc
    · exact isInert_of_mem_hexOfBytes hc
  | postgresql =>
    have h := hquoted "" "::bytea" ("\\x" ++ Text.hexOfBytes bytes) (by simpa using hnone)
      (by decide) (by decide)
    simpa [bytesLiteral, String.append_assoc] using h
  | oracle =>
    have h := hquoted "HEXTORAW(" ")" (Text.hexOfBytes bytes) hnone (by decide) (by decide)
    simpa [bytesLiteral, String.append_assoc] using h
  | _ =>
    have h := hquoted "X" "" (Text.hexOfBytes bytes) hnone (by decide) (by decide)
    simpa [bytesLiteral, String.append_assoc] using h

/-- Inert characters behind a sign, if there is one. -/
theorem isMark_signed (negative : Bool) {s : String} (hne : s.toList ≠ [])
    (hs : AllInert s.toList) :
    d.IsMark ((if negative then "-" else "") ++ s).toList ∧
      (((if negative then "-" else "") ++ s).toList.head? = some '-' ↔ negative = true) := by
  cases negative with
  | true =>
    rw [if_pos rfl, String.toList_append]
    exact ⟨isMark_minus hne hs, by simp⟩
  | false =>
    rw [if_neg Bool.false_ne_true, String.empty_append]
    have hunsigned := isUnsigned_of_inert (d := d) hne hs
    exact ⟨hunsigned.1, by simpa using hunsigned.2⟩

/-- **Every literal is a mark**, and those that begin with a minus are the negative numbers. -/
theorem isMark_literal (d : Dialect) (v : Value) :
    d.IsMark (d.literal v).toList ∧
      ((d.literal v).toList.head? = some '-' ↔ v.isNegative = true) := by
  have hunsigned : d.IsUnsigned (d.literal v).toList → v.isNegative = false →
      d.IsMark (d.literal v).toList ∧
        ((d.literal v).toList.head? = some '-' ↔ v.isNegative = true) :=
    fun h hv => ⟨h.1, by simp [h.2, hv]⟩
  have hword : ∀ word : String, word.toList ≠ [] → AllInert word.toList →
      d.IsUnsigned word.toList := fun _ => isUnsigned_of_inert
  cases v with
  | null => exact hunsigned (hword "NULL" (by decide) (by decide)) rfl
  | bool b =>
    refine hunsigned ?_ rfl
    cases d <;> cases b <;> exact hword _ (by decide) (by decide)
  | int i =>
    obtain ⟨c, rest, hdigits, -⟩ := Text.exists_padded_eq_cons 0 i.toInt.natAbs
    have hsigned := isMark_signed (d := d) (decide (i.toInt < 0))
      (s := Text.padded 0 i.toInt.natAbs) (by rw [hdigits]; exact List.cons_ne_nil c rest)
      fun c hc => isInert_of_isDigit ((Text.denotes_padded 0 _).1 c hc)
    simpa only [literal, Text.ofInt_eq, Value.isNegative, decide_eq_true_eq] using hsigned
  | float x =>
    cases x with
    | finite negative m e canonical =>
      rw [literal, FloatStyle.render_plain_finite]
      refine isMark_signed negative (FloatStyle.toList_magnitudeText_ne_nil m e) fun c hc => ?_
      rcases FloatStyle.isDigit_of_mem_magnitudeText hc with h | rfl
      · exact isInert_of_isDigit h
      · decide
    | infinite negative =>
      have hsigned := isMark_signed (d := d) negative (s := "inf") (by decide) (by decide)
      cases negative <;> exact hsigned
    | nan => exact hunsigned (hword "NaN" (by decide) (by decide)) rfl
  | text s => exact hunsigned (isUnsigned_stringLiteral s) rfl
  | bytes b => exact hunsigned (isUnsigned_bytesLiteral d b) rfl
  | date x => exact hunsigned (isUnsigned_stringLiteral x.text) rfl
  | dateTime x => exact hunsigned (isUnsigned_stringLiteral x.text) rfl
  | uuid u => exact hunsigned (isUnsigned_stringLiteral u.text) rfl

end Dialect

end RowGraph
