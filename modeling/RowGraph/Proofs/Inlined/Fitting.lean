import RowGraph.Compiler.Expr
import RowGraph.Proofs.Inlined.Placed
import RowGraph.Query.Filter

/-!
# Fragments that literals can be written into

Fragments are put together from smaller ones, and whether literals can be written into the whole is
seen from its parts. There are two grades, as a hyphen in front is dangerous for some fragments.

* `Clean`: wherever the fragment is put outside of quotes, no literal in it comes to stand in
  quotes, behind a hyphen there are allowed ones only, and no quote is left open. What begins with
  text of its own is like this.
* `Tidy`: the same where there is no hyphen in front. A single literal is like this.

Texts have grades too: `ClosesQuotes`, no quote is left open behind it, and `Leads`, there is no
hyphen at its end besides, so that a literal may follow.

Main statements: `clean_textThen`, `Tidy.append`, `tidy_join`, `clean_wrap`, `clean_call` and
`clean_operation`.
-/

namespace RowGraph

namespace Dialect

/-! ## Texts -/

section Texts

variable (d : Dialect)

/-- No quote is left open behind the text, wherever outside of quotes it is put. -/
def ClosesQuotes (s : String) : Prop := ∀ t : Trail, t.IsOpen → (d.ends t s.toList).IsOpen

/-- A literal may follow the text: no quote is left open and there is no hyphen at the end. -/
def Leads (s : String) : Prop :=
  ∀ t : Trail, t.IsOpen → (d.ends t s.toList).IsOpen ∧ d.ends t s.toList ≠ .hyphen

variable {d} {s s' : String}

theorem Leads.closesQuotes (h : d.Leads s) : d.ClosesQuotes s := fun t ht => (h t ht).1

theorem ClosesQuotes.append (h : d.ClosesQuotes s) (h' : d.ClosesQuotes s') :
    d.ClosesQuotes (s ++ s') := by
  intro t ht
  rw [String.toList_append, ends_append]
  exact h' _ (h t ht)

/-- The end of a text counts. -/
theorem ClosesQuotes.append_leads (h : d.ClosesQuotes s) (h' : d.Leads s') :
    d.Leads (s ++ s') := by
  intro t ht
  rw [String.toList_append, ends_append]
  exact h' _ (h t ht)

theorem Leads.append (h : d.Leads s) (h' : d.Leads s') : d.Leads (s ++ s') :=
  h.closesQuotes.append_leads h'

/-! ### Texts without quotes -/

theorem closesQuotes_of_unquoted (h : AllUnquoted s.toList) : d.ClosesQuotes s := by
  intro t ht
  generalize s.toList = cs at h ⊢
  induction cs generalizing t with
  | nil => exact ht
  | cons c cs ih =>
    rw [AllUnquoted, List.forall_mem_cons] at h
    refine ih _ ?_ h.2
    rw [h.1.next ht]
    split
    · decide
    · split <;> decide

/-- Without quotes the last character counts. -/
theorem leads_of_unquoted (h : AllUnquoted s.toList)
    (hlast : s.toList.getLast?.any (· != '-') = true) : d.Leads s := by
  intro t ht
  obtain ⟨c, hlast, hc⟩ := (Option.any_eq_true _ _).mp hlast
  obtain ⟨cs, hcs⟩ := List.getLast?_eq_some_iff.mp hlast
  rw [AllUnquoted, hcs, List.forall_mem_append] at h
  have hopen : (d.ends t cs).IsOpen := by
    have hcs : AllUnquoted (String.ofList cs).toList := by
      rw [String.toList_ofList]
      exact h.1
    simpa using closesQuotes_of_unquoted (d := d) hcs t ht
  have hnext := (h.2 c List.mem_cons_self).next (d := d) hopen
  rw [if_neg (bne_iff_ne.mp hc)] at hnext
  rw [hcs, ends_append]
  change (Trail.next d _ c).IsOpen ∧ Trail.next d _ c ≠ .hyphen
  rw [hnext]
  split <;> decide

/-! ### Names -/

/-- A literal may follow a name. -/
theorem leads_quoteName (d : Dialect) (name : String) : d.Leads (d.quoteName name) := by
  have hlist : (d.quoteName name).toList =
      d.openingQuote :: (Text.doubled d.closingQuote name.toList ++ [d.closingQuote]) := by
    simp [quoteName, Text.enclosed]
  have hname : d.ends .inName (Text.doubled d.closingQuote name.toList) = .inName := by
    generalize name.toList = cs
    induction cs with
    | nil => rfl
    | cons c cs ih =>
      by_cases hc : c = d.closingQuote
      · have hagain : Trail.next d (Trail.next d .inName c) c = .inName := by
          simp [Trail.next, hc]
        simp only [Text.doubled, if_pos hc, ends, List.foldl_cons, hagain]
        exact ih
      · have hnext : Trail.next d .inName c = .inName := if_neg hc
        simp only [Text.doubled, if_neg hc, ends, List.foldl_cons, hnext]
        exact ih
  intro t ht
  have hopening : t.next d d.openingQuote = .inName := by
    cases t <;> cases d <;> first | rfl | exact absurd ht (by decide)
  have hclosing : Trail.next d .inName d.closingQuote = .behindName := if_pos rfl
  have hends : d.ends t (d.quoteName name).toList = .behindName := by
    rw [hlist, ends, List.foldl_cons, hopening]
    exact (ends_append _ _ _).trans (by rw [hname]; exact hclosing)
  rw [hends]
  decide

end Texts

end Dialect

namespace Fragment

open Dialect

/-! ## Fragments -/

section Grades

variable (d : Dialect) (allowed : Value → Prop)

/-- Literals can be written into the fragment wherever it is put outside of quotes, and no quote is
left open behind it. -/
def Clean (f : Fragment) : Prop :=
  ∀ t : Trail, t.IsOpen → f.Fits d allowed t ∧ (f.reach d t).IsOpen

/-- Literals can be written into the fragment wherever it is put outside of quotes and not behind a
hyphen, and no quote is left open behind it. -/
structure Tidy (f : Fragment) : Prop where
  fits : ∀ t : Trail, t.IsOpen → t ≠ .hyphen → f.Fits d allowed t
  isOpen_reach : ∀ t : Trail, t.IsOpen → (f.reach d t).IsOpen

variable {d allowed} {t : Trail} {f g : Fragment} {s : String} {v : Value}

theorem Clean.tidy (h : f.Clean d allowed) : f.Tidy d allowed :=
  ⟨fun t ht _ => (h t ht).1, fun t ht => (h t ht).2⟩

theorem reach_textThen (t : Trail) (s : String) (f : Fragment) :
    (textThen s f).reach d t = f.reach d (d.ends t s.toList) := by
  by_cases hs : s = ""
  · simp [hs, ends]
  cases f <;> simp [textThen, hs, reach, ends_append]

theorem placed_textThen (t : Trail) (s : String) (f : Fragment) :
    (textThen s f).placed d t = f.placed d (d.ends t s.toList) := by
  by_cases hs : s = ""
  · simp [hs, ends]
  cases f <;> simp [textThen, hs, placed, ends_append]

theorem reach_append (t : Trail) (f g : Fragment) :
    (f ++ g).reach d t = g.reach d (f.reach d t) := by
  induction f generalizing t with
  | empty => rfl
  | text s rest ih => rw [text_append, reach_textThen, ih]; rfl
  | literal v rest ih => exact ih _
  | subQuery inner rest _ ih => exact ih _

theorem placed_append (t : Trail) (f g : Fragment) :
    (f ++ g).placed d t = f.placed d t ++ g.placed d (f.reach d t) := by
  induction f generalizing t with
  | empty => rfl
  | text s rest ih => rw [text_append, placed_textThen, ih]; rfl
  | literal v rest ih => exact congrArg (_ :: ·) (ih _)
  | subQuery inner rest _ ih =>
    rw [subQuery_append, placed, ih, placed, List.append_assoc]; rfl

theorem fits_append :
    (f ++ g).Fits d allowed t ↔ f.Fits d allowed t ∧ g.Fits d allowed (f.reach d t) := by
  rw [Fits, placed_append, List.forall_mem_append]; rfl

/-! ### What the operations keep -/

theorem clean_empty : Fragment.empty.Clean d allowed :=
  fun _ ht => ⟨fun _ hp => (List.not_mem_nil hp).elim, ht⟩

theorem tidy_param (v : Value) : (param v).Tidy d allowed where
  fits t ht hne := by
    intro p hp
    obtain rfl := List.mem_singleton.mp hp
    exact ⟨ht, fun h => absurd h hne⟩
  isOpen_reach _ _ := Trail.isOpen_free

/-- An allowed literal may stand behind a hyphen. -/
theorem clean_param (hv : allowed v) : (param v).Clean d allowed := by
  intro t ht
  refine ⟨fun p hp => ?_, Trail.isOpen_free⟩
  obtain rfl := List.mem_singleton.mp hp
  exact ⟨ht, fun _ => hv⟩

theorem fits_nested : (nested f).Fits d allowed t ↔ f.Fits d allowed t := by
  rw [Fits, nested, placed, placed, List.append_nil]; rfl

theorem Tidy.nested (h : f.Tidy d allowed) : (nested f).Tidy d allowed :=
  ⟨fun t ht hne => fits_nested.mpr (h.fits t ht hne), h.isOpen_reach⟩

theorem Tidy.append (hf : f.Tidy d allowed) (hg : g.Clean d allowed) :
    (f ++ g).Tidy d allowed where
  fits t ht hne := fits_append.mpr ⟨hf.fits t ht hne, (hg _ (hf.isOpen_reach t ht)).1⟩
  isOpen_reach t ht := by
    rw [reach_append]
    exact (hg _ (hf.isOpen_reach t ht)).2

theorem Clean.append (hf : f.Clean d allowed) (hg : g.Clean d allowed) :
    (f ++ g).Clean d allowed := by
  intro t ht
  obtain ⟨hfits, hreach⟩ := hf t ht
  rw [fits_append, reach_append]
  exact ⟨⟨hfits, (hg _ hreach).1⟩, (hg _ hreach).2⟩

/-- Behind a text that leads, a tidy fragment is enough. -/
theorem clean_textThen (hs : d.Leads s) (hf : f.Tidy d allowed) :
    (textThen s f).Clean d allowed := by
  intro t ht
  obtain ⟨hopen, hne⟩ := hs t ht
  rw [Fits, placed_textThen, reach_textThen]
  exact ⟨hf.fits _ hopen hne, hf.isOpen_reach _ hopen⟩

/-- Behind a text that ends in a hyphen, the fragment has to be clean. -/
theorem Clean.textThen (hf : f.Clean d allowed) (hs : d.ClosesQuotes s) :
    (textThen s f).Clean d allowed := by
  intro t ht
  rw [Fits, placed_textThen, reach_textThen]
  exact hf _ (hs t ht)

theorem clean_sql (hs : d.ClosesQuotes s) : (sql s).Clean d allowed :=
  clean_empty.textThen hs

theorem tidy_join {separator : String} (hs : d.Leads separator) {fs : List Fragment}
    (h : ∀ f ∈ fs, f.Tidy d allowed) : (join separator fs).Tidy d allowed := by
  induction fs with
  | nil => exact clean_empty.tidy
  | cons f rest ih =>
    rw [List.forall_mem_cons] at h
    cases rest with
    | nil => exact h.1
    | cons g rest => exact h.1.append (clean_textThen hs (ih h.2))

theorem clean_wrap {before after : String} (hb : d.Leads before) (ha : d.ClosesQuotes after)
    (hf : f.Tidy d allowed) : (f.wrap before after).Clean d allowed :=
  clean_textThen hb (hf.append (clean_sql ha))

/-- What follows the text behind a fragment only has to be tidy. -/
theorem clean_wrap_append {before after : String} (hb : d.Leads before) (ha : d.Leads after)
    (hf : f.Tidy d allowed) (hg : g.Tidy d allowed) :
    (f.wrap before after ++ g).Clean d allowed := by
  rw [Fragment.wrap, textThen_append_left, append_assoc, sql, textThen_append_left, empty_append]
  exact clean_textThen hb (hf.append (clean_textThen ha hg))

theorem Clean.wrap {before after : String} (hf : f.Clean d allowed) (hb : d.ClosesQuotes before)
    (ha : d.ClosesQuotes after) : (f.wrap before after).Clean d allowed :=
  (hf.append (clean_sql ha)).textThen hb

theorem leads_paren : d.Leads "(" := leads_of_unquoted (by decide) rfl

theorem closesQuotes_paren : d.ClosesQuotes ")" := closesQuotes_of_unquoted (by decide)

theorem leads_comma : d.Leads ", " := leads_of_unquoted (by decide) rfl

theorem leads_blank : d.Leads " " := leads_of_unquoted (by decide) rfl

theorem clean_parenthesized (hf : f.Tidy d allowed) : f.parenthesized.Clean d allowed :=
  clean_wrap leads_paren closesQuotes_paren hf

theorem tidy_grouped (hf : f.Tidy d allowed) : f.grouped.Tidy d allowed := by
  rw [grouped]
  split
  · exact hf
  · exact (clean_parenthesized hf).tidy

theorem clean_call {name : String} (hname : d.ClosesQuotes name) {args : List Fragment}
    (h : ∀ f ∈ args, f.Tidy d allowed) : (call name args).Clean d allowed :=
  clean_wrap (hname.append_leads leads_paren) closesQuotes_paren (tidy_join leads_comma h)

theorem clean_operation {op : String} (hop : d.ClosesQuotes op) (hf : f.Tidy d allowed)
    (hg : g.Tidy d allowed) : (operation f op g).Clean d allowed :=
  clean_parenthesized (hf.append (clean_textThen
    ((leads_blank.closesQuotes.append hop).append_leads leads_blank) hg))

end Grades

end Fragment

end RowGraph
