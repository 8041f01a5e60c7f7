import Mathlib.Data.List.Nodup
import RowGraph.Proofs.Query.Alike
import RowGraph.Proofs.Query.FilledTokens

/-!
# The order of named parameters

The parameters of a condition written by hand come under names, and in no order that means
anything. Names are compared in the form that a function gives them. It can give one form to several
names, and of parameters with one form the last one counts. So what a token stands for can depend on
the order in which the parameters happen to be listed.

Results:
* `Query.exists_perm_namedValue`: any parameter of a token's form is its value in some order.
* `Query.lacking_or_settled`: where the order changes no literal, a token has no value or none has
  two.
* **`named_parameters_in_any_order`**: with which parameters the order changes nothing, and for
  which forms of names that is so with all parameters of different names.
-/

namespace RowGraph

open Attempt RawText

/-! ## Texts filled alike -/

/-- Results that agree where both are successes are equal. -/
theorem Attempt.Results.eq_of {ε α : Type} {R : α → α → Prop} {r r' : Except ε α}
    (h : Results R r r') (same : ∀ a b, r = .ok a → r' = .ok b → a = b) : r = r' := by
  cases h with
  | ok _ => rw [same _ _ rfl rfl]
  | error why => rfl

theorem RawText.isName_of_mem_names {a : Alphabet} {cs : List Char} {ps : List Piece}
    (h : a.Reads cs ps) {name : List Char} (mem : name ∈ names ps) : a.IsName name := by
  induction h with
  | nil => cases mem
  | token isName _ ih =>
    obtain rfl | mem := List.mem_cons.mp mem
    · exact isName
    · exact ih mem
  | char _ _ ih => exact ih mem

/-- Tokens with the same values fill a text in the same way. -/
theorem RawText.fill_congr {ε : Type} {value value' : String → Except ε Value} {ps : List Piece}
    (h : ∀ name ∈ names ps, value (.ofList name) = value' (.ofList name)) :
    fill value ps = fill value' ps := by
  induction ps with
  | nil => rfl
  | cons p rest ih =>
    cases p with
    | char c => rw [fill, fill, ih h]
    | token name =>
      obtain ⟨first, others⟩ := List.forall_mem_cons.mp h
      rw [fill, fill, first, ih others]

/-- Two meanings of the tokens under which a text has the same literals agree on all its tokens. -/
theorem RawText.eq_of_fill {ε : Type} {value value' : String → Except ε Value} {ps : List Piece}
    {f g : Fragment} (hf : fill value ps = .ok f) (hg : fill value' ps = .ok g)
    (same : f.literals = g.literals) :
    ∀ name ∈ names ps, value (.ofList name) = value' (.ofList name) := by
  have left := forall₂_literals_fill hf
  have right := forall₂_literals_fill hg
  rw [← same] at right
  generalize names ps = tokens at left right
  generalize f.literals = literals at left right
  induction left with
  | nil => simp
  | cons hv _ ih =>
    obtain ⟨hv', rest⟩ := List.forall₂_cons.mp right
    exact List.forall_mem_cons.mpr ⟨hv.trans hv'.symm, ih rest⟩

namespace Query

variable {parameterName : String → String} {sql : String} {params order : List (String × Json)}

/-- The names of the tokens in a text. -/
def tokenNames (sql : String) : List (List Char) := names (pieces identifiers sql.toList)

/-- The condition, or the error, is the same in whatever order the parameters are listed. -/
def SameInAnyOrder (parameterName : String → String) (sql : String)
    (params : List (String × Json)) : Prop :=
  ∀ order, order.Perm params →
    namedFragment parameterName sql order = namedFragment parameterName sql params

/-- Some token has the form of no parameter. -/
def Lacking (parameterName : String → String) (sql : String) (params : List (String × Json)) :
    Prop :=
  ∃ name ∈ tokenNames sql, ∀ p ∈ params, parameterName p.1 ≠ parameterName (.ofList name)

/-- All parameters of a token's form have one value. -/
def Settled (parameterName : String → String) (sql : String) (params : List (String × Json)) :
    Prop :=
  ∀ name ∈ tokenNames sql, ∀ p ∈ params, ∀ p' ∈ params,
    parameterName p.1 = parameterName (.ofList name) →
    parameterName p'.1 = parameterName (.ofList name) → Value.ofJson p.2 = Value.ofJson p'.2

/-! ## One token -/

theorem namedValue_concat {rest : List (String × Json)} {p : String × Json} {name : String}
    (h : parameterName p.1 = parameterName name) :
    namedValue parameterName (rest ++ [p]) name = .ok (.ofJson p.2) := by
  simp [namedValue, h]

/-- Any parameter of a token's form is its value in some order. -/
theorem exists_perm_namedValue {p : String × Json} {name : String} (hp : p ∈ params)
    (h : parameterName p.1 = parameterName name) :
    ∃ order, order.Perm params ∧ namedValue parameterName order name = .ok (.ofJson p.2) := by
  obtain ⟨before, after, rfl⟩ := List.append_of_mem hp
  refine ⟨before ++ after ++ [p], ?_, namedValue_concat h⟩
  rw [List.append_assoc]
  exact List.perm_append_comm.append_left before

theorem namedValue_of_settled (h : order.Perm params) {name : List Char}
    (settled : ∀ p ∈ params, ∀ p' ∈ params, parameterName p.1 = parameterName (.ofList name) →
      parameterName p'.1 = parameterName (.ofList name) →
      Value.ofJson p.2 = Value.ofJson p'.2) :
    namedValue parameterName order (.ofList name) =
      namedValue parameterName params (.ofList name) := by
  have ends := results_namedValue parameterName (h.map Prod.fst) (.ofList name)
  refine ends.eq_of fun v w hv hw => ?_
  obtain ⟨p, hp, form, rfl⟩ := exists_mem_of_namedValue hv
  obtain ⟨p', hp', form', rfl⟩ := exists_mem_of_namedValue hw
  exact settled p (h.mem_iff.mp hp) p' hp' form form'

/-! ## A whole condition -/

theorem exists_namedFragment_iff :
    (∃ f, namedFragment parameterName sql params = .ok f) ↔
      ¬ Lacking parameterName sql params := by
  rw [namedFragment, exists_fill_iff]
  simp only [exists_namedValue_iff, Lacking, tokenNames]
  push Not
  rfl

/-- With a token without a value, or none with two, the order changes nothing. -/
theorem sameInAnyOrder_of
    (h : Lacking parameterName sql params ∨ Settled parameterName sql params) :
    SameInAnyOrder parameterName sql params := by
  intro order perm
  obtain lacking | settled := h
  · have values := results_namedValue parameterName (perm.map Prod.fst)
    refine (results_fill values _).eq_of fun f g _ hg => ?_
    exact absurd lacking (exists_namedFragment_iff.mp ⟨g, hg⟩)
  · exact fill_congr fun name mem => namedValue_of_settled perm (settled name mem)

/-- Where the order changes no literal, a token has no value or none has two. -/
theorem lacking_or_settled
    (h : ∀ order, order.Perm params → ∀ f g, namedFragment parameterName sql order = .ok f →
      namedFragment parameterName sql params = .ok g → f.literals = g.literals) :
    Lacking parameterName sql params ∨ Settled parameterName sql params := by
  by_cases lacking : Lacking parameterName sql params
  · exact .inl lacking
  refine .inr fun name mem p hp p' hp' form form' => ?_
  obtain ⟨g, hg⟩ := exists_namedFragment_iff.mpr lacking
  have value_eq {p : String × Json} (hp : p ∈ params)
      (form : parameterName p.1 = parameterName (.ofList name)) :
      .ok (Value.ofJson p.2) = namedValue parameterName params (.ofList name) := by
    obtain ⟨order, perm, last⟩ := exists_perm_namedValue hp form
    have made : ¬ Lacking parameterName sql order := by
      simpa only [Lacking, perm.mem_iff] using lacking
    obtain ⟨f, hf⟩ := exists_namedFragment_iff.mpr made
    rw [← last]
    exact eq_of_fill hf hg (h order perm f g hf hg) name mem
  exact Except.ok.inj ((value_eq hp form).trans (value_eq hp' form').symm)

theorem sameInAnyOrder_iff :
    SameInAnyOrder parameterName sql params ↔
      Lacking parameterName sql params ∨ Settled parameterName sql params := by
  refine ⟨fun same => lacking_or_settled fun order perm f g hf hg => ?_, sameInAnyOrder_of⟩
  have equal := same order perm
  rw [hf, hg] at equal
  rw [Except.ok.inj equal]

/-! ## Forms of names -/

/-- A text that is one token. -/
theorem tokenNames_braced {name : List Char} (h : identifiers.IsName name) :
    tokenNames (.ofList (braced name)) = [name] := by
  have token := token?_braced (a := identifiers) (by decide) h []
  rw [List.append_nil] at token
  rw [tokenNames, String.toList_ofList, pieces_of_token? token]
  simp [pieces, token?, names, Piece.name?]

/-- No other name has the form of a token's name. -/
def TellsTokensApart (parameterName : String → String) : Prop :=
  ∀ name, identifiers.IsName name → ∀ key,
    parameterName key = parameterName (.ofList name) → key = .ofList name

theorem settled_of_tellsTokensApart (apart : TellsTokensApart parameterName)
    (distinct : (params.map Prod.fst).Nodup) : Settled parameterName sql params := by
  intro name mem p hp p' hp' form form'
  have isName := isName_of_mem_names (reads_pieces (by decide) _) mem
  have same : p.1 = p'.1 :=
    (apart name isName p.1 form).trans (apart name isName p'.1 form').symm
  rw [List.inj_on_of_nodup_map distinct hp hp' same]

/-- With two names of one form there are parameters whose order matters. -/
theorem tellsTokensApart_of
    (h : ∀ sql params, (params.map Prod.fst).Nodup → SameInAnyOrder parameterName sql params) :
    TellsTokensApart parameterName := by
  intro name isName key form
  refine Decidable.byContradiction fun other => ?_
  let params : List (String × Json) := [(.ofList name, .bool true), (key, .bool false)]
  have distinct : (params.map Prod.fst).Nodup := by simpa [params] using Ne.symm other
  have mem : name ∈ tokenNames (.ofList (braced name)) := by simp [tokenNames_braced isName]
  obtain ⟨token, among, none⟩ | settled := sameInAnyOrder_iff.mp (h _ params distinct)
  · rw [tokenNames_braced isName, List.mem_singleton] at among
    exact none (.ofList name, .bool true) (by simp [params]) (by rw [among])
  · have equal := settled name mem (.ofList name, .bool true) (by simp [params])
      (key, .bool false) (by simp [params]) rfl form
    cases equal

end Query

open Query in
/-- **When the order of named parameters does not matter.** In all orders a condition written by
hand, or the error in its place, is the same exactly if some token has the form of no parameter or
all parameters of a token's form have one value. That is so with all parameters of different names
exactly if no other name has the form of a token's name. What a call does to a query depends on the
order just as the condition does. -/
theorem named_parameters_in_any_order (parameterName : String → String) :
    (∀ sql params, SameInAnyOrder parameterName sql params ↔
      Lacking parameterName sql params ∨ Settled parameterName sql params) ∧
    ((∀ sql params, (params.map Prod.fst).Nodup → SameInAnyOrder parameterName sql params) ↔
      TellsTokensApart parameterName) ∧
    ∀ (c : Catalog) (readings : Readings) (q : Query c) sql params,
      (∀ order, order.Perm params →
        (Call.filterNamed sql order).apply ⟨readings, parameterName⟩ q =
          (Call.filterNamed sql params).apply ⟨readings, parameterName⟩ q) ↔
        SameInAnyOrder parameterName sql params := by
  refine ⟨fun _ _ => sameInAnyOrder_iff, ⟨tellsTokensApart_of, fun apart sql params distinct =>
    sameInAnyOrder_of (.inr (settled_of_tellsTokensApart apart distinct))⟩,
    fun c readings q sql params => ?_⟩
  let env : Environment := ⟨readings, parameterName⟩
  have applied (list : List (String × Json)) := (Handwritten.named sql list).apply_call env q
  simp only [Handwritten.call, Handwritten.fragment, Handwritten.added] at applied
  constructor
  · intro same
    refine sameInAnyOrder_of (lacking_or_settled fun order perm f g hf hg => ?_)
    have equal := same order perm
    rw [applied order, applied params, hf, hg] at equal
    have chains := congrArg (fun ending => ending.2.filter.literals) equal
    simpa only [FilterChain.literals_push, List.append_cancel_left_eq] using chains
  · intro same order perm
    have equal : namedFragment env.parameterName sql order =
        namedFragment env.parameterName sql params := same order perm
    rw [applied order, applied params, equal]

namespace Sample

/-- The condition on a tenant. -/
def tenantTest : String := "Id = \x7btenantId\x7d"

/-- Where letters count in either case, the tenant is the one that is listed last. -/
theorem not_sameInAnyOrder_tenantTest :
    let one : String × Json := ("tenantId", .integer 1)
    let two : String × Json := ("TENANTID", .integer 2)
    ([one, two].map Prod.fst).Nodup ∧
      Query.namedFragment Text.asciiLower tenantTest [one, two] =
        .ok (.textThen "Id = " (.param (.int 2))) ∧
      Query.namedFragment Text.asciiLower tenantTest [two, one] =
        .ok (.textThen "Id = " (.param (.int 1))) ∧
      ¬ Query.SameInAnyOrder Text.asciiLower tenantTest [one, two] := by
  intro one two
  have lastTwo : Query.namedFragment Text.asciiLower tenantTest [one, two] =
      .ok (.textThen "Id = " (.param (.int 2))) := by
    decide +kernel
  have lastOne : Query.namedFragment Text.asciiLower tenantTest [two, one] =
      .ok (.textThen "Id = " (.param (.int 1))) := by
    decide +kernel
  refine ⟨by decide, lastTwo, lastOne, fun same => ?_⟩
  have equal := same [two, one] (.swap one two [])
  rw [lastTwo, lastOne] at equal
  exact absurd equal (by decide)

end Sample

end RowGraph
