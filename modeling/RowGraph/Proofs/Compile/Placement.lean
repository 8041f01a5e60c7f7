import RowGraph.Proofs.Compile.Parts

/-!
# Where the parts of an expression may stand

An expression is compiled as a whole or refused as a whole. Whether it is refused can be seen part
by part: each part is allowed or not by what it is, by the clause, by whether it lies below an
arithmetic operation or an aggregate, and, for the pattern of a search, by the value that is read
for it. No context gets lost on the way down, whatever lies between.

Results:
* `Allows`: the rules, one for each construct, said without the compiler.
* `Meets`: when a computation succeeds, and what it has read then; `meets_bind` composes.
* `meets_part`: a part compiles exactly if everything in it is allowed, and has then read its
  captured values once each, in the order `reads`.
* **`compile_succeeds_iff`**: so does an expression in a clause, without the one mark that the
  clause allows at the top.
-/

namespace RowGraph

open Attempt

/-! ## Parts in their places -/

/-- A part of an expression in its place: what it lies below, and the captured values that have been
read when it is compiled. -/
structure Place where
  part : Expr
  inArithmetic : Bool
  inAggregate : Bool
  before : List Nat

namespace Expr

mutual

/-- The sources of captured values in the order in which they are read. A comparison reads its own
values before it compiles its other operands, and a search for a text reads its pattern first. -/
def reads : Expr → List Nat
  | .captured source => [source]
  | .not e | .negate e | .isIn e _ | .aggregate _ e | .aliased e _ | .ordered e _ | .cast e _ =>
    e.reads
  | .compare _ left right =>
    left.ownReads ++ right.ownReads ++ (if left.isValue then [] else left.reads) ++
      (if right.isValue then [] else right.reads)
  | .connect _ left right | .compute _ left right => left.reads ++ right.reads
  | .coalesce args | .function _ args => readsOf args
  | .like _ e pattern => pattern.ownReads ++ e.reads
  | .column _ | .literal _ | .existence _ _ | .aggregateAll _ | .custom _ | .qualified _ _ _
  | .endOfTuple | .allFields _ _ => []

/-- The sources of several expressions. -/
def readsOf : List Expr → List Nat
  | [] => []
  | e :: rest => e.reads ++ readsOf rest

end

mutual

/-- The expression and all its parts, at every depth. The pattern of a search is no part: it is
read, not compiled. -/
def places (arithmetic aggregate : Bool) (before : List Nat) (e : Expr) : List Place :=
  ⟨e, arithmetic, aggregate, before⟩ ::
    match e with
    | .not e | .isIn e _ | .aliased e _ | .ordered e _ | .cast e _ =>
      e.places arithmetic aggregate before
    | .negate e => e.places true aggregate before
    | .compare _ left right =>
      let known := before ++ left.ownReads ++ right.ownReads
      left.places arithmetic aggregate known ++
        right.places arithmetic aggregate (known ++ if left.isValue then [] else left.reads)
    | .connect _ left right =>
      left.places arithmetic aggregate before ++
        right.places arithmetic aggregate (before ++ left.reads)
    | .compute _ left right =>
      left.places true aggregate before ++ right.places true aggregate (before ++ left.reads)
    | .coalesce args | .function _ args => placesOf arithmetic aggregate before args
    | .like _ e pattern => e.places arithmetic aggregate (before ++ pattern.ownReads)
    | .aggregate _ e => e.places arithmetic true before
    | .column _ | .literal _ | .captured _ | .existence _ _ | .aggregateAll _ | .custom _
    | .qualified _ _ _ | .endOfTuple | .allFields _ _ => []

/-- The parts of several expressions that are compiled one after the other. -/
def placesOf (arithmetic aggregate : Bool) (before : List Nat) : List Expr → List Place
  | [] => []
  | e :: rest =>
    e.places arithmetic aggregate before ++ placesOf arithmetic aggregate (before ++ e.reads) rest

end

/-- The expression without the mark that a clause allows at the top: a direction of an order item,
the name of an item of a projection. -/
def unmarked : Position → Expr → Expr
  | .orderItem, .ordered e _ => e
  | .projection, .aliased e _ => e
  | _, e => e

end Expr

/-! ## The rules -/

/-- Whether the entity has a field or a column of this name, in any case. -/
def Entity.HasField (e : Entity) (name : String) : Prop :=
  ∃ f ∈ e.fields, Text.sameName f.name name ∨ Text.sameName f.column name

namespace Compiler

variable (t : Compiler)

/-- Whether columns of the entity belong to one source: to the join's own, if the query knows the
entity under no other name; to the only one of the entity; or to the only one of the entity that was
not given an alias. -/
def Binds (entity : EntityType) : Prop :=
  (∃ own, t.target = some own ∧ own.entity = entity ∧
      ∀ s ∈ t.scope.sources, s.entity = entity → s.token t.catalog = own.token t.catalog) ∨
    (∃ s, t.scope.sources.filter (·.entity == entity) = [s]) ∨
    ∃ s, t.scope.sources.filter (fun s => s.entity == entity && !s.isExplicit) = [s]

/-- Whether the query has a source of this name, in any case. -/
def Knows (aliasName : String) : Prop :=
  ∃ s ∈ t.scope.sources, Text.sameName (s.token t.catalog) aliasName

/-- Whether the function with this name, in small letters, can be written with so many arguments. -/
def HasFunction (word : String) (count : Nat) : Prop :=
  word = "concat" ∨ (word = "coalesce" ∧ 2 ≤ count) ∨
    ((word = "lower" ∨ word = "upper") ∧ count = 1) ∨
    ∃ f ∈ t.dialect.ownFunctions ++ Dialect.commonFunctions, f.name = word

/-- Whether a pattern is a text, when these captured values have been read before. -/
def IsText (before : List Nat) (pattern : Expr) : Prop :=
  ∃ text, pattern = .literal (.text text) ∨
    ∃ source, pattern = .captured source ∧ t.readings before source = .text text

/-- Whether a part may stand in its place. -/
def Allows (position : Position) (p : Place) : Prop :=
  match p.part with
  | .aliased _ _ | .endOfTuple | .allFields _ _ | .ordered _ _ => False
  | .aggregate _ _ => position.allowsAggregates ∧ ¬ p.inAggregate
  | .aggregateAll f => position.allowsAggregates ∧ ¬ p.inAggregate ∧ f = .count
  | .isIn _ _ | .existence _ _ => ¬ p.inArithmetic
  | .column r => t.Binds r.entity ∧ (t.catalog.entity r.entity).HasField r.field
  | .qualified r aliasName kind =>
    (t.catalog.entity r.entity).HasField r.field ∧ (kind = .table → t.Knows aliasName)
  | .like _ _ pattern => t.IsText p.before pattern
  | .coalesce args => 2 ≤ args.length
  | .function name args => t.HasFunction (Text.lowerCase name) args.length
  | .literal _ | .captured _ | .not _ | .negate _ | .compare _ _ _ | .connect _ _ _
  | .compute _ _ _ | .custom _ | .cast _ _ => True

end Compiler

/-! ## The lookups behind the rules -/

namespace Entity

theorem hasField_of_field? {e : Entity} {name : String} {f : Field} (h : e.field? name = some f) :
    e.HasField name := by
  obtain ⟨i, hi, rfl⟩ := Option.map_eq_some_iff.mp h
  exact ⟨e.fieldAt i, List.get_mem _ _, fieldIndex?_sound hi⟩

theorem exists_field? {e : Entity} {name : String} (h : e.HasField name) :
    ∃ f, e.field? name = some f := by
  obtain ⟨f, hf, named⟩ := h
  have found : (e.fieldIndex? name).isSome := by
    unfold fieldIndex?
    simp only [Option.orElse_eq_orElse, Option.orElse_eq_or, Option.isSome_or,
      List.isSome_findFinIdx?]
    have last : e.fields.any (fun f => Text.sameName f.name name || Text.sameName f.column name) :=
      List.any_eq_true.mpr ⟨f, hf, by simpa using named⟩
    rw [last, Bool.or_true, Bool.or_true]
  obtain ⟨i, hi⟩ := Option.isSome_iff_exists.mp found
  exact ⟨e.fieldAt i, by rw [field?, hi]; rfl⟩

end Entity

theorem Scope.forEntity_isOk_iff (s : Scope) (entity : EntityType) :
    (∃ b, s.forEntity entity = .ok b) ↔
      (∃ b, s.sources.filter (·.entity == entity) = [b]) ∨
        ∃ b, s.sources.filter (fun b => b.entity == entity && !b.isExplicit) = [b] := by
  have inner : s.sources.filter (fun b => b.entity == entity && !b.isExplicit) =
      (s.sources.filter (·.entity == entity)).filter (!·.isExplicit) := by
    rw [List.filter_filter]
    exact List.filter_congr fun b _ => Bool.and_comm _ _
  rw [inner]
  unfold forEntity
  generalize s.sources.filter (·.entity == entity) = matching
  match matching with
  | [] => simp
  | [only] => simp
  | first :: next :: rest =>
    dsimp only
    generalize (first :: next :: rest).filter (!·.isExplicit) = implicit
    match implicit with
    | [] => simp
    | [only] => simp
    | _ :: _ :: _ => simp

namespace Compiler

variable (t : Compiler)

theorem isBoundTwice_eq_false_iff (target : Source) :
    t.isBoundTwice target = false ↔
      ∀ s ∈ t.scope.sources, s.entity = target.entity →
        s.token t.catalog = target.token t.catalog := by
  simp [isBoundTwice]

theorem entity_of_sourceOf {entity : EntityType} {s : Source} (h : t.sourceOf entity = .ok s) :
    s.entity = entity := by
  unfold sourceOf at h
  split at h
  · split at h
    · next own =>
      cases h
      simp only [Bool.and_eq_true, decide_eq_true_eq] at own
      exact own.1
    · exact (Scope.mem_of_forEntity h).2
  · exact (Scope.mem_of_forEntity h).2

theorem sourceOf_isOk_iff (entity : EntityType) :
    (∃ s, t.sourceOf entity = .ok s) ↔ t.Binds entity := by
  unfold sourceOf Binds
  rw [← Scope.forEntity_isOk_iff]
  cases htarget : t.target with
  | none => simp
  | some own =>
    by_cases hown : own.entity = entity ∧ t.isBoundTwice own = false
    · have known := (isBoundTwice_eq_false_iff t own).mp hown.2
      rw [hown.1] at known
      have itself : (own.entity = entity && !t.isBoundTwice own) = true := by simp [hown]
      simp only [itself, if_true]
      exact ⟨fun _ => .inl ⟨own, rfl, hown.1, known⟩, fun _ => ⟨own, rfl⟩⟩
    · have other : (own.entity = entity && !t.isBoundTwice own) = false := by
        simpa using hown
      simp only [other, Bool.false_eq_true, if_false]
      refine ⟨.inr, ?_⟩
      rintro (⟨own', hown', hentity, known⟩ | found)
      · cases hown'
        rw [← hentity] at known
        exact absurd ⟨hentity, (isBoundTwice_eq_false_iff t own).mpr known⟩ hown
      · exact found

theorem column_isOk_iff (x : Context) (r : ColumnRef) :
    (∃ f, t.column x r = .ok f) ↔
      t.Binds r.entity ∧ (t.catalog.entity r.entity).HasField r.field := by
  rw [← sourceOf_isOk_iff]
  unfold column resolve
  cases hs : t.sourceOf r.entity with
  | error why => simp [Except.map]
  | ok s =>
    dsimp only
    rw [entity_of_sourceOf t hs]
    cases hf : (t.catalog.entity r.entity).field? r.field with
    | none =>
      have missing : ¬ (t.catalog.entity r.entity).HasField r.field := by
        intro has
        obtain ⟨f, found⟩ := Entity.exists_field? has
        rw [hf] at found
        cases found
      simp [Except.map, missing]
    | some f => simp [Except.map, Entity.hasField_of_field? hf]

theorem byAlias_isOk_iff (aliasName : String) :
    (∃ s, t.scope.byAlias t.catalog aliasName = .ok s) ↔ t.Knows aliasName := by
  unfold Scope.byAlias Knows
  cases found : t.scope.sources.find? fun b => Text.sameName (b.token t.catalog) aliasName with
  | none => simpa using List.find?_eq_none.mp found
  | some s =>
    have named : Text.sameName (s.token t.catalog) aliasName = true := by
      simpa using List.find?_some found
    exact ⟨fun _ => ⟨s, List.mem_of_find?_eq_some found, named⟩, fun _ => ⟨s, rfl⟩⟩

theorem qualified_isOk_iff (x : Context) (r : ColumnRef) (aliasName : String)
    (kind : QualifierKind) :
    (∃ f, t.qualified x r aliasName kind = .ok f) ↔
      (t.catalog.entity r.entity).HasField r.field ∧ (kind = .table → t.Knows aliasName) := by
  rw [← byAlias_isOk_iff]
  unfold qualified
  cases hf : (t.catalog.entity r.entity).field? r.field with
  | none =>
    have missing : ¬ (t.catalog.entity r.entity).HasField r.field := by
      intro has
      obtain ⟨f, found⟩ := Entity.exists_field? has
      rw [hf] at found
      cases found
    simp [missing]
  | some f =>
    have has := Entity.hasField_of_field? hf
    cases t.scope.byAlias t.catalog aliasName <;> cases kind <;> simp [has]

theorem isSome_function?_iff (d : Dialect) (name : String) :
    (d.function? name).isSome ↔
      ∃ f ∈ d.ownFunctions ++ Dialect.commonFunctions, f.name = Text.lowerCase name := by
  rw [Dialect.function?, List.find?_isSome]
  simp only [beq_iff_eq]

theorem function_isOk_iff (name : String) (args : List Fragment) :
    (∃ f, t.function name args = .ok f) ↔ t.HasFunction (Text.lowerCase name) args.length := by
  rw [function_eq, HasFunction, ← isSome_function?_iff]
  generalize Text.lowerCase name = word
  split
  · next hconcat => simp [hconcat]
  split
  · next hcoalesce => simp [hcoalesce]
  split
  · next hlower => simp [hlower]
  split
  · next hupper => simp [hupper]
  · next hconcat hcoalesce hlower hupper =>
    have one : ¬ ((word = "lower" ∨ word = "upper") ∧ args.length = 1) := by
      rintro ⟨h | h, hl⟩
      · exact hlower ⟨h, hl⟩
      · exact hupper ⟨h, hl⟩
    cases t.dialect.function? name <;> simp [hconcat, hcoalesce, one]

theorem checkAggregate_isOk_iff (x : Context) (f : Aggregate) :
    (∃ u, checkAggregate x f = .ok u) ↔ x.position.allowsAggregates ∧ ¬ x.inAggregate := by
  unfold checkAggregate
  cases x.position.allowsAggregates <;> cases x.inAggregate <;> simp

theorem aggregateAll_isOk_iff (x : Context) (f : Aggregate) :
    (∃ fragment, aggregateAll x f = .ok fragment) ↔
      x.position.allowsAggregates ∧ ¬ x.inAggregate ∧ f = .count := by
  unfold aggregateAll checkAggregate
  cases x.position.allowsAggregates <;> cases x.inAggregate <;> cases f <;>
    simp [bind, Except.bind]

theorem isText_iff (before : List Nat) (pattern : Expr) :
    t.IsText before pattern ↔ ∃ text, t.valueAt before pattern = some (.text text) := by
  unfold IsText
  cases pattern <;> simp [valueAt]

end Compiler

/-! ## When a computation succeeds and what it has read then -/

/-- With the captured values `before` read, the computation succeeds exactly if `Q` holds, and it
has then read `new` more. -/
structure Meets {α : Type} (x : Compilation α) (before new : List Nat) (Q : Prop) : Prop where
  succeeds : (∃ a after, Runs x before a after) ↔ Q
  reads : ∀ a after, Runs x before a after → after = before ++ new

section Meets

variable {α β : Type} {x : Compilation α} {before new more : List Nat} {P Q : Prop}

theorem meets_pure (a : α) (before : List Nat) : Meets (pure a) before [] True where
  succeeds := ⟨fun _ => trivial, fun _ => ⟨a, before, rfl⟩⟩
  reads := by
    intro b after run
    obtain ⟨-, rfl⟩ := runs_pure.mp run
    exact (List.append_nil _).symm

theorem meets_throw (why : CompileError) (before new : List Nat) :
    Meets (throw why : Compilation α) before new False where
  succeeds := by simp
  reads := fun _ _ run => absurd run runs_throw

theorem meets_lift (r : Except CompileError α) (before : List Nat) :
    Meets (liftM r) before [] (∃ a, r = .ok a) where
  succeeds := by simp
  reads := by
    intro a after run
    obtain ⟨-, rfl⟩ := runs_lift.mp run
    exact (List.append_nil _).symm

theorem Meets.congr (h : Meets x before new P) (same : P ↔ Q) : Meets x before new Q :=
  ⟨h.succeeds.trans same, h.reads⟩

theorem meets_bind {f : α → Compilation β} (hx : Meets x before new P)
    (hf : ∀ a, Runs x before a (before ++ new) → Meets (f a) (before ++ new) more Q) :
    Meets (x >>= f) before (new ++ more) (P ∧ Q) where
  succeeds := by
    constructor
    · rintro ⟨b, after, run⟩
      obtain ⟨a, known, first, rest⟩ := runs_bind.mp run
      obtain rfl := hx.reads a known first
      exact ⟨hx.succeeds.mp ⟨a, _, first⟩, (hf a first).succeeds.mp ⟨b, after, rest⟩⟩
    · rintro ⟨hp, hq⟩
      obtain ⟨a, known, first⟩ := hx.succeeds.mpr hp
      obtain rfl := hx.reads a known first
      obtain ⟨b, after, rest⟩ := (hf a first).succeeds.mpr hq
      exact ⟨b, after, runs_bind.mpr ⟨a, _, first, rest⟩⟩
  reads := by
    intro b after run
    obtain ⟨a, known, first, rest⟩ := runs_bind.mp run
    obtain rfl := hx.reads a known first
    rw [(hf a first).reads b after rest, List.append_assoc]

theorem meets_return (f : α → β) (hx : Meets x before new P) :
    Meets (do return f (← x)) before new P := by
  have both := meets_bind hx fun a _ => meets_pure (f a) (before ++ new)
  rw [List.append_nil] at both
  exact both.congr ⟨And.left, fun hp => ⟨hp, trivial⟩⟩

/-- Some values have been read, and then it goes on like another computation. -/
theorem meets_of_ending {y : Compilation α} (h : ending x before = ending y (before ++ new))
    (hy : Meets y (before ++ new) more Q) : Meets x before (new ++ more) Q where
  succeeds := by
    rw [← hy.succeeds]
    simp only [Runs, h]
  reads := by
    intro a after run
    rw [Runs, h] at run
    rw [hy.reads a after run, List.append_assoc]

/-- A refusal in front of what follows. -/
theorem meets_unless (refused : Prop) [Decidable refused] (why : CompileError)
    {f : PUnit → Compilation α} (hf : Meets (f ⟨⟩) before new Q) :
    Meets (if refused then throw why >>= f else f ⟨⟩) before new (¬ refused ∧ Q) := by
  by_cases h : refused
  · rw [if_pos h]
    have ended : ending (throw why >>= f) before = ending (throw why) (before ++ []) := by
      rw [List.append_nil]
      rfl
    exact (meets_of_ending ended (meets_throw why _ new)).congr (by simp [h])
  · rw [if_neg h]
    exact hf.congr (by simp [h])

end Meets

namespace Compiler

variable (t : Compiler)

/-- There are as many fragments as parts. -/
theorem length_of_parts {x : Context} {es : List Expr} {before after : List Nat}
    {fs : List Fragment} (run : Runs (t.parts x es) before fs after) :
    fs.length = es.length := by
  induction es generalizing before fs with
  | nil =>
    rw [parts] at run
    obtain ⟨rfl, -⟩ := runs_pure.mp run
    rfl
  | cons e rest ih =>
    rw [parts] at run
    obtain ⟨f, known, -, others⟩ := runs_bind.mp run
    obtain ⟨gs, hgs, rfl⟩ := runs_return.mp others
    rw [List.length_cons, List.length_cons, ih hgs]

/-- An operand that is a value has been read already; any other one is compiled. -/
theorem meets_operand {x : Context} {e : Expr} {v : Option Value} {before : List Nat} {Q : Prop}
    (hv : v.isSome = e.isValue) (he : Meets (t.part x.value e) before e.reads Q)
    (hvalue : e.isValue = true → Q) :
    Meets (t.operand x e v) before (if e.isValue then [] else e.reads) Q := by
  cases v with
  | none =>
    rw [← hv]
    exact he
  | some v =>
    rw [← hv]
    exact (meets_pure _ before).congr ⟨fun _ => hvalue hv.symm, fun _ => trivial⟩

theorem meets_comparison {x : Context} (op : Comparison) {left right : Expr}
    {l r : Option Value} {before first second : List Nat} {P Q : Prop}
    (hl : l.isSome = left.isValue) (hr : r.isSome = right.isValue)
    (hleft : Meets (t.operand x left l) before (if left.isValue then [] else first) P)
    (hright : Meets (t.operand x right r) (before ++ if left.isValue then [] else first)
      (if right.isValue then [] else second) Q)
    (hP : left.isValue = true → P) (hQ : right.isValue = true → Q) :
    Meets (t.comparison x op left right l r) before
      ((if left.isValue then [] else first) ++ if right.isValue then [] else second) (P ∧ Q) := by
  obtain ⟨test, rfl, form⟩ | ⟨test, rfl, form⟩ | form := t.comparison_cases x op left right l r
  · rw [form, ← hr, Option.isSome_some, if_pos rfl, List.append_nil]
    exact (meets_return _ hleft).congr ⟨fun hp => ⟨hp, hQ hr.symm⟩, And.left⟩
  · rw [← hl, Option.isSome_some, if_pos rfl, List.append_nil] at hright
    rw [form, ← hl, Option.isSome_some, if_pos rfl, List.nil_append]
    exact (meets_return _ hright).congr ⟨fun hq => ⟨hP hl.symm, hq⟩, And.right⟩
  · rw [form]
    exact meets_bind hleft fun a _ => meets_return _ hright

theorem allows_value {position : Position} {e : Expr} (h : e.isValue = true)
    (arithmetic aggregate : Bool) (before : List Nat) :
    ∀ p ∈ e.places arithmetic aggregate before, t.Allows position p := by
  cases e <;> simp_all [Expr.isValue, Expr.places, Allows]

mutual

theorem meets_part (x : Context) (before : List Nat) : ∀ e : Expr,
    Meets (t.part x e) before e.reads
      (∀ p ∈ e.places x.inArithmetic x.inAggregate before, t.Allows x.position p)
  | .column r => by
    rw [part]
    refine (meets_lift _ before).congr ?_
    rw [column_isOk_iff]
    simp [Expr.places, Allows]
  | .literal v => by
    rw [part]
    exact (meets_pure _ before).congr (by simp [Expr.places, Allows])
  | .captured source => by
    rw [part]
    have read : ending (t.read source) before =
        ending (pure (t.readings before source)) (before ++ [source]) := rfl
    refine (meets_return _ (meets_of_ending read (meets_pure _ _))).congr ?_
    simp [Expr.places, Allows]
  | .not e => by
    rw [part]
    refine (meets_return _ (meets_part x.condition before e)).congr ?_
    simp [Expr.places, Allows, Context.condition]
  | .negate e => by
    rw [part]
    refine (meets_return _ (meets_part x.arithmetic before e)).congr ?_
    simp [Expr.places, Allows, Context.arithmetic]
  | .compare op left right => by
    have known := t.ending_compare x op left right before
    have hl := meets_operand t (isSome_valueAt t before left)
      (meets_part x.value (before ++ left.ownReads ++ right.ownReads) left)
      fun h => allows_value t h _ _ _
    have hr := meets_operand t (isSome_valueAt t (before ++ left.ownReads) right)
      (meets_part x.value (before ++ left.ownReads ++ right.ownReads ++
        if left.isValue then [] else left.reads) right)
      fun h => allows_value t h _ _ _
    have both := meets_comparison t op (isSome_valueAt t before left)
      (isSome_valueAt t (before ++ left.ownReads) right) hl hr (fun h => allows_value t h _ _ _)
      fun h => allows_value t h _ _ _
    rw [List.append_assoc before] at known both
    have all := meets_of_ending known both
    rw [← List.append_assoc, ← List.append_assoc before] at all
    refine all.congr ?_
    simp [Expr.places, Allows, Context.value, or_imp, forall_and]
  | .connect op left right => by
    rw [part]
    refine (meets_bind (meets_part x.condition before left) fun _ _ =>
      meets_return _ (meets_part x.condition (before ++ left.reads) right)).congr ?_
    simp [Expr.places, Allows, Context.condition, or_imp, forall_and]
  | .compute op left right => by
    rw [part]
    refine (meets_bind (meets_part x.arithmetic before left) fun _ _ =>
      meets_return _ (meets_part x.arithmetic (before ++ left.reads) right)).congr ?_
    simp [Expr.places, Allows, Context.arithmetic, or_imp, forall_and]
  | .coalesce args => by
    rw [part]
    refine (meets_unless _ .shortCoalesce
      (meets_return t.dialect.coalesce (meets_parts x.value before args))).congr ?_
    rw [Expr.places, List.forall_mem_cons]
    exact and_congr Nat.not_lt Iff.rfl
  | .function name args => by
    rw [part]
    have all := meets_bind (meets_parts x.value before args) fun fs run =>
      (meets_lift (t.function name fs) _).congr
        (by rw [function_isOk_iff, length_of_parts t run])
    rw [List.append_nil] at all
    refine all.congr (and_comm.trans ?_)
    simp [Expr.places, Allows, Context.value]
  | .like kind e pattern => by
    have hplaces : (∀ p ∈ (Expr.like kind e pattern).places x.inArithmetic x.inAggregate before,
        t.Allows x.position p) ↔ t.IsText before pattern ∧
        ∀ p ∈ e.places x.inArithmetic x.inAggregate (before ++ pattern.ownReads),
          t.Allows x.position p := by
      simp [Expr.places, Allows]
    rw [hplaces]
    by_cases htext : t.IsText before pattern
    · obtain ⟨text, hv⟩ := (isText_iff t before pattern).mp htext
      refine (meets_of_ending (ending_like_of_text t hv) (meets_return _
        (meets_part x.value (before ++ pattern.ownReads) e))).congr ?_
      simp [htext, Context.value]
    · have hv : ∀ text, t.valueAt before pattern ≠ some (.text text) :=
        fun text h => htext ((isText_iff t before pattern).mpr ⟨text, h⟩)
      refine (meets_of_ending (ending_like_of_ne_text t hv)
        (meets_throw (.unknownPattern kind) _ e.reads)).congr ?_
      simp [htext]
  | .isIn e source => by
    rw [part]
    refine (meets_unless _ .membershipInArithmetic
      (meets_return (t.membership · source) (meets_part x.value before e))).congr ?_
    simp [Expr.places, Allows, Context.value]
  | .existence negated query => by
    rw [part]
    have all := meets_unless (x.inArithmetic = true) .existenceInArithmetic
      (f := fun _ => pure ((Fragment.nested query).wrap
        (if negated then "NOT EXISTS (" else "EXISTS (") ")")) (meets_pure _ before)
    refine all.congr ?_
    simp [Expr.places, Allows]
  | .aggregate f arg => by
    rw [part]
    refine (meets_bind (meets_lift (checkAggregate x f) before) fun _ _ =>
      meets_return (t.aggregateOf f) (meets_part x.aggregate _ arg)).congr ?_
    rw [checkAggregate_isOk_iff]
    simp [Expr.places, Allows, Context.aggregate, and_assoc]
  | .aggregateAll f => by
    rw [part]
    refine (meets_lift _ before).congr ?_
    rw [aggregateAll_isOk_iff]
    simp [Expr.places, Allows]
  | .aliased e aliasName => by
    rw [part]
    exact (meets_throw _ before _).congr (by simp [Expr.places, Allows])
  | .custom sql => by
    rw [part]
    exact (meets_pure _ before).congr (by simp [Expr.places, Allows])
  | .qualified r aliasName kind => by
    rw [part]
    refine (meets_lift _ before).congr ?_
    rw [qualified_isOk_iff]
    simp [Expr.places, Allows]
  | .ordered e descending => by
    rw [part]
    exact (meets_throw _ before _).congr (by simp [Expr.places, Allows])
  | .endOfTuple => by
    rw [part]
    exact (meets_throw _ before _).congr (by simp [Expr.places, Allows])
  | .allFields entity aliasName => by
    rw [part]
    exact (meets_throw _ before _).congr (by simp [Expr.places, Allows])
  | .cast e type => by
    rw [part]
    refine (meets_return _ (meets_part x.value before e)).congr ?_
    simp [Expr.places, Allows, Context.value]

theorem meets_parts (x : Context) (before : List Nat) : ∀ es : List Expr,
    Meets (t.parts x es) before (Expr.readsOf es)
      (∀ p ∈ Expr.placesOf x.inArithmetic x.inAggregate before es, t.Allows x.position p)
  | [] => by
    rw [parts]
    exact (meets_pure _ before).congr (by simp [Expr.placesOf])
  | e :: rest => by
    rw [parts]
    refine (meets_bind (meets_part x before e) fun _ _ =>
      meets_return _ (meets_parts x (before ++ e.reads) rest)).congr ?_
    simp [Expr.placesOf, or_imp, forall_and]

end

/-- **An expression compiles in a clause exactly if every part of it is allowed in its place**, at
every depth, once the mark that the clause allows at the top is taken off. -/
theorem compile_succeeds_iff (position : Position) (e : Expr) :
    (∃ f, (t.compile position e).outcome = .ok f) ↔
      ∀ p ∈ (e.unmarked position).places false false [], t.Allows position p := by
  have known : ∀ item : Expr, Meets (t.part (Context.top position) item) [] item.reads
      (∀ p ∈ item.places false false [], t.Allows position p) :=
    meets_part t (Context.top position) []
  have whole : Meets (t.compile position e) [] (e.unmarked position).reads
      (∀ p ∈ (e.unmarked position).places false false [], t.Allows position p) := by
    unfold compile
    split
    · exact meets_return _ (known _)
    · exact meets_return _ (known _)
    · next hordered haliased =>
      have same : e.unmarked position = e := by
        unfold Expr.unmarked
        split
        · exact absurd rfl (hordered _ _ rfl)
        · exact absurd rfl (haliased _ _ rfl)
        · rfl
      rw [same]
      exact known e
  rw [← whole.succeeds]
  constructor
  · rintro ⟨f, outcome⟩
    exact ⟨f, _, Prod.ext outcome rfl⟩
  · rintro ⟨f, after, run⟩
    exact ⟨f, congrArg Prod.fst run⟩

end Compiler

end RowGraph
