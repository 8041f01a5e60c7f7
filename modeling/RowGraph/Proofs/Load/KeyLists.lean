import RowGraph.Graph.Load

/-!
# Keys in lists

A query for children asks for the rows whose key is in a list. The database compares keys as they
are stored, and in small letters where the statement says so; the loader compares match keys. Where
a key column holds texts only if it is one of texts, both are the same comparison.

* `lookedUp_eq`, `beq_storedKey`: a list is searched by stored keys, as if by match keys.
* `filter_distinctKeys`, `askedFor`: of the keys that match each other the first one is asked for.
* `filter_batches`: so the rows of all batches that match a key are those that a search for this one
  alone finds, in the order of the table.
-/

namespace RowGraph

namespace Value

/-- Equality of keys in the database: null is equal to nothing. -/
def sameKey (a b : Value) : Bool :=
  (a.matchKey false).isSome && a.matchKey false == b.matchKey false

/-- Null alone matches nothing. -/
theorem isNone_matchKey (v : Value) (ignoreCase : Bool) :
    (v.matchKey ignoreCase).isNone = v.isNull := by
  cases v <;> rfl

/-- What is not null has a match key. -/
theorem exists_matchKey {v : Value} (h : v.isNull = false) (ignoreCase : Bool) :
    ∃ key, v.matchKey ignoreCase = some key := by
  rw [← Option.isSome_iff_exists, ← Option.not_isNone, isNone_matchKey, h]
  rfl

/-- A key in small letters matches as the key does in any case. -/
theorem matchKey_lowered (v : Value) : v.lowered.matchKey false = v.matchKey true := by
  cases v <;> rfl

theorem matchKey_of_asText? {v : Value} (h : v.asText? = none) (ignoreCase : Bool) :
    v.matchKey ignoreCase = v.matchKey false := by
  cases v with
  | text s => cases h
  | _ => rfl

/-- A text matches only texts. -/
theorem matchKey_text_ne {v : Value} (h : v.asText? = none) (s : String)
    (ignoreCase other : Bool) : (Value.text s).matchKey ignoreCase ≠ v.matchKey other := by
  intro heq
  have hhead := congrArg (fun key => key.bind fun t : String => t.toList.head?) heq
  cases v with
  | text s => cases h
  | float x =>
    cases hx : x.integer? <;> simp [matchKey, hx] at hhead
  | _ => simp [matchKey] at hhead

theorem eq_text_of_asText? {v : Value} {s : String} (h : v.asText? = some s) : v = .text s := by
  cases v with
  | text t =>
    cases h
    rfl
  | _ => cases h

/-- Values that match as they are written match in any case. -/
theorem matchKey_eq_of_eq {u v : Value} (h : u.matchKey false = v.matchKey false)
    (ignoreCase : Bool) : u.matchKey ignoreCase = v.matchKey ignoreCase := by
  cases hu : u.asText? with
  | none =>
    cases hv : v.asText? with
    | none => rw [u.matchKey_of_asText? hu, v.matchKey_of_asText? hv, h]
    | some s =>
      obtain rfl := eq_text_of_asText? hv
      exact absurd h.symm (matchKey_text_ne hu s false false)
  | some s =>
    obtain rfl := eq_text_of_asText? hu
    cases hv : v.asText? with
    | none => exact absurd h (matchKey_text_ne hv s false false)
    | some t =>
      obtain rfl := eq_text_of_asText? hv
      obtain rfl : s = t := by simpa [matchKey] using h
      rfl

end Value

namespace Field

/-- Whether the database finds a value of the field in a list of keys; both are compared in small
letters where case is ignored and the field is one of texts. -/
def lookedUp (ignoreCase : Bool) (f : Field) (keys : List Value) (v : Value) : Bool :=
  if ignoreCase && f.type.isTextual then keys.any fun key => key.lowered.sameKey v.lowered
  else keys.any fun key => key.sameKey v

/-- The keys as a statement binds them. -/
def bound (ignoreCase : Bool) (f : Field) (keys : List Value) : List Value :=
  if ignoreCase && f.type.isTextual then keys.map Value.lowered else keys

/-- The key by which the database compares values of the field. -/
def storedKey (ignoreCase : Bool) (f : Field) (v : Value) : Option String :=
  v.matchKey (ignoreCase && f.type.isTextual)

/-- A list is searched by stored keys. -/
theorem lookedUp_eq (ignoreCase : Bool) (f : Field) (keys : List Value) (v : Value) :
    f.lookedUp ignoreCase keys v = keys.any fun key =>
      (f.storedKey ignoreCase key).isSome &&
        f.storedKey ignoreCase key == f.storedKey ignoreCase v := by
  unfold lookedUp storedKey Value.sameKey
  cases ignoreCase && f.type.isTextual with
  | true => simp [Value.matchKey_lowered]
  | false => rfl

/-- What is the same to the database matches. -/
theorem matchKey_eq_of_storedKey_eq {ignoreCase : Bool} {f : Field} {u v : Value}
    (h : f.storedKey ignoreCase u = f.storedKey ignoreCase v) :
    u.matchKey ignoreCase = v.matchKey ignoreCase := by
  unfold storedKey at h
  cases ignoreCase with
  | false => exact h
  | true =>
    cases ht : f.type.isTextual with
    | true => rwa [ht] at h
    | false =>
      rw [ht] at h
      exact Value.matchKey_eq_of_eq h true

/-- Where a field holds texts only if it is one of texts, what matches is the same to the
database. -/
theorem beq_storedKey {f : Field} {v : Value} (h : f.type.isTextual = false → v.asText? = none)
    (ignoreCase : Bool) (u : Value) :
    (f.storedKey ignoreCase u == f.storedKey ignoreCase v) =
      (u.matchKey ignoreCase == v.matchKey ignoreCase) := by
  unfold storedKey
  cases ignoreCase with
  | false => rfl
  | true =>
    cases ht : f.type.isTextual with
    | true => rfl
    | false =>
      -- The value is no text, so one that is matches it neither way.
      have hv := h ht
      change (u.matchKey false == v.matchKey false) = _
      cases hu : u.asText? with
      | none => rw [u.matchKey_of_asText? hu true, v.matchKey_of_asText? hv true]
      | some s =>
        obtain rfl := Value.eq_text_of_asText? hu
        have hne : ∀ ic, ((Value.text s).matchKey ic == v.matchKey ic) = false := fun ic =>
          beq_eq_false_iff_ne.mpr (Value.matchKey_text_ne hv s ic ic)
        rw [hne, hne]

end Field

/-! ## The keys that are asked for -/

/-- Of some values that match each other the first one is asked for, unless one was before. -/
theorem filter_distinctKeys (ignoreCase : Bool) (seen : List String) (values : List Value)
    (key : String) :
    (distinctKeys ignoreCase seen values).filter (fun v => v.matchKey ignoreCase == some key) =
      if key ∈ seen then []
      else (values.find? fun v => v.matchKey ignoreCase == some key).toList := by
  induction values generalizing seen with
  | nil => simp [distinctKeys]
  | cons v rest ih =>
    rw [distinctKeys]
    cases hv : v.matchKey ignoreCase with
    | none =>
      rw [List.find?_cons_of_neg (by simp [hv])]
      exact ih seen
    | some other =>
      dsimp only
      by_cases same : other = key
      · subst same
        rw [List.find?_cons_of_pos (by simp [hv])]
        by_cases asked : other ∈ seen
        · rw [if_pos asked, ih, if_pos asked, if_pos asked]
        · rw [if_neg asked, List.filter_cons_of_pos (by simp [hv]), ih,
            if_pos List.mem_cons_self, if_neg asked]
          rfl
      · rw [List.find?_cons_of_neg (by simp [hv, same])]
        by_cases asked : other ∈ seen
        · rw [if_pos asked, ih]
        · rw [if_neg asked, List.filter_cons_of_neg (by simp [hv, same]), ih]
          simp [Ne.symm same]

/-- The value that is asked for in the place of one of the values: the first that matches it. -/
def askedFor (ignoreCase : Bool) (values : List Value) (v : Value) : Value :=
  (values.find? fun u => u.matchKey ignoreCase == v.matchKey ignoreCase).getD v

theorem matchKey_askedFor (ignoreCase : Bool) (values : List Value) (v : Value) :
    (askedFor ignoreCase values v).matchKey ignoreCase = v.matchKey ignoreCase := by
  rw [askedFor]
  cases h : values.find? fun u => u.matchKey ignoreCase == v.matchKey ignoreCase with
  | none => rfl
  | some u =>
    have matching := List.find?_some h
    exact beq_iff_eq.mp matching

theorem isNull_askedFor (ignoreCase : Bool) (values : List Value) (v : Value) :
    (askedFor ignoreCase values v).isNull = v.isNull := by
  rw [← Value.isNone_matchKey _ ignoreCase, matchKey_askedFor, Value.isNone_matchKey]

/-- One of the values is asked for by exactly one of the distinct keys. -/
theorem filter_distinctKeys_eq_askedFor {ignoreCase : Bool} {values : List Value} {v : Value}
    (hv : v ∈ values) {key : String} (hkey : v.matchKey ignoreCase = some key) :
    (distinctKeys ignoreCase [] values).filter (fun u => u.matchKey ignoreCase == some key) =
      [askedFor ignoreCase values v] := by
  rw [filter_distinctKeys, if_neg List.not_mem_nil, askedFor, hkey]
  cases h : values.find? fun u => u.matchKey ignoreCase == some key with
  | none => exact absurd (beq_iff_eq.mpr hkey) (List.find?_eq_none.mp h v hv)
  | some u => rfl

/-- Values without a match key ask for nothing. -/
theorem distinctKeys_filter (ignoreCase : Bool) (seen : List String) (values : List Value) :
    distinctKeys ignoreCase seen (values.filter fun v => !v.isNull) =
      distinctKeys ignoreCase seen values := by
  induction values generalizing seen with
  | nil => rfl
  | cons v rest ih =>
    cases hv : v.matchKey ignoreCase with
    | none =>
      have hnull : v.isNull = true := by
        rw [Value.matchKey_eq_none_iff.mp hv]
        rfl
      simp [hnull, distinctKeys, hv, ih]
    | some key =>
      have hnull : v.isNull = false := by
        cases v <;> simp_all [Value.isNull, Value.matchKey]
      simp [hnull, distinctKeys, hv, ih]

/-! ## The rows of all batches -/

section Batches

variable {ρ ν κ : Type} [DecidableEq κ] {rows : List ρ} {allowed : ρ → Bool}
  {rowKey : ρ → Option κ} {key : ν → Option κ} {chosen : ρ → Bool} {asks : ν → Bool}

/-- The rows that a search for some values finds. -/
def found (rows : List ρ) (allowed : ρ → Bool) (rowKey : ρ → Option κ) (key : ν → Option κ)
    (values : List ν) : List ρ :=
  rows.filter fun r => allowed r && values.any fun v => (key v).isSome && key v == rowKey r

@[simp] theorem found_nil : found rows allowed rowKey key [] = [] := by
  simp [found]

variable (agree : ∀ r v, key v = rowKey r → chosen r = asks v)
include agree

/-- Where keys say which rows are chosen, those are found by the values that ask for them. -/
theorem filter_found (values : List ν) :
    (found rows allowed rowKey key values).filter chosen =
      found rows allowed rowKey key (values.filter asks) := by
  rw [found, found, List.filter_filter]
  refine List.filter_congr fun r _ => ?_
  rw [Bool.and_left_comm, List.any_filter, List.and_any_distrib_left]
  refine congrArg _ (congrArg values.any (funext fun v => ?_))
  by_cases same : key v = rowKey r
  · rw [agree r v same]
  · have apart : (key v == rowKey r) = false := beq_eq_false_iff_ne.mpr same
    rw [apart, Bool.and_false, Bool.and_false, Bool.and_false]

/-- Where at most one value asks for the chosen rows, they are found in at most one batch. -/
theorem filter_batches {bs : List (List ν)} (h : (bs.flatten.filter asks).length ≤ 1) :
    (bs.flatMap (found rows allowed rowKey key)).filter chosen =
      found rows allowed rowKey key (bs.flatten.filter asks) := by
  induction bs with
  | nil => simp
  | cons b rest ih =>
    rw [List.flatten_cons, List.filter_append, List.length_append] at h
    rw [List.flatMap_cons, List.filter_append, filter_found agree, ih (by omega),
      List.flatten_cons, List.filter_append]
    rcases Nat.eq_zero_or_pos (b.filter asks).length with none | some
    · rw [List.length_eq_zero_iff.mp none, found_nil, List.nil_append, List.nil_append]
    · have last : rest.flatten.filter asks = [] := List.length_eq_zero_iff.mp (by omega)
      rw [last, found_nil, List.append_nil, List.append_nil]

end Batches

end RowGraph
