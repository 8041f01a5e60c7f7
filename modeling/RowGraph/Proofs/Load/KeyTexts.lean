import RowGraph.Proofs.Load.Matching
import RowGraph.Proofs.Number.PlainText
import RowGraph.Proofs.Text.Distinct

/-!
# What match keys tell apart

A match key is a text that says of which kind a value is and which value of this kind. The text of
nearly every kind determines the value, over all magnitudes, years and characters; not-a-number has
one text, and integers have one however they are stored. In two places different keys match. An
integer is brought to sixty-four bits first: those above the greatest one all become the greatest,
those below the least one the least. And a leap second is written as the second after its own, so
where it does not end a minute it has the key of another time.

Results:
* `matchKey_of_integer?`, `matchKey_of_kind`: the key by the integer, or by the kind and its text.
* `clamp_eq_iff`: which integers become one.
* `eq_or_leaps_of_kindText`: which values of one kind have one text.
* `matchKey_eq_iff_alike`: two values match exactly if they are alike or conflated.
* `alike_distinctKeys_iff`: every key is asked for exactly if no two of them are conflated.
* **`match_keys_exact`**: so it is for the keys that are asked for and for the children of a parent.
-/

namespace RowGraph

namespace Value

/-- The integer that a value is, if it is one. -/
def integer? : Value → Option Int
  | .bool b => some (if b then 1 else 0)
  | .int i => some i.toInt
  | .float x => x.integer?
  | _ => none

/-- Equal values of one kind, not-a-number being equal to itself, or values that are one integer. -/
def alike (u v : Value) : Bool :=
  u.same v || (u == .float .nan && v == .float .nan) ||
    (u.integer?.isSome && u.integer? == v.integer?)

/-- Times of which one is a leap second and the other one lies in the second after it. -/
def leaps (u v : Value) : Bool :=
  match u, v with
  | .dateTime t, .dateTime s => t.leaps s
  | _, _ => false

/-- Different integers that are both beyond the same limit of sixty-four bits, or at it. -/
def clipped (u v : Value) : Bool :=
  match u.integer?, v.integer? with
  | some i, some j => i ≠ j && (Int64.maxValue.toInt ≤ i && Int64.maxValue.toInt ≤ j ||
      i ≤ Int64.minValue.toInt && j ≤ Int64.minValue.toInt)
  | _, _ => false

/-- Different values that have one key. -/
def conflated (u v : Value) : Bool := u.clipped v || u.leaps v

/-- The letter in front of the key. -/
def kind : Value → Char
  | .null => 'n'
  | .bool _ | .int _ => 'i'
  | .float _ => 'f'
  | .text _ => 's'
  | .bytes _ => 'b'
  | .date _ => 'd'
  | .dateTime _ => 't'
  | .uuid _ => 'u'

/-- The key behind the letter, of what is no integer. -/
def kindText : Value → String
  | .float x => FloatStyle.plain.render x
  | .text s => s
  | .bytes b => Text.hexOfBytes b
  | .date d => d.text
  | .dateTime t => t.text
  | .uuid u => u.text
  | _ => ""

/-! ## Integers -/

theorem toInt_clamp (i : Int) :
    (clamp i).toInt = max (-9223372036854775808) (min 9223372036854775807 i) :=
  Int64.toInt_ofInt_of_le (le_max_left _ _) (max_lt (by decide) (min_lt_of_left_lt (by decide)))

theorem clamp_eq_iff {i j : Int} : (clamp i).toInt = (clamp j).toInt ↔
    i = j ∨ Int64.maxValue.toInt ≤ i ∧ Int64.maxValue.toInt ≤ j ∨
      i ≤ Int64.minValue.toInt ∧ j ≤ Int64.minValue.toInt := by
  have hmax : Int64.maxValue.toInt = 9223372036854775807 := rfl
  have hmin : Int64.minValue.toInt = -9223372036854775808 := rfl
  rw [toInt_clamp, toInt_clamp, hmax, hmin]
  omega

theorem toInt_clamp_toInt (n : Int64) : (clamp n.toInt).toInt = n.toInt := by
  have hle := n.le_toInt
  have hlt := n.toInt_lt
  rw [toInt_clamp]
  omega

theorem matchKey_of_integer? {v : Value} {i : Int} (h : v.integer? = some i) (ignoreCase : Bool) :
    v.matchKey ignoreCase = some ("i:" ++ Text.ofInt (clamp i).toInt) := by
  cases v with
  | bool b =>
    cases h
    cases b <;> rfl
  | int n =>
    cases h
    rw [toInt_clamp_toInt]
    rfl
  | float x =>
    rw [integer?] at h
    rw [matchKey, h]
  | _ => cases h

/-! ## Kinds -/

theorem matchKey_of_kind {v : Value} (h : v.integer? = none) (hnull : v.isNull = false) :
    v.matchKey false = some (String.ofList [v.kind, ':'] ++ v.kindText) := by
  cases v with
  | null => cases hnull
  | bool b => cases h
  | int n => cases h
  | float x =>
    rw [integer?] at h
    rw [matchKey, h]
    rfl
  | _ => rfl

/-- The key of what is no integer is not the key of an integer. -/
theorem integerKey_ne {v : Value} (h : v.integer? = none) (i : Int) :
    v.matchKey false ≠ some ("i:" ++ Text.ofInt i) := by
  intro hkeys
  have hnull : v.isNull = false := by
    rw [← isNone_matchKey v false, hkeys]
    rfl
  rw [matchKey_of_kind h hnull] at hkeys
  have hletter : v.kind = 'i' := by
    simpa using congrArg (fun key : String => key.toList.head?) (Option.some.inj hkeys)
  cases v with
  | bool => cases h
  | int => cases h
  | _ => simp [kind] at hletter

/-- What is no integer is determined by its kind and its text, but for leap seconds. -/
theorem eq_or_leaps_of_kindText {u v : Value} (hu : u.integer? = none) (hv : v.integer? = none)
    (hkind : u.kind = v.kind) (h : u.kindText = v.kindText) : u = v ∨ u.leaps v = true := by
  cases u with
  | null => cases v with
    | null => exact .inl rfl
    | _ => simp [kind] at hkind
  | bool => cases hu
  | int => cases hu
  | float x => cases v with
    | float y => exact .inl (congrArg Value.float (FloatStyle.render_plain_inj h))
    | _ => simp [kind] at hkind
  | text s => cases v with
    | text t => exact .inl (congrArg Value.text h)
    | _ => simp [kind] at hkind
  | bytes b => cases v with
    | bytes c => exact .inl (congrArg Value.bytes (Text.hexOfBytes_inj h))
    | _ => simp [kind] at hkind
  | date d => cases v with
    | date e => exact .inl (congrArg Value.date (Date.text_inj h))
    | _ => simp [kind] at hkind
  | dateTime t => cases v with
    | dateTime s => exact (DateTime.text_eq_iff.mp h).imp_left (congrArg Value.dateTime)
    | _ => simp [kind] at hkind
  | uuid i => cases v with
    | uuid j => exact .inl (congrArg Value.uuid (Uuid.text_inj h))
    | _ => simp [kind] at hkind

theorem leaps_iff {u v : Value} : u.leaps v = true ↔
    ∃ t s, u = .dateTime t ∧ v = .dateTime s ∧ t.leaps s = true := by
  unfold leaps
  split
  · simp
  · next hne =>
    refine ⟨fun h => absurd h Bool.false_ne_true, ?_⟩
    rintro ⟨t, s, rfl, rfl, -⟩
    exact (hne t s rfl rfl).elim

/-- Such times have one key. -/
theorem matchKey_eq_of_leaps {u v : Value} (h : u.leaps v = true) :
    u.matchKey false = v.matchKey false := by
  obtain ⟨t, s, rfl, rfl, hleaps⟩ := leaps_iff.mp h
  rw [matchKey, matchKey, DateTime.text_eq_iff.mpr (.inr hleaps)]

/-! ## Values that are alike -/

/-- Equal values are the same one, except for numbers that are stored in another form. -/
theorem eq_or_equal_of_same {u v : Value} (h : u.same v = true) :
    u = v ∨ ∃ x y, u = .float x ∧ v = .float y ∧ x.equal y = true := by
  cases u with
  | float x => cases v with
    | float y => exact .inr ⟨x, y, rfl, rfl, h⟩
    | _ => exact .inl (eq_of_beq h)
  | _ => exact .inl (eq_of_beq h)

theorem integer?_zero {negative : Bool} {e : Nat} (canonical : Binary64.Canonical 0 e) :
    (Binary64.finite negative 0 e canonical).integer? = some 0 := by
  rw [Binary64.integer?, Nat.zero_mul, Nat.zero_mod, if_pos rfl, Nat.zero_div]
  cases negative <;> rfl

/-- Equal numbers are the same one, or both are zero. -/
theorem eq_or_zero_of_equal {x y : Binary64} (h : x.equal y = true) :
    x = y ∨ x.integer? = some 0 ∧ y.integer? = some 0 := by
  cases x with
  | nan => simp at h
  | infinite s => cases y with
    | infinite t =>
      rw [eq_of_beq (show (s == t) = true from h)]
      exact .inl rfl
    | _ => cases h
  | finite s m e hm => cases y with
    | finite t n f hn =>
      simp only [Binary64.equal, Bool.or_eq_true, Bool.and_eq_true, beq_iff_eq] at h
      rcases h with ⟨rfl, rfl⟩ | ⟨⟨rfl, rfl⟩, rfl⟩
      · exact .inr ⟨integer?_zero hm, integer?_zero hn⟩
      · exact .inl rfl
    | _ => cases h

/-- Two values are alike if they are the same or one integer. -/
theorem alike_iff {u v : Value} :
    u.alike v = true ↔ u = v ∨ ∃ i, u.integer? = some i ∧ v.integer? = some i := by
  have hints : (u.integer?.isSome && u.integer? == v.integer?) = true ↔
      ∃ i, u.integer? = some i ∧ v.integer? = some i := by
    cases u.integer? with
    | none => simp
    | some i => simpa using eq_comm
  rw [alike, Bool.or_eq_true, Bool.or_eq_true, Bool.and_eq_true, beq_iff_eq, beq_iff_eq, hints]
  constructor
  · rintro ((hsame | ⟨rfl, rfl⟩) | hint)
    · rcases eq_or_equal_of_same hsame with heq | ⟨x, y, rfl, rfl, hequal⟩
      · exact .inl heq
      · rcases eq_or_zero_of_equal hequal with rfl | hzero
        · exact .inl rfl
        · exact .inr ⟨0, hzero⟩
    · exact .inl rfl
    · exact .inr hint
  · rintro (rfl | hint)
    · by_cases hnan : u = .float .nan
      · exact .inl (.inr ⟨hnan, hnan⟩)
      · exact .inl (.inl (same_self hnan))
    · exact .inr hint

theorem clipped_iff {u v : Value} : u.clipped v = true ↔
    ∃ i j, u.integer? = some i ∧ v.integer? = some j ∧ i ≠ j ∧
      (clamp i).toInt = (clamp j).toInt := by
  rw [clipped]
  cases u.integer? with
  | none => simp
  | some i => cases v.integer? with
    | none => simp
    | some j =>
      simp only [Option.some.injEq, exists_and_left, exists_eq_left', clamp_eq_iff,
        Bool.and_eq_true, Bool.or_eq_true, decide_eq_true_eq]
      exact and_congr_right fun hne => (or_iff_right hne).symm

/-- Keys determine what is no integer, but for leap seconds. -/
theorem eq_or_leaps_of_matchKey {u v : Value} (hu : u.integer? = none) (hv : v.integer? = none)
    (h : u.matchKey false = v.matchKey false) : u = v ∨ u.leaps v = true := by
  cases hnull : u.isNull with
  | true =>
    refine .inl ?_
    rw [← isNone_matchKey u false, Option.isNone_iff_eq_none] at hnull
    rw [matchKey_eq_none_iff.mp hnull, matchKey_eq_none_iff.mp (h.symm.trans hnull)]
  | false =>
    have hnull' : v.isNull = false := by rw [← isNone_matchKey v false, ← h, isNone_matchKey, hnull]
    rw [matchKey_of_kind hu hnull, matchKey_of_kind hv hnull', Option.some_inj] at h
    have hlists := congrArg String.toList h
    simp only [String.toList_append, String.toList_ofList, List.cons_append, List.nil_append,
      List.cons.injEq, true_and] at hlists
    exact eq_or_leaps_of_kindText hu hv hlists.1 (String.toList_inj.mp hlists.2)

/-- Keys are equal for one value, for integers that become one and for times that are written
alike. -/
theorem matchKey_eq_iff {u v : Value} : u.matchKey false = v.matchKey false ↔
    u = v ∨ u.leaps v = true ∨ ∃ i j, u.integer? = some i ∧ v.integer? = some j ∧
      (clamp i).toInt = (clamp j).toInt := by
  constructor
  · intro h
    cases hi : u.integer? with
    | some i => cases hj : v.integer? with
      | some j =>
        rw [matchKey_of_integer? hi, matchKey_of_integer? hj, Option.some_inj,
          String.append_right_inj] at h
        exact .inr (.inr ⟨i, j, rfl, rfl, Text.ofInt_inj h⟩)
      | none => exact (integerKey_ne hj _ (h.symm.trans (matchKey_of_integer? hi false))).elim
    | none => cases hj : v.integer? with
      | some j => exact (integerKey_ne hi _ (h.trans (matchKey_of_integer? hj false))).elim
      | none => exact (eq_or_leaps_of_matchKey hi hj h).imp_right .inl
  · rintro (rfl | hleaps | ⟨i, j, hi, hj, h⟩)
    · rfl
    · exact matchKey_eq_of_leaps hleaps
    · rw [matchKey_of_integer? hi, matchKey_of_integer? hj, h]

/-- **Two values match exactly if they are alike or conflated.** -/
theorem matchKey_eq_iff_alike {u v : Value} : u.matchKey false = v.matchKey false ↔
    u.alike v = true ∨ u.conflated v = true := by
  rw [matchKey_eq_iff, alike_iff, conflated, Bool.or_eq_true, clipped_iff]
  constructor
  · rintro (heq | hleaps | ⟨i, j, hi, hj, h⟩)
    · exact .inl (.inl heq)
    · exact .inr (.inr hleaps)
    · by_cases hij : i = j
      · exact .inl (.inr ⟨i, hi, hij ▸ hj⟩)
      · exact .inr (.inl ⟨i, j, hi, hj, hij, h⟩)
  · rintro ((heq | ⟨i, hi, hj⟩) | ⟨i, j, hi, hj, -, h⟩ | hleaps)
    · exact .inl heq
    · exact .inr (.inr ⟨i, i, hi, hj, rfl⟩)
    · exact .inr (.inr ⟨i, j, hi, hj, h⟩)
    · exact .inr (.inl hleaps)

/-- Different integers are not alike, nor are different times. -/
theorem not_alike_of_conflated {u v : Value} (h : u.conflated v = true) : u.alike v = false := by
  rw [← Bool.not_eq_true, alike_iff]
  rw [conflated, Bool.or_eq_true, clipped_iff, leaps_iff] at h
  rcases h with ⟨i, j, hi, hj, hne, -⟩ | ⟨t, s, rfl, rfl, hleaps⟩
  · rintro (rfl | ⟨n, hn, hn'⟩)
    · exact hne (Option.some.inj (hi.symm.trans hj))
    · rw [Option.some.inj (hi.symm.trans hn), Option.some.inj (hj.symm.trans hn')] at hne
      exact hne rfl
  · rintro (heq | ⟨n, hn, -⟩)
    · cases heq
      rw [DateTime.not_leaps_self] at hleaps
      cases hleaps
    · cases hn

/-- A value is conflated with what something alike is conflated with. -/
theorem conflated_of_alike {u v w : Value} (h : u.alike v = true) (hw : v.conflated w = true) :
    u.conflated w = true := by
  rcases alike_iff.mp h with rfl | ⟨n, hn, hn'⟩
  · exact hw
  · rw [conflated, Bool.or_eq_true, clipped_iff] at hw ⊢
    rcases hw with ⟨i, j, hi, hj, hne, hclamp⟩ | hleaps
    · exact .inl ⟨i, j, hn.trans (hn'.symm.trans hi), hj, hne, hclamp⟩
    · obtain ⟨t, s, rfl, -, -⟩ := leaps_iff.mp hleaps
      cases hn'

/-- Null is conflated with nothing. -/
theorem isNull_of_conflated {u v : Value} (h : u.conflated v = true) :
    u.isNull = false ∧ v.isNull = false := by
  cases u with
  | null => cases h
  | _ => cases v with
    | null => simp [conflated, clipped, leaps, integer?] at h
    | _ => exact ⟨rfl, rfl⟩

end Value

/-! ## Keys that are asked for -/

/-- No two of the keys that are asked for match. -/
theorem pairwise_distinctKeys (ignoreCase : Bool) (seen : List String) (values : List Value) :
    (distinctKeys ignoreCase seen values).Pairwise fun u v =>
      u.matchKey ignoreCase ≠ v.matchKey ignoreCase := by
  induction values generalizing seen with
  | nil => exact .nil
  | cons v rest ih =>
    rw [distinctKeys]
    split
    next => exact ih seen
    next key hkey =>
      split
      next => exact ih seen
      next =>
        refine List.pairwise_cons.mpr ⟨fun u hu heq => ?_, ih (key :: seen)⟩
        obtain ⟨-, other, hother, hnew⟩ := mem_distinctKeys hu
        rw [hkey, hother, Option.some_inj] at heq
        exact hnew (heq ▸ List.mem_cons_self)

/-- The match of a value that is asked for. -/
theorem mem_distinctKeys_matching_iff (ignoreCase : Bool) {values : List Value} {u v : Value}
    (hv : v ∈ values) (hnull : v.isNull = false) :
    u ∈ distinctKeys ignoreCase [] values ∧ u.matchKey ignoreCase = v.matchKey ignoreCase ↔
      u = askedFor ignoreCase values v := by
  obtain ⟨key, hkey⟩ := Value.exists_matchKey hnull ignoreCase
  rw [hkey, ← List.mem_singleton (b := askedFor ignoreCase values v),
    ← filter_distinctKeys_eq_askedFor hv hkey, List.mem_filter, beq_iff_eq]

theorem exists_mem_distinctKeys {values : List Value} {v : Value} (hv : v ∈ values)
    (hnull : v.isNull = false) :
    ∃ u ∈ distinctKeys false [] values, u.alike v = true ∨ u.conflated v = true := by
  obtain ⟨hmem, hkeys⟩ := (mem_distinctKeys_matching_iff false hv hnull).mpr rfl
  exact ⟨_, hmem, Value.matchKey_eq_iff_alike.mp hkeys⟩

/-- Every key is asked for, as it is or in another form, exactly if no two of them are conflated. -/
theorem alike_distinctKeys_iff {values : List Value} :
    (∀ v ∈ values, v.isNull = false → ∃ u ∈ distinctKeys false [] values, u.alike v = true) ↔
      ∀ u ∈ values, ∀ v ∈ values, u.conflated v = false := by
  constructor
  · intro hasked u hu v hv
    by_contra hne
    have hconflated : u.conflated v = true := by simpa using hne
    obtain ⟨hunull, hvnull⟩ := Value.isNull_of_conflated hconflated
    obtain ⟨a, ha, hau⟩ := hasked u hu hunull
    obtain ⟨b, hb, hbv⟩ := hasked v hv hvnull
    -- Both are asked for by one key, to which they cannot both be alike.
    have hone : ∀ w ∈ distinctKeys false [] values, w.alike v = true ∨ w.conflated v = true →
        w = askedFor false values v := fun w hw hmatch =>
      (mem_distinctKeys_matching_iff false hv hvnull).mp
        ⟨hw, Value.matchKey_eq_iff_alike.mpr hmatch⟩
    have hav : a.conflated v = true := Value.conflated_of_alike hau hconflated
    rw [hone a ha (.inr hav), ← hone b hb (.inl hbv)] at hav
    exact Bool.false_ne_true ((Value.not_alike_of_conflated hav).symm.trans hbv)
  · intro hapart v hv hnull
    obtain ⟨u, hu, hmatch⟩ := exists_mem_distinctKeys hv hnull
    refine ⟨u, hu, hmatch.resolve_right ?_⟩
    rw [hapart u (mem_distinctKeys hu).1 v hv]
    exact Bool.false_ne_true

section Exact

open Loading Process

variable {c : Catalog} {e : Entity} {σ : Type}

/-- A parent gets the children whose key is alike to its own or conflated with it. -/
theorem outcome_stitchParent_eq (p : Plan c e) (field : Nat) (children : List NodeId)
    (parent : NodeId) (g : Graph c) (w : σ) :
    let key := p.parentKey g parent
    outcome (stitchParent false p field children parent) g w =
      if key.isNull then ((.ok (), g), w) else
        outcome (attachChildren p parent (children.filter fun child =>
          (g.valueAt child field).alike key || (g.valueAt child field).conflated key)) g w := by
  intro key
  cases hnull : key.isNull with
  | true => rw [outcome_stitchParent_of_isNull hnull, if_pos rfl]
  | false =>
    have hfound : ∀ u : Value, (u.matchKey false == key.matchKey false) =
        (u.alike key || u.conflated key) := fun u => by
      rw [Bool.eq_iff_iff, beq_iff_eq, Bool.or_eq_true, Value.matchKey_eq_iff_alike]
    rw [outcome_stitchParent_of_isNull_eq_false hnull, if_neg Bool.false_ne_true]
    exact congrArg (fun found => outcome (attachChildren p parent found) g w)
      (List.filter_congr fun child _ => hfound _)

/-- **Match keys are exact, but for integers beyond the limits of sixty-four bits and for leap
seconds that do not end a minute.** Two values have one key exactly if they are alike or conflated,
and conflated ones are not alike. No two keys that are asked for match. Of some values, those that
are not null have a match that is asked for; all of them have one that is alike exactly if no two
are conflated. A parent without a key is left alone, and others get the children whose key is alike
to theirs or conflated with it. -/
theorem match_keys_exact (u v : Value) (values : List Value) (p : Plan c e) (field : Nat)
    (children : List NodeId) (parent : NodeId) (g : Graph c) (w : σ) :
    (u.matchKey false = v.matchKey false ↔ u.alike v = true ∨ u.conflated v = true) ∧
    (u.conflated v = true → u.alike v = false) ∧
    ((distinctKeys false [] values).Pairwise fun a b =>
      a.alike b = false ∧ a.conflated b = false) ∧
    (∀ b ∈ values, b.isNull = false →
      ∃ a ∈ distinctKeys false [] values, a.alike b = true ∨ a.conflated b = true) ∧
    ((∀ b ∈ values, b.isNull = false → ∃ a ∈ distinctKeys false [] values, a.alike b = true) ↔
      ∀ a ∈ values, ∀ b ∈ values, a.conflated b = false) ∧
    let key := p.parentKey g parent
    outcome (stitchParent false p field children parent) g w =
      if key.isNull then ((.ok (), g), w) else
        outcome (attachChildren p parent (children.filter fun child =>
          (g.valueAt child field).alike key || (g.valueAt child field).conflated key)) g w := by
  refine ⟨Value.matchKey_eq_iff_alike, Value.not_alike_of_conflated, ?_,
    fun _ => exists_mem_distinctKeys, alike_distinctKeys_iff,
    outcome_stitchParent_eq p field children parent g w⟩
  refine (pairwise_distinctKeys false [] values).imp fun {a b} hne => ?_
  rw [ne_eq, Value.matchKey_eq_iff_alike, not_or, Bool.not_eq_true, Bool.not_eq_true] at hne
  exact hne

end Exact

namespace Sample

/-- The floating point number 10¹⁹. -/
def tenQuintillions : Binary64 := .finite false 4882812500000000 1085 (by decide)

/-- The floating point number 10²⁰. -/
def hundredQuintillions : Binary64 := .finite false 6103515625000000 1088 (by decide)

/-- Of two different numbers beyond the limit only the first one is asked for. -/
theorem one_key_of_quintillions :
    let u := Value.float tenQuintillions
    let v := Value.float hundredQuintillions
    tenQuintillions.integer? = some (10 ^ 19) ∧ hundredQuintillions.integer? = some (10 ^ 20) ∧
      u.alike v = false ∧ u.matchKey false = v.matchKey false ∧
      distinctKeys false [] [u, v] = [u] := by
  decide +kernel

/-- The leap second after the fourth second of a minute and the fifth second have one key. -/
example :
    let day : Date := ⟨2015, 6, 30, by decide⟩
    let u := Value.dateTime ⟨day, ⟨23, 56, 4, 1333333333, by decide⟩⟩
    let v := Value.dateTime ⟨day, ⟨23, 56, 5, 333333333, by decide⟩⟩
    u.alike v = false ∧ u.conflated v = true ∧ u.matchKey false = v.matchKey false := by
  decide +kernel

end Sample

end RowGraph
