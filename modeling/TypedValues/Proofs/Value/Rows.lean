import Mathlib
import TypedValues.Proofs.Value.Tuple
import TypedValues.Value.ListRelation
import TypedValues.Value.Relation

/-!
# Rows

The elements of a relation or list relation are tuples. When they are well typed they have a field for
each field of the element type, so that nothing is lost when they are read as tuples or as pairs.
-/

namespace TypedValues

namespace Value

variable {v : Value} {e t : Ty} {h : UniverseId} {vs xs : List Value} {fs gs : List Field}

lemma runtimeType_node {n : Option String} {s : String} {d : UniverseId}
    {annotations : List (String × Value)} (ht : t.resolved = .constructor h n s d fs) :
    (node t vs annotations).runtimeType = .sort h s := by
  simp [runtimeType, NodeValue.sort, Ty.sort?, ht]

/-- No value has the type `void`, and only tuples have tuple types. -/
lemma eq_tuple_of_runtimeType (hv : v.Typed)
    (ht : v.runtimeType.resolved = .void ∨ ∃ h fs, v.runtimeType.resolved = .tuple h fs) :
    ∃ t vs, v = .tuple t vs := by
  cases v with
  | tuple t vs => exact ⟨t, vs, rfl⟩
  | int n | real x | str s | loc l => simp [runtimeType, Ty.resolved] at ht
  | object t p =>
    obtain ⟨h, k, rfl⟩ := hv
    simp [runtimeType, Ty.resolved] at ht
  | list t vs =>
    obtain ⟨h, e, he⟩ := Ty.isList_iff.mp hv.1
    simp [runtimeType, he] at ht
  | set t vs =>
    obtain ⟨h, e, he⟩ := Ty.isSet_iff.mp hv.1
    simp [runtimeType, he] at ht
  | map t table es =>
    obtain ⟨k, v, hkv, -⟩ := hv
    obtain ⟨h, he⟩ := Ty.mapFields?_eq_some.mp hkv
    simp [runtimeType, he] at ht
  | node t vs annotations =>
    obtain ⟨h, n, s, d, fs, he⟩ := Ty.isConstructor_iff.mp hv.1
    simp [runtimeType_node he, Ty.resolved] at ht

/-- A value of a tuple type is a tuple with fields below those of the type. -/
lemma exists_tuple_of_hasType (hv : v.WellTyped) (he : e.resolved = .tuple h fs)
    (ht : v.hasType e = true) : ∃ x : TupleValue, v = x ∧ Ty.FieldsBelow x.ty.fields fs := by
  have hsub : v.runtimeType.subtype (.tuple h fs) = true :=
    he ▸ Ty.subtype_trans ht (Ty.subtype_resolved e)
  have htyped : v.Typed := (wellTyped_iff.mp hv).1
  by_cases hvoid : v.runtimeType.resolved = .void
  · obtain ⟨t, vs, rfl⟩ := eq_tuple_of_runtimeType htyped (Or.inl hvoid)
    obtain ⟨k, gs, hk⟩ := Ty.isTuple_iff.mp htyped.1
    simp [runtimeType, hk] at hvoid
  · obtain ⟨k, gs, hk, hb⟩ := Ty.exists_tuple_of_subtype hsub hvoid
    obtain ⟨t, vs, rfl⟩ := eq_tuple_of_runtimeType htyped (Or.inr ⟨k, gs, hk⟩)
    refine ⟨⟨t, vs⟩, rfl, ?_⟩
    rwa [Ty.fields_of_isTuple (show t.resolved = .tuple k gs from hk)]

lemma mem_tuples {x : TupleValue} : x ∈ xs.filterMap tuple? ↔ (x : Value) ∈ xs := by
  rw [List.mem_filterMap]
  constructor
  · rintro ⟨v, hv, hx⟩
    cases v <;> simp [tuple?] at hx
    rwa [← hx]
  · exact fun hx => ⟨x, hx, rfl⟩

lemma map_tuples (hx : ∀ v ∈ xs, ∃ t : TupleValue, v = t) :
    (xs.filterMap tuple?).map (·.toValue) = xs := by
  induction xs with
  | nil => rfl
  | cons v xs ih =>
    obtain ⟨t, rfl⟩ := hx v List.mem_cons_self
    rw [List.filterMap_cons_some (show tuple? (t : Value) = some t from rfl), List.map_cons,
      ih fun v hv => hx v (List.mem_cons_of_mem _ hv)]

lemma map_pairs {ts : List TupleValue} (ht : ∀ t ∈ ts, t.fields.length = 2) :
    (ts.filterMap TupleValue.pair?).map (fun p => [p.1, p.2]) = ts.map (·.fields) := by
  induction ts with
  | nil => rfl
  | cons t ts ih =>
    obtain ⟨a, b, hab⟩ := List.length_eq_two.mp (ht t List.mem_cons_self)
    have hp : t.pair? = some (a, b) := by rw [TupleValue.pair?, hab]
    rw [List.filterMap_cons_some hp, List.map_cons, List.map_cons,
      ih fun t h => ht t (List.mem_cons_of_mem _ h), hab]

lemma exists_tuple_of_mem_pairs {ts : List TupleValue} {p : Value × Value}
    (hp : p ∈ ts.filterMap TupleValue.pair?) : ∃ t ∈ ts, t.fields = [p.1, p.2] := by
  obtain ⟨t, ht, hp⟩ := List.mem_filterMap.mp hp
  refine ⟨t, ht, ?_⟩
  unfold TupleValue.pair? at hp
  split at hp
  · rename_i a b hab
    rw [hab, ← Option.some.inj hp]
  · simp at hp

lemma Fit.exists_field (hf : Fit vs fs) (hv : v ∈ vs) : ∃ f ∈ fs, v.hasType f.item = true := by
  induction hf with
  | nil => simp at hv
  | cons h _ ih =>
    rcases List.mem_cons.mp hv with rfl | hv
    · exact ⟨_, List.mem_cons_self, h⟩
    · obtain ⟨f, hf, hvf⟩ := ih hv
      exact ⟨f, List.mem_cons_of_mem _ hf, hvf⟩

/-- A tuple of two well-typed values. -/
lemma inhabits_pair {a c : Value} {f g : Field} {home : UniverseId}
    (ha : a.Inhabits f.item) (hc : c.Inhabits g.item) :
    (tuple (.tuple home [f, g]) [a, c]).Inhabits (.tuple home [f, g]) := by
  refine ⟨hasType_self _, wellTyped_tuple.mpr ⟨rfl, .cons ha.1 (.cons hc.1 .nil), fun v hv => ?_⟩⟩
  rcases List.mem_pair.mp hv with rfl | rfl
  · exact ha.2
  · exact hc.2

end Value

/-- The pairs `a`, `c` for the pairs `a`, `b` of the one list and `b`, `c` of the other. -/
def composedPairs (ty : Ty) (ps qs : List (Value × Value)) : List Value :=
  ps.flatMap fun (a, b) => (qs.filter fun (b', _) => b'.equal b).map fun (_, c) => .tuple ty [a, c]

lemma mem_composedPairs {ty : Ty} {ps qs : List (Value × Value)} {v : Value} :
    v ∈ composedPairs ty ps qs ↔
      ∃ p ∈ ps, ∃ q ∈ qs, q.1.equal p.2 = true ∧ v = .tuple ty [p.1, q.2] := by
  rw [composedPairs, List.mem_flatMap]
  refine exists_congr fun p => and_congr_right fun _ => ?_
  rw [List.mem_map]
  refine exists_congr fun q => ?_
  rw [List.mem_filter, and_assoc, eq_comm (a := v)]

/-- What a selection makes of tuples of a type, and its type: the values of one field, or tuples of
several fields. -/
inductive Selected (home : UniverseId) (e : Ty) (ts : List TupleValue) : List ℕ → Ty → List Value → Prop
  | column {i : ℕ} {f : Field} {vs : List Value} :
      e.fields[i]? = some f → ts.mapM (·.get i) = .ok vs → Selected home e ts [i] f.item vs
  | rows {is : List ℕ} {e' : Ty} {us : List TupleValue} :
      (∀ i, is ≠ [i]) → e.select home is = .ok e' →
        ts.mapM (TupleValue.select home · is) = .ok us →
          Selected home e ts is e' (us.map (·.toValue))

namespace Selected

variable {home : UniverseId} {e e' : Ty} {ts : List TupleValue} {is : List ℕ} {i : ℕ}
  {vs : List Value}

lemma column_iff : Selected home e ts [i] e' vs ↔
    ∃ f, e.fields[i]? = some f ∧ f.item = e' ∧ ts.mapM (·.get i) = .ok vs := by
  constructor
  · intro h
    cases h with
    | column hf hvs => exact ⟨_, hf, rfl, hvs⟩
    | rows hone _ _ => exact absurd rfl (hone i)
  · rintro ⟨f, hf, rfl, hvs⟩
    exact .column hf hvs

lemma rows_iff (hone : ∀ i, is ≠ [i]) : Selected home e ts is e' vs ↔
    e.select home is = .ok e' ∧
      ∃ us, ts.mapM (TupleValue.select home · is) = .ok us ∧ us.map (·.toValue) = vs := by
  constructor
  · intro h
    cases h with
    | column _ _ => exact absurd rfl (hone _)
    | rows _ he hus => exact ⟨he, _, hus, rfl⟩
  · rintro ⟨he, us, hus, rfl⟩
    exact .rows hone he hus

end Selected

/-- The elements are tuples of this arity, and reading them as tuples, or as pairs where the arity is
two, drops none of them. -/
structure Lossless (elements : List Value) (tuples : List TupleValue)
    (pairs : List (Value × Value)) (arity : ℕ) : Prop where
  tuples_eq : tuples.map (·.toValue) = elements
  arity_eq : ∀ t ∈ tuples, t.fields.length = arity
  pairs_eq : arity = 2 → pairs.map (fun p => [p.1, p.2]) = tuples.map (·.fields)

/-- Well-typed values of a tuple type. -/
structure Rows (e : Ty) (xs : List Value) : Prop where
  isTuple : e.isTuple = true
  typed : ∀ x ∈ xs, x.Inhabits e

namespace Rows

variable {e e' : Ty} {xs ys vs : List Value} {t : TupleValue} {v : Value} {home : UniverseId}
  {f g : Field} {is : List ℕ}

lemma exists_tuple (hx : Rows e xs) (hv : v ∈ xs) :
    ∃ x : TupleValue, v = x ∧ Ty.FieldsBelow x.ty.fields e.fields := by
  obtain ⟨h, fs, he⟩ := Ty.isTuple_iff.mp hx.isTuple
  rw [Ty.fields_of_isTuple he]
  exact Value.exists_tuple_of_hasType (hx.typed v hv).2 he (hx.typed v hv).1

/-- Reading well-typed rows as tuples drops none of them. -/
lemma map_tuples (hx : Rows e xs) : (xs.filterMap Value.tuple?).map (·.toValue) = xs :=
  Value.map_tuples fun _ hv => (hx.exists_tuple hv).imp fun _ ht => ht.1

lemma wellTyped (hx : Rows e xs) (ht : t ∈ xs.filterMap Value.tuple?) : (t : Value).WellTyped :=
  (hx.typed _ (Value.mem_tuples.mp ht)).2

lemma fieldsBelow (hx : Rows e xs) (ht : t ∈ xs.filterMap Value.tuple?) :
    Ty.FieldsBelow t.ty.fields e.fields := by
  obtain ⟨x, hxt, hb⟩ := hx.exists_tuple (Value.mem_tuples.mp ht)
  cases t
  cases x
  cases hxt
  exact hb

lemma fit (hx : Rows e xs) (ht : t ∈ xs.filterMap Value.tuple?) : Value.Fit t.fields e.fields :=
  (TupleValue.wellTyped_iff.mp (hx.wellTyped ht)).2.1.mono (hx.fieldsBelow ht)

lemma length_fields (hx : Rows e xs) (ht : t ∈ xs.filterMap Value.tuple?) :
    t.fields.length = e.fields.length := (hx.fit ht).length_eq

/-- Reading well-typed rows of two fields as pairs drops none of them. -/
lemma map_pairs (hx : Rows e xs) (he : e.fields.length = 2) :
    ((xs.filterMap Value.tuple?).filterMap TupleValue.pair?).map (fun p => [p.1, p.2]) =
      (xs.filterMap Value.tuple?).map (·.fields) :=
  Value.map_pairs fun _ ht => (hx.length_fields ht).trans he

lemma lossless {n : ℕ} (hx : Rows e xs) (hn : n = e.fields.length) :
    Lossless xs (xs.filterMap Value.tuple?)
      ((xs.filterMap Value.tuple?).filterMap TupleValue.pair?) n where
  tuples_eq := hx.map_tuples
  arity_eq _ ht := hn ▸ hx.length_fields ht
  pairs_eq h := hx.map_pairs (hn ▸ h)

lemma pair (hx : Rows e xs) (he : e.fields = [f, g]) {p : Value × Value}
    (hp : p ∈ (xs.filterMap Value.tuple?).filterMap TupleValue.pair?) :
    p.1.Inhabits f.item ∧ p.2.Inhabits g.item := by
  obtain ⟨t, ht, htp⟩ := Value.exists_tuple_of_mem_pairs hp
  have hfit := hx.fit ht
  have hvs := (TupleValue.wellTyped_iff.mp (hx.wellTyped ht)).2.2
  rw [he, htp] at hfit
  rw [htp] at hvs
  cases hfit with
  | cons hf hfit =>
    cases hfit with
    | cons hg _ => exact ⟨⟨hf, hvs _ (by simp)⟩, hg, hvs _ (by simp)⟩

/-- The values of one field. -/
lemma column {i : ℕ} (hx : Rows e xs) (hf : e.fields[i]? = some f)
    (hv : (xs.filterMap Value.tuple?).mapM (·.get i) = .ok vs) :
    ∀ v ∈ vs, v.Inhabits f.item := by
  intro v hmem
  obtain ⟨t, ht, hget⟩ := exists_of_mapM hv hmem
  have hget := TupleValue.get_eq_ok.mp hget
  exact ⟨(Value.fit_iff.mp (hx.fit ht)).2 i v f hget hf,
    (TupleValue.wellTyped_iff.mp (hx.wellTyped ht)).2.2 v (List.mem_of_getElem? hget)⟩

/-- Rows of some of the fields. -/
lemma select {us : List TupleValue} (hx : Rows e xs) (he : e.select home is = .ok e')
    (hu : (xs.filterMap Value.tuple?).mapM (TupleValue.select home · is) = .ok us) :
    Rows e' (us.map (·.toValue)) := by
  obtain ⟨-, selected, rfl, hsel⟩ := Ty.select_eq_ok he
  refine ⟨rfl, fun v hv => ?_⟩
  obtain ⟨u, hu', rfl⟩ := List.mem_map.mp hv
  obtain ⟨t, ht, hsu⟩ := exists_of_mapM hu hu'
  refine ⟨?_, TupleValue.wellTyped_select (hx.wellTyped ht) hsu⟩
  obtain ⟨-, selected', hty, hsel'⟩ := Ty.select_eq_ok (TupleValue.select_eq_ok hsu).1
  change u.ty.subtype (.tuple home selected) = true
  rw [hty]
  exact Ty.tuple_subtype_tuple.mpr (Ty.fieldsBelow_select (hx.fieldsBelow ht) hsel' hsel)

lemma selected {is : List ℕ} (hx : Rows e xs)
    (h : Selected home e (xs.filterMap Value.tuple?) is e' vs) : ∀ v ∈ vs, v.Inhabits e' := by
  cases h with
  | column hf hvs => exact hx.column hf hvs
  | rows _ he hus => exact (hx.select he hus).typed

/-- The pairs composed from well-typed pairs. -/
lemma composed {f' g' : Field} (hx : Rows e xs) (hy : Rows e' ys) (he : e.fields = [f, g])
    (he' : e'.fields = [f', g'])
    (hv : v ∈ composedPairs (.tuple home [f, g'])
      ((xs.filterMap Value.tuple?).filterMap TupleValue.pair?)
      ((ys.filterMap Value.tuple?).filterMap TupleValue.pair?)) :
    v.Inhabits (.tuple home [f, g']) := by
  obtain ⟨p, hp, q, hq, -, rfl⟩ := mem_composedPairs.mp hv
  exact Value.inhabits_pair (hx.pair he hp).1 (hy.pair he' hq).2

/-- All values in the rows have the join of the field types. -/
lemma carrier (hx : Rows e xs) (hv : v ∈ (xs.filterMap Value.tuple?).flatMap (·.fields)) :
    v.Inhabits (.joinAll home (e.fields.map (·.item))) := by
  obtain ⟨t, ht, hv⟩ := List.mem_flatMap.mp hv
  obtain ⟨f, hf, hvf⟩ := (hx.fit ht).exists_field hv
  exact ⟨Value.hasType_mono hvf (Ty.subtype_joinAll (List.mem_map_of_mem hf)),
    (TupleValue.wellTyped_iff.mp (hx.wellTyped ht)).2.2 v hv⟩

end Rows
end TypedValues
