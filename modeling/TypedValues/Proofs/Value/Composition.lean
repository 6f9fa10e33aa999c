import TypedValues.Proofs.Value.Lawful
import TypedValues.Proofs.Value.Relation

/-!
# Composition of relations

Where equality is an equivalence on the field values, the composition of two relations holds every pair
that it should, once up to equality. What is dropped on the way as a repetition does not show in further
compositions, so that they may be grouped in any way.
-/

namespace TypedValues

lemma Value.mem_pairs {xs : List Value} {p : Value × Value} :
    p ∈ (xs.filterMap Value.tuple?).filterMap TupleValue.pair? ↔
      ∃ ty, Value.tuple ty [p.1, p.2] ∈ xs := by
  constructor
  · intro hp
    obtain ⟨⟨ty, vs⟩, ht, hfields⟩ := Value.exists_tuple_of_mem_pairs hp
    have hmem := Value.mem_tuples.mp ht
    rw [show vs = [p.1, p.2] from hfields] at hmem
    exact ⟨ty, hmem⟩
  · rintro ⟨ty, hmem⟩
    exact List.mem_filterMap.mpr ⟨⟨ty, [p.1, p.2]⟩, Value.mem_tuples.mpr hmem, rfl⟩

namespace Relation

variable {P : Value → Prop} {R S : Value → Value → Prop} {home : UniverseId} {r s t u v : Relation}
  {fields : List Field} {a b c : Value} {ps qs : List (Value × Value)}

/-- The relation has a tuple of these two fields. -/
def Relates (r : Relation) (a b : Value) : Prop := ∃ ty, Value.tuple ty [a, b] ∈ r.toSet.elements

lemma mem_pairs {p : Value × Value} : p ∈ r.pairs ↔ r.Relates p.1 p.2 := Value.mem_pairs

/-- All fields of the pairs of the relation have the property. -/
def FieldsIn (P : Value → Prop) (r : Relation) : Prop := ∀ a b, r.Relates a b → P a ∧ P b

/-- The relation has a pair equal to this one. -/
def HasPair (r : Relation) (a c : Value) : Prop :=
  ∃ a' c', r.Relates a' c' ∧ a'.equal a = true ∧ c'.equal c = true

/-- The relation holds the pairs that satisfy a condition, each once up to equality, and nothing else. -/
structure Holds (P : Value → Prop) (R : Value → Value → Prop) (u : Relation) : Prop where
  pairs : ∀ x ∈ u.toSet.elements, ∃ a c, x = .tuple u.toSet.elementType [a, c] ∧ P a ∧ P c
  once : Unrepeated Value.equal u.toSet.elements
  hasPair_iff : ∀ a c, P a → P c → (u.HasPair a c ↔ R a c)

lemma equal_pairs {ty : Ty} {a b c d : Value} :
    (Value.tuple ty [a, b]).equal (.tuple ty [c, d]) = true ↔ a.equal c = true ∧ b.equal d = true := by
  rw [Value.equal_tuples]
  simp

namespace Holds

lemma tupleOver (hu : u.Holds P R) : ∀ x ∈ u.toSet.elements, Value.TupleOver P u.toSet.elementType x := by
  intro x hx
  obtain ⟨a, c, rfl, ha, hc⟩ := hu.pairs x hx
  exact ⟨[a, c], rfl, by simp [ha, hc]⟩

lemma fieldsIn (hu : u.Holds P R) : u.FieldsIn P := by
  rintro a b ⟨ty, hmem⟩
  obtain ⟨a', b', heq, ha, hb⟩ := hu.pairs _ hmem
  cases heq
  exact ⟨ha, hb⟩

/-- A relation with the same pairs up to equality covers this one. -/
lemma covers (hu : u.Holds P R) (hv : v.Holds P R)
    (hty : u.toSet.elementType = v.toSet.elementType) (hP : Value.Lawful P) :
    Covers Value.equal v.toSet.elements u.toSet.elements := by
  intro x hx
  obtain ⟨a, c, rfl, ha, hc⟩ := hu.pairs x hx
  have hpair : u.HasPair a c := ⟨a, c, ⟨_, hx⟩, hP.equivalence.refl ha, hP.equivalence.refl hc⟩
  obtain ⟨a', c', ⟨ty, hmem⟩, ha', hc'⟩ :=
    (hv.hasPair_iff a c ha hc).mpr ((hu.hasPair_iff a c ha hc).mp hpair)
  obtain ⟨a'', c'', heq, -⟩ := hv.pairs _ hmem
  cases heq
  refine ⟨_, hmem, ?_⟩
  rw [hty]
  exact equal_pairs.mpr ⟨ha', hc'⟩

/-- Relations of one type that hold the same pairs are equal. -/
lemma equal (hu : u.Holds P R) (hv : v.Holds P R) (hP : Value.Lawful P) (hty : u.ty = v.ty) :
    (u.toSet : Value).equal v.toSet = true := by
  have helement : u.toSet.elementType = v.toSet.elementType := congrArg Ty.elementType hty
  refine (hP.tuples u.toSet.elementType).equal_sets hu.tupleOver ?_ hu.once hv.once ?_ ?_ ?_
  · rw [helement]
    exact hv.tupleOver
  · rw [show u.toSet.ty = v.toSet.ty from hty]
    exact Value.comparable_self _
  · exact hv.covers hu helement.symm hP
  · exact hu.covers hv helement hP

lemma congr (hu : u.Holds P R) (h : ∀ a c, P a → P c → (R a c ↔ S a c)) : u.Holds P S where
  pairs := hu.pairs
  once := hu.once
  hasPair_iff a c ha hc := (hu.hasPair_iff a c ha hc).trans (h a c ha hc)

end Holds

/-- The relation over these fields with these pairs, repetitions dropped. -/
def ofPairs (home : UniverseId) (fields : List Field) (ps : List (Value × Value)) : Relation :=
  ofTuples home fields (ps.map fun p => .tuple (.tuple home fields) [p.1, p.2])

lemma holds_ofPairs (hP : Value.Lawful P) (hps : ∀ p ∈ ps, P p.1 ∧ P p.2) :
    (ofPairs home fields ps).Holds P
      fun a c => ∃ p ∈ ps, p.1.equal a = true ∧ p.2.equal c = true := by
  have hmem : ∀ x ∈ ps.map fun p => Value.tuple (.tuple home fields) [p.1, p.2],
      Value.TupleOver P (.tuple home fields) x := by
    intro x hx
    obtain ⟨p, hp, rfl⟩ := List.mem_map.mp hx
    exact ⟨_, rfl, by simp [hps p hp]⟩
  have htuples := hP.tuples (.tuple home fields)
  refine ⟨?_, Members.unrepeated_ofList htuples hmem, ?_⟩
  · intro x hx
    obtain ⟨p, hp, rfl⟩ := List.mem_map.mp (Members.mem_of_mem_ofList hx)
    exact ⟨p.1, p.2, rfl, hps p hp⟩
  · intro a c ha hc
    constructor
    · rintro ⟨a', c', ⟨ty, hx⟩, ha', hc'⟩
      obtain ⟨p, hp, heq⟩ := List.mem_map.mp (Members.mem_of_mem_ofList hx)
      cases heq
      exact ⟨p, hp, ha', hc'⟩
    · rintro ⟨p, hp, ha', hc'⟩
      obtain ⟨x, hx, hequal⟩ := Members.covers_ofList htuples hmem _ (List.mem_map_of_mem hp)
      obtain ⟨q, hq, rfl⟩ := List.mem_map.mp (Members.mem_of_mem_ofList hx)
      obtain ⟨hfirst, hsecond⟩ := equal_pairs.mp hequal
      exact ⟨q.1, q.2, ⟨_, hx⟩, hP.equivalence.trans (hps q hq).1 (hps p hp).1 ha hfirst ha',
        hP.equivalence.trans (hps q hq).2 (hps p hp).2 hc hsecond hc'⟩

/-- A pair of the one relation and one of the other meet in between. -/
def Through (r s : Relation) (a c : Value) : Prop :=
  ∃ x b b' z, r.Relates x b ∧ s.Relates b' z ∧ x.equal a = true ∧ b.equal b' = true ∧ z.equal c = true

/-- The first field of each pair and the second of each that meets it. -/
def composed (ps qs : List (Value × Value)) : List (Value × Value) :=
  ps.flatMap fun p => (qs.filter fun q => q.1.equal p.2).map fun q => (p.1, q.2)

lemma composedPairs_eq_map (ty : Ty) (ps qs : List (Value × Value)) :
    composedPairs ty ps qs = (composed ps qs).map fun p => .tuple ty [p.1, p.2] := by
  simp only [composedPairs, composed, List.map_flatMap, List.map_map]
  rfl

lemma mem_composed {p : Value × Value} : p ∈ composed ps qs ↔
    ∃ p' ∈ ps, ∃ q ∈ qs, q.1.equal p'.2 = true ∧ p = (p'.1, q.2) := by
  simp only [composed, List.mem_flatMap, List.mem_map, List.mem_filter, and_assoc, eq_comm (a := p)]

lemma exists_fields (har : r.arity = 2) : ∃ f g, r.toSet.elementType.fields = [f, g] :=
  List.length_eq_two.mp (r.arity_eq.symm.trans har)

lemma resolved_elementType (h : r.toSet.elementType.fields = fields) :
    ∃ k, r.toSet.elementType.resolved = .tuple k fields := by
  obtain ⟨k, fs, hr⟩ := Ty.isTuple_iff.mp (Ty.isTuple_elementType_of_isRelation r.isRelation)
  have hfs : fs = fields := (Ty.fields_of_isTuple hr).symm.trans h
  exact ⟨k, hfs ▸ hr⟩

/-- Binary relations can be composed, and the composition has the outer fields of their types. -/
lemma exists_compose {f g f' g' : Field} (home : UniverseId) (hfg : r.toSet.elementType.fields = [f, g])
    (hfg' : s.toSet.elementType.fields = [f', g']) :
    ∃ u, r.compose home s = .ok u ∧ u.ty = .set home (.tuple home [f, g']) := by
  have har : r.arity = 2 := by rw [arity_eq, hfg]; rfl
  have has : s.arity = 2 := by rw [arity_eq, hfg']; rfl
  have hfields : r.toSet.elementType.composedFields s.toSet.elementType = .ok [f, g'] := by
    refine bind_eq_ok.mpr ⟨_, Ty.tupleFieldsFor_eq_ok.mpr (resolved_elementType hfg), ?_⟩
    refine bind_eq_ok.mpr ⟨_, Ty.tupleFieldsFor_eq_ok.mpr (resolved_elementType hfg'), ?_⟩
    rfl
  exact ⟨_, compose_eq_ok.mpr ⟨har, has, _, hfields, rfl⟩, rfl⟩

/-- The fields of a relation over a tuple type. -/
lemma fields_of_ty (h : u.ty = .set home (.tuple home fields)) : u.toSet.elementType.fields = fields := by
  rw [show u.toSet.elementType = .tuple home fields from congrArg Ty.elementType h]
  rfl

lemma holds_compose (hP : Value.Lawful P) (hr : r.FieldsIn P) (hs : s.FieldsIn P)
    (h : r.compose home s = .ok u) : u.Holds P (r.Through s) := by
  obtain ⟨-, -, fields, -, rfl⟩ := compose_eq_ok.mp h
  have hps : ∀ p ∈ composed r.pairs s.pairs, P p.1 ∧ P p.2 := by
    intro p hp
    obtain ⟨p', hp', q, hq, -, rfl⟩ := mem_composed.mp hp
    exact ⟨(hr _ _ (mem_pairs.mp hp')).1, (hs _ _ (mem_pairs.mp hq)).2⟩
  rw [composedPairs_eq_map]
  refine (holds_ofPairs hP hps).congr fun a c ha hc => ?_
  constructor
  · rintro ⟨p, hp, hpa, hpc⟩
    obtain ⟨p', hp', q, hq, hmeet, rfl⟩ := mem_composed.mp hp
    have hp' := mem_pairs.mp hp'
    have hq := mem_pairs.mp hq
    have hmeet := hP.equivalence.symm (hs _ _ hq).1 (hr _ _ hp').2 hmeet
    exact ⟨p'.1, p'.2, q.1, q.2, hp', hq, hpa, hmeet, hpc⟩
  · rintro ⟨x, b, b', z, hxb, hbz, hxa, hmeet, hzc⟩
    have hmeet' := hP.equivalence.symm (hr _ _ hxb).2 (hs _ _ hbz).1 hmeet
    exact ⟨(x, z), mem_composed.mpr ⟨(x, b), mem_pairs.mpr hxb, (b', z), mem_pairs.mpr hbz, hmeet', rfl⟩,
      hxa, hzc⟩

/-- Two pairs through the composition of two relations are three pairs in a row. -/
lemma through_left_iff (ht : t.FieldsIn P) (hu : u.Holds P (r.Through s)) (ha : P a) :
    u.Through t a c ↔ ∃ x b b' y y' z, r.Relates x b ∧ s.Relates b' y ∧ t.Relates y' z ∧
      x.equal a = true ∧ b.equal b' = true ∧ y.equal y' = true ∧ z.equal c = true := by
  constructor
  · rintro ⟨x, y, y', z, hxy, hyz, hxa, hmeet, hzc⟩
    have hy' := (ht _ _ hyz).1
    obtain ⟨x', b, b', y'', hxb, hby, hx', hbb, hyy⟩ := (hu.hasPair_iff a y' ha hy').mp
      ⟨x, y, hxy, hxa, hmeet⟩
    exact ⟨x', b, b', y'', y', z, hxb, hby, hyz, hx', hbb, hyy, hzc⟩
  · rintro ⟨x, b, b', y, y', z, hxb, hby, hyz, hxa, hbb, hyy, hzc⟩
    have hy' := (ht _ _ hyz).1
    obtain ⟨x', y'', hx', hxa', hyy'⟩ := (hu.hasPair_iff a y' ha hy').mpr
      ⟨x, b, b', y, hxb, hby, hxa, hbb, hyy⟩
    exact ⟨x', y'', y', z, hx', hyz, hxa', hyy', hzc⟩

lemma through_right_iff (hP : Value.Lawful P) (hr : r.FieldsIn P) (hs : s.FieldsIn P)
    (hu : u.Holds P (s.Through t)) (hc : P c) : r.Through u a c ↔
      ∃ x b b' y y' z, r.Relates x b ∧ s.Relates b' y ∧ t.Relates y' z ∧ x.equal a = true ∧
        b.equal b' = true ∧ y.equal y' = true ∧ z.equal c = true := by
  constructor
  · rintro ⟨x, b, b', z, hxb, hbz, hxa, hmeet, hzc⟩
    have hb := (hr _ _ hxb).2
    have hb' := (hu.fieldsIn _ _ hbz).1
    obtain ⟨b'', y, y', z', hby, hyz, hbb, hyy, hz⟩ := (hu.hasPair_iff b c hb hc).mp
      ⟨b', z, hbz, hP.equivalence.symm hb hb' hmeet, hzc⟩
    exact ⟨x, b, b'', y, y', z', hxb, hby, hyz, hxa,
      hP.equivalence.symm (hs _ _ hby).1 hb hbb, hyy, hz⟩
  · rintro ⟨x, b, b', y, y', z, hxb, hby, hyz, hxa, hbb, hyy, hzc⟩
    have hb := (hr _ _ hxb).2
    have hbb' := hP.equivalence.symm hb (hs _ _ hby).1 hbb
    obtain ⟨b'', z', hbz, hbb'', hzc'⟩ := (hu.hasPair_iff b c hb hc).mpr
      ⟨b', y, y', z, hby, hyz, hbb', hyy, hzc⟩
    exact ⟨x, b, b'', z', hxb, hbz, hxa,
      hP.equivalence.symm (hu.fieldsIn _ _ hbz).1 hb hbb'', hzc'⟩

/-- Where equality is an equivalence on the field values and equal ones have equal contents: the composition
of two binary relations holds exactly the pairs of which some tuples of the two meet in between, each once,
and three relations may be composed in either grouping, with equal results of the identical type. -/
theorem compose_exact (home : UniverseId) (hP : Value.Lawful P) (hr : r.FieldsIn P) (hs : s.FieldsIn P)
    (ht : t.FieldsIn P) (har : r.arity = 2) (has : s.arity = 2) (hat : t.arity = 2) :
    ∃ rs st u v, r.compose home s = .ok rs ∧ s.compose home t = .ok st ∧
      rs.compose home t = .ok u ∧ r.compose home st = .ok v ∧ rs.Holds P (r.Through s) ∧
      (u.toSet : Value).equal v.toSet = true ∧ u.ty = v.ty := by
  obtain ⟨f₁, g₁, hfr⟩ := exists_fields har
  obtain ⟨f₂, g₂, hfs⟩ := exists_fields has
  obtain ⟨f₃, g₃, hft⟩ := exists_fields hat
  obtain ⟨rs, hrs, htyrs⟩ := exists_compose home hfr hfs
  obtain ⟨st, hst, htyst⟩ := exists_compose home hfs hft
  obtain ⟨u, hu, htyu⟩ := exists_compose home (fields_of_ty htyrs) hft
  obtain ⟨v, hv, htyv⟩ := exists_compose home hfr (fields_of_ty htyst)
  have hholds : rs.Holds P (r.Through s) := holds_compose hP hr hs hrs
  have hholdst : st.Holds P (s.Through t) := holds_compose hP hs ht hst
  have hleft := (holds_compose hP hholds.fieldsIn ht hu).congr fun a c ha _ =>
    through_left_iff ht hholds ha
  have hright := (holds_compose hP hr hholdst.fieldsIn hv).congr fun a c _ hc =>
    through_right_iff hP hr hs hholdst hc
  have hty : u.ty = v.ty := htyu.trans htyv.symm
  exact ⟨rs, st, u, v, hrs, hst, hu, hv, hholds, hleft.equal hright hP hty, hty⟩

/-- Two ways from 1 to 4 make one pair, and two steps further on there are the same pairs whichever step is
taken first. -/
theorem compose_exact_repetition :
    let edges : List (Int64 × Int64) → Relation := fun ps =>
      .ofPairs 0 [⟨.int, some "start"⟩, ⟨.int, some "stop"⟩] (ps.map fun p => (.int p.1, .int p.2))
    let r := edges [(1, 2), (1, 3)]
    let s := edges [(2, 4), (3, 4)]
    let t := edges [(4, 5), (4, 1)]
    Value.Lawful Value.Scalar ∧ r.FieldsIn Value.Scalar ∧ s.FieldsIn Value.Scalar ∧
      t.FieldsIn Value.Scalar ∧ r.arity = 2 ∧ s.arity = 2 ∧ t.arity = 2 ∧
      ∃ rs st u v, r.compose 0 s = .ok rs ∧ s.compose 0 t = .ok st ∧ rs.compose 0 t = .ok u ∧
        r.compose 0 st = .ok v ∧ rs.Holds Value.Scalar (r.Through s) ∧
        (u.toSet : Value).equal v.toSet = true ∧ u.ty = v.ty := by
  intro edges r s t
  have hP := Value.lawful_scalars
  have hedges (ps : List (Int64 × Int64)) : (edges ps).FieldsIn Value.Scalar := by
    refine (holds_ofPairs hP fun p hp => ?_).fieldsIn
    obtain ⟨q, -, rfl⟩ := List.mem_map.mp hp
    exact ⟨trivial, trivial⟩
  exact ⟨hP, hedges _, hedges _, hedges _, rfl, rfl, rfl,
    compose_exact 0 hP (hedges _) (hedges _) (hedges _) rfl rfl rfl⟩

end Relation
end TypedValues
