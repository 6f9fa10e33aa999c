import TypedValues.Proofs.Value.Lawful
import TypedValues.Proofs.Value.Mirror
import TypedValues.Proofs.Value.Reachable

/-!
# Relations made of list relations

Writing the tuples of a list relation to a set drops repetitions. As each tuple that is dropped equals one
that is kept, field by field, what the set yields under an operation covers what the list does, and
dropping repetitions from either comes to the same set.
-/

namespace TypedValues

/-! ### Writing to a set -/

section Writing
variable {home : UniverseId} {vs : List Value} {e : Ty} {l : ListValue} {r : ListRelation}

/-- The set that a writer of the element type makes of a list. -/
def ListValue.written (home : UniverseId) (l : ListValue) : Except Error SetValue := do
  let w ← (SetWriter.new home l.elementType).insertAll l.elements
  return w.finish.1

/-- The relation that a writer of the element type makes of a list relation. -/
def ListRelation.written (home : UniverseId) (r : ListRelation) : Except Error Relation := do
  let w ← (SetWriter.new home r.toList.elementType).insertAll r.toList.elements
  w.finishRelation.1

/-- The relation has the tuples of the list relation, repetitions dropped. -/
def ListRelation.WrittenAs (home : UniverseId) (l : ListRelation) (r : Relation) : Prop :=
  r.toSet = ⟨.set home l.toList.elementType, Members.ofList l.toList.elements⟩

/-- A new writer takes all values that have its element type, and keeps no repetitions. -/
lemma SetWriter.insertAll_new (home : UniverseId) (h : ∀ v ∈ vs, v.hasType e = true) :
    (new home e).insertAll vs = .ok ⟨.set home e, .filling (Members.ofList vs)⟩ := by
  refine Phase.write_eq_ok.mpr ⟨[], rfl, forM_eq_ok.mpr fun v hv => ?_, rfl⟩
  exact Value.checkBound_eq_ok.mpr (h v hv)

lemma ListValue.written_eq_ok (home : UniverseId) (hl : (l : Value).WellTyped) :
    l.written home = .ok ⟨.set home l.elementType, Members.ofList l.elements⟩ := by
  have h := SetWriter.insertAll_new home fun v hv => ((wellTyped_iff.mp hl).2 v hv).1
  exact bind_eq_ok.mpr ⟨_, h, rfl⟩

lemma ListRelation.written_eq_ok (home : UniverseId) (hr : (r.toList : Value).WellTyped) :
    ∃ u, r.written home = .ok u ∧ r.WrittenAs home u := by
  have hrows := ListRelation.rows hr
  have h := SetWriter.insertAll_new home fun v hv => (hrows.typed v hv).1
  exact ⟨⟨⟨.set home r.toList.elementType, Members.ofList r.toList.elements⟩, hrows.isTuple⟩,
    bind_eq_ok.mpr ⟨_, h, dif_pos hrows.isTuple⟩, rfl⟩

end Writing

/-- Equal sets of the identical type. -/
def SetValue.Alike (s t : SetValue) : Prop := s.ty = t.ty ∧ (s : Value).equal t = true

/-! ### What is kept of the tuples -/

section Kept
variable {Q : Value → Prop} {home : UniverseId} {e e' k : Ty} {xs vs ws : List Value}
  {ts us ts' us' : List TupleValue} {t u t' u' : TupleValue} {is : List ℕ} {i : ℕ} {v w : Value}

/-- Some of the tuples, among them an equal one for each of them. -/
structure Kept (ts us : List TupleValue) : Prop where
  subset : us ⊆ ts
  covers : ∀ t ∈ ts, ∃ u ∈ us, (u : Value).equal t = true

lemma TupleValue.equal_iff : (u : Value).equal t = true ↔
    u.ty.comparable t.ty = true ∧ List.Forall₂ (fun x y => x.equal y = true) u.fields t.fields :=
  Value.equal_tuple

/-- Only tuples equal tuples. -/
lemma TupleValue.exists_of_equal (h : v.equal t = true) : ∃ u : TupleValue, v = u := by
  cases v with
  | tuple ty vs => exact ⟨⟨ty, vs⟩, rfl⟩
  | _ => simp [TupleValue.toValue, Value.equal] at h

/-- A list made into a set keeps an equal tuple for each that it has. -/
lemma kept_ofList (hQ : Value.Lawful Q) (h : ∀ t ∈ xs.filterMap Value.tuple?, ∀ v ∈ t.fields, Q v) :
    Kept (xs.filterMap Value.tuple?) ((Members.ofList xs).filterMap Value.tuple?) where
  subset u hu := Value.mem_tuples.mpr (Members.mem_of_mem_ofList (Value.mem_tuples.mp hu))
  covers t ht := by
    have hself : (t : Value).answers t = true := by
      refine Value.answers_iff.mpr ⟨Value.sameContents_self _, TupleValue.equal_iff.mpr ?_⟩
      exact ⟨Value.comparable_self _, (hQ.equivalence.forall₂_iff (h t ht) (h t ht)).mpr rfl⟩
    obtain ⟨x, hx, hxt⟩ := Members.exists_answers_insertAll [] (Value.mem_tuples.mp ht) hself
    have hequal := (Value.answers_iff.mp hxt).2
    obtain ⟨u, rfl⟩ := TupleValue.exists_of_equal hequal
    exact ⟨u, Value.mem_tuples.mpr hx, hequal⟩

/-- Fields at one position of equal tuples are equal. -/
lemma TupleValue.equal_get (h : (u : Value).equal t = true) (ht : t.get i = .ok v) (hu : u.get i = .ok w) :
    w.equal v = true := by
  obtain ⟨hi, rfl⟩ := List.getElem?_eq_some_iff.mp (get_eq_ok.mp ht)
  obtain ⟨hi', rfl⟩ := List.getElem?_eq_some_iff.mp (get_eq_ok.mp hu)
  exact (List.forall₂_iff_get.mp (equal_iff.mp h).2).2 i hi' hi

/-- Selections of one set of positions from equal tuples are equal. -/
lemma TupleValue.equal_select (h : (u : Value).equal t = true) (ht : t.select home is = .ok t')
    (hu : u.select home is = .ok u') : (u' : Value).equal t' = true := by
  obtain ⟨htty, htf⟩ := select_eq_ok ht
  obtain ⟨huty, huf⟩ := select_eq_ok hu
  refine equal_iff.mpr ⟨?_, ?_⟩
  · have hcomparable := (equal_iff.mp h).1
    rw [Ty.comparable, Bool.or_eq_true] at hcomparable ⊢
    exact hcomparable.imp (Ty.subtype_select · huty htty) (Ty.subtype_select · htty huty)
  · clear ht hu htty huty
    generalize t'.fields = vs, u'.fields = ws at htf huf
    induction htf generalizing ws with
    | nil => cases huf; exact .nil
    | cons hv _ ih =>
      cases huf with
      | cons hw hws => exact .cons (equal_get h hv hw) (ih _ hws)

lemma forall_pairs (hts : ∀ t ∈ ts, ∀ v ∈ t.fields, Q v) :
    ∀ p ∈ ts.filterMap TupleValue.pair?, Q p.1 ∧ Q p.2 := by
  intro p hp
  obtain ⟨t, ht, htp⟩ := Value.exists_tuple_of_mem_pairs hp
  have hfields := hts t ht
  rw [htp] at hfields
  exact ⟨hfields p.1 (by simp), hfields p.2 (by simp)⟩

namespace Kept

/-- What is made of the kept tuples covers what is made of all of them. -/
lemma mapM {α : Type} {f : TupleValue → Except Error α} {g : α → Value} {as bs : List α}
    (hk : Kept ts us)
    (hf : ∀ t u : TupleValue, (u : Value).equal t = true → ∀ a b, f t = .ok a → f u = .ok b →
      (g b).equal (g a) = true)
    (hts : ts.mapM f = .ok as) (hus : us.mapM f = .ok bs) :
    bs.map g ⊆ as.map g ∧ Covers Value.equal (bs.map g) (as.map g) := by
  constructor
  · intro w hw
    obtain ⟨b, hb, rfl⟩ := List.mem_map.mp hw
    obtain ⟨u, hu, hub⟩ := exists_of_mapM hus hb
    obtain ⟨a, ha, hua⟩ := exists_mem_of_mapM hts (hk.subset hu)
    rw [← Except.ok.inj (hua.symm.trans hub)]
    exact List.mem_map_of_mem ha
  · intro v hv
    obtain ⟨a, ha, rfl⟩ := List.mem_map.mp hv
    obtain ⟨t, ht, hta⟩ := exists_of_mapM hts ha
    obtain ⟨u, hu, hut⟩ := hk.covers t ht
    obtain ⟨b, hb, hub⟩ := exists_mem_of_mapM hus hu
    exact ⟨g b, List.mem_map_of_mem hb, hf t u hut a b hta hub⟩

lemma fields (hk : Kept ts us) : us.flatMap (·.fields) ⊆ ts.flatMap (·.fields) ∧
    Covers Value.equal (us.flatMap (·.fields)) (ts.flatMap (·.fields)) := by
  constructor
  · intro v hv
    obtain ⟨u, hu, hv⟩ := List.mem_flatMap.mp hv
    exact List.mem_flatMap.mpr ⟨u, hk.subset hu, hv⟩
  · intro v hv
    obtain ⟨t, ht, hv⟩ := List.mem_flatMap.mp hv
    obtain ⟨u, hu, hut⟩ := hk.covers t ht
    obtain ⟨w, hw, hwv⟩ := exists_left_of_forall₂ (TupleValue.equal_iff.mp hut).2 hv
    exact ⟨w, List.mem_flatMap.mpr ⟨u, hu, hw⟩, hwv⟩

lemma pairs_subset (hk : Kept ts us) : us.filterMap TupleValue.pair? ⊆ ts.filterMap TupleValue.pair? := by
  intro p hp
  obtain ⟨u, hu, hup⟩ := List.mem_filterMap.mp hp
  exact List.mem_filterMap.mpr ⟨u, hk.subset hu, hup⟩

lemma exists_pair (hk : Kept ts us) {p : Value × Value} (hp : p ∈ ts.filterMap TupleValue.pair?) :
    ∃ q ∈ us.filterMap TupleValue.pair?, q.1.equal p.1 = true ∧ q.2.equal p.2 = true := by
  obtain ⟨t, ht, htp⟩ := Value.exists_tuple_of_mem_pairs hp
  obtain ⟨u, hu, hut⟩ := hk.covers t ht
  have hfields := (TupleValue.equal_iff.mp hut).2
  rw [htp] at hfields
  obtain ⟨a, b, hab⟩ := List.length_eq_two.mp hfields.length_eq
  rw [hab, List.forall₂_cons, List.forall₂_cons] at hfields
  refine ⟨(a, b), List.mem_filterMap.mpr ⟨u, hu, ?_⟩, hfields.1, hfields.2.1⟩
  rw [TupleValue.pair?, hab]

/-- The pairs composed of kept tuples cover those composed of all of them. -/
lemma composed (hQ : Value.Lawful Q) (hk : Kept ts us) (hk' : Kept ts' us')
    (hts : ∀ t ∈ ts, ∀ v ∈ t.fields, Q v) (hts' : ∀ t ∈ ts', ∀ v ∈ t.fields, Q v) (ty : Ty) :
    composedPairs ty (us.filterMap TupleValue.pair?) (us'.filterMap TupleValue.pair?) ⊆
        composedPairs ty (ts.filterMap TupleValue.pair?) (ts'.filterMap TupleValue.pair?) ∧
      Covers Value.equal (composedPairs ty (us.filterMap TupleValue.pair?) (us'.filterMap TupleValue.pair?))
        (composedPairs ty (ts.filterMap TupleValue.pair?) (ts'.filterMap TupleValue.pair?)) := by
  constructor
  · intro v hv
    obtain ⟨p, hp, q, hq, hmeet, rfl⟩ := mem_composedPairs.mp hv
    exact mem_composedPairs.mpr ⟨p, hk.pairs_subset hp, q, hk'.pairs_subset hq, hmeet, rfl⟩
  · intro v hv
    obtain ⟨p, hp, q, hq, hmeet, rfl⟩ := mem_composedPairs.mp hv
    obtain ⟨p', hp', hfirst, hvia⟩ := hk.exists_pair hp
    obtain ⟨q', hq', hvia', hsecond⟩ := hk'.exists_pair hq
    have hb := (forall_pairs hts p hp).2
    have hb' := (forall_pairs hts p' (hk.pairs_subset hp')).2
    have hc := (forall_pairs hts' q hq).1
    have hc' := (forall_pairs hts' q' (hk'.pairs_subset hq')).1
    have hmeet' : q'.1.equal p'.2 = true := hQ.equivalence.trans hc' hc hb' hvia'
      (hQ.equivalence.trans hc hb hb' hmeet (hQ.equivalence.symm hb' hb hvia))
    refine ⟨_, mem_composedPairs.mpr ⟨p', hp', q', hq', hmeet', rfl⟩, ?_⟩
    rw [Value.equal_tuples]
    exact .cons hfirst (.cons hsecond .nil)

/-- What is selected from the kept tuples covers what is selected from all of them. -/
lemma selected (hk : Kept ts us) (h : Selected home e ts is e' vs) (h' : Selected home e us is k ws) :
    e' = k ∧ ws ⊆ vs ∧ Covers Value.equal ws vs := by
  cases h with
  | @column i f _ hf hvs =>
    cases h' with
    | @column _ f' _ hf' hws =>
      have hcov := hk.mapM (g := id) (fun t u hut v w => TupleValue.equal_get hut) hvs hws
      rw [List.map_id, List.map_id] at hcov
      rw [hf] at hf'
      exact ⟨congrArg (·.item) (Option.some.inj hf'), hcov⟩
    | rows hone => exact absurd rfl (hone i)
  | @rows _ _ as hone he has =>
    cases h' with
    | column => exact absurd rfl (hone _)
    | rows _ he' hbs =>
      rw [he] at he'
      exact ⟨Except.ok.inj he', hk.mapM (fun t u hut a b => TupleValue.equal_select hut) has hbs⟩

end Kept
end Kept

/-! ### When a selection is refused -/

section Selection
variable {home : UniverseId} {e : Ty} {xs : List Value} {t : TupleValue} {is : List ℕ}

/-- Rows let themselves be selected from exactly at positions of fields of their type. -/
lemma Rows.exists_selected_iff (home : UniverseId) (is : List ℕ) (hx : Rows e xs) :
    (∃ k vs, Selected home e (xs.filterMap Value.tuple?) is k vs) ↔
      ∀ i ∈ is, i < e.fields.length := by
  constructor
  · rintro ⟨k, vs, hsel⟩
    cases hsel with
    | column hf _ => simpa using (List.getElem?_eq_some_iff.mp hf).1
    | rows _ he _ =>
      obtain ⟨-, selected, -, hsel⟩ := Ty.select_eq_ok he
      intro i hi
      obtain ⟨f, -, hf⟩ := exists_left_of_forall₂ hsel.flip hi
      exact (List.getElem?_eq_some_iff.mp hf).1
  · intro h
    have hrow : ∀ t ∈ xs.filterMap Value.tuple?, ∀ i ∈ is, i < t.fields.length :=
      fun t ht i hi => hx.length_fields ht ▸ h i hi
    by_cases hone : ∃ i, is = [i]
    · obtain ⟨i, rfl⟩ := hone
      obtain ⟨vs, hvs⟩ := exists_mapM_eq_ok fun t ht =>
        TupleValue.exists_get (hrow t ht i List.mem_cons_self)
      exact ⟨_, _, .column (List.getElem?_eq_getElem (h i List.mem_cons_self)) hvs⟩
    · obtain ⟨k, hk⟩ := Ty.exists_select home hx.isTuple h
      obtain ⟨us, hus⟩ := exists_mapM_eq_ok fun t ht =>
        TupleValue.exists_select home (hx.wellTyped ht) (hrow t ht)
      exact ⟨_, _, .rows (not_exists.mp hone) hk hus⟩

end Selection

namespace ListRelation

variable {Q : Value → Prop} {home : UniverseId} {l m : ListRelation} {r s : Relation} {is : List ℕ}

/-- All fields of the tuples have the property. -/
def FieldsIn (Q : Value → Prop) (l : ListRelation) : Prop := ∀ t ∈ l.tuples, ∀ v ∈ t.fields, Q v

namespace WrittenAs

lemma elementType_eq (h : l.WrittenAs home r) : r.toSet.elementType = l.toList.elementType := by
  rw [h]
  rfl

lemma arity_eq (h : l.WrittenAs home r) : r.arity = l.arity := by
  rw [r.arity_eq, l.arity_eq, h.elementType_eq]

lemma kept (h : l.WrittenAs home r) (hQ : Value.Lawful Q) (hl : l.FieldsIn Q) : Kept l.tuples r.tuples := by
  rw [Relation.tuples, h]
  exact kept_ofList hQ hl

/-- The carrier leaves repetitions out in any case. -/
lemma carrier (h : l.WrittenAs home r) (hQ : Value.Lawful Q) (hl : l.FieldsIn Q) :
    (l.carrier home).Alike (r.carrier home) := by
  have hfields := (h.kept hQ hl).fields
  have hall : ∀ v ∈ l.tuples.flatMap (·.fields), Q v := by
    intro v hv
    obtain ⟨t, ht, hv⟩ := List.mem_flatMap.mp hv
    exact hl t ht v hv
  rw [ListRelation.carrier, Relation.carrier, h.elementType_eq]
  exact ⟨rfl, Members.equal_ofList hQ hall hfields.1 hfields.2 _⟩

lemma exists_compose_iff (hr : l.WrittenAs home r) (hs : m.WrittenAs home s) :
    (∃ u, l.compose home m = .ok u) ↔ ∃ u, r.compose home s = .ok u := by
  simp only [compose_eq_ok, Relation.compose_eq_ok, hr.arity_eq, hs.arity_eq, hr.elementType_eq,
    hs.elementType_eq]
  constructor
  · rintro ⟨u, hl, hm, fields, hfields, -⟩
    exact ⟨_, hl, hm, fields, hfields, rfl⟩
  · rintro ⟨u, hl, hm, fields, hfields, -⟩
    exact ⟨_, hl, hm, fields, hfields, rfl⟩

/-- Repetitions that are dropped before pairs are composed are dropped with the pairs otherwise. -/
lemma compose {u : ListRelation} {v w : Relation} (hr : l.WrittenAs home r) (hs : m.WrittenAs home s)
    (hQ : Value.Lawful Q) (hl : l.FieldsIn Q) (hm : m.FieldsIn Q) (hu : l.compose home m = .ok u)
    (hv : r.compose home s = .ok v) (hw : u.WrittenAs home w) : w.toSet.Alike v.toSet := by
  obtain ⟨-, -, fields, hfields, rfl⟩ := compose_eq_ok.mp hu
  obtain ⟨-, -, fields', hfields', rfl⟩ := Relation.compose_eq_ok.mp hv
  rw [hr.elementType_eq, hs.elementType_eq, hfields] at hfields'
  obtain rfl := Except.ok.inj hfields'
  have hcomposed := (hr.kept hQ hl).composed hQ (hs.kept hQ hm) hl hm (.tuple home fields)
  rw [hw]
  refine ⟨rfl, Members.equal_ofList (hQ.tuples (.tuple home fields)) ?_ hcomposed.1 hcomposed.2 _⟩
  intro x hx
  obtain ⟨p, hp, q, hq, -, rfl⟩ := mem_composedPairs.mp hx
  exact ⟨_, rfl, by simp [(forall_pairs hl p hp).1, (forall_pairs hm q hq).2]⟩

lemma exists_select_iff (h : l.WrittenAs home r) (hl : (l.toList : Value).WellTyped) :
    (∃ k, l.select home is = .ok k) ↔ ∃ k, r.select home is = .ok k := by
  have hrows := rows hl
  have hkept : Rows l.toList.elementType (Members.ofList l.toList.elements) :=
    ⟨hrows.isTuple, fun x hx => hrows.typed x (Members.mem_of_mem_ofList hx)⟩
  have hiff := hrows.exists_selected_iff home is
  rw [← hkept.exists_selected_iff home is] at hiff
  simp only [select_eq_ok, Relation.select_eq_ok, h.elementType_eq]
  rw [Relation.tuples, h]
  constructor
  · rintro ⟨k, e, vs, hsel, -⟩
    obtain ⟨e', ws, hsel'⟩ := hiff.mp ⟨e, vs, hsel⟩
    exact ⟨_, e', ws, hsel', rfl⟩
  · rintro ⟨k, e, vs, hsel, -⟩
    obtain ⟨e', ws, hsel'⟩ := hiff.mpr ⟨e, vs, hsel⟩
    exact ⟨_, e', ws, hsel', rfl⟩

/-- Repetitions that are dropped before fields are selected are dropped with what is selected otherwise. -/
lemma select {k : ListValue} {x : SetValue} (h : l.WrittenAs home r) (hQ : Value.Lawful Q)
    (hl : l.FieldsIn Q) (hk : l.select home is = .ok k) (hx : r.select home is = .ok x)
    (hP : Value.Lawful (· ∈ k.elements)) :
    (SetValue.mk (.set home k.elementType) (Members.ofList k.elements)).Alike x := by
  obtain ⟨e, vs, hsel, rfl⟩ := select_eq_ok.mp hk
  obtain ⟨e', ws, hsel', rfl⟩ := Relation.select_eq_ok.mp hx
  rw [h.elementType_eq] at hsel'
  obtain ⟨rfl, hsub, hcov⟩ := (h.kept hQ hl).selected hsel hsel'
  exact ⟨rfl, Members.equal_ofList hP (fun v hv => hv) hsub hcov _⟩

end WrittenAs

/-- Where equality is an equivalence on the field values and equal ones have equal contents: a list relation
and the relation that a writer makes of it agree. One can be composed or selected from when the other can, and
what the list yields, written to a set, equals what the relation yields and has the identical type. For a
selection the same must be true of equality on what is selected. -/
theorem written_commutes {session : Session} (home : UniverseId) (hsession : session.Reached)
    (hl : (l.toList : Value) ∈ session.values) (hm : (m.toList : Value) ∈ session.values)
    (hQ : Value.Lawful Q) (hlQ : l.FieldsIn Q) (hmQ : m.FieldsIn Q) :
    ∃ r s, l.written home = .ok r ∧ m.written home = .ok s ∧
      ((∃ u, l.compose home m = .ok u) ↔ ∃ v, r.compose home s = .ok v) ∧
      (∀ u v, l.compose home m = .ok u → r.compose home s = .ok v →
        ∃ w, u.written home = .ok w ∧ w.toSet.Alike v.toSet) ∧
      (l.carrier home).Alike (r.carrier home) ∧
      ∀ is, ((∃ k, l.select home is = .ok k) ↔ ∃ x, r.select home is = .ok x) ∧
        ∀ k x, l.select home is = .ok k → r.select home is = .ok x → Value.Lawful (· ∈ k.elements) →
          ∃ w, k.written home = .ok w ∧ w.Alike x := by
  have hl := hsession.wellTyped.values _ hl
  have hm := hsession.wellTyped.values _ hm
  obtain ⟨r, hwr, hr⟩ := written_eq_ok home hl
  obtain ⟨s, hws, hs⟩ := written_eq_ok home hm
  refine ⟨r, s, hwr, hws, hr.exists_compose_iff hs, fun u v hu hv => ?_, hr.carrier hQ hlQ, fun is => ?_⟩
  · obtain ⟨w, hww, hw⟩ := written_eq_ok home (wellTyped_compose hl hm hu)
    exact ⟨w, hww, hr.compose hs hQ hlQ hmQ hu hv hw⟩
  · refine ⟨hr.exists_select_iff hl, fun k x hk hx hP => ?_⟩
    exact ⟨_, ListValue.written_eq_ok home (wellTyped_select hl hk), hr.select hQ hlQ hk hx hP⟩

/-- A pair twice and its reverse, composed with itself and turned round. -/
theorem written_commutes_repetition :
    let pair : TupleValue := .of 0 [.int 1, .int 2]
    let reverse : TupleValue := .of 0 [.int 2, .int 1]
    let l : ListRelation := ⟨⟨.list 0 pair.ty, [pair, pair, reverse]⟩, rfl⟩
    let session : Session := ⟨[(l.toList : Value), reverse, pair, .int 2, .int 1],
      [.list ⟨.list 0 pair.ty, .sealed l.toList⟩]⟩
    session.Reached ∧ (l.toList : Value) ∈ session.values ∧ Value.Lawful Value.Scalar ∧
      l.FieldsIn Value.Scalar ∧ (∃ k, l.select 0 [1, 0] = .ok k ∧ Value.Lawful (· ∈ k.elements)) ∧
      ∃ r s, l.written 0 = .ok r ∧ l.written 0 = .ok s ∧
        ((∃ u, l.compose 0 l = .ok u) ↔ ∃ v, r.compose 0 s = .ok v) ∧
        (∀ u v, l.compose 0 l = .ok u → r.compose 0 s = .ok v →
          ∃ w, u.written 0 = .ok w ∧ w.toSet.Alike v.toSet) ∧
        (l.carrier 0).Alike (r.carrier 0) ∧
        ∀ is, ((∃ k, l.select 0 is = .ok k) ↔ ∃ x, r.select 0 is = .ok x) ∧
          ∀ k x, l.select 0 is = .ok k → r.select 0 is = .ok x → Value.Lawful (· ∈ k.elements) →
            ∃ w, k.written 0 = .ok w ∧ w.Alike x := by
  intro pair reverse l session
  have h₁ : (⟨[.int 1], []⟩ : Session).Reached := .step .start (.make (.int 1))
  have h₂ : (⟨[.int 2, .int 1], []⟩ : Session).Reached := .step h₁ (.make (.int 2))
  have h₃ : (⟨[pair, .int 2, .int 1], []⟩ : Session).Reached :=
    .step h₂ (.make (.tuple (.of 0 (by simp))))
  have h₄ : (⟨[reverse, pair, .int 2, .int 1], []⟩ : Session).Reached :=
    .step h₃ (.make (.tuple (.of 0 (by simp))))
  let filled : ListWriter := ⟨.list 0 pair.ty, .filling [pair, pair, reverse]⟩
  have hwrite : (ListWriter.new 0 pair.ty).insertAll [pair, pair, reverse] = .ok filled := by
    refine Phase.write_eq_ok.mpr ⟨[], rfl, forM_eq_ok.mpr ?_, rfl⟩
    have hfits (v : Value) (hv : v.runtimeType = pair.ty) :
        v.checkBound "list_writer.insert_all" pair.ty = .ok () :=
      Value.checkBound_eq_ok.mpr (hv ▸ v.hasType_self)
    simp only [List.forall_mem_cons]
    exact ⟨hfits _ rfl, hfits _ rfl, hfits _ rfl, by simp⟩
  have h₅ : (⟨[reverse, pair, .int 2, .int 1], [.list (.new 0 pair.ty)]⟩ : Session).Reached :=
    .step h₄ (.openWriter (.list 0 pair.ty))
  have h₆ : (⟨[reverse, pair, .int 2, .int 1], [.list filled]⟩ : Session).Reached :=
    .step h₅ (.write (i := 0) rfl (.listInsertAll (by simp) hwrite))
  have h₇ : session.Reached := .step h₆ (.finish (i := 0) rfl (.list (w := filled)))
  have hmem : (l.toList : Value) ∈ session.values := List.mem_cons_self
  have hints (x y : Int64) : ∀ v ∈ (TupleValue.of 0 [.int x, .int y]).fields, v.Scalar := by
    simp [TupleValue.of, Value.Scalar]
  have hfields : l.FieldsIn Value.Scalar := by
    have htuples : l.tuples = [pair, pair, reverse] := rfl
    rw [FieldsIn, htuples]
    simp only [List.forall_mem_cons]
    exact ⟨hints 1 2, hints 1 2, hints 2 1, by simp⟩
  have hselect : l.select 0 [1, 0] = .ok ⟨.list 0 pair.ty, [reverse, reverse, pair]⟩ := rfl
  have hselected : Value.Lawful (· ∈ [(reverse : Value), reverse, pair]) := by
    refine (Value.lawful_scalars.tuples pair.ty).mono fun v hv => ?_
    rcases List.mem_pair.mp (by simpa using hv) with rfl | rfl
    · exact ⟨_, rfl, hints 2 1⟩
    · exact ⟨_, rfl, hints 1 2⟩
  exact ⟨h₇, hmem, Value.lawful_scalars, hfields, ⟨_, hselect, hselected⟩,
    written_commutes 0 h₇ hmem hmem Value.lawful_scalars hfields hfields⟩

end ListRelation
end TypedValues
