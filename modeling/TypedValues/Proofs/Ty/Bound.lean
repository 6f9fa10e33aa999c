import Mathlib
import TypedValues.Proofs.Ty.Join
import TypedValues.Proofs.Ty.Subtype

/-!
# Joins as upper bounds

Both types stand below their join, and the join of two collection types is a collection type whose parts
stand above theirs.
-/

namespace TypedValues.Ty

variable {a b e e' t : Ty} {s : Shape} {home : UniverseId} {fs gs : List Field}

lemma fieldsBelow_joinFields_left (hl : fs.length = gs.length)
    (ih : ∀ f ∈ fs, ∀ g ∈ gs, f.item.subtype (join home f.item g.item) = true) :
    FieldsBelow fs (joinFields home fs gs) := by
  rw [joinFields_eq_zipWith]
  refine List.forall₂_iff_get.mpr ⟨by simp [hl], fun i hi hi' => ?_⟩
  simp only [List.get_eq_getElem, List.getElem_zipWith, joinField]
  exact ih _ (List.getElem_mem _) _ (List.getElem_mem _)

lemma subtype_join_left (home : UniverseId) (a b : Ty) : a.subtype (join home a b) = true := by
  refine joinInduction (motive := fun a b => a.subtype (join home a b) = true) (fun a => ?_)
    (fun b => ?_) (fun a => ?_) (fun b => ?_) (fun a => ?_) (fun a b ha ha' hb hb' hn ih => ?_)
    (fun h k fs gs hne hl ih => ?_) (fun h k s t hne ih => ?_) (fun h k s t hne ih => ?_)
    (fun h k f g f' g' hne ihf ihg => ?_) (fun a b h name hne ha hb => ?_)
    (fun a b r s hne ha hb => ?_) a b
  · simp
  · simp
  · simp
  · simp
  · simp
  · rw [join_alias ha ha' hb hb' hn]
    cases hs : sharedAlias? a b with
    | some t => exact subtype_of_mem_aliasChain (shares_of_sharedAlias? hs).mem.1
    | none => exact subtype_trans (subtype_resolved a) ih
  · rw [join_tuple hne hl]
    exact tuple_subtype_tuple.mpr (fieldsBelow_joinFields_left hl ih)
  · rw [join_list hne]
    exact list_subtype_list.mpr ih
  · rw [join_set hne]
    exact set_subtype_set.mpr ih
  · rw [join_map hne]
    exact map_subtype_map.mpr ⟨ihf, ihg⟩
  · rw [join_family hne ha hb]
    rcases shape?_eq_family.mp ha with rfl | ⟨c, d, fs, rfl⟩
    · exact subtype_refl _
    · exact Below.subtype .sort
  · rw [join_of_shape_ne hne ha hb]
    exact subtype_value a

lemma subtype_join_right (home : UniverseId) (a b : Ty) : b.subtype (join home a b) = true := by
  rw [join_comm]
  exact subtype_join_left home b a

/-- The join of two types does not depend on their order, is the type itself if they are one, and
stands above both. This holds of all types, whichever universe the join is made in. -/
theorem join_upper_bound (home : UniverseId) (a b : Ty) :
    join home a a = a ∧ join home a b = join home b a ∧
      a.subtype (join home a b) = true ∧ b.subtype (join home a b) = true :=
  ⟨join_self a, join_comm home a b, subtype_join_left home a b, subtype_join_right home a b⟩

lemma subtype_joinAll {ts : List Ty} (ht : t ∈ ts) : t.subtype (joinAll home ts) = true := by
  have bound (ts : List Ty) : ∀ acc : Ty, acc.subtype (ts.foldl (join home) acc) = true ∧
      ∀ t ∈ ts, t.subtype (ts.foldl (join home) acc) = true := by
    induction ts with
    | nil => simp
    | cons u ts ih =>
      intro acc
      obtain ⟨hacc, hts⟩ := ih (join home acc u)
      refine ⟨subtype_trans (subtype_join_left home acc u) hacc, fun t ht => ?_⟩
      rcases List.mem_cons.mp ht with rfl | ht
      · exact subtype_trans (subtype_join_right home acc t) hacc
      · exact hts t ht
  exact (bound ts .void).2 t ht

/-! ### Joins of collection types -/

/-- Types that stand for types of one shape join at one that does. -/
lemma shape?_resolved_join (home : UniverseId) (ha : a.resolved.shape? = some s)
    (hb : b.resolved.shape? = some s) : (join home a b).resolved.shape? = some s := by
  have ne_void {t : Ty} (ht : t.resolved.shape? = some s) : t ≠ .void := by
    rintro rfl
    exact ne_void_of_shape? ht rfl
  cases hs : sharedAlias? a b with
  | some t =>
    have ht := shares_of_sharedAlias? hs
    rw [join_of_shares ht, ht.resolved_left, ha]
  | none =>
    have hj := shape?_join home ha hb
    rw [join_resolved (ne_void ha) (ne_void hb) hs, resolved_of_not_alias (isAlias_of_shape? hj), hj]

lemma isTuple_iff : t.isTuple = true ↔ ∃ h fs, t.resolved = .tuple h fs := by
  unfold isTuple tupleFields?
  cases t.resolved <;> simp

lemma isList_iff : t.isList = true ↔ ∃ h e, t.resolved = .list h e := by
  unfold isList
  cases t.resolved <;> simp

lemma isSet_iff : t.isSet = true ↔ ∃ h e, t.resolved = .set h e := by
  unfold isSet
  cases t.resolved <;> simp

lemma isMap_iff : t.isMap = true ↔ ∃ h k v, t.resolved = .map h k v := by
  unfold isMap
  cases t.resolved <;> simp

lemma mapFields?_eq_some {k v : Field} :
    t.mapFields? = some (k, v) ↔ ∃ h, t.resolved = .map h k v := by
  unfold mapFields?
  cases t.resolved <;> simp

lemma element?_eq_some :
    t.element? = some e ↔ (∃ h, t.resolved = .list h e) ∨ ∃ h, t.resolved = .set h e := by
  unfold element?
  cases t.resolved <;> simp

lemma element?_of_isList (ht : t.isList = true) : t.element? = some t.elementType := by
  obtain ⟨h, x, hx⟩ := isList_iff.mp ht
  simp [elementType, element?, hx]

lemma element?_of_isSet (ht : t.isSet = true) : t.element? = some t.elementType := by
  obtain ⟨h, x, hx⟩ := isSet_iff.mp ht
  simp [elementType, element?, hx]

lemma isConstructor_iff :
    t.isConstructor = true ↔ ∃ h n s d fs, t.resolved = .constructor h n s d fs := by
  unfold isConstructor
  cases t.resolved <;> simp

lemma isTuple_elementType_of_isRelation (ht : t.isRelation = true) :
    t.elementType.isTuple = true := by
  unfold isRelation at ht
  unfold elementType element?
  cases hr : t.resolved <;> simp_all

lemma isTuple_elementType_of_isListRelation (ht : t.isListRelation = true) :
    t.elementType.isTuple = true := by
  unfold isListRelation at ht
  unfold elementType element?
  cases hr : t.resolved <;> simp_all

/-- The fields of a collection of tuples are those of its tuples. -/
lemma fields_of_isTuple_elementType (ht : t.elementType.isTuple = true) :
    t.fields = t.elementType.fields := by
  obtain ⟨h, fs, he⟩ := isTuple_iff.mp ht
  unfold elementType element? at he ⊢
  unfold fields tupleFields?
  cases hr : t.resolved <;> simp_all

lemma isList_join (home : UniverseId) (ha : a.isList = true) (hb : b.isList = true) :
    (join home a b).isList = true := by
  rw [isList_iff, ← shape?_eq_list] at *
  exact shape?_resolved_join home ha hb

lemma isSet_join (home : UniverseId) (ha : a.isSet = true) (hb : b.isSet = true) :
    (join home a b).isSet = true := by
  rw [isSet_iff, ← shape?_eq_set] at *
  exact shape?_resolved_join home ha hb

lemma exists_mapFields_join (home : UniverseId) {k v k' v' : Field}
    (ha : a.mapFields? = some (k, v)) (hb : b.mapFields? = some (k', v')) :
    ∃ k v, (join home a b).mapFields? = some (k, v) := by
  obtain ⟨h, hx⟩ := mapFields?_eq_some.mp ha
  obtain ⟨l, hy⟩ := mapFields?_eq_some.mp hb
  have hj := shape?_resolved_join home (shape?_eq_map.mpr ⟨h, k, v, hx⟩)
    (shape?_eq_map.mpr ⟨l, k', v', hy⟩)
  obtain ⟨l, k, v, hj⟩ := shape?_eq_map.mp hj
  exact ⟨k, v, mapFields?_eq_some.mpr ⟨l, hj⟩⟩

lemma element?_subtype (hab : a.subtype b = true) (ha : a.element? = some e)
    (hb : b.element? = some e') : e.subtype e' = true := by
  have hr := resolved_subtype_resolved hab
  rcases element?_eq_some.mp ha with ⟨h, hx⟩ | ⟨h, hx⟩ <;>
    rcases element?_eq_some.mp hb with ⟨k, hy⟩ | ⟨k, hy⟩ <;> rw [hx, hy] at hr
  · exact list_subtype_list.mp hr
  · rcases eq_or_below_of_subtype hr nofun nofun with hr | hr <;> cases hr
  · rcases eq_or_below_of_subtype hr nofun nofun with hr | hr <;> cases hr
  · exact set_subtype_set.mp hr

lemma mapFields_subtype {k v k' v' : Field} (hab : a.subtype b = true)
    (ha : a.mapFields? = some (k, v)) (hb : b.mapFields? = some (k', v')) :
    k.item.subtype k'.item = true ∧ v.item.subtype v'.item = true := by
  obtain ⟨h, hx⟩ := mapFields?_eq_some.mp ha
  obtain ⟨l, hy⟩ := mapFields?_eq_some.mp hb
  have hr := resolved_subtype_resolved hab
  rwa [hx, hy, map_subtype_map] at hr

end TypedValues.Ty
