import Mathlib
import TypedValues.Proofs.Ty.Aliases

/-!
# Shapes

Two structural types have a join below `value` when they are of one shape: the same leaf, tuples of one
length, two lists, two sets, two maps, or members of one sort.
-/

namespace TypedValues

inductive Shape where
  | leaf (t : Ty)
  | tuple (length : Nat)
  | list
  | set
  | map
  /-- A sort and its constructors. -/
  | family (home : UniverseId) (sortName : String)

namespace Ty

/-- Bounds and aliases have no shape. -/
@[simp] def shape? : Ty → Option Shape
  | .value | .void | .aliasOf .. => none
  | .tuple _ fields => some (.tuple fields.length)
  | .list .. => some .list
  | .set .. => some .set
  | .map .. => some .map
  | .sort home name => some (.family home name)
  | .constructor home _ sortName _ _ => some (.family home sortName)
  | t => some (.leaf t)

variable {a b t : Ty} {r s : Shape} {home h k : UniverseId} {n : Nat} {name : String}
  {fs gs : List Field}

lemma shape?_eq_none : t.shape? = none ↔ t = .void ∨ t = .value ∨ t.isAlias = true := by
  cases t <;> simp [isAlias]

lemma exists_shape? (hv : a ≠ .void) (ht : a ≠ .value) (ha : a.isAlias = false) :
    ∃ s, a.shape? = some s := by
  rw [← Option.ne_none_iff_exists', Ne, shape?_eq_none]
  simp [hv, ht, ha]

lemma shape?_eq_leaf {l : Ty} (ht : t.shape? = some (.leaf l)) : t = l := by
  cases t <;> simp_all

lemma shape?_eq_tuple : t.shape? = some (.tuple n) ↔ ∃ h fs, t = .tuple h fs ∧ fs.length = n := by
  cases t <;> simp

lemma shape?_eq_list : t.shape? = some .list ↔ ∃ h e, t = .list h e := by
  cases t <;> simp

lemma shape?_eq_set : t.shape? = some .set ↔ ∃ h e, t = .set h e := by
  cases t <;> simp

lemma shape?_eq_map : t.shape? = some .map ↔ ∃ h k v, t = .map h k v := by
  cases t <;> simp

lemma shape?_eq_family : t.shape? = some (.family h name) ↔
    t = .sort h name ∨ ∃ c d fs, t = .constructor h c name d fs := by
  cases t <;> simp

lemma isAlias_of_shape? (ht : t.shape? = some s) : t.isAlias = false := by
  cases t <;> simp_all [isAlias]

lemma ne_void_of_shape? (ht : t.shape? = some s) : t ≠ .void := by
  rintro rfl
  simp at ht

lemma ne_value_of_shape? (ht : t.shape? = some s) : t ≠ .value := by
  rintro rfl
  simp at ht

lemma isVoid_eq_false (ht : t ≠ .void) : t.isVoid = false := by
  cases t <;> simp_all [isVoid]

lemma isValue_eq_false (ht : t ≠ .value) : t.isValue = false := by
  cases t <;> simp_all [isValue]

/-! ### The cases of a join -/

@[simp] lemma join_self (a : Ty) : join home a a = a := by
  rw [join.eq_def, if_pos rfl]

@[simp] lemma join_void_left (b : Ty) : join home .void b = b := by
  rw [join.eq_def]
  by_cases hb : .void = b <;> simp [hb, isVoid]

@[simp] lemma join_void_right (a : Ty) : join home a .void = a := by
  rw [join.eq_def]
  by_cases ha : a = .void
  · rw [if_pos ha]
  · simp [ha, isValue, isVoid]

@[simp] lemma join_value_right (a : Ty) : join home a .value = .value := by
  rw [join.eq_def]
  by_cases ha : a = .value
  · rw [if_pos ha, ha]
  · simp [ha, isValue]

@[simp] lemma join_value_left (b : Ty) : join home .value b = .value := by
  by_cases hb : b = .value
  · rw [hb, join_self]
  · rw [join.eq_def, if_neg (Ne.symm hb)]
    simp [isValue, isVoid]

lemma join_alias (ha : a ≠ .void) (ha' : a ≠ .value) (hb : b ≠ .void) (hb' : b ≠ .value)
    (hn : a.isAlias = true ∨ b.isAlias = true) :
    join home a b = (sharedAlias? a b).getD (join home a.resolved b.resolved) := by
  by_cases hab : a = b
  · subst hab
    rw [join_self, sharedAlias?_self (by simpa using hn), Option.getD_some]
  · rw [join.eq_def, if_neg hab, if_neg (by simp [isVoid_eq_false ha, isValue_eq_false hb']),
      if_neg (by simp [isVoid_eq_false hb, isValue_eq_false ha']), if_pos (by simpa using hn)]
    cases sharedAlias? a b <;> rfl

lemma join_tuple (hne : tuple h fs ≠ .tuple k gs) (hl : fs.length = gs.length) :
    join home (.tuple h fs) (.tuple k gs) = .tuple home (joinFields home fs gs) := by
  rw [join.eq_def, if_neg hne]
  simp [isVoid, isValue, isAlias, hl]

lemma join_list (hne : list h a ≠ .list k b) :
    join home (.list h a) (.list k b) = .list home (join home a b) := by
  rw [join.eq_def, if_neg hne]
  simp [isVoid, isValue, isAlias]

lemma join_set (hne : set h a ≠ .set k b) :
    join home (.set h a) (.set k b) = .set home (join home a b) := by
  rw [join.eq_def, if_neg hne]
  simp [isVoid, isValue, isAlias]

lemma join_map {f g f' g' : Field} (hne : map h f g ≠ .map k f' g') :
    join home (.map h f g) (.map k f' g') =
      .map home ⟨join home f.item f'.item, commonLabel f.label f'.label⟩
        ⟨join home g.item g'.item, commonLabel g.label g'.label⟩ := by
  rw [join.eq_def, if_neg hne]
  simp [isVoid, isValue, isAlias]

lemma join_family (hne : a ≠ b) (ha : a.shape? = some (.family h name))
    (hb : b.shape? = some (.family h name)) : join home a b = .sort h name := by
  rw [join.eq_def, if_neg hne]
  rcases shape?_eq_family.mp ha with rfl | ⟨c, d, fs, rfl⟩ <;>
    rcases shape?_eq_family.mp hb with rfl | ⟨c', d', gs, rfl⟩ <;>
    simp_all [isVoid, isValue, isAlias]

lemma join_of_shape_ne (hne : r ≠ s) (ha : a.shape? = some r) (hb : b.shape? = some s) :
    join home a b = .value := by
  have hab : a ≠ b := by
    rintro rfl
    exact hne (Option.some.inj (ha.symm.trans hb))
  rw [join.eq_def, if_neg hab,
    if_neg (by simp [isVoid_eq_false (ne_void_of_shape? ha),
      isValue_eq_false (ne_value_of_shape? hb)]),
    if_neg (by simp [isVoid_eq_false (ne_void_of_shape? hb),
      isValue_eq_false (ne_value_of_shape? ha)]),
    if_neg (by simp [isAlias_of_shape? ha, isAlias_of_shape? hb])]
  split <;> simp_all <;> grind

end Ty
end TypedValues
