import Mathlib
import TypedValues.Proofs.Ty.Parts
import TypedValues.Proofs.Ty.Shape

/-!
# Joins of two types

A join is found by recursion on both sides: aliases that share none give way to what they stand for,
and two types of one shape are joined part by part.
-/

namespace TypedValues.Ty

variable {a b t : Ty} {r s : Shape} {home h k : UniverseId} {fs gs : List Field}

/-- Two fields joined, with the label that both carry. -/
def joinField (home : UniverseId) (f g : Field) : Field :=
  ⟨join home f.item g.item, commonLabel f.label g.label⟩

lemma joinFields_eq_zipWith (home : UniverseId) (fs gs : List Field) :
    joinFields home fs gs = List.zipWith (joinField home) fs gs := by
  induction fs generalizing gs with
  | nil => simp [joinFields]
  | cons f fs ih =>
    cases gs with
    | nil => simp [joinFields]
    | cons g gs => rw [joinFields.eq_def, List.zipWith_cons_cons, ← ih, joinField]

@[simp] lemma commonLabel_self (l : Option String) : commonLabel l l = l := by
  simp [commonLabel]

lemma commonLabel_comm (l m : Option String) : commonLabel l m = commonLabel m l := by
  unfold commonLabel
  split_ifs with h₁ h₂ h₂ <;> simp_all

lemma commonLabel_assoc (l m o : Option String) :
    commonLabel (commonLabel l m) o = commonLabel l (commonLabel m o) := by
  unfold commonLabel
  grind

@[simp] lemma joinField_self (f : Field) : joinField home f f = f := by
  simp [joinField]

@[simp] lemma joinFields_self (fs : List Field) : joinFields home fs fs = fs := by
  rw [joinFields_eq_zipWith]
  induction fs with
  | nil => rfl
  | cons f fs ih => simp

lemma length_joinFields (hl : fs.length = gs.length) :
    (joinFields home fs gs).length = fs.length := by
  rw [joinFields_eq_zipWith, List.length_zipWith, hl, Nat.min_self]

/-! ### Joins in the universe of both sides -/

lemma join_tuples (hl : fs.length = gs.length) :
    join home (.tuple home fs) (.tuple home gs) = .tuple home (joinFields home fs gs) := by
  by_cases hne : tuple home fs = .tuple home gs
  · obtain ⟨-, rfl⟩ := Ty.tuple.inj hne
    rw [join_self, joinFields_self]
  · exact join_tuple hne hl

lemma join_lists : join home (.list home a) (.list home b) = .list home (join home a b) := by
  by_cases hne : list home a = .list home b
  · obtain ⟨-, rfl⟩ := Ty.list.inj hne
    rw [join_self, join_self]
  · exact join_list hne

lemma join_sets : join home (.set home a) (.set home b) = .set home (join home a b) := by
  by_cases hne : set home a = .set home b
  · obtain ⟨-, rfl⟩ := Ty.set.inj hne
    rw [join_self, join_self]
  · exact join_set hne

lemma join_maps (f g f' g' : Field) : join home (.map home f g) (.map home f' g') =
    .map home (joinField home f f') (joinField home g g') := by
  by_cases hne : map home f g = .map home f' g'
  · obtain ⟨-, rfl, rfl⟩ := Ty.map.inj hne
    rw [join_self, joinField_self, joinField_self]
  · exact join_map hne

/-- Induction along a join. Equal types and the two bounds come first, then aliases, then types of one
shape, then types of two shapes. -/
theorem joinInduction {motive : Ty → Ty → Prop}
    (self : ∀ a, motive a a)
    (void_left : ∀ b, motive .void b) (void_right : ∀ a, motive a .void)
    (value_left : ∀ b, motive .value b) (value_right : ∀ a, motive a .value)
    (aliases : ∀ a b, a ≠ .void → a ≠ .value → b ≠ .void → b ≠ .value →
      a.isAlias = true ∨ b.isAlias = true → motive a.resolved b.resolved → motive a b)
    (tuples : ∀ h k fs gs, Ty.tuple h fs ≠ .tuple k gs → fs.length = gs.length →
      (∀ f ∈ fs, ∀ g ∈ gs, motive f.item g.item) → motive (.tuple h fs) (.tuple k gs))
    (lists : ∀ h k s t, Ty.list h s ≠ .list k t → motive s t → motive (.list h s) (.list k t))
    (sets : ∀ h k s t, Ty.set h s ≠ .set k t → motive s t → motive (.set h s) (.set k t))
    (maps : ∀ h k f g f' g', Ty.map h f g ≠ .map k f' g' → motive f.item f'.item →
      motive g.item g'.item → motive (.map h f g) (.map k f' g'))
    (family : ∀ a b h name, a ≠ b → a.shape? = some (.family h name) →
      b.shape? = some (.family h name) → motive a b)
    (shapes : ∀ a b r s, r ≠ s → a.shape? = some r → b.shape? = some s → motive a b)
    (a b : Ty) : motive a b := by
  -- The induction is on the measure that joining itself decreases along.
  induction hn : sizeOf a + sizeOf b using Nat.strong_induction_on generalizing a b with
  | _ n ih =>
  subst hn
  have resolve (ha : a ≠ .void) (ha' : a ≠ .value) (hb : b ≠ .void) (hb' : b ≠ .value)
      (hn : a.isAlias = true ∨ b.isAlias = true) : motive a b := by
    refine aliases a b ha ha' hb hb' hn (ih _ ?_ _ _ rfl)
    have := sizeOf_resolved_le a
    have := sizeOf_resolved_le b
    rcases hn with hn | hn <;> have := sizeOf_resolved_lt hn <;> omega
  by_cases hab : a = b
  · exact hab ▸ self a
  by_cases ha : a = .void
  · exact ha ▸ void_left b
  by_cases hb : b = .void
  · exact hb ▸ void_right a
  by_cases ha' : a = .value
  · exact ha' ▸ value_left b
  by_cases hb' : b = .value
  · exact hb' ▸ value_right a
  cases hr : a.shape? with
  | none => exact resolve ha ha' hb hb' (Or.inl (by simpa [ha, ha'] using shape?_eq_none.mp hr))
  | some r =>
  cases hs : b.shape? with
  | none => exact resolve ha ha' hb hb' (Or.inr (by simpa [hb, hb'] using shape?_eq_none.mp hs))
  | some s =>
  by_cases hrs : r = s
  · subst hrs
    cases r with
    | leaf t => exact absurd ((shape?_eq_leaf hr).trans (shape?_eq_leaf hs).symm) hab
    | tuple n =>
      obtain ⟨h, fs, rfl, hf⟩ := shape?_eq_tuple.mp hr
      obtain ⟨k, gs, rfl, hg⟩ := shape?_eq_tuple.mp hs
      refine tuples h k fs gs hab (hf.trans hg.symm) fun f hf g hg => ih _ ?_ _ _ rfl
      have := sizeOf_item_lt hf
      have := sizeOf_item_lt hg
      simp only [tuple.sizeOf_spec]
      omega
    | list =>
      obtain ⟨h, s, rfl⟩ := shape?_eq_list.mp hr
      obtain ⟨k, t, rfl⟩ := shape?_eq_list.mp hs
      refine lists h k s t hab (ih _ ?_ _ _ rfl)
      simp only [list.sizeOf_spec]
      omega
    | set =>
      obtain ⟨h, s, rfl⟩ := shape?_eq_set.mp hr
      obtain ⟨k, t, rfl⟩ := shape?_eq_set.mp hs
      refine sets h k s t hab (ih _ ?_ _ _ rfl)
      simp only [set.sizeOf_spec]
      omega
    | map =>
      obtain ⟨h, f, g, rfl⟩ := shape?_eq_map.mp hr
      obtain ⟨k, f', g', rfl⟩ := shape?_eq_map.mp hs
      refine maps h k f g f' g' hab (ih _ ?_ _ _ rfl) (ih _ ?_ _ _ rfl)
      all_goals
        cases f
        cases g
        cases f'
        cases g'
        simp only [map.sizeOf_spec, Labeled.mk.sizeOf_spec]
        omega
    | family h name => exact family a b h name hab hr hs
  · exact shapes a b r s hrs hr hs

lemma join_comm (home : UniverseId) (a b : Ty) : join home a b = join home b a := by
  refine joinInduction (motive := fun a b => join home a b = join home b a) (fun _ => rfl)
    (fun b => ?_) (fun a => ?_) (fun b => ?_) (fun a => ?_) (fun a b ha ha' hb hb' hn ih => ?_)
    (fun h k fs gs hne hl ih => ?_) (fun h k s t hne ih => ?_) (fun h k s t hne ih => ?_)
    (fun h k f g f' g' hne ihf ihg => ?_) (fun a b h name hne ha hb => ?_)
    (fun a b r s hne ha hb => ?_) a b
  · simp
  · simp
  · simp
  · simp
  · rw [join_alias ha ha' hb hb' hn, join_alias hb hb' ha ha' hn.symm, sharedAlias?_comm, ih]
  · rw [join_tuple hne hl, join_tuple hne.symm hl.symm, joinFields_eq_zipWith, joinFields_eq_zipWith]
    refine congrArg _ (List.ext_getElem (by simp [Nat.min_comm]) fun i hi hi' => ?_)
    rw [List.getElem_zipWith, List.getElem_zipWith, joinField, joinField,
      ih _ (List.getElem_mem _) _ (List.getElem_mem _), commonLabel_comm]
  · rw [join_list hne, join_list hne.symm, ih]
  · rw [join_set hne, join_set hne.symm, ih]
  · rw [join_map hne, join_map hne.symm, ihf, ihg, commonLabel_comm, commonLabel_comm g.label]
  · rw [join_family hne ha hb, join_family hne.symm hb ha]
  · rw [join_of_shape_ne hne ha hb, join_of_shape_ne hne.symm hb ha]

/-! ### What joins keep -/

lemma ne_void_of_isAlias (ha : a.isAlias = true) : a ≠ .void := by
  rintro rfl
  simp [isAlias] at ha

lemma ne_value_of_isAlias (ha : a.isAlias = true) : a ≠ .value := by
  rintro rfl
  simp [isAlias] at ha

lemma join_of_shares (hs : Shares a b t) : join home a b = t := by
  have ha := isAlias_of_mem_aliasChain hs.mem.1
  have hb := isAlias_of_mem_aliasChain hs.mem.2
  rw [join_alias (ne_void_of_isAlias ha) (ne_value_of_isAlias ha) (ne_void_of_isAlias hb)
    (ne_value_of_isAlias hb) (Or.inl ha), sharedAlias?_of_shares hs, Option.getD_some]

/-- Types that share no alias join as what they stand for. -/
lemma join_resolved (ha : a ≠ .void) (hb : b ≠ .void) (hn : sharedAlias? a b = none) :
    join home a b = join home a.resolved b.resolved := by
  by_cases ha' : a = .value
  · rw [ha', join_value_left, resolved_value, join_value_left]
  by_cases hb' : b = .value
  · rw [hb', join_value_right, resolved_value, join_value_right]
  by_cases hal : a.isAlias = true ∨ b.isAlias = true
  · rw [join_alias ha ha' hb hb' hal, hn, Option.getD_none]
  · rw [not_or, Bool.not_eq_true, Bool.not_eq_true] at hal
    rw [resolved_of_not_alias hal.1, resolved_of_not_alias hal.2]

lemma shape?_join (home : UniverseId) (ha : a.shape? = some s) (hb : b.shape? = some s) :
    (join home a b).shape? = some s := by
  by_cases hab : a = b
  · rw [hab, join_self, hb]
  cases s with
  | leaf t => exact absurd ((shape?_eq_leaf ha).trans (shape?_eq_leaf hb).symm) hab
  | tuple n =>
    obtain ⟨h, fs, rfl, hf⟩ := shape?_eq_tuple.mp ha
    obtain ⟨k, gs, rfl, hg⟩ := shape?_eq_tuple.mp hb
    have hl := hf.trans hg.symm
    rw [join_tuple hab hl, shape?, length_joinFields hl, hf]
  | list =>
    obtain ⟨h, x, rfl⟩ := shape?_eq_list.mp ha
    obtain ⟨k, y, rfl⟩ := shape?_eq_list.mp hb
    rw [join_list hab, shape?]
  | set =>
    obtain ⟨h, x, rfl⟩ := shape?_eq_set.mp ha
    obtain ⟨k, y, rfl⟩ := shape?_eq_set.mp hb
    rw [join_set hab, shape?]
  | map =>
    obtain ⟨h, f, g, rfl⟩ := shape?_eq_map.mp ha
    obtain ⟨k, f', g', rfl⟩ := shape?_eq_map.mp hb
    rw [join_map hab, shape?]
  | family h name => rw [join_family hab ha hb, shape?]

end TypedValues.Ty
