import Mathlib
import TypedValues.Proofs.Ty.Parts
import TypedValues.Proofs.Ty.Shape
import TypedValues.Ty.Order

/-!
# Subtyping

The rules by which one type stands below another, and that subtyping is a preorder.
-/

namespace TypedValues.Ty

variable {a b c t : Ty} {h k : UniverseId} {fs gs : List Field}

/-- Fields that stand below those of another list, place by place. -/
def FieldsBelow (fs gs : List Field) : Prop :=
  List.Forall₂ (fun f g => f.item.subtype g.item = true) fs gs

/-- The rules for an alias and for the types of one shape. -/
inductive Below : Ty → Ty → Prop
  | aliasOf {h : UniverseId} {n : String} {t b : Ty} :
    t.subtype b = true → Below (.aliasOf h n t) b
  | tuple {h k : UniverseId} {fs gs : List Field} :
    FieldsBelow fs gs → Below (.tuple h fs) (.tuple k gs)
  | list {h k : UniverseId} {s t : Ty} : s.subtype t = true → Below (.list h s) (.list k t)
  | set {h k : UniverseId} {s t : Ty} : s.subtype t = true → Below (.set h s) (.set k t)
  | map {h k : UniverseId} {f g f' g' : Field} :
    f.item.subtype f'.item = true → g.item.subtype g'.item = true →
      Below (.map h f g) (.map k f' g')
  | constructor {h d e : UniverseId} {n : Option String} {s : String} {fs gs : List Field} :
    FieldsBelow fs gs → Below (.constructor h n s d fs) (.constructor h n s e gs)
  | sort {h d : UniverseId} {n : Option String} {s : String} {fs : List Field} :
    Below (.constructor h n s d fs) (.sort h s)

lemma subtypeFields_iff : subtypeFields fs gs = true ↔ FieldsBelow fs gs := by
  induction fs generalizing gs with
  | nil => cases gs <;> simp [subtypeFields, FieldsBelow]
  | cons f fs ih =>
    cases gs with
    | nil => simp [subtypeFields, FieldsBelow]
    | cons g gs =>
      rw [subtypeFields.eq_def, FieldsBelow, List.forall₂_cons, ← FieldsBelow, ← ih]
      simp

lemma cases_of_subtype (hab : a.subtype b = true) :
    a = b ∨ a = .void ∨ b = .value ∨ Below a b := by
  rw [subtype.eq_def, Bool.or_eq_true, beq_iff_eq] at hab
  refine hab.imp_right fun hm => ?_
  split at hm
  · exact Or.inr (Or.inl rfl)
  · exact Or.inl rfl
  · exact Or.inr (Or.inr (.aliasOf hm))
  · exact Or.inr (Or.inr (.tuple (subtypeFields_iff.mp hm)))
  · exact Or.inr (Or.inr (.list hm))
  · exact Or.inr (Or.inr (.set hm))
  · rw [Bool.and_eq_true] at hm
    exact Or.inr (Or.inr (.map hm.1 hm.2))
  · simp only [Bool.and_eq_true, beq_iff_eq] at hm
    obtain ⟨⟨⟨rfl, rfl⟩, rfl⟩, hf⟩ := hm
    exact Or.inr (Or.inr (.constructor (subtypeFields_iff.mp hf)))
  · simp only [Bool.and_eq_true, beq_iff_eq] at hm
    obtain ⟨rfl, rfl⟩ := hm
    exact Or.inr (Or.inr .sort)
  · simp at hm

lemma subtype_of_cases (h : a = b ∨ a = .void ∨ b = .value ∨ Below a b) : a.subtype b = true := by
  rw [subtype.eq_def, Bool.or_eq_true, beq_iff_eq]
  refine h.imp_right fun hm => ?_
  rcases hm with rfl | rfl | hm
  · cases b <;> rfl
  · rfl
  · cases hm with
    | aliasOf hm => cases b <;> simp [hm]
    | tuple hm => exact subtypeFields_iff.mpr hm
    | list hm | set hm => exact hm
    | map hf hg => simp [hf, hg]
    | constructor hm => simp [subtypeFields_iff.mpr hm]
    | sort => simp

lemma subtype_iff : a.subtype b = true ↔ a = b ∨ a = .void ∨ b = .value ∨ Below a b :=
  ⟨cases_of_subtype, subtype_of_cases⟩

@[simp] lemma subtype_refl (a : Ty) : a.subtype a = true := subtype_iff.mpr (Or.inl rfl)

@[simp] lemma void_subtype (b : Ty) : void.subtype b = true := subtype_iff.mpr (by simp)

@[simp] lemma subtype_value (a : Ty) : a.subtype .value = true := subtype_iff.mpr (by simp)

lemma Below.subtype (hab : Below a b) : a.subtype b = true := subtype_iff.mpr (by simp [hab])

/-- Where neither `void` stands below nor `value` above, one of the rules does it, unless the types are the
same. -/
lemma eq_or_below_of_subtype (hab : a.subtype b = true) (ha : a ≠ .void) (hb : b ≠ .value) :
    a = b ∨ Below a b := by
  rcases subtype_iff.mp hab with heq | hvoid | hvalue | hbelow
  · exact Or.inl heq
  · exact absurd hvoid ha
  · exact absurd hvalue hb
  · exact Or.inr hbelow

lemma eq_value_of_subtype (hb : value.subtype b = true) : b = .value := by
  rcases subtype_iff.mp hb with hb | hb | hb | hb
  · exact hb.symm
  · simp at hb
  · exact hb
  · cases hb

lemma fieldsBelow_refl (fs : List Field) : FieldsBelow fs fs :=
  List.forall₂_same.mpr fun f _ => subtype_refl f.item

lemma FieldsBelow.trans_of {es : List Field} (hef : FieldsBelow es fs) (hfg : FieldsBelow fs gs)
    (ih : ∀ e ∈ es, ∀ b c, e.item.subtype b = true → b.subtype c = true → e.item.subtype c = true) :
    FieldsBelow es gs := by
  induction hef generalizing gs with
  | nil => exact hfg
  | cons he _ rest =>
    cases hfg with
    | cons hf hfg =>
      exact .cons (ih _ List.mem_cons_self _ _ he hf)
        (rest hfg fun e he => ih e (List.mem_cons_of_mem _ he))

lemma FieldsBelow.subtype_of_getElem? {i : ℕ} {f g : Field} (hb : FieldsBelow fs gs)
    (hf : fs[i]? = some f) (hg : gs[i]? = some g) : f.item.subtype g.item = true := by
  obtain ⟨hi, rfl⟩ := List.getElem?_eq_some_iff.mp hf
  obtain ⟨hi', rfl⟩ := List.getElem?_eq_some_iff.mp hg
  exact (List.forall₂_iff_get.mp hb).2 i hi hi'

/-- Subtyping is transitive. The induction is on the size of the lowest type. -/
lemma subtype_trans (hab : a.subtype b = true) (hbc : b.subtype c = true) :
    a.subtype c = true := by
  induction hn : sizeOf a using Nat.strong_induction_on generalizing a b c with
  | _ n ih =>
  subst hn
  rcases subtype_iff.mp hab with rfl | rfl | rfl | hab'
  · exact hbc
  · exact void_subtype c
  · rw [eq_value_of_subtype hbc]
    exact subtype_value a
  have unfolded {h n t} (ha : a = .aliasOf h n t) (ht : t.subtype b = true) : a.subtype c = true := by
    subst ha
    refine Below.subtype (.aliasOf (ih _ ?_ ht hbc rfl))
    simp only [aliasOf.sizeOf_spec]
    omega
  rcases subtype_iff.mp hbc with rfl | rfl | rfl | hbc'
  · exact hab
  · cases hab' with
    | aliasOf ht => exact unfolded rfl ht
  · exact subtype_value a
  cases hab' with
  | aliasOf ht => exact unfolded rfl ht
  | tuple hfg =>
    cases hbc' with
    | tuple hgh =>
      refine Below.subtype (.tuple (hfg.trans_of hgh fun f hf b c hb hc => ih _ ?_ hb hc rfl))
      have := sizeOf_item_lt hf
      simp only [tuple.sizeOf_spec]
      omega
  | list hst =>
    cases hbc' with
    | list htu =>
      refine Below.subtype (.list (ih _ ?_ hst htu rfl))
      simp only [list.sizeOf_spec]
      omega
  | set hst =>
    cases hbc' with
    | set htu =>
      refine Below.subtype (.set (ih _ ?_ hst htu rfl))
      simp only [set.sizeOf_spec]
      omega
  | @map h k f g f' g' hf hg =>
    cases hbc' with
    | map hf' hg' =>
      refine Below.subtype (.map (ih _ ?_ hf hf' rfl) (ih _ ?_ hg hg' rfl))
      all_goals
        cases f
        cases g
        simp only [map.sizeOf_spec, Labeled.mk.sizeOf_spec]
        omega
  | constructor hfg =>
    cases hbc' with
    | constructor hgh =>
      refine Below.subtype (.constructor (hfg.trans_of hgh fun f hf b c hb hc => ih _ ?_ hb hc rfl))
      have := sizeOf_item_lt hf
      simp only [constructor.sizeOf_spec]
      omega
    | sort => exact Below.subtype .sort
  | sort => cases hbc'

/-- Subtyping is a preorder on all types, with `void` at the bottom and `value` on top. -/
theorem subtype_preorder :
    (∀ a : Ty, a.subtype a = true) ∧ (∀ a : Ty, void.subtype a = true) ∧
      (∀ a : Ty, a.subtype .value = true) ∧
      ∀ a b c : Ty, a.subtype b = true → b.subtype c = true → a.subtype c = true :=
  ⟨subtype_refl, void_subtype, subtype_value, fun _ _ _ hab hbc => subtype_trans hab hbc⟩

/-- An alias of one overload of a constructor, another overload of it, and the sort. -/
theorem subtype_preorder_overloads :
    let narrow : Ty :=
      .aliasOf 0 "Ints" (.constructor 0 (some "node") "Tree" 0 [⟨.list 0 .int, some "xs"⟩])
    let wide : Ty := .constructor 0 (some "node") "Tree" 0 [⟨.list 0 .value, none⟩]
    let tree : Ty := .sort 0 "Tree"
    narrow.subtype wide = true ∧ wide.subtype tree = true ∧ narrow.subtype tree = true := by
  intro narrow wide tree
  have hnarrow : narrow.subtype wide = true := by decide
  have hwide : wide.subtype tree = true := by decide
  exact ⟨hnarrow, hwide, subtype_preorder.2.2.2 narrow wide tree hnarrow hwide⟩

/-! ### Aliases -/

lemma subtype_resolved (a : Ty) : a.subtype a.resolved = true := by
  fun_induction resolved a with
  | case1 h n t ih => exact Below.subtype (.aliasOf ih)
  | case2 => exact subtype_refl _

lemma subtype_of_mem_aliasChain (hb : b ∈ a.aliasChain) : a.subtype b = true := by
  fun_induction aliasChain a with
  | case1 h n t ih =>
    rcases List.mem_cons.mp hb with rfl | hb
    · exact subtype_refl _
    · exact Below.subtype (.aliasOf (ih hb))
  | case2 => simp at hb

lemma resolved_subtype_of_not_alias (hab : a.subtype b = true) (hb : b.isAlias = false) :
    a.resolved.subtype b = true := by
  fun_induction resolved a with
  | case1 h n t ih =>
    rcases subtype_iff.mp hab with rfl | ha | rfl | hab
    · simp [isAlias] at hb
    · simp at ha
    · exact subtype_value _
    · cases hab with
      | aliasOf ht => exact ih ht
  | case2 => exact hab

lemma resolved_subtype_resolved (hab : a.subtype b = true) :
    a.resolved.subtype b.resolved = true :=
  resolved_subtype_of_not_alias (subtype_trans hab (subtype_resolved b)) (isAlias_resolved b)

lemma eq_void_of_subtype (ha : a.isAlias = false) (hab : a.subtype .void = true) : a = .void := by
  rcases subtype_iff.mp hab with hab | hab | hab | hab
  · exact hab
  · exact hab
  · simp at hab
  · cases hab with
    | aliasOf ht => simp [isAlias] at ha

lemma resolved_eq_void_of_subtype (hab : a.subtype b = true) (hb : b.resolved = .void) :
    a.resolved = .void := by
  have hr := resolved_subtype_resolved hab
  rw [hb] at hr
  exact eq_void_of_subtype (isAlias_resolved a) hr

/-- Below an alias there are, `void` and what stands for it aside, only the aliases that pass through it. -/
lemma mem_aliasChain_of_subtype (hab : a.subtype b = true) (hb : b.isAlias = true)
    (hv : a.resolved ≠ .void) : b ∈ a.aliasChain := by
  fun_induction aliasChain a with
  | case1 h n t ih =>
    rcases subtype_iff.mp hab with rfl | ha | rfl | hab
    · exact List.mem_cons_self
    · simp at ha
    · simp [isAlias] at hb
    · cases hab with
      | aliasOf ht => exact List.mem_cons_of_mem _ (ih ht hv)
  | case2 a ha =>
    rcases subtype_iff.mp hab with rfl | rfl | rfl | hab
    · obtain ⟨h, n, t, rfl⟩ := isAlias_iff.mp hb
      exact absurd rfl (ha h n t)
    · exact absurd resolved_void hv
    · simp [isAlias] at hb
    · cases hab with
      | aliasOf ht => exact absurd rfl (ha _ _ _)
      | _ => simp [isAlias] at hb

/-- No alias within the type stands for `void`, directly or through other aliases. -/
def NoVoidAlias (t : Ty) : Prop := ∀ p : Ty, p.PartOf t → p.isAlias = true → p.resolved ≠ .void

instance : DecidablePred NoVoidAlias := fun t =>
  decidable_of_iff (∀ p ∈ t.parts, p.isAlias = true → p.resolved ≠ .void)
    (by simp only [mem_parts]; rfl)

namespace NoVoidAlias

lemma part (ht : t.NoVoidAlias) (ha : a.PartOf t) : a.NoVoidAlias := fun p hp => ht p (hp.trans ha)

lemma component (ht : t.NoVoidAlias) (hc : c ∈ t.components) : c.NoVoidAlias :=
  ht.part (.inside hc .self)

lemma resolved_ne_void (ht : t.NoVoidAlias) (hv : t ≠ .void) : t.resolved ≠ .void := by
  by_cases ha : t.isAlias = true
  · exact ht t .self ha
  · rwa [resolved_of_not_alias (by simpa using ha)]

end NoVoidAlias

/-! ### Types of one shape -/

lemma tuple_subtype_tuple : (tuple h fs).subtype (.tuple k gs) = true ↔ FieldsBelow fs gs := by
  constructor
  · intro hab
    rcases eq_or_below_of_subtype hab nofun nofun with heq | hab
    · obtain ⟨-, rfl⟩ := Ty.tuple.inj heq
      exact fieldsBelow_refl fs
    · cases hab with
      | tuple hfg => exact hfg
  · exact fun hfg => Below.subtype (.tuple hfg)

lemma list_subtype_list : (list h a).subtype (.list k b) = true ↔ a.subtype b = true := by
  constructor
  · intro hab
    rcases eq_or_below_of_subtype hab nofun nofun with heq | hab
    · obtain ⟨-, rfl⟩ := Ty.list.inj heq
      exact subtype_refl a
    · cases hab with
      | list hst => exact hst
  · exact fun hst => Below.subtype (.list hst)

lemma set_subtype_set : (set h a).subtype (.set k b) = true ↔ a.subtype b = true := by
  constructor
  · intro hab
    rcases eq_or_below_of_subtype hab nofun nofun with heq | hab
    · obtain ⟨-, rfl⟩ := Ty.set.inj heq
      exact subtype_refl a
    · cases hab with
      | set hst => exact hst
  · exact fun hst => Below.subtype (.set hst)

lemma map_subtype_map {f g f' g' : Field} : (map h f g).subtype (.map k f' g') = true ↔
    f.item.subtype f'.item = true ∧ g.item.subtype g'.item = true := by
  constructor
  · intro hab
    rcases eq_or_below_of_subtype hab nofun nofun with heq | hab
    · obtain ⟨-, rfl, rfl⟩ := Ty.map.inj heq
      exact ⟨subtype_refl _, subtype_refl _⟩
    · cases hab with
      | map hf hg => exact ⟨hf, hg⟩
  · exact fun hfg => Below.subtype (.map hfg.1 hfg.2)

lemma constructor_subtype_constructor {d e : UniverseId} {n m : Option String} {r s : String} :
    (constructor h n r d fs).subtype (.constructor k m s e gs) = true ↔
      h = k ∧ n = m ∧ r = s ∧ FieldsBelow fs gs := by
  constructor
  · intro hab
    rcases eq_or_below_of_subtype hab nofun nofun with heq | hab
    · obtain ⟨rfl, rfl, rfl, -, rfl⟩ := Ty.constructor.inj heq
      exact ⟨rfl, rfl, rfl, fieldsBelow_refl fs⟩
    · cases hab with
      | constructor hfg => exact ⟨rfl, rfl, rfl, hfg⟩
  · rintro ⟨rfl, rfl, rfl, hfg⟩
    exact Below.subtype (.constructor hfg)

/-- Below a tuple type there are, aliases and `void` aside, only tuple types. -/
lemma exists_tuple_of_subtype (hab : a.subtype (.tuple k gs) = true) (hv : a.resolved ≠ .void) :
    ∃ h fs, a.resolved = .tuple h fs ∧ FieldsBelow fs gs := by
  have hr := resolved_subtype_resolved hab
  rw [resolved_of_not_alias (t := .tuple k gs) rfl] at hr
  rcases subtype_iff.mp hr with heq | heq | heq | hb
  · exact ⟨k, gs, heq, fieldsBelow_refl gs⟩
  · exact absurd heq hv
  · simp at heq
  · generalize hx : a.resolved = x at hb
    cases hb with
    | aliasOf ht =>
      have := isAlias_resolved a
      simp [hx, isAlias] at this
    | tuple hfg => exact ⟨_, _, rfl, hfg⟩

end TypedValues.Ty
