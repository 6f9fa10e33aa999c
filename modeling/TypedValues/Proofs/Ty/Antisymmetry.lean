import Mathlib
import TypedValues.Proofs.Ty.Equivalent

/-!
# Equivalence and mutual subtyping

Equivalent types are those that agree once labels are erased. Where no alias stands for `void` they are also
those that stand below each other: an alias stands below what it stands for but not above it, since further
down its chain types only get smaller.
-/

namespace TypedValues.Ty

variable {a b t : Ty} {home : UniverseId} {fs gs : List Field}

/-! ### Types without labels -/

mutual
/-- The type without its labels, the composites made in one universe. What an alias stands for keeps its
labels, since aliases are told apart by it. -/
def unlabeled (home : UniverseId) : Ty → Ty
  | .tuple _ fields => .tuple home (unlabeledFields home fields)
  | .list _ t => .list home (unlabeled home t)
  | .set _ t => .set home (unlabeled home t)
  | .map _ ⟨k, _⟩ ⟨v, _⟩ => .map home (.plain (unlabeled home k)) (.plain (unlabeled home v))
  | .constructor h n s _ fields => .constructor h n s home (unlabeledFields home fields)
  | t => t

def unlabeledFields (home : UniverseId) : List Field → List Field
  | [] => []
  | ⟨t, _⟩ :: fields => .plain (unlabeled home t) :: unlabeledFields home fields
end

mutual
lemma equivalent_iff_unlabeled (home : UniverseId) (a b : Ty) :
    a.equivalent b = true ↔ a.unlabeled home = b.unlabeled home := by
  cases a with
  | tuple h fs =>
    cases b with
    | tuple k gs =>
      rw [tuple_equivalent_tuple, fieldsEquivalent_iff_unlabeled home fs gs]
      simp [unlabeled]
    | _ => simp [equivalent.eq_def, unlabeled]
  | list h s =>
    cases b with
    | list k t =>
      rw [list_equivalent_list, equivalent_iff_unlabeled home s t]
      simp [unlabeled]
    | _ => simp [equivalent.eq_def, unlabeled]
  | set h s =>
    cases b with
    | set k t =>
      rw [set_equivalent_set, equivalent_iff_unlabeled home s t]
      simp [unlabeled]
    | _ => simp [equivalent.eq_def, unlabeled]
  | map h f g =>
    obtain ⟨s, l⟩ := f
    obtain ⟨t, m⟩ := g
    cases b with
    | map k f' g' =>
      rw [map_equivalent_map, equivalent_iff_unlabeled home s f'.item,
        equivalent_iff_unlabeled home t g'.item]
      simp [unlabeled, Labeled.plain]
    | _ => simp [equivalent.eq_def, unlabeled]
  | constructor h n s d fs =>
    cases b with
    | constructor k m r e gs =>
      rw [constructor_equivalent_constructor, fieldsEquivalent_iff_unlabeled home fs gs]
      simp [unlabeled]
    | _ => simp [equivalent.eq_def, unlabeled]
  | _ => cases b <;> simp [equivalent.eq_def, unlabeled]

lemma fieldsEquivalent_iff_unlabeled (home : UniverseId) (fs gs : List Field) :
    FieldsEquivalent fs gs ↔ unlabeledFields home fs = unlabeledFields home gs := by
  cases fs with
  | nil => cases gs <;> simp [FieldsEquivalent, unlabeledFields]
  | cons f fs =>
    obtain ⟨s, l⟩ := f
    cases gs with
    | nil => simp [FieldsEquivalent, unlabeledFields]
    | cons g gs =>
      rw [FieldsEquivalent, List.forall₂_cons, ← FieldsEquivalent,
        equivalent_iff_unlabeled home s g.item, fieldsEquivalent_iff_unlabeled home fs gs]
      simp [unlabeledFields, Labeled.plain]
end

/-! ### Types that stand below each other -/

lemma FieldsBelow.antisymm_of (hfg : FieldsBelow fs gs) (hgf : FieldsBelow gs fs)
    (ih : ∀ f ∈ fs, ∀ g ∈ gs, f.item.subtype g.item = true → g.item.subtype f.item = true →
      f.item.equivalent g.item = true) : FieldsEquivalent fs gs := by
  refine List.forall₂_iff_get.mpr ⟨hfg.length_eq, fun i hi hi' => ?_⟩
  have hbelow := (List.forall₂_iff_get.mp hfg).2 i hi hi'
  have habove := (List.forall₂_iff_get.mp hgf).2 i hi' hi
  exact ih _ (List.get_mem ..) _ (List.get_mem ..) hbelow habove

/-- Of two types that stand below each other, none of them `void`, neither or both are aliases, and then they
are one alias. -/
lemma eq_of_isAlias (hab : a.subtype b = true) (hba : b.subtype a = true) (hv : a.resolved ≠ .void)
    (hal : a.isAlias = true ∨ b.isAlias = true) : a = b := by
  have hv' : b.resolved ≠ .void := fun h => hv (resolved_eq_void_of_subtype hab h)
  have hboth : a.isAlias = true ∧ b.isAlias = true := by
    rcases hal with ha | hb
    · exact ⟨ha, isAlias_of_mem_aliasChain (mem_aliasChain_of_subtype hba ha hv')⟩
    · exact ⟨isAlias_of_mem_aliasChain (mem_aliasChain_of_subtype hab hb hv), hb⟩
  exact eq_of_mem_aliasChain (mem_aliasChain_of_subtype hba hboth.1 hv')
    (mem_aliasChain_of_subtype hab hboth.2 hv)

/-- The induction is on the size of the first type. Aliases are settled by their chains; types of one shape
are compared part by part. -/
lemma equivalent_of_subtype (ha : a.NoVoidAlias) (hb : b.NoVoidAlias) (hab : a.subtype b = true)
    (hba : b.subtype a = true) : a.equivalent b = true := by
  induction hn : sizeOf a using Nat.strong_induction_on generalizing a b with
  | _ n ih =>
  subst hn
  have hcomponents : ∀ s ∈ a.components, ∀ t ∈ b.components,
      s.subtype t = true → t.subtype s = true → s.equivalent t = true := fun s hs t ht hst hts =>
    ih _ (sizeOf_component_lt hs) (ha.component hs) (hb.component ht) hst hts rfl
  by_cases hv : a.resolved = .void
  · have hva : a = .void := by
      by_contra hne
      exact ha.resolved_ne_void hne hv
    have hvb : b = .void := by
      by_contra hne
      exact hb.resolved_ne_void hne (resolved_eq_void_of_subtype hba hv)
    rw [hva, hvb, equivalent_refl]
  by_cases hal : a.isAlias = true ∨ b.isAlias = true
  · rw [eq_of_isAlias hab hba hv hal, equivalent_refl]
  rcases subtype_iff.mp hab with rfl | rfl | rfl | hbelow
  · exact equivalent_refl a
  · exact absurd resolved_void hv
  · rw [eq_value_of_subtype hba, equivalent_refl]
  cases hbelow with
  | aliasOf ht => exact absurd (.inl rfl) hal
  | tuple hfg =>
    refine tuple_equivalent_tuple.mpr (hfg.antisymm_of (tuple_subtype_tuple.mp hba) fun f hf g hg => ?_)
    exact hcomponents _ (List.mem_map_of_mem hf) _ (List.mem_map_of_mem hg)
  | list hst =>
    exact list_equivalent_list.mpr (hcomponents _ (by simp [components]) _ (by simp [components]) hst
      (list_subtype_list.mp hba))
  | set hst =>
    exact set_equivalent_set.mpr (hcomponents _ (by simp [components]) _ (by simp [components]) hst
      (set_subtype_set.mp hba))
  | map hf hg =>
    obtain ⟨hf', hg'⟩ := map_subtype_map.mp hba
    exact map_equivalent_map.mpr
      ⟨hcomponents _ (by simp [components]) _ (by simp [components]) hf hf',
        hcomponents _ (by simp [components]) _ (by simp [components]) hg hg'⟩
  | @constructor h d e n r fs gs hfg =>
    obtain ⟨-, -, -, hgf⟩ := constructor_subtype_constructor.mp hba
    have hchildren := hcomponents (.tuple d fs) (by simp [components]) (.tuple e gs) (by simp [components])
      (tuple_subtype_tuple.mpr hfg) (tuple_subtype_tuple.mpr hgf)
    exact constructor_equivalent_constructor.mpr ⟨rfl, rfl, rfl, tuple_equivalent_tuple.mp hchildren⟩
  | sort =>
    rcases subtype_iff.mp hba with heq | heq | heq | hbelow
    · cases heq
    · cases heq
    · cases heq
    · cases hbelow

/-- Equivalence is mutual subtyping where no alias stands for `void`, so that subtyping, a preorder on all
types, is a partial order there up to labels. On all types equivalence is an equivalence relation: to be
one type once labels are erased. -/
theorem equivalent_iff_mutual :
    (∀ a b : Ty, a.NoVoidAlias → b.NoVoidAlias →
      (a.equivalent b = true ↔ a.subtype b = true ∧ b.subtype a = true)) ∧
    IsPreorder Ty (fun a b => a.subtype b = true) ∧
    Equivalence (fun a b : Ty => a.equivalent b = true) ∧
    ∀ (home : UniverseId) (a b : Ty), a.equivalent b = true ↔ a.unlabeled home = b.unlabeled home := by
  refine ⟨fun a b ha hb => ?_, ?_, ?_, equivalent_iff_unlabeled⟩
  · exact ⟨subtype_of_equivalent, fun h => equivalent_of_subtype ha hb h.1 h.2⟩
  · exact { refl := subtype_refl, trans := fun _ _ _ => subtype_trans }
  · simp only [equivalent_iff_unlabeled 0]
    exact eq_equivalence.comap (unlabeled 0)

/-- Maps of labeled tuples, one with labels where the other has none, and an alias within both. -/
theorem equivalent_iff_mutual_maps :
    let nat : Ty := .aliasOf 0 "Nat" .int
    let a : Ty := .map 0 ⟨nat, some "id"⟩ ⟨.tuple 0 [⟨.list 0 nat, some "xs"⟩, .plain .str], none⟩
    let b : Ty := .map 0 (.plain nat) ⟨.tuple 0 [.plain (.list 0 nat), ⟨.str, some "name"⟩], some "row"⟩
    a.NoVoidAlias ∧ b.NoVoidAlias ∧ a.subtype b = true ∧ b.subtype a = true ∧ a ≠ b ∧
      a.equivalent b = true := by
  intro nat a b
  have ha : a.NoVoidAlias := by decide
  have hb : b.NoVoidAlias := by decide
  have hab : a.subtype b = true := by decide
  have hba : b.subtype a = true := by decide
  exact ⟨ha, hb, hab, hba, by decide, (equivalent_iff_mutual.1 a b ha hb).mpr ⟨hab, hba⟩⟩

/-- An alias of `void` and `void` stand below each other and are not equivalent. -/
example : let never : Ty := .aliasOf 0 "Never" .void
    never.subtype .void = true ∧ void.subtype never = true ∧ never.equivalent .void = false := by decide

end TypedValues.Ty
