import Mathlib
import TypedValues.Proofs.Ty.Subtype

/-!
# Equivalent types

Types that differ only in their labels stand below each other, so that each stands for the other wherever
types are compared.
-/

namespace TypedValues

/-- Related lists, with the places of the related elements. -/
lemma forall₂_mem {α β : Type} {r : α → β → Prop} {xs : List α} {ys : List β}
    (h : List.Forall₂ r xs ys) :
    List.Forall₂ (fun x y => x ∈ xs ∧ y ∈ ys ∧ r x y) xs ys := by
  induction h with
  | nil => exact .nil
  | cons hxy _ ih =>
    refine .cons ⟨List.mem_cons_self, List.mem_cons_self, hxy⟩ (ih.imp fun x y h => ?_)
    exact ⟨List.mem_cons_of_mem _ h.1, List.mem_cons_of_mem _ h.2.1, h.2.2⟩

namespace Ty

variable {a b s s' t t' : Ty} {h k : UniverseId} {fs gs : List Field}

/-- Fields of equivalent types, place by place. -/
def FieldsEquivalent (fs gs : List Field) : Prop :=
  List.Forall₂ (fun f g => f.item.equivalent g.item = true) fs gs

/-- Types of one structure with equivalent components. -/
inductive Alike : Ty → Ty → Prop
  | tuple {h k : UniverseId} {fs gs : List Field} :
    FieldsEquivalent fs gs → Alike (.tuple h fs) (.tuple k gs)
  | list {h k : UniverseId} {s t : Ty} : s.equivalent t = true → Alike (.list h s) (.list k t)
  | set {h k : UniverseId} {s t : Ty} : s.equivalent t = true → Alike (.set h s) (.set k t)
  | map {h k : UniverseId} {f g f' g' : Field} :
    f.item.equivalent f'.item = true → g.item.equivalent g'.item = true →
      Alike (.map h f g) (.map k f' g')
  | constructor {h d e : UniverseId} {n : Option String} {s : String} {fs gs : List Field} :
    FieldsEquivalent fs gs → Alike (.constructor h n s d fs) (.constructor h n s e gs)

lemma equivalentFields_iff : equivalentFields fs gs = true ↔ FieldsEquivalent fs gs := by
  induction fs generalizing gs with
  | nil => cases gs <;> simp [equivalentFields, FieldsEquivalent]
  | cons f fs ih =>
    cases gs with
    | nil => simp [equivalentFields, FieldsEquivalent]
    | cons g gs =>
      rw [equivalentFields.eq_def, FieldsEquivalent, List.forall₂_cons, ← FieldsEquivalent, ← ih]
      simp

lemma cases_of_equivalent (h : a.equivalent b = true) : a = b ∨ Alike a b := by
  rw [equivalent.eq_def, Bool.or_eq_true, beq_iff_eq] at h
  refine h.imp_right fun hm => ?_
  split at hm
  · exact .tuple (equivalentFields_iff.mp hm)
  · exact .list hm
  · exact .set hm
  · rw [Bool.and_eq_true] at hm
    exact .map hm.1 hm.2
  · simp only [Bool.and_eq_true, beq_iff_eq] at hm
    obtain ⟨⟨⟨rfl, rfl⟩, rfl⟩, hf⟩ := hm
    exact .constructor (equivalentFields_iff.mp hf)
  · cases hm

lemma Alike.equivalent (h : Alike a b) : a.equivalent b = true := by
  rw [equivalent.eq_def, Bool.or_eq_true]
  right
  cases h with
  | tuple hfg => exact equivalentFields_iff.mpr hfg
  | list hst | set hst => exact hst
  | map hf hg => simp [hf, hg]
  | constructor hfg => simp [equivalentFields_iff.mpr hfg]

@[simp] lemma equivalent_refl (a : Ty) : a.equivalent a = true := by
  rw [equivalent.eq_def]
  simp

lemma FieldsEquivalent.below (h : FieldsEquivalent fs gs)
    (ih : ∀ f ∈ fs, ∀ t, f.item.equivalent t = true →
      f.item.subtype t = true ∧ t.subtype f.item = true) :
    FieldsBelow fs gs ∧ FieldsBelow gs fs := by
  constructor
  · exact (forall₂_mem h).imp fun f g ⟨hf, _, hfg⟩ => (ih f hf _ hfg).1
  · exact ((forall₂_mem h).imp fun f g ⟨hf, _, hfg⟩ => (ih f hf _ hfg).2).flip

/-- Equivalent types stand below each other. The induction is on the size of the first. -/
lemma subtype_of_equivalent (h : a.equivalent b = true) : a.subtype b = true ∧ b.subtype a = true := by
  induction hn : sizeOf a using Nat.strong_induction_on generalizing a b with
  | _ n ih =>
  subst hn
  rcases cases_of_equivalent h with rfl | halike
  · exact ⟨subtype_refl a, subtype_refl a⟩
  cases halike with
  | tuple hfg =>
    obtain ⟨hbelow, habove⟩ := hfg.below fun f hf t ht => ih _ (by
      have := sizeOf_item_lt hf
      simp only [tuple.sizeOf_spec]
      omega) ht rfl
    exact ⟨Below.subtype (.tuple hbelow), Below.subtype (.tuple habove)⟩
  | list hst =>
    obtain ⟨hbelow, habove⟩ := ih _ (by simp only [list.sizeOf_spec]; omega) hst rfl
    exact ⟨Below.subtype (.list hbelow), Below.subtype (.list habove)⟩
  | set hst =>
    obtain ⟨hbelow, habove⟩ := ih _ (by simp only [set.sizeOf_spec]; omega) hst rfl
    exact ⟨Below.subtype (.set hbelow), Below.subtype (.set habove)⟩
  | @map h k f g f' g' hf hg =>
    cases f
    cases g
    obtain ⟨hkeys, hkeys'⟩ := ih _ (by simp only [map.sizeOf_spec, Labeled.mk.sizeOf_spec]; omega) hf rfl
    obtain ⟨hvalues, hvalues'⟩ :=
      ih _ (by simp only [map.sizeOf_spec, Labeled.mk.sizeOf_spec]; omega) hg rfl
    exact ⟨Below.subtype (.map hkeys hvalues), Below.subtype (.map hkeys' hvalues')⟩
  | constructor hfg =>
    obtain ⟨hbelow, habove⟩ := hfg.below fun f hf t ht => ih _ (by
      have := sizeOf_item_lt hf
      simp only [constructor.sizeOf_spec]
      omega) ht rfl
    exact ⟨Below.subtype (.constructor hbelow), Below.subtype (.constructor habove)⟩

/-- Whether types are comparable is the same for equivalent ones. -/
lemma comparable_congr (hs : s.equivalent s' = true) (ht : t.equivalent t' = true) :
    s.comparable t = s'.comparable t' := by
  obtain ⟨hs, hs'⟩ := subtype_of_equivalent hs
  obtain ⟨ht, ht'⟩ := subtype_of_equivalent ht
  rw [comparable, comparable, Bool.eq_iff_iff, Bool.or_eq_true, Bool.or_eq_true]
  constructor
  · exact Or.imp (fun h => subtype_trans hs' (subtype_trans h ht))
      fun h => subtype_trans ht' (subtype_trans h hs)
  · exact Or.imp (fun h => subtype_trans hs (subtype_trans h ht'))
      fun h => subtype_trans ht (subtype_trans h hs')

/-! ### Equivalent composites -/

lemma fieldsEquivalent_refl (fs : List Field) : FieldsEquivalent fs fs :=
  List.forall₂_same.mpr fun f _ => equivalent_refl f.item

lemma tuple_equivalent_tuple : (tuple h fs).equivalent (.tuple k gs) = true ↔ FieldsEquivalent fs gs := by
  refine ⟨fun heq => ?_, fun hfg => (Alike.tuple hfg).equivalent⟩
  rcases cases_of_equivalent heq with heq | halike
  · obtain ⟨-, rfl⟩ := Ty.tuple.inj heq
    exact fieldsEquivalent_refl fs
  · cases halike with
    | tuple hfg => exact hfg

lemma list_equivalent_list : (list h s).equivalent (.list k t) = true ↔ s.equivalent t = true := by
  refine ⟨fun heq => ?_, fun hst => (Alike.list hst).equivalent⟩
  rcases cases_of_equivalent heq with heq | halike
  · rw [(Ty.list.inj heq).2, equivalent_refl]
  · cases halike with
    | list hst => exact hst

lemma set_equivalent_set : (set h s).equivalent (.set k t) = true ↔ s.equivalent t = true := by
  refine ⟨fun heq => ?_, fun hst => (Alike.set hst).equivalent⟩
  rcases cases_of_equivalent heq with heq | halike
  · rw [(Ty.set.inj heq).2, equivalent_refl]
  · cases halike with
    | set hst => exact hst

lemma map_equivalent_map {f g f' g' : Field} : (map h f g).equivalent (.map k f' g') = true ↔
    f.item.equivalent f'.item = true ∧ g.item.equivalent g'.item = true := by
  refine ⟨fun heq => ?_, fun hfg => (Alike.map hfg.1 hfg.2).equivalent⟩
  rcases cases_of_equivalent heq with heq | halike
  · obtain ⟨-, rfl, rfl⟩ := Ty.map.inj heq
    exact ⟨equivalent_refl _, equivalent_refl _⟩
  · cases halike with
    | map hf hg => exact ⟨hf, hg⟩

lemma constructor_equivalent_constructor {d e : UniverseId} {n m : Option String} {r r' : String} :
    (constructor h n r d fs).equivalent (.constructor k m r' e gs) = true ↔
      h = k ∧ n = m ∧ r = r' ∧ FieldsEquivalent fs gs := by
  constructor
  · intro heq
    rcases cases_of_equivalent heq with heq | halike
    · obtain ⟨rfl, rfl, rfl, -, rfl⟩ := Ty.constructor.inj heq
      exact ⟨rfl, rfl, rfl, fieldsEquivalent_refl fs⟩
    · cases halike with
      | constructor hfg => exact ⟨rfl, rfl, rfl, hfg⟩
  · rintro ⟨rfl, rfl, rfl, hfg⟩
    exact (Alike.constructor hfg).equivalent

lemma name?_resolved_of_equivalent (h : a.equivalent b = true) : a.resolved.name? = b.resolved.name? := by
  rcases cases_of_equivalent h with rfl | halike
  · rfl
  · cases halike <;> rfl

end Ty
end TypedValues
