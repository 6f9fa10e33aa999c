import Mathlib

/-!
# Lists up to an equivalence

Where a test is an equivalence, a list in which nothing occurs twice is known by the classes of its
members. Two such lists that cover each other have one length, and one that covers another no shorter
than itself is covered by it.
-/

namespace TypedValues

variable {α : Type}

lemma forall₂_imp_of_mem {β : Type} {r s : α → β → Prop} {xs : List α} {ys : List β}
    (h : List.Forall₂ r xs ys) (himp : ∀ x ∈ xs, ∀ y ∈ ys, r x y → s x y) :
    List.Forall₂ s xs ys := by
  induction h with
  | nil => exact .nil
  | cons hxy _ ih =>
    refine .cons (himp _ List.mem_cons_self _ List.mem_cons_self hxy) (ih fun x hx y hy => ?_)
    exact himp x (List.mem_cons_of_mem _ hx) y (List.mem_cons_of_mem _ hy)

lemma exists_left_of_forall₂ {β : Type} {r : α → β → Prop} {xs : List α} {ys : List β} {y : β}
    (h : List.Forall₂ r xs ys) (hy : y ∈ ys) : ∃ x ∈ xs, r x y := by
  obtain ⟨i, hi, rfl⟩ := List.getElem_of_mem hy
  have hi' : i < xs.length := by rwa [h.length_eq]
  exact ⟨xs[i], List.getElem_mem hi', (List.forall₂_iff_get.mp h).2 i hi' hi⟩

/-- A test that is an equivalence on the things with this property. -/
structure EquivalenceOn (P : α → Prop) (same : α → α → Bool) : Prop where
  refl : ∀ {a}, P a → same a a = true
  symm : ∀ {a b}, P a → P b → same a b = true → same b a = true
  trans : ∀ {a b c}, P a → P b → P c → same a b = true → same b c = true → same a c = true

/-- No member passes the test against a later one. -/
def Unrepeated (same : α → α → Bool) (xs : List α) : Prop := xs.Pairwise fun x y => same x y = false

/-- Each member of the second list has one in the first that passes the test against it. -/
def Covers (same : α → α → Bool) (xs ys : List α) : Prop := ∀ y ∈ ys, ∃ x ∈ xs, same x y = true

namespace EquivalenceOn

variable {P Q : α → Prop} {same : α → α → Bool} {a b c : α} {xs ys zs : List α}

lemma mono (h : EquivalenceOn P same) (hQ : ∀ a, Q a → P a) : EquivalenceOn Q same where
  refl ha := h.refl (hQ _ ha)
  symm ha hb := h.symm (hQ _ ha) (hQ _ hb)
  trans ha hb hc := h.trans (hQ _ ha) (hQ _ hb) (hQ _ hc)

lemma comm (h : EquivalenceOn P same) (ha : P a) (hb : P b) : same a b = same b a := by
  rw [Bool.eq_iff_iff]
  exact ⟨h.symm ha hb, h.symm hb ha⟩

lemma congr_left (h : EquivalenceOn P same) (ha : P a) (hb : P b) (hc : P c) (hab : same a b = true) :
    same a c = same b c := by
  rw [Bool.eq_iff_iff]
  exact ⟨h.trans hb ha hc (h.symm ha hb hab), h.trans ha hb hc hab⟩

/-- What is the same as something among the things with the property. -/
def classOf (P : α → Prop) (same : α → α → Bool) (a : α) : { b // P b } → Bool := fun b => same a b

lemma same_iff (h : EquivalenceOn P same) (ha : P a) (hb : P b) :
    same a b = true ↔ classOf P same a = classOf P same b := by
  constructor
  · intro hab
    funext c
    exact h.congr_left ha hb c.2 hab
  · intro hclass
    have hb' : classOf P same a ⟨b, hb⟩ = true := by
      rw [hclass]
      exact h.refl hb
    exact hb'

lemma nodup_classes (h : EquivalenceOn P same) (hxs : ∀ x ∈ xs, P x) (hd : Unrepeated same xs) :
    (xs.map (classOf P same)).Nodup := by
  refine List.pairwise_map.mpr (hd.imp_of_mem ?_)
  intro x y hx hy hxy hclass
  rw [← h.same_iff (hxs x hx) (hxs y hy), hxy] at hclass
  exact Bool.false_ne_true hclass

lemma covers_iff (h : EquivalenceOn P same) (hxs : ∀ x ∈ xs, P x) (hys : ∀ y ∈ ys, P y) :
    Covers same xs ys ↔ ys.map (classOf P same) ⊆ xs.map (classOf P same) := by
  constructor
  · intro hcov q hq
    obtain ⟨y, hy, rfl⟩ := List.mem_map.mp hq
    obtain ⟨x, hx, hxy⟩ := hcov y hy
    rw [← (h.same_iff (hxs x hx) (hys y hy)).mp hxy]
    exact List.mem_map_of_mem hx
  · intro hsub y hy
    obtain ⟨x, hx, hxy⟩ := List.mem_map.mp (hsub (List.mem_map_of_mem hy))
    exact ⟨x, hx, (h.same_iff (hxs x hx) (hys y hy)).mpr hxy⟩

lemma covers_trans (h : EquivalenceOn P same) (hxs : ∀ x ∈ xs, P x) (hys : ∀ y ∈ ys, P y)
    (hzs : ∀ z ∈ zs, P z) (hxy : Covers same xs ys) (hyz : Covers same ys zs) : Covers same xs zs := by
  rw [h.covers_iff hxs hys] at hxy
  rw [h.covers_iff hys hzs] at hyz
  exact (h.covers_iff hxs hzs).mpr (List.Subset.trans hyz hxy)

/-- Lists compare place by place as the classes of their members do. -/
lemma forall₂_iff (h : EquivalenceOn P same) (hxs : ∀ x ∈ xs, P x) (hys : ∀ y ∈ ys, P y) :
    List.Forall₂ (fun x y => same x y = true) xs ys ↔
      xs.map (classOf P same) = ys.map (classOf P same) := by
  induction xs generalizing ys with
  | nil => simp [List.forall₂_nil_left_iff]
  | cons x xs ih =>
    cases ys with
    | nil => simp
    | cons y ys =>
      obtain ⟨hx, hxs⟩ := List.forall_mem_cons.mp hxs
      obtain ⟨hy, hys⟩ := List.forall_mem_cons.mp hys
      rw [List.forall₂_cons, h.same_iff hx hy, ih hxs hys, List.map_cons, List.map_cons, List.cons.injEq]

/-- What a list covers without repetition is no longer than the list. -/
lemma length_le (h : EquivalenceOn P same) (hxs : ∀ x ∈ xs, P x) (hys : ∀ y ∈ ys, P y)
    (hd : Unrepeated same ys) (hcov : Covers same xs ys) : ys.length ≤ xs.length := by
  have hle := (List.subperm_of_subset (h.nodup_classes hys hd) ((h.covers_iff hxs hys).mp hcov)).length_le
  simpa using hle

/-- As many things as there are to cover are all covered in turn. -/
lemma covers_of_length_le (h : EquivalenceOn P same) (hxs : ∀ x ∈ xs, P x) (hys : ∀ y ∈ ys, P y)
    (hd : Unrepeated same ys) (hcov : Covers same xs ys) (hlen : xs.length ≤ ys.length) :
    Covers same ys xs := by
  have hsub := List.subperm_of_subset (h.nodup_classes hys hd) ((h.covers_iff hxs hys).mp hcov)
  have hperm := hsub.perm_of_length_le (by simpa using hlen)
  exact (h.covers_iff hys hxs).mpr hperm.symm.subset

/-- Lists without repetition that cover each other have the same images under what does not tell things of
one class apart. -/
lemma perm_map {β : Type} {f : α → β} (h : EquivalenceOn P same) (hxs : ∀ x ∈ xs, P x)
    (hys : ∀ y ∈ ys, P y) (hdx : Unrepeated same xs) (hdy : Unrepeated same ys)
    (hxy : Covers same xs ys) (hyx : Covers same ys xs)
    (hf : ∀ x ∈ xs, ∀ y ∈ ys, same x y = true → f x = f y) : (xs.map f).Perm (ys.map f) := by
  have hnodup {zs : List α} (hzs : ∀ z ∈ zs, P z) (hd : Unrepeated same zs) :
      (zs.map fun z => (classOf P same z, f z)).Nodup := by
    apply List.Nodup.of_map Prod.fst
    rw [List.map_map]
    exact h.nodup_classes hzs hd
  have hperm : (xs.map fun x => (classOf P same x, f x)).Perm (ys.map fun y => (classOf P same y, f y)) := by
    rw [List.perm_ext_iff_of_nodup (hnodup hxs hdx) (hnodup hys hdy)]
    intro q
    simp only [List.mem_map]
    constructor
    · rintro ⟨x, hx, rfl⟩
      obtain ⟨y, hy, hyx⟩ := hyx x hx
      have hsame := h.symm (hys y hy) (hxs x hx) hyx
      exact ⟨y, hy, by rw [(h.same_iff (hxs x hx) (hys y hy)).mp hsame, hf x hx y hy hsame]⟩
    · rintro ⟨y, hy, rfl⟩
      obtain ⟨x, hx, hxy⟩ := hxy y hy
      exact ⟨x, hx, by rw [(h.same_iff (hxs x hx) (hys y hy)).mp hxy, hf x hx y hy hxy]⟩
  have hsnd := hperm.map Prod.snd
  rwa [List.map_map, List.map_map] at hsnd

end EquivalenceOn
end TypedValues
