import Mathlib
import TypedValues.Proofs.Ty.Join

/-!
# Grouping of joins

How a chain of joins is grouped does not matter as long as no two aliases stand directly for `void`.
Two such aliases share no alias and join at `void` itself, which is lost in the next join.
-/

namespace TypedValues

namespace Ty

variable {a b c t : Ty} {r s : Shape} {home h k : UniverseId} {fs gs : List Field}

/-! ### Resolving aliases around a join -/

/-- The join of two types that are no aliases is none either, and is `void` only if both are. -/
lemma join_of_not_alias (home : UniverseId) (ha : a.isAlias = false) (hb : b.isAlias = false) :
    (join home a b).isAlias = false ∧ (join home a b = .void → a = .void ∧ b = .void) := by
  by_cases hva : a = .void
  · simp [hva, hb]
  by_cases hvb : b = .void
  · simp [hvb, ha]
  by_cases hta : a = .value
  · simp [hta, isAlias]
  by_cases htb : b = .value
  · simp [htb, isAlias]
  obtain ⟨r, hr⟩ := exists_shape? hva hta ha
  obtain ⟨s, hs⟩ := exists_shape? hvb htb hb
  by_cases hrs : r = s
  · have hj := shape?_join home hr (hrs ▸ hs)
    exact ⟨isAlias_of_shape? hj, fun h => absurd h (ne_void_of_shape? hj)⟩
  · simp [join_of_shape_ne hrs hr hs, isAlias]

/-- A type other than `void` that is no alias is joined with what an alias stands for. -/
lemma join_resolved_left (hb : b.isAlias = false) (hv : b ≠ .void) :
    join home a b = join home a.resolved b := by
  by_cases ha : a = .void
  · rw [ha, resolved_void]
  · have hn : sharedAlias? a b = none := by
      rw [sharedAlias?_comm, sharedAlias?_eq_none_of_left hb]
    rw [join_resolved ha hv hn, resolved_of_not_alias hb]

lemma join_resolved_right (ha : a.isAlias = false) (hv : a ≠ .void) :
    join home a b = join home a b.resolved := by
  rw [join_comm, join_resolved_left ha hv, join_comm]

/-! ### Grouping types of any shape -/

/-- Whatever is joined part by part is grouped part by part. -/
lemma joinFields_assoc {hs : List Field} (hl : fs.length = gs.length) (hl' : gs.length = hs.length)
    (ih : ∀ f ∈ fs, ∀ g ∈ gs, ∀ e ∈ hs, join home (join home f.item g.item) e.item =
      join home f.item (join home g.item e.item)) :
    joinFields home (joinFields home fs gs) hs = joinFields home fs (joinFields home gs hs) := by
  simp only [joinFields_eq_zipWith]
  refine List.ext_getElem (by simp [hl, hl']) fun i hi hi' => ?_
  simp only [List.getElem_zipWith, joinField, commonLabel_assoc]
  rw [ih _ (List.getElem_mem _) _ (List.getElem_mem _) _ (List.getElem_mem _)]

/-- The composites were made in one universe. -/
def MadeIn (home : UniverseId) : Ty → Prop
  | .tuple h _ | .list h _ | .set h _ | .map h _ _ => h = home
  | _ => True

lemma join_sort_left {name : String} (hb : b.shape? = some (.family h name)) :
    join home (.sort h name) b = .sort h name := by
  by_cases hne : .sort h name = b
  · rw [← hne, join_self]
  · exact join_family hne rfl hb

lemma join_sort_right {name : String} (ha : a.shape? = some (.family h name)) :
    join home a (.sort h name) = .sort h name := by
  rw [join_comm, join_sort_left ha]

lemma join_assoc_of_shape (ha : a.shape? = some s) (hb : b.shape? = some s)
    (hc : c.shape? = some s) (ma : a.MadeIn home) (mb : b.MadeIn home) (mc : c.MadeIn home)
    (ih : ∀ x ∈ a.components, ∀ y ∈ b.components, ∀ z ∈ c.components,
      join home (join home x y) z = join home x (join home y z)) :
    join home (join home a b) c = join home a (join home b c) := by
  cases s with
  | leaf t => rw [shape?_eq_leaf ha, shape?_eq_leaf hb, shape?_eq_leaf hc, join_self, join_self]
  | tuple n =>
    obtain ⟨h, fs, rfl, hf⟩ := shape?_eq_tuple.mp ha
    obtain ⟨k, gs, rfl, hg⟩ := shape?_eq_tuple.mp hb
    obtain ⟨l, hs, rfl, hh⟩ := shape?_eq_tuple.mp hc
    obtain rfl : h = home := ma
    obtain rfl : k = h := mb
    obtain rfl : l = k := mc
    have hl := hf.trans hg.symm
    have hl' := hg.trans hh.symm
    rw [join_tuples hl, join_tuples hl', join_tuples ((length_joinFields hl).trans (hl.trans hl')),
      join_tuples (hl.trans (length_joinFields hl').symm), joinFields_assoc hl hl']
    exact fun f hf g hg e he => ih _ (List.mem_map_of_mem hf) _ (List.mem_map_of_mem hg) _
      (List.mem_map_of_mem he)
  | list =>
    obtain ⟨h, x, rfl⟩ := shape?_eq_list.mp ha
    obtain ⟨k, y, rfl⟩ := shape?_eq_list.mp hb
    obtain ⟨l, z, rfl⟩ := shape?_eq_list.mp hc
    obtain rfl : h = home := ma
    obtain rfl : k = h := mb
    obtain rfl : l = k := mc
    simp only [join_lists]
    rw [ih x (by simp [components]) y (by simp [components]) z (by simp [components])]
  | set =>
    obtain ⟨h, x, rfl⟩ := shape?_eq_set.mp ha
    obtain ⟨k, y, rfl⟩ := shape?_eq_set.mp hb
    obtain ⟨l, z, rfl⟩ := shape?_eq_set.mp hc
    obtain rfl : h = home := ma
    obtain rfl : k = h := mb
    obtain rfl : l = k := mc
    simp only [join_sets]
    rw [ih x (by simp [components]) y (by simp [components]) z (by simp [components])]
  | map =>
    obtain ⟨h, f, g, rfl⟩ := shape?_eq_map.mp ha
    obtain ⟨k, f', g', rfl⟩ := shape?_eq_map.mp hb
    obtain ⟨l, f'', g'', rfl⟩ := shape?_eq_map.mp hc
    obtain rfl : h = home := ma
    obtain rfl : k = h := mb
    obtain rfl : l = k := mc
    simp only [join_maps, joinField]
    rw [ih f.item (by simp [components]) f'.item (by simp [components]) f''.item
        (by simp [components]),
      ih g.item (by simp [components]) g'.item (by simp [components]) g''.item
        (by simp [components]),
      commonLabel_assoc, commonLabel_assoc]
  | family h name =>
    -- A sort absorbs its constructors, and two different members join at the sort.
    by_cases hab : a = b
    · rw [hab, join_self]
      by_cases hbc : b = c
      · rw [hbc, join_self, join_self]
      · rw [join_family hbc hb hc, join_sort_right hb]
    · rw [join_family hab ha hb, join_sort_left hc]
      by_cases hbc : b = c
      · rw [hbc, join_self, ← hbc, join_family hab ha hb]
      · rw [join_family hbc hb hc, join_sort_right ha]

lemma join_assoc_of_shapes {r s q : Shape} (ha : a.shape? = some r) (hb : b.shape? = some s)
    (hc : c.shape? = some q) (ma : a.MadeIn home) (mb : b.MadeIn home) (mc : c.MadeIn home)
    (ih : ∀ x ∈ a.components, ∀ y ∈ b.components, ∀ z ∈ c.components,
      join home (join home x y) z = join home x (join home y z)) :
    join home (join home a b) c = join home a (join home b c) := by
  by_cases hrs : r = s
  · subst hrs
    by_cases hrq : r = q
    · subst hrq
      exact join_assoc_of_shape ha hb hc ma mb mc ih
    · rw [join_of_shape_ne hrq (shape?_join home ha hb) hc, join_of_shape_ne hrq hb hc,
        join_value_right]
  · rw [join_of_shape_ne hrs ha hb, join_value_left]
    by_cases hsq : s = q
    · rw [join_of_shape_ne hrs ha (shape?_join home hb (hsq ▸ hc))]
    · rw [join_of_shape_ne hsq hb hc, join_value_right]

/-! ### Grouping around aliases -/

/-- The parts were made in one universe, and at most one alias among them stands directly for
`void`. -/
def Agrees (home : UniverseId) (voidAlias : Ty) (p : Ty) : Prop :=
  p.MadeIn home ∧ ∀ h n, p = .aliasOf h n .void → p = voidAlias

/-- All parts of the type agree. -/
def Uniform (home : UniverseId) (voidAlias t : Ty) : Prop :=
  ∀ p : Ty, p.PartOf t → Agrees home voidAlias p

section Uniform
variable {v : Ty}

lemma Uniform.part {p : Ty} (ht : Uniform home v t) (hp : p.PartOf t) : Uniform home v p :=
  fun _ hq => ht _ (hq.trans hp)

lemma Uniform.component (ht : Uniform home v t) (hc : c ∈ t.components) : Uniform home v c :=
  ht.part (.inside hc .self)

lemma Uniform.resolved (ht : Uniform home v t) : Uniform home v t.resolved :=
  ht.part (partOf_resolved t)

lemma partOf_of_mem_aliasChain (ha : a ∈ t.aliasChain) : a.PartOf t := by
  fun_induction aliasChain t with
  | case1 h n t ih =>
    rcases List.mem_cons.mp ha with rfl | ha
    · exact .self
    · exact .inside (by simp [components]) (ih ha)
  | case2 => simp at ha

/-- Aliases of `void` share the one that stands for it directly. -/
lemma Uniform.sharedAlias?_ne_none (ha : Uniform home v a) (hb : Uniform home v b) (hva : a ≠ .void)
    (hvb : b ≠ .void) (ra : a.resolved = .void) (rb : b.resolved = .void) :
    sharedAlias? a b ≠ none := by
  have mem {t : Ty} (ht : Uniform home v t) (hv : t ≠ .void) (rt : t.resolved = .void) :
      v ∈ t.aliasChain := by
    have hal : t.isAlias = true := by
      by_contra hal
      exact hv (by rw [← rt, resolved_of_not_alias (by simpa using hal)])
    obtain ⟨h, n, hm⟩ := exists_void_alias hal rt
    have hvm := (ht _ (partOf_of_mem_aliasChain hm)).2 h n rfl
    rwa [hvm] at hm
  intro hn
  exact sharedAlias?_eq_none.mp hn v (mem ha hva ra) (mem hb hvb rb)

/-- What two aliases share is joined with a type that shares nothing with them. -/
lemma join_assoc_of_shares {s : Ty} (hs : Shares a b s) (hn : sharedAlias? b c = none)
    (hc : c ≠ .void) (hv : a.resolved = .void → c.resolved ≠ .void)
    (absorb : join home a.resolved (join home a.resolved c.resolved) =
      join home a.resolved c.resolved) :
    join home (join home a b) c = join home a (join home b c) := by
  have hb := ne_void_of_isAlias (isAlias_of_mem_aliasChain hs.mem.2)
  have hj := join_of_not_alias home (isAlias_resolved a) (isAlias_resolved c)
  have hjv : join home a.resolved c.resolved ≠ .void := fun h => hv (hj.2 h).1 (hj.2 h).2
  calc join home (join home a b) c
      = join home a.resolved c.resolved := by
        rw [join_of_shares hs, join_resolved (ne_void_of_isAlias hs.1) hc
          (sharedAlias?_eq_none_of_shares hs hn), hs.resolved_left]
    _ = join home a (join home a.resolved c.resolved) := by
        rw [join_resolved_left hj.1 hjv, absorb]
    _ = join home a (join home b c) := by
        rw [join_resolved hb hc hn, ← hs.resolved_left, hs.resolved_right]

lemma join_assoc_of_not_shared (hva : a ≠ .void) (hvb : b ≠ .void) (hvc : c ≠ .void)
    (hab : sharedAlias? a b = none) (hbc : sharedAlias? b c = none)
    (hv : a.resolved = .void → b.resolved ≠ .void) (hv' : b.resolved = .void → c.resolved ≠ .void)
    (ih : join home (join home a.resolved b.resolved) c.resolved =
      join home a.resolved (join home b.resolved c.resolved)) :
    join home (join home a b) c = join home a (join home b c) := by
  have hx := join_of_not_alias home (isAlias_resolved a) (isAlias_resolved b)
  have hy := join_of_not_alias home (isAlias_resolved b) (isAlias_resolved c)
  have hxv : join home a.resolved b.resolved ≠ .void := fun h => hv (hx.2 h).1 (hx.2 h).2
  have hyv : join home b.resolved c.resolved ≠ .void := fun h => hv' (hy.2 h).1 (hy.2 h).2
  rw [join_resolved hva hvb hab, join_resolved_right hx.1 hxv, ih, join_resolved hvb hvc hbc,
    ← join_resolved_left hy.1 hyv]

lemma Uniform.madeIn (ha : Uniform home v a) : a.MadeIn home := (ha a .self).1

lemma Uniform.join_assoc (ha : Uniform home v a) (hb : Uniform home v b) (hc : Uniform home v c) :
    join home (join home a b) c = join home a (join home b c) := by
  induction hn : sizeOf a + sizeOf b + sizeOf c using Nat.strong_induction_on
    generalizing a b c with
  | _ n ih =>
  subst hn
  by_cases hva : a = .void
  · rw [hva, join_void_left, join_void_left]
  by_cases hvb : b = .void
  · rw [hvb, join_void_left, join_void_right]
  by_cases hvc : c = .void
  · rw [hvc, join_void_right, join_void_right]
  have la := sizeOf_resolved_le a
  have lb := sizeOf_resolved_le b
  have lc := sizeOf_resolved_le c
  have absorb {x y : Ty} (hx : Uniform home v x) (hy : Uniform home v y)
      (hlt : sizeOf x + sizeOf x + sizeOf y < sizeOf a + sizeOf b + sizeOf c) :
      join home x (join home x y) = join home x y := by
    rw [← ih _ hlt hx hx hy rfl, join_self]
  cases hab : sharedAlias? a b with
  | some s =>
    have hs := shares_of_sharedAlias? hab
    have hal := sizeOf_resolved_lt (isAlias_of_mem_aliasChain hs.mem.1)
    have heq : a.resolved = b.resolved := hs.resolved_left.symm.trans hs.resolved_right
    cases hbc : sharedAlias? b c with
    | some t =>
      have ht := shares_of_sharedAlias? hbc
      obtain ⟨x, hx, hx'⟩ := hs.assoc ht
      rw [join_of_shares hs, join_of_shares ht, join_of_shares hx, join_of_shares hx']
    | none =>
      refine join_assoc_of_shares hs hbc hvc (fun ra rc => ?_) (absorb ha.resolved hc.resolved ?_)
      · exact hb.sharedAlias?_ne_none hc hvb hvc (heq ▸ ra) rc hbc
      · rw [heq] at hal ⊢
        omega
  | none =>
    cases hbc : sharedAlias? b c with
    | some t =>
      -- The same from the other end.
      have ht := shares_of_sharedAlias? hbc
      have hcl := sizeOf_resolved_lt (isAlias_of_mem_aliasChain ht.mem.2)
      have heq : c.resolved = b.resolved := ht.resolved_right.symm.trans ht.resolved_left
      rw [join_comm home a b, join_comm home (join home b a) c, join_comm home b c,
        join_comm home a (join home c b), eq_comm]
      refine join_assoc_of_shares ht.symm (by rw [sharedAlias?_comm, hab]) hva (fun rc ra => ?_)
        (absorb hc.resolved ha.resolved ?_)
      · exact ha.sharedAlias?_ne_none hb hva hvb ra (heq ▸ rc) hab
      · rw [heq] at hcl ⊢
        omega
    | none =>
      by_cases hal : a.isAlias = true ∨ b.isAlias = true ∨ c.isAlias = true
      · refine join_assoc_of_not_shared hva hvb hvc hab hbc
          (fun ra rb => ha.sharedAlias?_ne_none hb hva hvb ra rb hab)
          (fun rb rc => hb.sharedAlias?_ne_none hc hvb hvc rb rc hbc)
          (ih _ ?_ ha.resolved hb.resolved hc.resolved rfl)
        rcases hal with hal | hal | hal <;> have := sizeOf_resolved_lt hal <;> omega
      · simp only [not_or, Bool.not_eq_true] at hal
        by_cases hta : a = .value
        · rw [hta, join_value_left, join_value_left, join_value_left]
        by_cases htb : b = .value
        · rw [htb, join_value_left, join_value_right, join_value_left]
        by_cases htc : c = .value
        · rw [htc, join_value_right, join_value_right, join_value_right]
        obtain ⟨r, hr⟩ := exists_shape? hva hta hal.1
        obtain ⟨s, hs⟩ := exists_shape? hvb htb hal.2.1
        obtain ⟨q, hq⟩ := exists_shape? hvc htc hal.2.2
        refine join_assoc_of_shapes hr hs hq ha.madeIn hb.madeIn hc.madeIn
          fun x hx y hy z hz => ih _ ?_ (ha.component hx) (hb.component hy) (hc.component hz) rfl
        have := sizeOf_component_lt hx
        have := sizeOf_component_lt hy
        have := sizeOf_component_lt hz
        omega

end Uniform

lemma join_void_aliases {m n : String} (hne : m ≠ n) :
    join home (.aliasOf h m .void) (.aliasOf h n .void) = .void := by
  have hn : sharedAlias? (.aliasOf h m .void) (.aliasOf h n .void) = none := by
    simp [sharedAlias?, aliasChain, hne]
  rw [join_resolved (by simp) (by simp) hn, resolved_aliasOf, resolved_aliasOf, resolved_void,
    join_self]

end Ty

namespace Universe
open Ty

variable {u : Universe}

lemma owns_voidAlias {n : String} (hn : u.alias? n = some (.aliasOf u.id n .void)) :
    u.Owns (.aliasOf u.id n .void) := by
  refine owns_iff.mpr ⟨hn, fun c hc => ?_⟩
  obtain rfl : c = .void := by simpa [components] using hc
  exact owns_iff.mpr ⟨trivial, by simp [components]⟩

lemma Declares.madeIn {t : Ty} (ht : u.Declares t) : t.MadeIn u.id := by
  cases t <;> first | exact ht | trivial

/-- The types of a universe are uniform if no two of its aliases stand directly for `void`. -/
lemma exists_uniform (hu : ∀ m n, u.alias? m = some (.aliasOf u.id m .void) →
    u.alias? n = some (.aliasOf u.id n .void) → m = n) :
    ∃ v, ∀ t, u.Owns t → Uniform u.id v t := by
  by_cases hex : ∃ m, u.alias? m = some (.aliasOf u.id m .void)
  · obtain ⟨m, hm⟩ := hex
    refine ⟨.aliasOf u.id m .void, fun t ht p hp => ⟨(ht p hp).madeIn, ?_⟩⟩
    rintro h n rfl
    have hd := ht _ hp
    have hh : h = u.id := home_of_declares hd
    subst hh
    rw [hu m n hm hd]
  · refine ⟨.void, fun t ht p hp => ⟨(ht p hp).madeIn, ?_⟩⟩
    rintro h n rfl
    have hd := ht _ hp
    have hh : h = u.id := home_of_declares hd
    subst hh
    exact absurd ⟨n, hd⟩ hex

/-- In which universes the grouping of joins does not matter: those where at most one alias stands
directly for `void`. -/
theorem join_grouping_iff (u : Universe) :
    (∀ a b c, u.Owns a → u.Owns b → u.Owns c →
      join u.id (join u.id a b) c = join u.id a (join u.id b c)) ↔
    ∀ m n, u.alias? m = some (.aliasOf u.id m .void) →
      u.alias? n = some (.aliasOf u.id n .void) → m = n := by
  constructor
  · intro hu m n hm hn
    by_contra hne
    have h := hu _ _ _ (owns_voidAlias hm) (owns_voidAlias hn) (owns_voidAlias hn)
    rw [join_void_aliases hne, join_void_left, join_self, join_void_aliases hne] at h
    exact absurd h nofun
  · intro hu a b c ha hb hc
    obtain ⟨v, hv⟩ := exists_uniform hu
    exact (hv a ha).join_assoc (hv b hb) (hv c hc)

theorem join_grouping_matters :
    let u : Universe := ⟨0, [("Never", .void), ("Nothing", .void)], [], []⟩
    let never : Ty := .aliasOf 0 "Never" .void
    let nothing : Ty := .aliasOf 0 "Nothing" .void
    u.Owns never ∧ u.Owns nothing ∧
      join u.id (join u.id never nothing) nothing = nothing ∧
      join u.id never (join u.id nothing nothing) = .void := by
  intro u never nothing
  refine ⟨owns_voidAlias rfl, owns_voidAlias rfl, ?_, ?_⟩
  · rw [join_void_aliases (by decide), join_void_left]
  · rw [join_self, join_void_aliases (by decide)]

end Universe
end TypedValues
