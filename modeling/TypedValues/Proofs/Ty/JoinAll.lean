import Mathlib
import TypedValues.Proofs.Ty.Described

/-!
# Joins of any number of types

A join is made of parts of both sides and of new composites. Types that agree on their aliases of `void`
can be joined in any order and any number of times.
-/

namespace TypedValues.Ty

variable {a b p t v : Ty} {home k : UniverseId} {ts us : List Ty}

/-- What a join may contain beside the parts of both sides: `value`, and composites made for it. -/
def NewIn (home : UniverseId) (p : Ty) : Prop := ¬ p.Nominal ∧ ∀ h ∈ p.home?, h = home

lemma partOf_join (home : UniverseId) (a b : Ty) : ∀ p : Ty, p.PartOf (join home a b) →
    p.PartOf a ∨ p.PartOf b ∨ NewIn home p := by
  refine joinInduction (motive := fun a b => ∀ p : Ty, p.PartOf (join home a b) →
    p.PartOf a ∨ p.PartOf b ∨ NewIn home p) (fun a p hp => ?_)
    (fun b p hp => ?_) (fun a p hp => ?_) (fun b p hp => ?_) (fun a p hp => ?_)
    (fun a b ha ha' hb hb' hn ih p hp => ?_)
    (fun h k fs gs hne hl ih p hp => ?_) (fun h k s t hne ih p hp => ?_)
    (fun h k s t hne ih p hp => ?_) (fun h k f g f' g' hne ihf ihg p hp => ?_)
    (fun a b h name hne ha hb p hp => ?_) (fun a b r s hne ha hb p hp => ?_) a b
  · exact .inl (by rwa [join_self] at hp)
  · exact .inr (.inl (by rwa [join_void_left] at hp))
  · exact .inl (by rwa [join_void_right] at hp)
  · exact .inl (by rwa [join_value_left] at hp)
  · exact .inr (.inl (by rwa [join_value_right] at hp))
  · rw [join_alias ha ha' hb hb' hn] at hp
    cases hs : sharedAlias? a b with
    | some t =>
      rw [hs] at hp
      exact .inl (hp.trans (partOf_of_mem_aliasChain (shares_of_sharedAlias? hs).mem.1))
    | none =>
      rw [hs] at hp
      exact (ih p hp).imp (·.trans (partOf_resolved a)) (·.imp_left (·.trans (partOf_resolved b)))
  · rw [join_tuple hne hl] at hp
    cases hp with
    | self => exact .inr (.inr ⟨id, by simp [home?]⟩)
    | inside hc hp =>
      obtain ⟨e, he, rfl⟩ := List.mem_map.mp hc
      rw [joinFields_eq_zipWith] at he
      obtain ⟨i, hi, rfl⟩ := List.getElem_of_mem he
      rw [List.getElem_zipWith] at hp
      refine (ih _ (List.getElem_mem _) _ (List.getElem_mem _) p hp).imp ?_ (Or.imp_left ?_)
      · exact .inside (List.mem_map_of_mem (List.getElem_mem _))
      · exact .inside (List.mem_map_of_mem (List.getElem_mem _))
  · rw [join_list hne] at hp
    cases hp with
    | self => exact .inr (.inr ⟨id, by simp [home?]⟩)
    | inside hc hp =>
      rw [List.mem_singleton.mp hc] at hp
      exact (ih p hp).imp (.inside List.mem_cons_self) (Or.imp_left (.inside List.mem_cons_self))
  · rw [join_set hne] at hp
    cases hp with
    | self => exact .inr (.inr ⟨id, by simp [home?]⟩)
    | inside hc hp =>
      rw [List.mem_singleton.mp hc] at hp
      exact (ih p hp).imp (.inside List.mem_cons_self) (Or.imp_left (.inside List.mem_cons_self))
  · rw [join_map hne] at hp
    cases hp with
    | self => exact .inr (.inr ⟨id, by simp [home?]⟩)
    | inside hc hp =>
      simp only [components, List.mem_cons, List.not_mem_nil, or_false] at hc
      rcases hc with rfl | rfl
      · exact (ihf p hp).imp (.inside (by simp [components])) (Or.imp_left (.inside (by simp [components])))
      · exact (ihg p hp).imp (.inside (by simp [components])) (Or.imp_left (.inside (by simp [components])))
  · rw [join_family hne ha hb] at hp
    exact .inl (hp.trans (partOf_of_shape?_family ha))
  · rw [join_of_shape_ne hne ha hb] at hp
    cases hp with
    | self => exact .inr (.inr ⟨id, by simp [home?]⟩)
    | inside hc _ => cases hc

/-- What holds of all parts of some types, and of all that a join may add, holds of all parts of their
join. -/
lemma forall_partOf_joinAll {P : Ty → Prop} (hnew : ∀ p, NewIn home p → P p)
    (hts : ∀ t ∈ ts, ∀ p : Ty, p.PartOf t → P p) : ∀ p : Ty, p.PartOf (joinAll home ts) → P p := by
  have bound (acc : Ty) (hacc : ∀ p : Ty, p.PartOf acc → P p) :
      ∀ p : Ty, p.PartOf (ts.foldl (join home) acc) → P p := by
    induction ts generalizing acc with
    | nil => exact hacc
    | cons t ts ih =>
      obtain ⟨ht, hts⟩ := List.forall_mem_cons.mp hts
      refine ih hts (join home acc t) fun p hp => ?_
      rcases partOf_join home acc t p hp with hp | hp | hp
      · exact hacc p hp
      · exact ht p hp
      · exact hnew p hp
  refine bound .void fun p hp => ?_
  cases hp with
  | self => exact hnew _ ⟨id, by simp [home?]⟩
  | inside hc _ => cases hc

/-! ### Joins in any order -/

lemma NewIn.agrees (hp : NewIn home p) : Agrees home v p := by
  obtain ⟨hnominal, hhome⟩ := hp
  refine ⟨?_, ?_⟩
  · cases p with
    | tuple | list | set | map => exact hhome _ rfl
    | _ => trivial
  · rintro h n rfl
    exact absurd trivial hnominal

lemma Uniform.join (ha : Uniform home v a) (hb : Uniform home v b) : Uniform home v (join home a b) := by
  intro p hp
  rcases partOf_join home a b p hp with hp | hp | hp
  · exact ha p hp
  · exact hb p hp
  · exact hp.agrees

lemma Uniform.joinAll (hts : ∀ t ∈ ts, Uniform home v t) : Uniform home v (joinAll home ts) :=
  forall_partOf_joinAll (fun _ => NewIn.agrees) hts

/-- A type that absorbs what has been joined so far and all that follows absorbs the whole join. -/
lemma join_foldl_absorbed (hu : Uniform home v b) : ∀ (ts : List Ty) (acc : Ty), Uniform home v acc →
    (∀ t ∈ ts, Uniform home v t) → join home acc b = b → (∀ t ∈ ts, join home t b = b) →
      join home (ts.foldl (join home) acc) b = b
  | [], acc, _, _, hacc, _ => hacc
  | t :: ts, acc, ha, hts, hacc, habsorb => by
    obtain ⟨ht, hts⟩ := List.forall_mem_cons.mp hts
    obtain ⟨htb, habsorb⟩ := List.forall_mem_cons.mp habsorb
    refine join_foldl_absorbed hu ts (Ty.join home acc t) (ha.join ht) hts ?_ habsorb
    rw [ha.join_assoc ht hu, htb, hacc]

/-- The join absorbs what it started from and each type that was joined. -/
lemma foldl_join_absorbs : ∀ (ts : List Ty) (acc : Ty), Uniform home v acc →
    (∀ t ∈ ts, Uniform home v t) →
      (∀ x, Uniform home v x → join home x acc = acc →
        join home x (ts.foldl (join home) acc) = ts.foldl (join home) acc) ∧
      ∀ t ∈ ts, join home t (ts.foldl (join home) acc) = ts.foldl (join home) acc
  | [], acc, _, _ => ⟨fun _ _ hx => hx, nofun⟩
  | t :: ts, acc, ha, hts => by
    obtain ⟨ht, hts⟩ := List.forall_mem_cons.mp hts
    obtain ⟨hkeep, hlater⟩ := foldl_join_absorbs ts (Ty.join home acc t) (ha.join ht) hts
    refine ⟨fun x hx hacc => hkeep x hx ?_, List.forall_mem_cons.mpr ⟨hkeep t ht ?_, hlater⟩⟩
    · rw [← hx.join_assoc ha ht, hacc]
    · rw [join_comm home acc t, ← ht.join_assoc ht ha, join_self]

lemma uniform_void : Uniform home v .void := by
  intro p hp
  cases hp with
  | self => exact ⟨trivial, nofun⟩
  | inside hc _ => cases hc

/-- The join of any number of types depends on which types they are, not on their order or on how often
each of them comes. -/
lemma joinAll_congr (hts : ∀ t ∈ ts, Uniform home v t) (hus : ∀ u ∈ us, Uniform home v u)
    (h : ∀ t, t ∈ ts ↔ t ∈ us) : joinAll home ts = joinAll home us := by
  have absorbed {ts us : List Ty} (hts : ∀ t ∈ ts, Uniform home v t) (hus : ∀ u ∈ us, Uniform home v u)
      (h : ∀ t ∈ ts, t ∈ us) : join home (joinAll home ts) (joinAll home us) = joinAll home us :=
    join_foldl_absorbed (Uniform.joinAll hus) ts .void uniform_void hts (join_void_left _)
      fun t ht => (foldl_join_absorbs us .void uniform_void hus).2 t (h t ht)
  calc joinAll home ts
      = join home (joinAll home us) (joinAll home ts) := (absorbed hus hts fun t => (h t).mpr).symm
    _ = join home (joinAll home ts) (joinAll home us) := join_comm ..
    _ = joinAll home us := absorbed hts hus fun t => (h t).mp

/-! ### Types without names -/

/-- No part of the type is known by name. -/
def Plain (t : Ty) : Prop := ∀ p : Ty, p.PartOf t → ¬ p.Nominal

lemma plain_iff : t.Plain ↔ ¬ t.Nominal ∧ ∀ c ∈ t.components, c.Plain := forall_partOf_iff

lemma Plain.aligned (ha : a.Plain) : Aligned a b := fun p hp _ _ hn => absurd hn (ha p hp)

lemma Plain.joinAll (hts : ∀ t ∈ ts, t.Plain) : (joinAll home ts).Plain :=
  forall_partOf_joinAll (fun _ hp => hp.1) hts

lemma Within.joinAll (hts : ∀ t ∈ ts, t.Within home) : (joinAll home ts).Within home :=
  forall_partOf_joinAll (fun _ hp => hp.2) hts

lemma nominal_rehomed : (t.rehomed k).Nominal ↔ t.Nominal := by
  cases t <;> simp [Nominal]

lemma Plain.uniform_rehomed (ht : t.Plain) (k : UniverseId) : Uniform k v (t.rehomed k) := by
  intro p hp
  refine NewIn.agrees ⟨?_, within_rehomed k t p hp⟩
  obtain ⟨q, hq, rfl⟩ := exists_part_of_rehomed hp
  exact mt nominal_rehomed.mp (ht q hq)

lemma rehomed_joinAll (h k : UniverseId) (hts : ∀ t ∈ ts, t.Plain) :
    (joinAll h ts).rehomed k = joinAll k (ts.map (rehomed k)) := by
  have bound (acc : Ty) (hacc : acc.Plain) :
      (ts.foldl (join h) acc).rehomed k = (ts.map (rehomed k)).foldl (join k) (acc.rehomed k) := by
    induction ts generalizing acc with
    | nil => rfl
    | cons t ts ih =>
      obtain ⟨ht, hts⟩ := List.forall_mem_cons.mp hts
      have hjoin : (join h acc t).Plain := fun p hp =>
        (partOf_join h acc t p hp).elim (hacc p) (·.elim (ht p) (·.1))
      rw [List.foldl_cons, ih hts (join h acc t) hjoin, rehomed_join h k hacc.aligned]
      rfl
  exact bound .void (plain_iff.mpr ⟨id, nofun⟩)

/-- Joins of types that are described alike are described alike, wherever they are made. -/
lemma descriptor_joinAll (h k : UniverseId) (hts : ∀ t ∈ ts, t.Plain) (hus : ∀ u ∈ us, u.Plain)
    (hmem : ∀ d, d ∈ ts.map descriptor ↔ d ∈ us.map descriptor) :
    (joinAll h ts).descriptor = (joinAll k us).descriptor := by
  have moved {ts : List Ty} (hts : ∀ t ∈ ts, t.Plain) :
      ∀ t ∈ ts.map (rehomed 0), Uniform 0 .void t :=
    List.forall_mem_map.mpr fun t ht => (hts t ht).uniform_rehomed 0
  have hrehomed (ts : List Ty) : ts.map (rehomed 0) = (ts.map descriptor).map (Descriptor.typeIn 0) :=
    (List.map_map ..).symm
  refine (@rehomed_eq_rehomed _ _ 0).mp ?_
  rw [rehomed_joinAll h 0 hts, rehomed_joinAll k 0 hus]
  refine joinAll_congr (moved hts) (moved hus) fun t => ?_
  simp only [hrehomed, List.mem_map (f := Descriptor.typeIn 0), hmem]

end TypedValues.Ty
