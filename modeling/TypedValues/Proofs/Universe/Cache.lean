import Mathlib
import TypedValues.Proofs.Universe.Declare
import TypedValues.Universe.Interner

/-!
# The cache and its sweeps

What is referred to from outside the cache stays in it. The entries are not known to be in use one by one,
but the types that any reference leads to have an entry, and a sweep keeps it that way because it only
removes entries that no reference leads to.
-/

namespace TypedValues

namespace Ty

variable {t : Ty} {home : UniverseId}

lemma fieldsLeadTo_eq (fs : List Field) :
    fieldsLeadTo home fs = fs.flatMap fun f => f.item.leadsTo home := by
  induction fs with
  | nil => rfl
  | cons f fs ih => rw [fieldsLeadTo, ih, List.flatMap_cons]

/-- A reference to a type of the universe leads to this type. -/
lemma leadsTo_own (h : t.home? = some home) : t.leadsTo home = [t] := by
  cases t with
  | map l k v =>
    obtain rfl := Option.some.inj h
    rw [leadsTo, if_pos rfl]
  | value | void | int | real | str | loc => cases h
  | _ =>
    obtain rfl := Option.some.inj h
    rw [leadsTo, if_pos rfl]

/-- A reference to another type leads to whatever the components of that type lead to. -/
lemma leadsTo_foreign (h : t.home? ≠ some home) :
    t.leadsTo home = t.components.flatMap (leadsTo home) := by
  cases t with
  | value | void | int | real | str | loc => rfl
  | object l kind => rw [leadsTo, if_neg fun hl => h (congrArg some hl)]; rfl
  | sort l n => rw [leadsTo, if_neg fun hl => h (congrArg some hl)]; rfl
  | tuple l fs =>
    rw [leadsTo, if_neg fun hl => h (congrArg some hl), fieldsLeadTo_eq, components, List.flatMap_map]
  | list l e | set l e | aliasOf l n e =>
    rw [leadsTo, if_neg fun hl => h (congrArg some hl), components, List.flatMap_singleton]
  | map l k v =>
    rw [leadsTo, if_neg fun hl => h (congrArg some hl)]
    simp [components]
  | constructor l n s d fs =>
    have hl : l ≠ home := fun hl => h (congrArg some hl)
    rw [leadsTo, if_neg hl]
    simp [components, leadsTo, hl]

lemma isLeaf_iff : t.isLeaf = true ↔ t.home? = none := by
  cases t <;> simp [isLeaf, home?]

lemma leadsTo_of_home?_eq_none (h : t.home? = none) : t.leadsTo home = [] := by
  cases t <;> first | rfl | cases h

end Ty

namespace Interner

variable {i j : Interner} {c r s t : Ty} {e : CacheEntry} {visit : Visit} {pinned : List Ty}

/-! ### References -/

/-- A handle, a declaration or the shape of an entry refers to the type. -/
def Refers (i : Interner) (t : Ty) : Prop :=
  t ∈ i.held ∨ t ∈ i.declarations.declared ∨ ∃ e ∈ i.entries, t ∈ e.ty.components

/-- The type is the same as one that a handle or a declaration refers to, or a part of it. -/
def Reachable (i : Interner) (t : Ty) : Prop :=
  ∃ r, (r ∈ i.held ∨ r ∈ i.declarations.declared) ∧ t.PartOf r

def Cached (i : Interner) (t : Ty) : Prop := ∃ e ∈ i.entries, e.ty = t

lemma binding?_isSome : (i.binding? t).isSome = true ↔ i.Cached t := by
  simp [binding?, List.find?_isSome, Cached]

lemma inUse_nil : i.inUse [] t = true ↔ ∃ r, i.Refers r ∧ t ∈ r.leadsTo i.declarations.id := by
  simp only [inUse, Bool.or_eq_true, List.any_eq_true, List.contains_iff_mem, List.not_mem_nil,
    false_and, exists_false, or_false, Refers]
  constructor
  · rintro ((⟨r, hr, ht⟩ | ⟨r, hr, ht⟩) | ⟨e, he, r, hr, ht⟩)
    · exact ⟨r, .inl hr, ht⟩
    · exact ⟨r, .inr (.inl hr), ht⟩
    · exact ⟨r, .inr (.inr ⟨e, he, hr⟩), ht⟩
  · rintro ⟨r, hr | hr | ⟨e, he, hr⟩, ht⟩
    · exact .inl (.inl ⟨r, hr, ht⟩)
    · exact .inl (.inr ⟨r, hr, ht⟩)
    · exact .inr ⟨e, he, r, hr, ht⟩

/-- What is in use is in use, whatever else is pinned. -/
lemma inUse_of_nil (h : i.inUse [] t = true) : i.inUse pinned t = true := by
  simp only [inUse, Bool.or_eq_true, List.any_nil, Bool.or_false] at h ⊢
  rcases h with h | h
  · exact .inl (.inl h)
  · exact .inr h

/-! ### The invariant -/

/-- Whatever the type leads to has an entry and is registered. -/
def Backed (i : Interner) (t : Ty) : Prop :=
  ∀ s ∈ t.leadsTo i.declarations.id, i.Cached s ∧ i.declarations.Registers s

/-- There is one entry for a shape, and whatever is referred to is backed by entries. -/
structure Sound (i : Interner) : Prop where
  consistent : i.declarations.Consistent
  distinct : (i.entries.map (·.ty)).Nodup
  own : ∀ e ∈ i.entries, e.ty.home? = some i.declarations.id
  backed : ∀ t, i.Refers t → i.Backed t

/-- Whatever the type leads to has an entry, is registered and in use. -/
def Live (i : Interner) (t : Ty) : Prop :=
  ∀ s ∈ t.leadsTo i.declarations.id,
    i.Cached s ∧ i.declarations.Registers s ∧ i.inUse [] s = true

namespace Sound

lemma live (hi : i.Sound) (ht : i.Refers t) : i.Live t := fun s hs =>
  ⟨(hi.backed t ht s hs).1, (hi.backed t ht s hs).2, inUse_nil.mpr ⟨t, ht, hs⟩⟩

/-- An entry refers to the components of its shape, so that those of a live type are live. -/
lemma live_component (hi : i.Sound) (ht : i.Live t) (hc : c ∈ t.components) : i.Live c := by
  by_cases hown : t.home? = some i.declarations.id
  · obtain ⟨⟨e, he, rfl⟩, -⟩ := ht t (by rw [Ty.leadsTo_own hown]; exact List.mem_cons_self)
    exact hi.live (.inr (.inr ⟨e, he, hc⟩))
  · intro s hs
    refine ht s ?_
    rw [Ty.leadsTo_foreign hown]
    exact List.mem_flatMap.mpr ⟨c, hc, hs⟩

lemma live_part (hi : i.Sound) (hr : i.Live r) (ht : t.PartOf r) : i.Live t := by
  induction ht with
  | self => exact hr
  | inside hc _ ih => exact ih (hi.live_component hr hc)

lemma live_of_reachable (hi : i.Sound) (ht : i.Reachable t) : i.Live t := by
  obtain ⟨r, hr, ht⟩ := ht
  exact hi.live_part (hi.live (hr.imp_right .inl)) ht

/-- A type of the universe that is reachable has an entry, is registered and in use. -/
lemma kept (hi : i.Sound) (ht : i.Reachable t) (hown : t.home? = some i.declarations.id) :
    i.Cached t ∧ i.declarations.Registers t ∧ i.inUse [] t = true :=
  hi.live_of_reachable ht t (by rw [Ty.leadsTo_own hown]; exact List.mem_cons_self)

end Sound

/-! ### Sweeping -/

/-- Nothing changes but that entries go. -/
def Thins (i j : Interner) : Prop := ∃ es, es.Sublist i.entries ∧ j = { i with entries := es }

namespace Thins

lemma refl (i : Interner) : i.Thins i := ⟨i.entries, .refl _, rfl⟩

lemma trans {k : Interner} (h : i.Thins j) (h' : j.Thins k) : i.Thins k := by
  obtain ⟨es, hes, rfl⟩ := h
  obtain ⟨es', hes', rfl⟩ := h'
  exact ⟨es', hes'.trans hes, rfl⟩

lemma sublist (h : i.Thins j) : j.entries.Sublist i.entries := by
  obtain ⟨es, hes, rfl⟩ := h
  exact hes

lemma held (h : i.Thins j) : j.held = i.held := by
  obtain ⟨es, -, rfl⟩ := h
  rfl

lemma declarations (h : i.Thins j) : j.declarations = i.declarations := by
  obtain ⟨es, -, rfl⟩ := h
  rfl

lemma threshold (h : i.Thins j) : j.threshold = i.threshold := by
  obtain ⟨es, -, rfl⟩ := h
  rfl

lemma reachable_iff (h : i.Thins j) : j.Reachable t ↔ i.Reachable t := by
  rw [Reachable, h.held, h.declarations, Reachable]

end Thins

lemma thins_release : i.Thins (release pinned i e) := by
  unfold release
  split
  · exact .refl i
  · exact ⟨i.entries.erase e, List.erase_sublist, rfl⟩

lemma thins_foldl_release (es : List CacheEntry) : i.Thins (es.foldl (release pinned) i) := by
  induction es generalizing i with
  | nil => exact .refl i
  | cons e es ih => exact thins_release.trans ih

lemma thins_sweep : i.Thins (i.sweep visit pinned) := thins_foldl_release _

lemma thins_sweepAll : i.Thins (i.sweepAll visit) := by
  induction i using Interner.sweepAll.induct visit with
  | case1 i swept hlt ih =>
    rw [Interner.sweepAll, if_pos hlt]
    exact thins_sweep.trans ih
  | case2 i swept hge =>
    rw [Interner.sweepAll, if_neg hge]
    exact thins_sweep

/-- The entries of reachable types are still there afterwards. -/
def Spares (i j : Interner) : Prop := ∀ e ∈ i.entries, i.Reachable e.ty → e ∈ j.entries

lemma Sound.release (hi : i.Sound) (pinned : List Ty) (e : CacheEntry) :
    (release pinned i e).Sound ∧ i.Spares (release pinned i e) := by
  unfold Interner.release
  split
  · exact ⟨hi, fun _ he _ => he⟩
  · next hunused =>
    -- What a reference leads to is in use and so is not the entry that goes.
    have hstays {d : CacheEntry} (hd : d ∈ i.entries) (huse : i.inUse [] d.ty = true) :
        d ∈ i.entries.erase e := by
      refine (List.mem_erase_of_ne ?_).mpr hd
      rintro rfl
      exact hunused (inUse_of_nil huse)
    refine ⟨⟨hi.consistent, hi.distinct.sublist (List.erase_sublist.map _),
      fun d hd => hi.own d (List.mem_of_mem_erase hd), fun t ht s hs => ?_⟩, fun d hd hreach => ?_⟩
    · have href : i.Refers t := by
        rcases ht with h | h | ⟨d, hd, h⟩
        · exact .inl h
        · exact .inr (.inl h)
        · exact .inr (.inr ⟨d, List.mem_of_mem_erase hd, h⟩)
      obtain ⟨⟨d, hd, rfl⟩, hreg, huse⟩ := hi.live href s hs
      exact ⟨⟨d, hstays hd huse, rfl⟩, hreg⟩
    · exact hstays hd (hi.kept hreach (hi.own d hd)).2.2

lemma Sound.foldl_release (hi : i.Sound) (es : List CacheEntry) :
    (es.foldl (Interner.release pinned) i).Sound ∧ i.Spares (es.foldl (Interner.release pinned) i) := by
  induction es generalizing i with
  | nil => exact ⟨hi, fun _ he _ => he⟩
  | cons e es ih =>
    obtain ⟨hsound, hspares⟩ := hi.release pinned e
    obtain ⟨hsound', hspares'⟩ := ih hsound
    exact ⟨hsound', fun d hd hreach => hspares' d (hspares d hd hreach)
      (thins_release.reachable_iff.mpr hreach)⟩

lemma Sound.sweep (hi : i.Sound) (visit : Visit) (pinned : List Ty) :
    (i.sweep visit pinned).Sound ∧ i.Spares (i.sweep visit pinned) :=
  hi.foldl_release _

lemma Sound.resetLimit (hi : i.Sound) : i.resetLimit.Sound :=
  ⟨hi.consistent, hi.distinct, hi.own, hi.backed⟩

lemma Sound.makeRoom (hi : i.Sound) (visit : Visit) (pinned : List Ty) :
    (i.makeRoom visit pinned).Sound ∧ i.Spares (i.makeRoom visit pinned) := by
  unfold Interner.makeRoom
  split
  · exact ⟨hi, fun _ he _ => he⟩
  · obtain ⟨hsound, hspares⟩ := hi.sweep visit pinned
    exact ⟨hsound.resetLimit, hspares⟩

lemma Sound.sweepAll (hi : i.Sound) : (i.sweepAll visit).Sound ∧ i.Spares (i.sweepAll visit) := by
  induction i using Interner.sweepAll.induct visit with
  | case1 i swept hlt ih =>
    rw [Interner.sweepAll, if_pos hlt]
    obtain ⟨hsound, hspares⟩ := hi.sweep visit []
    obtain ⟨hsound', hspares'⟩ := ih hsound
    exact ⟨hsound', fun d hd hreach => hspares' d (hspares d hd hreach)
      (thins_sweep.reachable_iff.mpr hreach)⟩
  | case2 i swept hge =>
    rw [Interner.sweepAll, if_neg hge]
    exact hi.sweep visit []

lemma Sound.purge (hi : i.Sound) : (i.purge visit).2.Sound ∧ i.Spares (i.purge visit).2 :=
  ⟨hi.sweepAll.1.resetLimit, hi.sweepAll.2⟩

@[simp] lemma held_makeRoom : (i.makeRoom visit pinned).held = i.held := by
  unfold makeRoom
  split
  · rfl
  · exact thins_sweep.held

@[simp] lemma declarations_makeRoom : (i.makeRoom visit pinned).declarations = i.declarations := by
  unfold makeRoom
  split
  · rfl
  · exact thins_sweep.declarations

/-! ### Entering a shape -/

lemma map_enter : (i.enter t).entries.map (·.ty) =
    if (i.binding? t).isSome then i.entries.map (·.ty) else i.entries.map (·.ty) ++ [t] := by
  unfold enter
  dsimp only
  split
  · rw [List.map_map]
    refine List.map_congr_left fun e _ => ?_
    by_cases h : e.ty = t <;> simp [h]
  · simp

lemma cached_iff : i.Cached t ↔ t ∈ i.entries.map (·.ty) := List.mem_map.symm

lemma cached_enter : (i.enter t).Cached s ↔ i.Cached s ∨ s = t := by
  rw [cached_iff, map_enter, cached_iff]
  split
  · next h =>
    have hcached := cached_iff.mp (binding?_isSome.mp h)
    exact ⟨.inl, fun h => h.elim id fun h => h ▸ hcached⟩
  · simp

lemma mem_enter (he : e ∈ i.entries) (hne : e.ty ≠ t) : e ∈ (i.enter t).entries := by
  unfold enter
  dsimp only
  split
  · exact List.mem_map.mpr ⟨e, he, if_neg hne⟩
  · exact List.mem_append_left _ he

/-- A leaf, or a type that somebody holds. -/
def AtHand (i : Interner) (t : Ty) : Prop := t.home? = none ∨ t ∈ i.held

lemma Sound.backed_of_atHand (hi : i.Sound) (ht : i.AtHand t) : i.Backed t := by
  rcases ht with h | h
  · intro s hs
    rw [Ty.leadsTo_of_home?_eq_none h] at hs
    cases hs
  · exact hi.backed t (.inl h)

lemma Sound.enter (hi : i.Sound) (hown : t.home? = some i.declarations.id)
    (hcs : ∀ c ∈ t.components, i.AtHand c) : (i.enter t).Sound where
  consistent := hi.consistent
  distinct := by
    rw [map_enter]
    split
    · exact hi.distinct
    · next h =>
      rw [binding?_isSome, cached_iff] at h
      exact List.concat_eq_append ▸ hi.distinct.concat h
  own e he := by
    rcases cached_enter.mp ⟨e, he, rfl⟩ with ⟨d, hd, heq⟩ | heq
    · exact heq ▸ hi.own d hd
    · exact heq ▸ hown
  backed r hr := by
    have hbacked : i.Backed r := by
      rcases hr with h | h | ⟨e, he, h⟩
      · exact hi.backed r (.inl h)
      · exact hi.backed r (.inr (.inl h))
      · rcases cached_enter.mp ⟨e, he, rfl⟩ with ⟨d, hd, heq⟩ | heq
        · exact hi.backed r (.inr (.inr ⟨d, hd, heq ▸ h⟩))
        · exact hi.backed_of_atHand (hcs r (heq ▸ h))
    exact fun s hs => ⟨cached_enter.mpr (.inl (hbacked s hs).1), (hbacked s hs).2⟩

/-- The cache once it has an entry for the shape. -/
def entered (visit : Visit) (t : Ty) (i : Interner) : Interner :=
  if t.isLeaf || (i.binding? t).isSome && i.inUse [] t then i
  else (i.makeRoom visit t.components).enter t

lemma intern_eq : i.intern visit t = (i.entered visit t).hold t := by
  unfold intern entered
  split <;> rfl

@[simp] lemma declarations_entered : (i.entered visit t).declarations = i.declarations := by
  unfold entered
  split
  · rfl
  · exact declarations_makeRoom

/-- A shape made of types at hand gets an entry, and no reachable type loses its own. -/
lemma Sound.entered (hi : i.Sound) (visit : Visit) (hown : ∀ h ∈ t.home?, h = i.declarations.id)
    (hcs : ∀ c ∈ t.components, i.AtHand c) :
    (i.entered visit t).Sound ∧ i.Spares (i.entered visit t) ∧
      (t.home? ≠ none → (i.entered visit t).Cached t) := by
  unfold Interner.entered
  split
  · next h =>
    rw [Bool.or_eq_true, Bool.and_eq_true, binding?_isSome] at h
    refine ⟨hi, fun _ he _ => he, fun hne => ?_⟩
    exact h.elim (fun hleaf => absurd (Ty.isLeaf_iff.mp hleaf) hne) (·.1)
  · next h =>
    rw [Bool.or_eq_true, not_or, Bool.and_eq_true, binding?_isSome] at h
    obtain ⟨hsound, hspares⟩ := hi.makeRoom visit t.components
    have hhome : t.home? = some i.declarations.id := by
      obtain ⟨l, hl⟩ := Option.ne_none_iff_exists'.mp fun hnone => h.1 (Ty.isLeaf_iff.mpr hnone)
      exact hl.trans (congrArg some (hown l hl))
    refine ⟨hsound.enter (by rwa [declarations_makeRoom]) ?_, fun e he hreach => ?_, fun _ => ?_⟩
    · intro c hc
      rw [AtHand, held_makeRoom]
      exact hcs c hc
    · refine mem_enter (hspares e he hreach) ?_
      rintro rfl
      exact h.2 ⟨⟨e, he, rfl⟩, (hi.kept hreach hhome).2.2⟩
    · exact cached_enter.mpr (.inr rfl)

end Interner
end TypedValues
