import TypedValues.Proofs.Universe.Registry

/-!
# Purging the cache

One sweep removes only what nothing refers to when it comes by, and what it removes may have been the last
to refer to its components. A purge sweeps until a sweep finds nothing to remove. Then every entry is in
use; and as types are nested to a finite depth, what refers to an entry leads back to a handle or a
declaration.
-/

namespace TypedValues

namespace Ty

variable {home : UniverseId} {p s t : Ty}

lemma PartOf.sizeOf_le (h : p.PartOf t) : sizeOf p ≤ sizeOf t := by
  induction h with
  | self => exact le_rfl
  | inside hc _ ih => exact ih.trans (sizeOf_component_lt hc).le

/-- A reference leads to parts of what it refers to. -/
lemma partOf_of_mem_leadsTo (hs : s ∈ t.leadsTo home) : s.PartOf t := by
  induction hn : sizeOf t using Nat.strong_induction_on generalizing t with
  | _ n ih =>
  by_cases hown : t.home? = some home
  · rw [leadsTo_own hown] at hs
    rw [List.mem_singleton.mp hs]
    exact .self
  · rw [leadsTo_foreign hown] at hs
    obtain ⟨c, hc, hs⟩ := List.mem_flatMap.mp hs
    exact .inside hc (ih _ (hn ▸ sizeOf_component_lt hc) hs rfl)

end Ty

/-- The only list between the elements with a property and those of a list without repetitions. -/
lemma eq_filter_of_sublist {α : Type} {p : α → Prop} [DecidablePred p] {xs ys : List α} (hys : ys.Nodup)
    (hsub : xs.Sublist ys) (hp : ∀ x ∈ xs, p x) (hall : ∀ y ∈ ys, p y → y ∈ xs) :
    xs = ys.filter p := by
  have hfilter : xs.Sublist (ys.filter p) := by
    rw [← List.filter_eq_self.mpr fun x hx => decide_eq_true (hp x hx)]
    exact hsub.filter _
  refine hfilter.eq_of_length_le (List.subperm_of_subset (hys.filter _) fun y hy => ?_).length_le
  obtain ⟨hmem, hy⟩ := List.mem_filter.mp hy
  exact hall y hmem (of_decide_eq_true hy)

namespace Interner

variable {i : Interner} {e : CacheEntry} {es : List CacheEntry} {visit : Visit} {pinned : List Ty}

/-! ### Sweeps that remove nothing -/

lemma release_idle (h : i.count ≤ (release pinned i e).count) :
    release pinned i e = i ∧ (e ∈ i.entries → i.inUse pinned e.ty = true) := by
  unfold release at h ⊢
  split
  · next huse => exact ⟨rfl, fun _ => huse⟩
  · next huse =>
    rw [if_neg huse] at h
    have hout : e ∉ i.entries := by
      intro he
      have hlength := List.length_erase_of_mem he
      have hpos := List.length_pos_of_mem he
      simp only [count] at h
      omega
    rw [List.erase_of_not_mem hout]
    exact ⟨rfl, fun he => absurd he hout⟩

lemma foldl_release_idle (h : i.count ≤ (es.foldl (release pinned) i).count) :
    es.foldl (release pinned) i = i ∧ ∀ e ∈ es, e ∈ i.entries → i.inUse pinned e.ty = true := by
  induction es generalizing i with
  | nil => exact ⟨rfl, nofun⟩
  | cons e es ih =>
    have hrest : (es.foldl (release pinned) (release pinned i e)).count ≤ (release pinned i e).count :=
      (thins_foldl_release es).sublist.length_le
    obtain ⟨hsame, huse⟩ := release_idle (h.trans hrest)
    rw [List.foldl_cons, hsame] at h ⊢
    obtain ⟨hsame', huse'⟩ := ih h
    exact ⟨hsame', List.forall_mem_cons.mpr ⟨huse, huse'⟩⟩

/-- As many sweeps as there are entries are enough to reach a state in which one more removes nothing. -/
lemma exists_iterate_sweep (visit : Visit) (i : Interner) :
    ∃ n ≤ i.count, i.sweepAll visit = (sweep visit [])^[n] i ∧
      ((sweep visit [])^[n] i).sweep visit [] = (sweep visit [])^[n] i := by
  induction i using sweepAll.induct visit with
  | case1 i swept hlt ih =>
    obtain ⟨n, hn, heq, hidle⟩ := ih
    rw [sweepAll, if_pos hlt]
    exact ⟨n + 1, hn.trans_lt hlt, heq, hidle⟩
  | case2 i swept hge =>
    have hidle : i.sweep visit [] = i := (foldl_release_idle (not_lt.mp hge)).1
    rw [sweepAll, if_neg hge]
    exact ⟨0, i.count.zero_le, hidle, hidle⟩

/-- A sweep that visits all entries and removes none has found them in use. -/
lemma inUse_of_idle (hvisit : ∀ es, (visit es).Perm es) (hidle : i.sweep visit [] = i)
    (he : e ∈ i.entries) :
    i.inUse [] e.ty = true := by
  have hcount : i.count ≤ (i.sweep visit []).count := by rw [hidle]
  exact (foldl_release_idle hcount).2 e ((hvisit _).mem_iff.mpr he) he

lemma sweep_sweepAll (visit : Visit) (i : Interner) :
    (i.sweepAll visit).sweep visit [] = i.sweepAll visit := by
  obtain ⟨n, -, heq, hidle⟩ := i.exists_iterate_sweep visit
  rwa [heq]

/-! ### What is left -/

/-- If every entry is in use, every entry is reachable: what refers to one is a handle, a declaration or the
shape of a larger entry. -/
lemma reachable_of_inUse (huse : ∀ e ∈ i.entries, i.inUse [] e.ty = true) (he : e ∈ i.entries) :
    i.Reachable e.ty := by
  obtain ⟨bound, hbound⟩ : ∃ bound, ∀ e ∈ i.entries, sizeOf e.ty ≤ bound :=
    ⟨(i.entries.map fun e => sizeOf e.ty).sum, fun e he => List.le_sum_of_mem (List.mem_map_of_mem he)⟩
  induction hn : bound - sizeOf e.ty using Nat.strong_induction_on generalizing e with
  | _ n ih =>
  obtain ⟨r, hr, hlead⟩ := inUse_nil.mp (huse e he)
  have hpart := Ty.partOf_of_mem_leadsTo hlead
  rcases hr with hheld | hdeclared | ⟨d, hd, hr⟩
  · exact ⟨r, .inl hheld, hpart⟩
  · exact ⟨r, .inr hdeclared, hpart⟩
  · have hlt : sizeOf e.ty < sizeOf d.ty := hpart.sizeOf_le.trans_lt (Ty.sizeOf_component_lt hr)
    have hle := hbound d hd
    obtain ⟨root, hroot, hd⟩ := ih (bound - sizeOf d.ty) (by omega) hd rfl
    exact ⟨root, hroot, PartOf.trans (.inside hr hpart) hd⟩

lemma reachable_purge {t : Ty} : (i.purge visit).2.Reachable t ↔ i.Reachable t :=
  thins_sweepAll.reachable_iff

/-- After a purge every entry is reachable. -/
lemma reachable_of_mem_purge (hvisit : ∀ es, (visit es).Perm es) (he : e ∈ (i.purge visit).2.entries) :
    i.Reachable e.ty :=
  reachable_purge.mp (reachable_of_inUse (i := i.sweepAll visit)
    (fun _ hd => inUse_of_idle hvisit (sweep_sweepAll visit i) hd) he)

open Classical in
lemma Sound.entries_purge (hi : i.Sound) (hvisit : ∀ es, (visit es).Perm es) :
    (i.purge visit).2.entries = i.entries.filter fun e => i.Reachable e.ty :=
  eq_filter_of_sublist hi.distinct.of_map thins_sweepAll.sublist
    (fun _ he => reachable_of_mem_purge hvisit he)
    hi.purge.2

/-- If every entry is reachable, there are as many as there are reachable types of the universe. -/
lemma Sound.count_eq_ncard (hi : i.Sound) (hall : ∀ e ∈ i.entries, i.Reachable e.ty) :
    i.count = {t | i.Reachable t ∧ t.home? = some i.declarations.id}.ncard := by
  have htypes : {t | i.Reachable t ∧ t.home? = some i.declarations.id} =
      ((i.entries.map (·.ty)).toFinset : Set Ty) := by
    ext t
    rw [List.coe_toFinset, Set.mem_ofPred_eq, Set.mem_ofPred_eq, List.mem_map]
    constructor
    · rintro ⟨ht, hown⟩
      exact (hi.kept ht hown).1
    · rintro ⟨e, he, rfl⟩
      exact ⟨hall e he, hi.own e he⟩
  rw [htypes, Set.ncard_coe_finset, List.toFinset_card_of_nodup hi.distinct, List.length_map, count]

/-- A purge finds nothing to remove if all entries are reachable. -/
lemma Sound.purge_of_reachable (hi : i.Sound) (hall : ∀ e ∈ i.entries, i.Reachable e.ty) (visit : Visit) :
    i.purge visit = (0, i.resetLimit) := by
  have hcount : i.count ≤ (i.sweep visit []).count :=
    (List.subperm_of_subset hi.distinct.of_map fun e he =>
      (hi.sweep visit []).2 e he (hall e he)).length_le
  have hswept : i.sweepAll visit = i := by
    rw [Interner.sweepAll, if_neg hcount.not_gt]
    exact (foldl_release_idle hcount).1
  rw [Interner.purge, hswept]
  exact Prod.ext (Nat.sub_self _) rfl

open Classical in
/-- A purge is over after at most as many sweeps that remove something as there are entries. In whichever
order they visit the entries, it removes exactly those that neither a handle nor a declaration leads to,
and says how many they were. There is one entry left for each type of the universe that is reachable, and
another purge changes nothing. -/
theorem purge_reclaims_garbage (hi : i.Reached) (hvisit : ∀ es, (visit es).Perm es) :
    (∃ n ≤ i.count, (i.purge visit).2 = ((sweep visit [])^[n] i).resetLimit ∧
      ((sweep visit [])^[n] i).sweep visit [] = (sweep visit [])^[n] i) ∧
    (i.purge visit).2.entries = i.entries.filter (fun e => i.Reachable e.ty) ∧
    (i.purge visit).1 = (i.entries.filter fun e => ¬ i.Reachable e.ty).length ∧
    (i.purge visit).2.count = {t | i.Reachable t ∧ t.home? = some i.declarations.id}.ncard ∧
    ∀ visit', (i.purge visit).2.purge visit' = (0, (i.purge visit).2) := by
  have hentries := hi.sound.entries_purge hvisit
  have hpurged : (i.purge visit).2.Sound := hi.sound.purge.1
  have hall : ∀ e ∈ (i.purge visit).2.entries, (i.purge visit).2.Reachable e.ty :=
    fun e he => reachable_purge.mpr (reachable_of_mem_purge hvisit he)
  refine ⟨?_, hentries, ?_, ?_, hpurged.purge_of_reachable hall⟩
  · obtain ⟨n, hn, heq, hidle⟩ := i.exists_iterate_sweep visit
    exact ⟨n, hn, congrArg resetLimit heq, hidle⟩
  · have hsplit := i.entries.length_eq_length_filter_add (fun e => i.Reachable e.ty)
    have hremoved : (i.purge visit).1 = i.count - (i.purge visit).2.count := rfl
    rw [hremoved, count, count, hentries, hsplit, Nat.add_sub_cancel_left]
    simp
  · have hdeclared : (i.purge visit).2.declarations = i.declarations := thins_sweepAll.declarations
    rw [hpurged.count_eq_ncard hall, hdeclared]
    simp only [reachable_purge]

/-- Two types that nobody holds any more, one a part of the other, and an alias that is declared. When the
part is visited first it takes a second sweep to remove it. -/
theorem purge_reclaims_garbage_nested :
    let inner : Ty := .list 0 .int
    let made := (((empty 0 8).adopt List.reverse inner).2.adopt List.reverse (.set 0 inner)).2
    let i := (((made.drop inner).drop (.set 0 inner)).declareAlias List.reverse "Age" .int).2
    i.Reached ∧ (∀ es : List CacheEntry, (id es).Perm es) ∧ (i.sweep id []).count = 2 ∧
      (i.purge id).1 = 2 ∧ (i.purge id).2.count = 1 ∧
      {t | i.Reachable t ∧ t.home? = some 0}.ncard = 1 := by
  intro inner made i
  have hmade : ∀ c ∈ (Ty.set 0 inner).components, ((empty 0 8).adopt List.reverse inner).2.AtHand c :=
    List.forall_mem_singleton.mpr (.inr (by decide +kernel))
  have hi : i.Reached := by
    refine ⟨0, 8, ?_⟩
    refine Relation.ReflTransGen.tail ?_ (.adopt List.reverse (p := .aliasOf 0 "Age" .int) ?_)
    · refine Relation.ReflTransGen.tail ?_ (.drop (.set 0 inner))
      refine Relation.ReflTransGen.tail ?_ (.drop inner)
      refine Relation.ReflTransGen.tail ?_ (.adopt List.reverse hmade)
      exact Relation.ReflTransGen.single (.adopt List.reverse (List.forall_mem_singleton.mpr (.inl rfl)))
    · exact List.forall_mem_singleton.mpr (.inl rfl)
  have hvisit : ∀ es : List CacheEntry, (id es).Perm es := fun es => .refl es
  obtain ⟨-, -, -, hcount, -⟩ := purge_reclaims_garbage hi hvisit
  have hleft : (i.purge id).2.count = 1 := by decide +kernel
  exact ⟨hi, hvisit, by decide +kernel, by decide +kernel, hleft, hcount.symm.trans hleft⟩

end Interner
end TypedValues
