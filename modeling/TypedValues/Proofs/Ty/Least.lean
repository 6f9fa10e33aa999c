import Mathlib
import TypedValues.Proofs.Ty.Bound

/-!
# Joins as least upper bounds

Whatever stands above two types stands above their join, as long as no alias within them stands for `void`
and they mention no two overloads of one constructor. An alias of `void` stands below every alias but joins
as `void`, and two overloads join at their sort even if one of them stands above the other.
-/

namespace TypedValues.Ty

variable {a b c x y : Ty} {s : Shape} {home : UniverseId} {fs gs es : List Field}

/-- Constructors of one sort and one name. -/
def overloads : Ty → Ty → Bool
  | .constructor h n s _ _, .constructor h' n' s' _ _ => h == h' && n == n' && s == s'
  | _, _ => false

/-- The types mention no two different overloads of one constructor, neither one of them nor both
together. -/
def OneOverload (a b : Ty) : Prop :=
  ∀ p q : Ty, p.PartOf a ∨ p.PartOf b → q.PartOf a ∨ q.PartOf b → overloads p q = true → p = q

instance (a b : Ty) : Decidable (OneOverload a b) :=
  decidable_of_iff
    (∀ p ∈ a.parts ++ b.parts, ∀ q ∈ a.parts ++ b.parts, overloads p q = true → p = q) <| by
    simp only [OneOverload, List.mem_append, mem_parts]
    exact forall_congr' fun p => forall_comm

/-- Two types whose join is the least type above both. -/
structure Regular (a b : Ty) : Prop where
  left : a.NoVoidAlias
  right : b.NoVoidAlias
  overloads : OneOverload a b

namespace Regular

lemma part (h : Regular a b) (hx : x.PartOf a) (hy : y.PartOf b) : Regular x y where
  left := h.left.part hx
  right := h.right.part hy
  overloads p q hp hq :=
    h.overloads p q (hp.imp (·.trans hx) (·.trans hy)) (hq.imp (·.trans hx) (·.trans hy))

lemma component (h : Regular a b) (hx : x ∈ a.components) (hy : y ∈ b.components) : Regular x y :=
  h.part (.inside hx .self) (.inside hy .self)

end Regular

/-- Above a type of some shape there are, besides `value`, only types of that shape. -/
lemma shape?_of_subtype (ha : a.shape? = some s) (hac : a.subtype c = true) :
    c = .value ∨ c.shape? = some s := by
  rcases subtype_iff.mp hac with rfl | rfl | rfl | hbelow
  · exact .inr ha
  · simp at ha
  · exact .inl rfl
  · right
    cases hbelow with
    | aliasOf ht => simp at ha
    | tuple hfg => rw [← ha, shape?, shape?, hfg.length_eq]
    | list | set | map | constructor | sort => exact ha

lemma joinFields_below (hf : FieldsBelow fs es) (hg : FieldsBelow gs es)
    (ih : ∀ f ∈ fs, ∀ g ∈ gs, ∀ c, f.item.subtype c = true → g.item.subtype c = true →
      (join home f.item g.item).subtype c = true) : FieldsBelow (joinFields home fs gs) es := by
  have hl : fs.length = gs.length := hf.length_eq.trans hg.length_eq.symm
  refine List.forall₂_iff_get.mpr ⟨(length_joinFields hl).trans hf.length_eq, fun i hi hi' => ?_⟩
  have hif : i < fs.length := hf.length_eq ▸ hi'
  have hig : i < gs.length := hl ▸ hif
  simp only [List.get_eq_getElem, joinFields_eq_zipWith, List.getElem_zipWith, joinField]
  exact ih _ (List.getElem_mem hif) _ (List.getElem_mem hig) _
    ((List.forall₂_iff_get.mp hf).2 i hif hi') ((List.forall₂_iff_get.mp hg).2 i hig hi')

/-- Two members of a sort are both below another member only if that is the sort, unless they are two
overloads of one constructor. -/
lemma sort_subtype {h : UniverseId} {name : String} (hne : a ≠ b) (ho : OneOverload a b)
    (ha : a.shape? = some (.family h name)) (hb : b.shape? = some (.family h name))
    (hac : a.subtype c = true) (hbc : b.subtype c = true) : (sort h name).subtype c = true := by
  rcases shape?_eq_family.mp ha with rfl | ⟨n, d, fs, rfl⟩
  · exact hac
  rcases shape?_eq_family.mp hb with rfl | ⟨m, e, gs, rfl⟩
  · exact hbc
  rcases shape?_of_subtype ha hac with rfl | hc
  · exact subtype_value _
  rcases shape?_eq_family.mp hc with rfl | ⟨o, l, es, rfl⟩
  · exact subtype_refl _
  · obtain ⟨-, hn, -, -⟩ := constructor_subtype_constructor.mp hac
    obtain ⟨-, hm, -, -⟩ := constructor_subtype_constructor.mp hbc
    exact absurd (ho _ _ (.inl .self) (.inr .self) (by simp [overloads, hn, hm])) hne

/-- What stands above two types stands above the alias that they share. -/
lemma Shares.subtype (hs : Shares a b x) (hv : a.resolved ≠ .void) (hac : a.subtype c = true)
    (hbc : b.subtype c = true) : x.subtype c = true := by
  by_cases hc : c.isAlias = true
  · have hv' : b.resolved ≠ .void := by rwa [← hs.resolved_right, hs.resolved_left]
    have hchains := And.intro (mem_aliasChain_of_subtype hac hc hv) (mem_aliasChain_of_subtype hbc hc hv')
    exact subtype_of_mem_aliasChain ((hs.2 c).mpr hchains)
  · have hr := resolved_subtype_of_not_alias hac (by simpa using hc)
    rw [← hs.resolved_left] at hr
    exact subtype_trans (subtype_resolved x) hr

/-- The induction follows the join. Each of its rules is matched by what can stand above types of these
shapes. -/
lemma join_subtype (home : UniverseId) (a b : Ty) : Regular a b → ∀ c, a.subtype c = true →
    b.subtype c = true → (join home a b).subtype c = true := by
  refine joinInduction (motive := fun a b => Regular a b → ∀ c, a.subtype c = true →
    b.subtype c = true → (join home a b).subtype c = true) (fun a _ c hac _ => ?_)
    (fun b _ c _ hbc => ?_) (fun a _ c hac _ => ?_) (fun b _ c hac _ => ?_) (fun a _ c _ hbc => ?_)
    (fun a b ha ha' hb hb' hn ih hr c hac hbc => ?_) (fun h k fs gs hne hl ih hr c hac hbc => ?_)
    (fun h k s t hne ih hr c hac hbc => ?_) (fun h k s t hne ih hr c hac hbc => ?_)
    (fun h k f g f' g' hne ihf ihg hr c hac hbc => ?_) (fun a b h name hne ha hb hr c hac hbc => ?_)
    (fun a b r s hne ha hb _ c hac hbc => ?_) a b
  · rwa [join_self]
  · rwa [join_void_left]
  · rwa [join_void_right]
  · rwa [join_value_left]
  · rwa [join_value_right]
  · rw [join_alias ha ha' hb hb' hn]
    have hva := hr.left.resolved_ne_void ha
    have hvb := hr.right.resolved_ne_void hb
    cases hs : sharedAlias? a b with
    | some t => exact (shares_of_sharedAlias? hs).subtype hva hac hbc
    | none =>
      by_cases hc : c.isAlias = true
      · exact absurd (mem_aliasChain_of_subtype hbc hc hvb)
          (sharedAlias?_eq_none.mp hs c (mem_aliasChain_of_subtype hac hc hva))
      · have hc : c.isAlias = false := by simpa using hc
        exact ih (hr.part (partOf_resolved a) (partOf_resolved b)) c
          (resolved_subtype_of_not_alias hac hc) (resolved_subtype_of_not_alias hbc hc)
  · rw [join_tuple hne hl]
    rcases shape?_of_subtype rfl hac with rfl | hc
    · exact subtype_value _
    · obtain ⟨l, es, rfl, -⟩ := shape?_eq_tuple.mp hc
      refine tuple_subtype_tuple.mpr (joinFields_below (tuple_subtype_tuple.mp hac)
        (tuple_subtype_tuple.mp hbc) fun f hf g hg => ih f hf g hg (hr.component ?_ ?_))
      · exact List.mem_map_of_mem hf
      · exact List.mem_map_of_mem hg
  · rw [join_list hne]
    rcases shape?_of_subtype rfl hac with rfl | hc
    · exact subtype_value _
    · obtain ⟨l, t', rfl⟩ := shape?_eq_list.mp hc
      exact list_subtype_list.mpr (ih (hr.component (by simp [components]) (by simp [components])) t'
        (list_subtype_list.mp hac) (list_subtype_list.mp hbc))
  · rw [join_set hne]
    rcases shape?_of_subtype rfl hac with rfl | hc
    · exact subtype_value _
    · obtain ⟨l, t', rfl⟩ := shape?_eq_set.mp hc
      exact set_subtype_set.mpr (ih (hr.component (by simp [components]) (by simp [components])) t'
        (set_subtype_set.mp hac) (set_subtype_set.mp hbc))
  · rw [join_map hne]
    rcases shape?_of_subtype rfl hac with rfl | hc
    · exact subtype_value _
    · obtain ⟨l, f'', g'', rfl⟩ := shape?_eq_map.mp hc
      obtain ⟨hkeys, hvalues⟩ := map_subtype_map.mp hac
      obtain ⟨hkeys', hvalues'⟩ := map_subtype_map.mp hbc
      refine map_subtype_map.mpr ⟨ihf (hr.component ?_ ?_) _ hkeys hkeys',
        ihg (hr.component ?_ ?_) _ hvalues hvalues'⟩
      all_goals simp [components]
  · rw [join_family hne ha hb]
    exact sort_subtype hne hr.overloads ha hb hac hbc
  · rw [join_of_shape_ne hne ha hb]
    rcases shape?_of_subtype ha hac with rfl | hca
    · exact subtype_refl _
    rcases shape?_of_subtype hb hbc with rfl | hcb
    · exact subtype_refl _
    · exact absurd (Option.some.inj (hca.symm.trans hcb)) hne

/-- The join of two types is the least type above both if no alias within them stands for `void` and they
mention no two overloads of one constructor. It is then as good as the larger of two types one of which
stands below the other. This holds of all such types, whichever universes they were made in. -/
theorem join_subtype_iff (home : UniverseId) {a b : Ty} (ha : a.NoVoidAlias) (hb : b.NoVoidAlias)
    (ho : OneOverload a b) :
    (∀ c : Ty, (join home a b).subtype c = true ↔ a.subtype c = true ∧ b.subtype c = true) ∧
      (a.subtype b = true → (join home a b).subtype b = true ∧ b.subtype (join home a b) = true) := by
  have hleast := join_subtype home a b ⟨ha, hb, ho⟩
  refine ⟨fun c => ⟨fun hc => ?_, fun hc => hleast c hc.1 hc.2⟩, fun hab => ?_⟩
  · exact ⟨subtype_trans (subtype_join_left home a b) hc, subtype_trans (subtype_join_right home a b) hc⟩
  · exact ⟨hleast b hab (subtype_refl b), subtype_join_right home a b⟩

/-- Numbers under two aliases on one chain, and two constructors of a sort. -/
theorem join_subtype_iff_trees :
    let num : Ty := .aliasOf 0 "Num" .int
    let tree : Ty := .sort 0 "Tree"
    let leaf : Ty := .constructor 0 (some "leaf") "Tree" 0 [⟨num, some "n"⟩]
    let node : Ty := .constructor 0 (some "node") "Tree" 0 [⟨tree, some "left"⟩, ⟨tree, some "right"⟩]
    let a : Ty := .tuple 0 [⟨.list 0 (.aliasOf 0 "Nat" num), some "xs"⟩, .plain leaf]
    let b : Ty := .tuple 0 [.plain (.list 0 num), ⟨node, some "t"⟩]
    let c : Ty := .tuple 0 [.plain (.list 0 num), .plain tree]
    a.NoVoidAlias ∧ b.NoVoidAlias ∧ OneOverload a b ∧ a.subtype c = true ∧ b.subtype c = true ∧
      (join 0 a b).subtype c = true := by
  intro num tree leaf node a b c
  have ha : a.NoVoidAlias := by decide
  have hb : b.NoVoidAlias := by decide
  have ho : OneOverload a b := by decide
  have hac : a.subtype c = true := by decide
  have hbc : b.subtype c = true := by decide
  exact ⟨ha, hb, ho, hac, hbc, ((join_subtype_iff 0 ha hb ho).1 c).mpr ⟨hac, hbc⟩⟩

end TypedValues.Ty
