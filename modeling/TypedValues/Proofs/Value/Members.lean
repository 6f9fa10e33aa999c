import Mathlib
import TypedValues.Proofs.Value.Equality
import TypedValues.Proofs.Value.Set

/-!
# What a set keeps

A set made from a list keeps one value of each contents, as long as the values of the list are equal
whenever they have the same contents. Two such sets then compare as the lists do when order and repetition
are left aside.
-/

namespace TypedValues.Members
open Value

variable {s t : Ty} {v w : Value} {xs ys vs ws : List Value} {g : Value → Bool}

/-! ### No element answers to a later one -/

lemma pairwise_insert (h : xs.Pairwise fun x y => x.answers y = false) :
    (insert xs v).Pairwise fun x y => x.answers y = false := by
  unfold insert
  split
  · exact h
  · next hv =>
    refine List.pairwise_append.mpr ⟨h, List.pairwise_singleton .., fun x hx y hy => ?_⟩
    rw [List.mem_singleton.mp hy]
    simp only [contains, List.any_eq_true, not_exists, not_and, Bool.not_eq_true] at hv
    exact hv x hx

lemma pairwise_insertAll (h : xs.Pairwise fun x y => x.answers y = false) :
    (insertAll xs vs).Pairwise fun x y => x.answers y = false := by
  induction vs generalizing xs with
  | nil => exact h
  | cons v vs ih => exact ih (pairwise_insert h)

lemma pairwise_ofList (vs : List Value) : (ofList vs).Pairwise fun x y => x.answers y = false :=
  pairwise_insertAll .nil

lemma eraseAll_sublist (xs vs : List Value) : (eraseAll xs vs).Sublist xs := by
  induction vs generalizing xs with
  | nil => exact List.Sublist.refl xs
  | cons v vs ih => exact (ih (erase xs v)).trans List.eraseP_sublist

lemma pairwise_union (hxs : xs.Pairwise fun x y => x.answers y = false)
    (hys : ys.Pairwise fun x y => x.answers y = false) :
    (union xs ys).Pairwise fun x y => x.answers y = false := by
  unfold union bySize
  split_ifs
  · exact pairwise_insertAll hxs
  · exact pairwise_insertAll hys

lemma pairwise_inter (hxs : xs.Pairwise fun x y => x.answers y = false)
    (hys : ys.Pairwise fun x y => x.answers y = false) :
    (inter xs ys).Pairwise fun x y => x.answers y = false := by
  unfold inter bySize
  split_ifs
  · exact hys.sublist (eraseAll_sublist ys _)
  · exact hxs.sublist (eraseAll_sublist xs _)

lemma pairwise_diff (hxs : xs.Pairwise fun x y => x.answers y = false) :
    (diff xs ys).Pairwise fun x y => x.answers y = false := by
  unfold diff
  split_ifs
  · exact hxs.sublist (eraseAll_sublist xs _)
  · exact hxs.sublist (eraseAll_sublist xs _)

/-! ### Every value is answered -/

lemma subset_insertAll (xs vs : List Value) : xs ⊆ insertAll xs vs := by
  induction vs generalizing xs with
  | nil => exact List.Subset.refl _
  | cons v vs ih =>
    refine List.Subset.trans ?_ (ih (insert xs v))
    unfold insert
    split
    · exact List.Subset.refl _
    · exact List.subset_append_left ..

lemma exists_answers_insert (xs : List Value) (hv : v.answers v = true) :
    ∃ x ∈ insert xs v, x.answers v = true := by
  unfold insert
  split
  · next h => exact List.any_eq_true.mp h
  · exact ⟨v, List.mem_append_right _ List.mem_cons_self, hv⟩

lemma exists_answers_insertAll (xs : List Value) (hv : v ∈ vs) (hself : v.answers v = true) :
    ∃ x ∈ insertAll xs vs, x.answers v = true := by
  induction vs generalizing xs with
  | nil => cases hv
  | cons w vs ih =>
    rcases List.mem_cons.mp hv with rfl | hv
    · obtain ⟨x, hx, hxv⟩ := exists_answers_insert xs hself
      exact ⟨x, subset_insertAll _ vs hx, hxv⟩
    · exact ih _ hv

/-! ### One element of each contents -/

/-- Values of the same contents are equal, as far as these are concerned. -/
def Decided (vs : List Value) : Prop :=
  ∀ v ∈ vs, ∀ w ∈ vs, v.sameContents w = true → v.equal w = true

lemma Decided.of_subset (h : Decided vs) (hws : ws ⊆ vs) : Decided ws :=
  fun v hv w hw => h v (hws hv) w (hws hw)

lemma Decided.answers_iff (h : Decided vs) (hv : v ∈ vs) (hw : w ∈ vs) :
    v.answers w = true ↔ v.sameContents = w.sameContents := by
  rw [Value.answers_iff, ← sameContents_iff]
  exact ⟨fun hvw => hvw.1, fun hvw => ⟨hvw, h v hv w hw hvw⟩⟩

lemma mem_contents_ofList (h : Decided vs) :
    g ∈ (ofList vs).map sameContents ↔ g ∈ vs.map sameContents := by
  constructor
  · intro hg
    obtain ⟨x, hx, rfl⟩ := List.mem_map.mp hg
    exact List.mem_map_of_mem (mem_of_mem_ofList hx)
  · intro hg
    obtain ⟨v, hv, rfl⟩ := List.mem_map.mp hg
    obtain ⟨x, hx, hxv⟩ := exists_answers_insertAll [] hv ((h.answers_iff hv hv).mpr rfl)
    exact List.mem_map.mpr ⟨x, hx, (h.answers_iff (mem_of_mem_ofList hx) hv).mp hxv⟩

lemma nodup_contents_ofList (h : Decided vs) : ((ofList vs).map sameContents).Nodup := by
  refine List.pairwise_map.mpr ((pairwise_ofList vs).imp_of_mem fun hx hy hxy heq => ?_)
  have hanswers := (h.answers_iff (mem_of_mem_ofList hx) (mem_of_mem_ofList hy)).mpr heq
  rw [hxy] at hanswers
  cases hanswers

/-- The contents of two sets agree if the values they were made from have the same contents, order and
repetition left aside. -/
lemma perm_contents_ofList (hvs : Decided vs) (hws : Decided ws) :
    ((ofList vs).map sameContents).Perm ((ofList ws).map sameContents) ↔
      ∀ g, g ∈ vs.map sameContents ↔ g ∈ ws.map sameContents := by
  rw [List.perm_ext_iff_of_nodup (nodup_contents_ofList hvs) (nodup_contents_ofList hws)]
  simp only [mem_contents_ofList hvs, mem_contents_ofList hws]

lemma sameContents_sets (hvs : Decided vs) (hws : Decided ws) :
    (Value.set s (ofList vs)).sameContents (.set t (ofList ws)) = true ↔
      ∀ g, g ∈ vs.map sameContents ↔ g ∈ ws.map sameContents := by
  rw [sameContents, sameInAnyOrder_iff fun x _ => sameContents_iff x, perm_contents_ofList hvs hws]

/-- Sets of comparable types are equal if their contents agree. -/
lemma equal_sets (h : Decided (vs ++ ws)) :
    (Value.set s (ofList vs)).equal (.set t (ofList ws)) = true ↔ s.comparable t = true ∧
      ∀ g, g ∈ vs.map sameContents ↔ g ∈ ws.map sameContents := by
  have hvs : Decided vs := h.of_subset (List.subset_append_left ..)
  have hws : Decided ws := h.of_subset (List.subset_append_right ..)
  rw [equal_set, ← perm_contents_ofList hvs hws]
  refine and_congr_right fun _ => ?_
  have answers {x y : Value} (hx : x ∈ ofList vs) (hy : y ∈ ofList ws) :
      y.answers x = true ↔ y.sameContents = x.sameContents :=
    h.answers_iff (List.mem_append_right _ (mem_of_mem_ofList hy))
      (List.mem_append_left _ (mem_of_mem_ofList hx))
  have answered : (∀ x ∈ ofList vs, ∃ y ∈ ofList ws, y.answers x = true) ↔
      (ofList vs).map sameContents ⊆ (ofList ws).map sameContents := by
    constructor
    · intro hall g hg
      obtain ⟨x, hx, rfl⟩ := List.mem_map.mp hg
      obtain ⟨y, hy, hyx⟩ := hall x hx
      exact List.mem_map.mpr ⟨y, hy, (answers hx hy).mp hyx⟩
    · intro hsub x hx
      obtain ⟨y, hy, hyx⟩ := List.mem_map.mp (hsub (List.mem_map_of_mem hx))
      exact ⟨y, hy, (answers hx hy).mpr hyx⟩
  rw [answered]
  constructor
  · rintro ⟨hlen, hsub⟩
    exact (List.subperm_of_subset (nodup_contents_ofList hvs) hsub).perm_of_length_le (by simp [hlen])
  · intro hperm
    exact ⟨by simpa using hperm.length_eq, hperm.subset⟩

end TypedValues.Members
