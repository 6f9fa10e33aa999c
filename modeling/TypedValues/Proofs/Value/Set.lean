import Mathlib
import TypedValues.Proofs.Value.WellTyped
import TypedValues.Value.Set

/-!
# Well-typed sets

Whatever a set operation keeps comes from its operands, and the type of the result is wide enough.
-/

namespace TypedValues

namespace Members

variable {xs ys vs : List Value} {v x : Value}

lemma mem_insert (hx : x ∈ insert xs v) : x ∈ xs ∨ x = v := by
  unfold insert at hx
  split_ifs at hx
  · exact Or.inl hx
  · simpa using hx

lemma mem_of_mem_erase (hx : x ∈ erase xs v) : x ∈ xs := List.mem_of_mem_eraseP hx

lemma mem_insertAll (hx : x ∈ insertAll xs vs) : x ∈ xs ∨ x ∈ vs := by
  induction vs generalizing xs with
  | nil => exact Or.inl hx
  | cons v vs ih =>
    rcases ih hx with hx | hx
    · rcases mem_insert hx with hx | rfl
      · exact Or.inl hx
      · exact Or.inr List.mem_cons_self
    · exact Or.inr (List.mem_cons_of_mem v hx)

lemma mem_of_mem_eraseAll (hx : x ∈ eraseAll xs vs) : x ∈ xs := by
  induction vs generalizing xs with
  | nil => exact hx
  | cons v vs ih => exact mem_of_mem_erase (ih hx)

lemma mem_of_mem_ofList (hx : x ∈ ofList vs) : x ∈ vs := by
  simpa using mem_insertAll hx

lemma mem_union (hx : x ∈ union xs ys) : x ∈ xs ∨ x ∈ ys := by
  unfold union bySize at hx
  split_ifs at hx
  · exact mem_insertAll hx
  · exact (mem_insertAll hx).symm

lemma mem_inter (hx : x ∈ inter xs ys) : x ∈ xs ∨ x ∈ ys := by
  unfold inter bySize at hx
  split_ifs at hx
  · exact Or.inr (mem_of_mem_eraseAll hx)
  · exact Or.inl (mem_of_mem_eraseAll hx)

lemma mem_of_mem_diff (hx : x ∈ diff xs ys) : x ∈ xs := by
  unfold diff at hx
  split_ifs at hx <;> exact mem_of_mem_eraseAll hx

/-- Values of which none answers to a later one are kept as they are. -/
lemma insertAll_eq_append (h : (xs ++ vs).Pairwise fun x y => x.answers y = false) :
    insertAll xs vs = xs ++ vs := by
  induction vs generalizing xs with
  | nil => exact (List.append_nil xs).symm
  | cons v vs ih =>
    have hv : contains xs v = false := by
      apply List.any_eq_false.mpr
      intro x hx
      rw [(List.pairwise_append.mp h).2.2 x hx v List.mem_cons_self]
      exact Bool.false_ne_true
    have hinsert : insert xs v = xs ++ [v] := by
      rw [insert, hv]
      rfl
    rw [List.append_cons] at h ⊢
    rw [← ih h, ← hinsert]
    rfl

lemma ofList_eq_self (h : vs.Pairwise fun x y => x.answers y = false) : ofList vs = vs :=
  insertAll_eq_append h

end Members

namespace SetValue

variable {home : UniverseId} {s t : SetValue} {vs : List Value} {v : Value}

lemma wellTyped_iff : (s : Value).WellTyped ↔ s.ty.isSet = true ∧
    ∀ v ∈ s.elements, v.Inhabits s.elementType :=
  Value.wellTyped_set

lemma wellTyped_of (hvs : ∀ v ∈ vs, v.WellTyped) : (of home vs : Value).WellTyped :=
  wellTyped_iff.mpr ⟨rfl, fun v hv =>
    have hv := Members.mem_of_mem_ofList hv
    ⟨Ty.subtype_joinAll (List.mem_map_of_mem hv), hvs v hv⟩⟩

lemma wellTyped_empty (t : Ty) : (empty home t : Value).WellTyped :=
  wellTyped_iff.mpr ⟨rfl, by simp [empty]⟩

/-- The type after an insertion is one of sets that hold the old elements and the one added. -/
lemma insert_spec (home : UniverseId) (hs : s.ty.isSet = true) (v : Value) :
    (s.insert home v).ty.isSet = true ∧
    s.elementType.subtype (s.insert home v).elementType = true ∧
    v.hasType (s.insert home v).elementType = true := by
  have hadded := Ty.subtype_join_right home s.elementType v.runtimeType
  by_cases hj : Ty.join home s.elementType v.runtimeType = s.elementType
  · simp only [insert, if_pos hj]
    rw [hj] at hadded
    exact ⟨hs, Ty.subtype_refl _, hadded⟩
  · simp only [insert, if_neg hj]
    exact ⟨rfl, Ty.subtype_join_left home s.elementType v.runtimeType, hadded⟩

lemma wellTyped_insert (hs : (s : Value).WellTyped) (hv : v.WellTyped) :
    (s.insert home v : Value).WellTyped := by
  obtain ⟨hty, hes⟩ := wellTyped_iff.mp hs
  obtain ⟨hset, hold, hnew⟩ := insert_spec home hty v
  refine wellTyped_iff.mpr ⟨hset, fun w hw => ?_⟩
  rcases Members.mem_insert hw with hw | rfl
  · exact (hes w hw).mono hold
  · exact ⟨hnew, hv⟩

/-- A set of the joined type whose elements come from two sets. -/
lemma wellTyped_joined (hs : (s : Value).WellTyped) (ht : (t : Value).WellTyped)
    (hvs : ∀ v ∈ vs, v ∈ s.elements ∨ v ∈ t.elements) :
    (⟨.join home s.ty t.ty, vs⟩ : SetValue).toValue.WellTyped := by
  obtain ⟨hst, hss⟩ := wellTyped_iff.mp hs
  obtain ⟨htt, hts⟩ := wellTyped_iff.mp ht
  have hj := Ty.isSet_join home hst htt
  have hsj := Ty.element?_subtype (Ty.subtype_join_left home s.ty t.ty)
    (Ty.element?_of_isSet hst) (Ty.element?_of_isSet hj)
  have htj := Ty.element?_subtype (Ty.subtype_join_right home s.ty t.ty)
    (Ty.element?_of_isSet htt) (Ty.element?_of_isSet hj)
  refine wellTyped_iff.mpr ⟨hj, fun v hv => ?_⟩
  rcases hvs v hv with hv | hv
  · exact (hss v hv).mono hsj
  · exact (hts v hv).mono htj

lemma wellTyped_union (hs : (s : Value).WellTyped) (ht : (t : Value).WellTyped) :
    (s.union home t : Value).WellTyped :=
  wellTyped_joined hs ht fun _ hv => Members.mem_union hv

lemma wellTyped_inter (hs : (s : Value).WellTyped) (ht : (t : Value).WellTyped) :
    (s.inter home t : Value).WellTyped :=
  wellTyped_joined hs ht fun _ hv => Members.mem_inter hv

lemma wellTyped_of_subset (hs : (s : Value).WellTyped) (hvs : ∀ v ∈ vs, v ∈ s.elements) :
    ({ s with elements := vs } : SetValue).toValue.WellTyped := by
  obtain ⟨hst, hss⟩ := wellTyped_iff.mp hs
  exact wellTyped_iff.mpr ⟨hst, fun v hv => hss v (hvs v hv)⟩

lemma wellTyped_erase (hs : (s : Value).WellTyped) : (s.erase v : Value).WellTyped :=
  wellTyped_of_subset hs fun _ hv => Members.mem_of_mem_erase hv

lemma wellTyped_diff (hs : (s : Value).WellTyped) : (s.diff t : Value).WellTyped :=
  wellTyped_of_subset hs fun _ hv => Members.mem_of_mem_diff hv

end SetValue
end TypedValues
