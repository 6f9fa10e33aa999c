import Mathlib
import TypedValues.Proofs.Value.WellTyped
import TypedValues.Value.List

/-!
# Well-typed lists

A list widens its type for every element it takes in.
-/

namespace TypedValues.ListValue

variable {home : UniverseId} {l m : ListValue} {vs : List Value} {v : Value} {t : Ty}

lemma wellTyped_iff : (l : Value).WellTyped ↔ l.ty.isList = true ∧
    ∀ v ∈ l.elements, v.Inhabits l.elementType :=
  Value.wellTyped_list

lemma wellTyped_of (hvs : ∀ v ∈ vs, v.WellTyped) : (of home vs : Value).WellTyped :=
  wellTyped_iff.mpr ⟨rfl, fun v hv =>
    ⟨Ty.subtype_joinAll (List.mem_map_of_mem hv), hvs v hv⟩⟩

lemma wellTyped_empty (t : Ty) : (empty home t : Value).WellTyped :=
  wellTyped_iff.mpr ⟨rfl, by simp [empty]⟩

/-- The widened type is one of lists that hold the old elements and the one added. -/
lemma widened_spec (home : UniverseId) (hl : l.ty.isList = true) (added : Ty) :
    (l.widened home added).isList = true ∧
    l.elementType.subtype (l.widened home added).elementType = true ∧
    added.subtype (l.widened home added).elementType = true := by
  have hadded := Ty.subtype_join_right home l.elementType added
  unfold widened
  dsimp only
  split_ifs with hj
  · rw [hj] at hadded
    exact ⟨hl, Ty.subtype_refl _, hadded⟩
  · exact ⟨rfl, Ty.subtype_join_left home l.elementType added, hadded⟩

lemma wellTyped_widened (hl : (l : Value).WellTyped) (hv : v.WellTyped)
    (hvs : ∀ w ∈ vs, w = v ∨ w ∈ l.elements) :
    (⟨l.widened home v.runtimeType, vs⟩ : ListValue).toValue.WellTyped := by
  obtain ⟨hty, hes⟩ := wellTyped_iff.mp hl
  obtain ⟨hw, hold, hnew⟩ := widened_spec home hty v.runtimeType
  refine wellTyped_iff.mpr ⟨hw, fun w hw => ?_⟩
  rcases hvs w hw with rfl | hw
  · exact ⟨hnew, hv⟩
  · exact (hes w hw).mono hold

lemma wellTyped_cons (hl : (l : Value).WellTyped) (hv : v.WellTyped) :
    (l.cons home v : Value).WellTyped :=
  wellTyped_widened hl hv (by simp)

lemma wellTyped_concat (hl : (l : Value).WellTyped) (hv : v.WellTyped) :
    (l.concat home v : Value).WellTyped :=
  wellTyped_widened hl hv (by simp [or_comm])

lemma wellTyped_append (hl : (l : Value).WellTyped) (hm : (m : Value).WellTyped) :
    (l.append home m : Value).WellTyped := by
  obtain ⟨hlt, hls⟩ := wellTyped_iff.mp hl
  obtain ⟨hmt, hms⟩ := wellTyped_iff.mp hm
  have hj := Ty.isList_join home hlt hmt
  have hlj := Ty.element?_subtype (Ty.subtype_join_left home l.ty m.ty)
    (Ty.element?_of_isList hlt) (Ty.element?_of_isList hj)
  have hmj := Ty.element?_subtype (Ty.subtype_join_right home l.ty m.ty)
    (Ty.element?_of_isList hmt) (Ty.element?_of_isList hj)
  refine wellTyped_iff.mpr ⟨hj, fun v hv => ?_⟩
  rcases List.mem_append.mp hv with hv | hv
  · exact (hls v hv).mono hlj
  · exact (hms v hv).mono hmj

lemma wellTyped_reverse (hl : (l : Value).WellTyped) : (l.reverse : Value).WellTyped := by
  obtain ⟨hlt, hls⟩ := wellTyped_iff.mp hl
  exact wellTyped_iff.mpr ⟨hlt, fun v hv => hls v (List.mem_reverse.mp hv)⟩

end TypedValues.ListValue
