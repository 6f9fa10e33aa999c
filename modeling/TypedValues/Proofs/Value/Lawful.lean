import TypedValues.Proofs.Classes
import TypedValues.Proofs.Value.Equality
import TypedValues.Proofs.Value.Members

/-!
# Values that hash tables can tell apart

Hash tables ask of their keys that equality is an equivalence and that equal keys have equal hashes. Among
values of which this holds a set keeps one of those equal to each other, and two sets are equal when each
covers the other.
-/

namespace TypedValues

namespace Value

/-- Equality is an equivalence on the values with this property, and equal ones have the same contents,
which is what hashes are made of. -/
structure Lawful (P : Value → Prop) : Prop where
  equivalence : EquivalenceOn P equal
  contents : ∀ {v w}, P v → P w → v.equal w = true → v.sameContents w = true

variable {P Q : Value → Prop} {v w : Value} {s t ty : Ty} {xs ys : List Value}

namespace Lawful

lemma mono (h : Lawful P) (hQ : ∀ v, Q v → P v) : Lawful Q where
  equivalence := h.equivalence.mono hQ
  contents hv hw := h.contents (hQ _ hv) (hQ _ hw)

lemma answers_eq (h : Lawful P) (hv : P v) (hw : P w) : v.answers w = v.equal w := by
  rw [answers, Bool.and_eq_right_iff_imp]
  exact h.contents hv hw

/-- Sets without repetition are equal when they cover each other. -/
lemma equal_sets (h : Lawful P) (hxs : ∀ x ∈ xs, P x) (hys : ∀ y ∈ ys, P y)
    (hdx : Unrepeated equal xs) (hdy : Unrepeated equal ys) (hst : s.comparable t = true)
    (hxy : Covers equal xs ys) (hyx : Covers equal ys xs) : (set s xs).equal (set t ys) = true := by
  refine equal_set.mpr ⟨hst, le_antisymm ?_ ?_, fun x hx => ?_⟩
  · exact h.equivalence.length_le hys hxs hdx hyx
  · exact h.equivalence.length_le hxs hys hdy hxy
  · obtain ⟨y, hy, hyx⟩ := hyx x hx
    exact ⟨y, hy, by rw [h.answers_eq (hys y hy) (hxs x hx), hyx]⟩

end Lawful

/-! ### Values without parts -/

/-- Integers, reals, strings and source locations. -/
def Scalar : Value → Prop
  | .int _ | .real _ | .str _ | .loc _ => True
  | _ => False

lemma equal_scalars (hv : v.Scalar) (hw : w.Scalar) : v.equal w = true ↔ v = w := by
  cases v <;> cases w <;> simp_all [Scalar, equal]

lemma lawful_scalars : Lawful Scalar where
  equivalence := {
    refl := fun hv => (equal_scalars hv hv).mpr rfl
    symm := fun hv hw h => (equal_scalars hw hv).mpr ((equal_scalars hv hw).mp h).symm
    trans := fun hu hv hw huv hvw =>
      (equal_scalars hu hw).mpr (((equal_scalars hu hv).mp huv).trans ((equal_scalars hv hw).mp hvw)) }
  contents := fun hv hw h => by
    rw [(equal_scalars hv hw).mp h]
    exact sameContents_self _

/-! ### Tuples of one type -/

/-- The tuples of a type whose fields have a property. -/
def TupleOver (P : Value → Prop) (ty : Ty) (v : Value) : Prop := ∃ vs, v = tuple ty vs ∧ ∀ x ∈ vs, P x

/-- Tuples of one type are equal as their fields are. -/
lemma equal_tuples : (tuple ty xs).equal (tuple ty ys) = true ↔
    List.Forall₂ (fun x y => x.equal y = true) xs ys := by
  rw [equal_tuple, comparable_self]
  exact and_iff_right rfl

lemma Lawful.tuples (h : Lawful P) (ty : Ty) : Lawful (TupleOver P ty) where
  equivalence := {
    refl := by
      rintro _ ⟨xs, rfl, hxs⟩
      rw [equal_tuples, h.equivalence.forall₂_iff hxs hxs]
    symm := by
      rintro _ _ ⟨xs, rfl, hxs⟩ ⟨ys, rfl, hys⟩ hxy
      rw [equal_tuples, h.equivalence.forall₂_iff hxs hys] at hxy
      rw [equal_tuples, h.equivalence.forall₂_iff hys hxs, hxy]
    trans := by
      rintro _ _ _ ⟨xs, rfl, hxs⟩ ⟨ys, rfl, hys⟩ ⟨zs, rfl, hzs⟩ hxy hyz
      rw [equal_tuples, h.equivalence.forall₂_iff hxs hys] at hxy
      rw [equal_tuples, h.equivalence.forall₂_iff hys hzs] at hyz
      rw [equal_tuples, h.equivalence.forall₂_iff hxs hzs, hxy, hyz] }
  contents := by
    rintro _ _ ⟨xs, rfl, hxs⟩ ⟨ys, rfl, hys⟩ hxy
    rw [sameContents, sameEach_iff_forall₂]
    refine forall₂_imp_of_mem (equal_tuples.mp hxy) fun x hx y hy hequal => ?_
    exact h.contents (hxs x hx) (hys y hy) hequal

end Value

/-! ### What a set made of a list keeps -/

namespace Members

variable {P : Value → Prop} {vs : List Value}

lemma forall_ofList (hvs : ∀ v ∈ vs, P v) : ∀ v ∈ ofList vs, P v :=
  fun v hv => hvs v (mem_of_mem_ofList hv)

lemma unrepeated_ofList (h : Value.Lawful P) (hvs : ∀ v ∈ vs, P v) :
    Unrepeated Value.equal (ofList vs) := by
  refine (pairwise_ofList vs).imp_of_mem fun hx hy hxy => ?_
  rwa [h.answers_eq (forall_ofList hvs _ hx) (forall_ofList hvs _ hy)] at hxy

lemma covers_ofList (h : Value.Lawful P) (hvs : ∀ v ∈ vs, P v) : Covers Value.equal (ofList vs) vs := by
  intro v hv
  have hself : v.answers v = true := by
    rw [h.answers_eq (hvs v hv) (hvs v hv), h.equivalence.refl (hvs v hv)]
  obtain ⟨x, hx, hxv⟩ := exists_answers_insertAll [] hv hself
  exact ⟨x, hx, (Value.answers_iff.mp hxv).2⟩

/-- Dropping repetitions from part of a list that covers all of it makes an equal set. -/
lemma equal_ofList {ws : List Value} (hP : Value.Lawful P)
    (hvs : ∀ v ∈ vs, P v) (hsub : ws ⊆ vs) (hcov : Covers Value.equal ws vs) (ty : Ty) :
    (Value.set ty (ofList vs)).equal (.set ty (ofList ws)) = true := by
  have hws : ∀ w ∈ ws, P w := fun w hw => hvs w (hsub hw)
  refine hP.equal_sets (forall_ofList hvs) (forall_ofList hws) (unrepeated_ofList hP hvs)
    (unrepeated_ofList hP hws) (Value.comparable_self ty) ?_ ?_
  · exact fun w hw => covers_ofList hP hvs w (hsub (mem_of_mem_ofList hw))
  · exact fun v hv => hP.equivalence.covers_trans (forall_ofList hws) hws hvs (covers_ofList hP hws) hcov v
      (mem_of_mem_ofList hv)

end Members
end TypedValues
