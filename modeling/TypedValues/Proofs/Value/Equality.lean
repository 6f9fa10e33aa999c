import TypedValues.Proofs.Table
import TypedValues.Proofs.Value.Contents

/-!
# What equality compares

Equality of two composite values in terms of their components: places of tuples and lists, elements that
answer for sets, bindings for maps, labels for the annotations of nodes.
-/

namespace TypedValues

namespace Ty

lemma comparable_comm (a b : Ty) : a.comparable b = b.comparable a := Bool.or_comm _ _

/-- Comparable constructors have one name. -/
lemma name?_eq_of_comparable {a b : Ty} (ha : a.isConstructor = true) (hb : b.isConstructor = true)
    (h : a.comparable b = true) : a.resolved.name? = b.resolved.name? := by
  have hsub : ∀ {s t : Ty}, s.isConstructor = true → t.isConstructor = true →
      s.subtype t = true → s.resolved.name? = t.resolved.name? := by
    intro s t hs ht hst
    obtain ⟨h, n, sort, d, fs, hs⟩ := isConstructor_iff.mp hs
    obtain ⟨k, m, sort', e, gs, ht⟩ := isConstructor_iff.mp ht
    have hr := resolved_subtype_resolved hst
    rw [hs, ht] at hr ⊢
    exact (constructor_subtype_constructor.mp hr).2.1
  rw [comparable, Bool.or_eq_true] at h
  rcases h with h | h
  · exact hsub ha hb h
  · exact (hsub hb ha h).symm

end Ty

namespace Value

variable {s t : Ty} {i j : TableId} {xs ys : List Value} {es fs : List (Value × Value)}
  {as bs : List (String × Value)} {x y : Value}

section Attached

lemma all_zip_attach {p : Value → Value → Bool} :
    (xs.length == ys.length && (xs.attach.zip ys.attach).all fun q => p q.1.1 q.2.1) = true ↔
      List.Forall₂ (fun x y => p x y = true) xs ys := by
  have hzip : (xs.attach.zip ys.attach).map (Prod.map Subtype.val Subtype.val) = xs.zip ys := by
    rw [← List.zip_map, List.attach_map_subtype_val, List.attach_map_subtype_val]
  have hall : ((xs.attach.zip ys.attach).all fun q => p q.1.1 q.2.1) =
      (xs.zip ys).all fun q => p q.1 q.2 := by
    rw [← hzip, List.all_map]
    rfl
  rw [hall, Bool.and_eq_true, beq_iff_eq, List.forall₂_iff_zip, List.all_eq_true]
  exact and_congr_right fun _ => Prod.forall

/-- Looking up with proofs of membership finds what looking up does. -/
lemma find?_attach {κ : Type} {l : List (κ × Value)} (p : κ × Value → Bool) :
    (l.attach.find? fun f => p f.1).map Subtype.val = l.find? p := by
  have hmap : (l.attach.map Subtype.val).find? p = (l.attach.find? (p ∘ Subtype.val)).map Subtype.val :=
    List.find?_map
  rw [List.attach_map_subtype_val] at hmap
  exact hmap.symm

end Attached

lemma comparable_self (t : Ty) : t.comparable t = true := by
  rw [Ty.comparable, Ty.subtype_refl, Bool.true_or]

/-- A stored value that answers has the same contents and is equal. -/
lemma answers_iff : x.answers y = true ↔ x.sameContents y = true ∧ x.equal y = true := by
  rw [answers, Bool.and_eq_true]

lemma equal_tuple : (tuple s xs).equal (tuple t ys) = true ↔
    s.comparable t = true ∧ List.Forall₂ (fun x y => x.equal y = true) xs ys := by
  rw [equal, Bool.and_assoc, Bool.and_eq_true, ← all_zip_attach]

lemma equal_list : (list s xs).equal (list t ys) = true ↔
    s.comparable t = true ∧ List.Forall₂ (fun x y => x.equal y = true) xs ys := by
  rw [equal, Bool.and_assoc, Bool.and_eq_true, ← all_zip_attach]

/-- Values that are compared place by place, as two tuples or two lists are. -/
structure InOrder (v w : Value) (s t : Ty) (xs ys : List Value) : Prop where
  equal_iff : v.equal w = true ↔
    s.comparable t = true ∧ List.Forall₂ (fun x y => x.equal y = true) xs ys
  sameContents_eq : v.sameContents w = sameEach xs ys

lemma inOrder_tuple : InOrder (tuple s xs) (tuple t ys) s t xs ys where
  equal_iff := equal_tuple
  sameContents_eq := by rw [sameContents]

lemma inOrder_list : InOrder (list s xs) (list t ys) s t xs ys where
  equal_iff := equal_list
  sameContents_eq := by rw [sameContents]

lemma equal_set : (set s xs).equal (set t ys) = true ↔
    s.comparable t = true ∧ xs.length = ys.length ∧ ∀ x ∈ xs, ∃ y ∈ ys, y.answers x = true := by
  rw [equal]
  simp [answers, and_assoc]

lemma equal_map : (map s i es).equal (map t j fs) = true ↔
    s.comparable t = true ∧ (i = j ∨ es.length = fs.length ∧ ∀ e ∈ es, ∃ f,
      Table.binding? (·.answers e.1) fs = some f ∧ f.2.equal e.2 = true) := by
  rw [equal, Bool.and_eq_true, Bool.or_eq_true, Bool.and_eq_true, beq_iff_eq, beq_iff_eq,
    List.all_eq_true]
  refine and_congr_right fun _ => or_congr_right (and_congr_right fun _ => ?_)
  rw [Subtype.forall]
  refine forall₂_congr fun e he => ?_
  rw [forall_prop_of_true (List.mem_attach es _), Table.binding?, ← find?_attach]
  unfold answers
  split
  · rename_i f hf
    simp [hf]
  · rename_i hnone
    simp [hnone]

lemma equal_node : (node s xs as).equal (node t ys bs) = true ↔
    s.comparable t = true ∧ List.Forall₂ (fun x y => x.equal y = true) xs ys ∧
      as.length = bs.length ∧ ∀ a ∈ as, ∃ b,
        Table.binding? (· == a.1) bs = some b ∧ a.2.equal b.2 = true := by
  rw [equal, Bool.and_eq_true, Bool.and_eq_true, Bool.and_assoc, Bool.and_eq_true, beq_iff_eq,
    List.all_eq_true, ← all_zip_attach, and_assoc, and_assoc]
  refine and_congr_right fun _ => and_congr_right fun _ => and_congr_right fun _ => ?_
  rw [Subtype.forall]
  refine forall₂_congr fun a ha => ?_
  rw [forall_prop_of_true (List.mem_attach as _), Table.binding?, ← find?_attach]
  split
  · rename_i b hb
    simp [hb]
  · rename_i hnone
    simp [hnone]

end Value
end TypedValues
