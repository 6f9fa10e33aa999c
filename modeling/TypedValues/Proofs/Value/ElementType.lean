import Mathlib
import TypedValues.Proofs.Ty.JoinAll
import TypedValues.Value.Set
import TypedValues.Value.List

/-!
# Element types

The element type of a list or set that is typed by its contents depends on the types that occur among the
elements, not on their order or on how often each of them occurs.
-/

namespace TypedValues

open Ty (joinAll)

variable {u : Universe} {t : Ty}

/-- Without aliases of `void` the types of a universe are joined alike in any order. -/
lemma Ty.NoVoidAlias.uniform (ht : t.NoVoidAlias) (hu : u.Owns t) : Uniform u.id .void t := by
  intro p hp
  refine ⟨(hu p hp).madeIn, ?_⟩
  rintro h n rfl
  exact absurd rfl (ht _ hp rfl)

/-- The join of types of a universe among which no alias stands for `void` is the same type, labels included,
for every list of the same types: they may come in any order and any of them may be repeated. So a list or
set made of values of these types has the same element type. -/
theorem joinAll_reordered (u : Universe) :
    (∀ ts us : List Ty, (∀ t ∈ ts, u.Owns t ∧ t.NoVoidAlias) → (∀ t, t ∈ us ↔ t ∈ ts) →
      joinAll u.id us = joinAll u.id ts) ∧
    ∀ vs ws : List Value, (∀ v ∈ vs, u.Owns v.runtimeType ∧ v.runtimeType.NoVoidAlias) →
      (∀ t, t ∈ ws.map Value.runtimeType ↔ t ∈ vs.map Value.runtimeType) →
      (ListValue.of u.id ws).elementType = (ListValue.of u.id vs).elementType ∧
        (SetValue.of u.id ws).elementType = (SetValue.of u.id vs).elementType := by
  have hjoin : ∀ ts us : List Ty, (∀ t ∈ ts, u.Owns t ∧ t.NoVoidAlias) →
      (∀ t, t ∈ us ↔ t ∈ ts) → joinAll u.id us = joinAll u.id ts := by
    intro ts us hts hmem
    have huniform : ∀ t ∈ ts, Ty.Uniform u.id .void t := fun t ht => (hts t ht).2.uniform (hts t ht).1
    exact Ty.joinAll_congr (fun t ht => huniform t ((hmem t).mp ht)) huniform hmem
  refine ⟨hjoin, fun vs ws hvs hmem => ?_⟩
  have htypes : joinAll u.id (ws.map Value.runtimeType) = joinAll u.id (vs.map Value.runtimeType) := by
    refine hjoin _ _ ?_ hmem
    exact List.forall_mem_map.mpr hvs
  exact ⟨htypes, htypes⟩

/-- Tuples of a number and a tree, the number under one of two aliases or under none: reordered and repeated
they have one join, as types and as the types of empty lists. -/
theorem joinAll_reordered_rows :
    let num : Ty := .aliasOf 0 "Num" .int
    let nat : Ty := .aliasOf 0 "Nat" num
    let leaf : Ty := .constructor 0 (some "leaf") "Tree" 0 []
    let node : Ty := .constructor 0 (some "node") "Tree" 0 [⟨.sort 0 "Tree", some "left"⟩]
    let u : Universe := ⟨0, [("Num", .int), ("Nat", num)], [("Tree", [leaf, node])], []⟩
    let a : Ty := .list 0 (.tuple 0 [⟨nat, some "n"⟩, ⟨leaf, some "t"⟩])
    let b : Ty := .list 0 (.tuple 0 [⟨num, some "n"⟩, ⟨node, some "t"⟩])
    let c : Ty := .list 0 (.tuple 0 [⟨.int, some "n"⟩, .plain node])
    let lists (ts : List Ty) : List Value := ts.map fun t => .list t []
    (∀ t ∈ [a, b, c], u.Owns t ∧ t.NoVoidAlias) ∧ joinAll u.id [c, a, b, a] = joinAll u.id [a, b, c] ∧
      (ListValue.of u.id (lists [c, a, b, a])).elementType =
        (ListValue.of u.id (lists [a, b, c])).elementType ∧
      (SetValue.of u.id (lists [c, a, b, a])).elementType =
        (SetValue.of u.id (lists [a, b, c])).elementType := by
  intro num nat leaf node u a b c lists
  have hts : ∀ t ∈ [a, b, c], u.Owns t ∧ t.NoVoidAlias := by decide
  have hmem : ∀ t, t ∈ [c, a, b, a] ↔ t ∈ [a, b, c] := fun t => by
    simp only [List.mem_cons, List.not_mem_nil, or_false]
    tauto
  have hvs : ∀ v ∈ lists [a, b, c], u.Owns v.runtimeType ∧ v.runtimeType.NoVoidAlias :=
    List.forall_mem_map.mpr hts
  exact ⟨hts, (joinAll_reordered u).1 _ _ hts hmem, (joinAll_reordered u).2 _ _ hvs hmem⟩

end TypedValues
