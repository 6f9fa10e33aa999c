import Mathlib

/-!
# Parts

Types and values are trees: each node has components, and through them parts.
-/

namespace TypedValues

variable {α : Type} {components : α → List α} {P : α → Prop} {p q t : α}

/-- The first tree is the second one or a part of one of its components. -/
inductive PartOf (components : α → List α) (p : α) : α → Prop
  | self : PartOf components p p
  | inside {c t : α} : c ∈ components t → PartOf components p c → PartOf components p t

lemma forall_partOf_iff : (∀ p, PartOf components p t → P p) ↔
    P t ∧ ∀ c ∈ components t, ∀ p, PartOf components p c → P p := by
  constructor
  · intro h
    exact ⟨h t .self, fun c hc p hp => h p (.inside hc hp)⟩
  · rintro ⟨ht, h⟩ p hp
    cases hp with
    | self => exact ht
    | inside hc hp => exact h _ hc p hp

lemma PartOf.trans (hp : PartOf components p q) (hq : PartOf components q t) :
    PartOf components p t := by
  induction hq with
  | self => exact hp
  | inside hc _ ih => exact .inside hc ih

end TypedValues
