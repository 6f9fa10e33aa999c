import Mathlib
import TypedValues.Proofs.Parts
import TypedValues.Ty.Join
import TypedValues.Universe.Interner

/-!
# Parts of types

A type refers to its components and, through them, to all its parts. A universe owns a type when all
its parts are either leaves or types that the universe itself has made or declared.
-/

namespace TypedValues

namespace Ty

/-- The type is the other one or a part of one of its components. -/
abbrev PartOf (p t : Ty) : Prop := TypedValues.PartOf components p t

variable {t : Ty}

lemma partOf_resolved (t : Ty) : t.resolved.PartOf t := by
  fun_induction resolved t with
  | case1 h n t ih => exact .inside (by simp [components]) ih
  | case2 => exact .self

lemma sizeOf_item_lt {f : Field} {fs : List Field} (h : f ∈ fs) : sizeOf f.item < sizeOf fs := by
  have := List.sizeOf_lt_of_mem h
  cases f
  simp only [Labeled.mk.sizeOf_spec] at this
  dsimp only
  omega

lemma sizeOf_component_lt {c : Ty} (hc : c ∈ t.components) : sizeOf c < sizeOf t := by
  cases t with
  | tuple h fs =>
    obtain ⟨f, hf, rfl⟩ := List.mem_map.mp hc
    have := sizeOf_item_lt hf
    simp only [tuple.sizeOf_spec]
    omega
  | map h k v =>
    cases k
    cases v
    simp only [components, List.mem_cons, List.not_mem_nil, or_false] at hc
    simp only [map.sizeOf_spec, Labeled.mk.sizeOf_spec]
    rcases hc with rfl | rfl <;> omega
  | constructor h n s d fs =>
    have : 0 < sizeOf n := by cases n <;> simp
    simp only [components, List.mem_cons, List.not_mem_nil, or_false] at hc
    rcases hc with rfl | rfl <;>
      simp only [constructor.sizeOf_spec, sort.sizeOf_spec, tuple.sizeOf_spec] <;> omega
  | list h e | set h e | aliasOf h n e =>
    obtain rfl : c = e := by simpa [components] using hc
    simp only [list.sizeOf_spec, set.sizeOf_spec, aliasOf.sizeOf_spec]
    omega
  | _ => simp [components] at hc

/-! ### The parts as a list -/

mutual
/-- All parts of the type, itself first. -/
def parts : Ty → List Ty
  | .tuple h fields => .tuple h fields :: fieldParts fields
  | .list h t => .list h t :: parts t
  | .set h t => .set h t :: parts t
  | .map h ⟨k, kl⟩ ⟨v, vl⟩ => .map h ⟨k, kl⟩ ⟨v, vl⟩ :: (parts k ++ parts v)
  | .aliasOf h n t => .aliasOf h n t :: parts t
  | .constructor h n s d fields =>
    .constructor h n s d fields :: .sort h s :: .tuple d fields :: fieldParts fields
  | t => [t]

def fieldParts : List Field → List Ty
  | [] => []
  | ⟨t, _⟩ :: fields => parts t ++ fieldParts fields
end

lemma fieldParts_eq_flatMap (fs : List Field) : fieldParts fs = fs.flatMap fun f => f.item.parts := by
  induction fs with
  | nil => rfl
  | cons f fs ih => rw [fieldParts.eq_def, List.flatMap_cons, ← ih]

lemma mem_parts_iff {p : Ty} : p ∈ t.parts ↔ p = t ∨ ∃ c ∈ t.components, p ∈ c.parts := by
  cases t with
  | tuple h fs => simp [parts, components, fieldParts_eq_flatMap]
  | map h k v => simp [parts, components]
  | constructor h n s d fs =>
    simp [parts, components, fieldParts_eq_flatMap]
  | _ => simp [parts, components]

lemma mem_parts {p : Ty} : p ∈ t.parts ↔ p.PartOf t := by
  constructor
  · intro hp
    induction hn : sizeOf t using Nat.strong_induction_on generalizing t with
    | _ n ih =>
    subst hn
    rcases mem_parts_iff.mp hp with rfl | ⟨c, hc, hp⟩
    · exact .self
    · exact .inside hc (ih _ (sizeOf_component_lt hc) hp rfl)
  · intro hp
    induction hp with
    | self => exact mem_parts_iff.mpr (.inl rfl)
    | inside hc _ ih => exact mem_parts_iff.mpr (.inr ⟨_, hc, ih⟩)

end Ty

namespace Universe

/-- This very type is a leaf or was made or declared by the universe. -/
def Declares (u : Universe) : Ty → Prop
  | .object home _ | .tuple home _ | .list home _ | .set home _ | .map home _ _ => home = u.id
  | .aliasOf home name t => u.alias? name = some (.aliasOf home name t)
  | .sort home name => u.sort? name = some (.sort home name)
  | .constructor home name sortName childHome children =>
    .constructor home name sortName childHome children ∈ u.constructorsOf (.sort u.id sortName) ∧
      home = u.id ∧ childHome = u.id
  | _ => True

lemma home_of_declares {u : Universe} {home : UniverseId} {name : String} {t : Ty}
    (h : u.Declares (.aliasOf home name t)) : home = u.id := by
  obtain ⟨s, -, hs⟩ := Option.map_eq_some_iff.mp h
  exact (Ty.aliasOf.inj hs).1.symm

/-- All parts of the type are leaves or were made or declared by the universe. -/
def Owns (u : Universe) (t : Ty) : Prop := ∀ p : Ty, p.PartOf t → u.Declares p

instance (u : Universe) : DecidablePred u.Declares
  | .object home _ | .tuple home _ | .list home _ | .set home _ | .map home _ _ =>
    inferInstanceAs (Decidable (home = u.id))
  | .aliasOf home name t => inferInstanceAs (Decidable (u.alias? name = some (.aliasOf home name t)))
  | .sort home name => inferInstanceAs (Decidable (u.sort? name = some (.sort home name)))
  | .constructor home name sortName childHome children => inferInstanceAs (Decidable
      (.constructor home name sortName childHome children ∈ u.constructorsOf (.sort u.id sortName) ∧
        home = u.id ∧ childHome = u.id))
  | .value | .void | .int | .real | .str | .loc => .isTrue trivial

instance (u : Universe) : DecidablePred u.Owns := fun t =>
  decidable_of_iff (∀ p ∈ t.parts, u.Declares p) (by simp only [Ty.mem_parts]; rfl)

lemma owns_iff {u : Universe} {t : Ty} :
    u.Owns t ↔ u.Declares t ∧ ∀ c ∈ t.components, u.Owns c :=
  forall_partOf_iff

end Universe
end TypedValues
