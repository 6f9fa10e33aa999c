import TypedValues.Ty.Equality

/-!
# Joins

The join of two types is their least upper bound. A label stays only where both sides carry it.
Aliases join at the nearest alias that both stand for, and otherwise as what they stand for;
different constructors of a sort join at the sort.
-/

namespace TypedValues.Ty

/-- The aliases on the way from a type to the type it stands for, itself included. -/
def aliasChain : Ty → List Ty
  | .aliasOf h n t => .aliasOf h n t :: aliasChain t
  | _ => []

/-- The nearest alias of the first type that the second passes through as well. -/
def sharedAlias? (a b : Ty) : Option Ty :=
  a.aliasChain.find? fun t => b.aliasChain.contains t

def commonLabel (a b : Option String) : Option String := if a == b then a else none

theorem sizeOf_resolved_le (t : Ty) : sizeOf t.resolved ≤ sizeOf t := by
  fun_induction resolved t with
  | case1 => simp only [aliasOf.sizeOf_spec]; omega
  | case2 => exact Nat.le_refl _

theorem sizeOf_resolved_lt {t : Ty} (h : t.isAlias = true) : sizeOf t.resolved < sizeOf t := by
  cases t <;> simp [isAlias] at h
  case aliasOf home name t =>
    have := sizeOf_resolved_le t
    simp only [resolved, aliasOf.sizeOf_spec]
    omega

mutual
/-- The least upper bound, with new types made in the universe `home`. -/
def join (home : UniverseId) (a b : Ty) : Ty :=
  if a = b then a
  else if a.isVoid || b.isValue then b
  else if b.isVoid || a.isValue then a
  else if a.isAlias || b.isAlias then
    match sharedAlias? a b with
    | some t => t
    | none => join home a.resolved b.resolved
  else
    match a, b with
    | .tuple _ fs, .tuple _ gs =>
      if fs.length = gs.length then .tuple home (joinFields home fs gs) else .value
    | .list _ s, .list _ t => .list home (join home s t)
    | .set _ s, .set _ t => .set home (join home s t)
    | .map _ ⟨k, kl⟩ ⟨v, vl⟩, .map _ ⟨k', kl'⟩ ⟨v', vl'⟩ =>
      .map home ⟨join home k k', commonLabel kl kl'⟩ ⟨join home v v', commonLabel vl vl'⟩
    | .constructor h _ s _ _, .constructor h' _ s' _ _
    | .constructor h _ s _ _, .sort h' s'
    | .sort h s, .constructor h' _ s' _ _ =>
      if h = h' ∧ s = s' then .sort h s else .value
    | _, _ => .value
termination_by sizeOf a + sizeOf b
decreasing_by
  · have := sizeOf_resolved_le a
    have := sizeOf_resolved_le b
    rename_i h _
    rcases Bool.or_eq_true_iff.mp h with h | h <;> have := sizeOf_resolved_lt h <;> omega
  all_goals
    simp_all
    omega

def joinFields (home : UniverseId) (fs gs : List (Labeled Ty)) : List (Labeled Ty) :=
  match fs, gs with
  | ⟨s, l⟩ :: fs, ⟨t, m⟩ :: gs => ⟨join home s t, commonLabel l m⟩ :: joinFields home fs gs
  | _, _ => []
termination_by sizeOf fs + sizeOf gs
end

/-- The join of any number of types; `void` for none. -/
def joinAll (home : UniverseId) (ts : List Ty) : Ty := ts.foldl (join home) .void

end TypedValues.Ty
