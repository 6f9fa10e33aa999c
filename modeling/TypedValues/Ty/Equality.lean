import TypedValues.Ty.Basic

/-!
# Equality of types

Two types are the same when they are equal terms. `Ty.beq` decides it, `Ty.beqShared` without looking
at what both have in common.
-/

namespace TypedValues.Ty

mutual
def beq : Ty → Ty → Bool
  | .value, .value | .void, .void | .int, .int => true
  | .real, .real | .str, .str | .loc, .loc => true
  | .object h k, .object h' k' => h == h' && k == k'
  | .tuple h fs, .tuple h' fs' => h == h' && beqFields fs fs'
  | .list h t, .list h' t' => h == h' && beq t t'
  | .set h t, .set h' t' => h == h' && beq t t'
  | .map h ⟨k, l⟩ ⟨v, m⟩, .map h' ⟨k', l'⟩ ⟨v', m'⟩ =>
    h == h' && l == l' && m == m' && beq k k' && beq v v'
  | .aliasOf h n t, .aliasOf h' n' t' => h == h' && n == n' && beq t t'
  | .sort h n, .sort h' n' => h == h' && n == n'
  | .constructor h n s c fs, .constructor h' n' s' c' fs' =>
    h == h' && n == n' && s == s' && c == c' && beqFields fs fs'
  | _, _ => false

def beqFields : List (Labeled Ty) → List (Labeled Ty) → Bool
  | [], [] => true
  | ⟨t, l⟩ :: fs, ⟨t', l'⟩ :: fs' => l == l' && beq t t' && beqFields fs fs'
  | _, _ => false
end

mutual
theorem eq_of_beq : ∀ {a b : Ty}, beq a b = true → a = b
  | .tuple h fs, b, e => by
    cases b <;> simp [beq] at e
    rw [e.1, eq_of_beqFields e.2]
  | .list h t, b, e => by
    cases b <;> simp [beq] at e
    rw [e.1, eq_of_beq e.2]
  | .set h t, b, e => by
    cases b <;> simp [beq] at e
    rw [e.1, eq_of_beq e.2]
  | .map h ⟨k, l⟩ ⟨v, m⟩, b, e => by
    cases b <;> simp [beq] at e
    obtain ⟨⟨⟨⟨rfl, rfl⟩, rfl⟩, ek⟩, ev⟩ := e
    rw [eq_of_beq ek, eq_of_beq ev]
  | .aliasOf h n t, b, e => by
    cases b <;> simp [beq] at e
    rw [e.1.1, e.1.2, eq_of_beq e.2]
  | .constructor h n s c fs, b, e => by
    cases b <;> simp [beq] at e
    obtain ⟨⟨⟨⟨rfl, rfl⟩, rfl⟩, rfl⟩, ef⟩ := e
    rw [eq_of_beqFields ef]
  | .value, b, e | .void, b, e | .int, b, e | .real, b, e | .str, b, e | .loc, b, e => by
    cases b <;> simp_all [beq]
  | .object h k, b, e | .sort h k, b, e => by
    cases b <;> simp_all [beq]

theorem eq_of_beqFields : ∀ {fs gs : List (Labeled Ty)}, beqFields fs gs = true → fs = gs
  | [], [], _ => rfl
  | ⟨t, l⟩ :: fs, ⟨t', l'⟩ :: gs, e => by
    simp only [beqFields, Bool.and_eq_true, beq_iff_eq] at e
    rw [e.1.1, eq_of_beq e.1.2, eq_of_beqFields e.2]
  | [], _ :: _, e => by simp [beqFields] at e
  | _ :: _, [], e => by simp [beqFields] at e
end

mutual
theorem beq_self : ∀ a : Ty, beq a a = true
  | .tuple h fs => by simp [beq, beqFields_self fs]
  | .list h t => by simp [beq, beq_self t]
  | .set h t => by simp [beq, beq_self t]
  | .map h ⟨k, l⟩ ⟨v, m⟩ => by simp [beq, beq_self k, beq_self v]
  | .aliasOf h n t => by simp [beq, beq_self t]
  | .constructor h n s c fs => by simp [beq, beqFields_self fs]
  | .value | .void | .int | .real | .str | .loc | .object .. | .sort .. => by simp [beq]

theorem beqFields_self : ∀ fs : List (Labeled Ty), beqFields fs fs = true
  | [] => by simp [beqFields]
  | ⟨t, l⟩ :: fs => by simp [beqFields, beq_self t, beqFields_self fs]
end

mutual
/-- Decides equality as `beq` does. Types share parts, so that one written out can be far larger than
it is in memory: parts that are one object there are not compared. -/
def beqShared (a b : Ty) : { r : Bool // r = beq a b } :=
  let compared : Unit → { r : Bool // r = beq a b } := fun _ =>
    match a, b with
    | .tuple h fs, .tuple h' fs' =>
      ⟨h == h' && (beqSharedFields fs fs').1, by rw [(beqSharedFields fs fs').2, beq]⟩
    | .list h t, .list h' t' => ⟨h == h' && (beqShared t t').1, by rw [(beqShared t t').2, beq]⟩
    | .set h t, .set h' t' => ⟨h == h' && (beqShared t t').1, by rw [(beqShared t t').2, beq]⟩
    | .map h ⟨k, l⟩ ⟨v, m⟩, .map h' ⟨k', l'⟩ ⟨v', m'⟩ =>
      ⟨h == h' && l == l' && m == m' && (beqShared k k').1 && (beqShared v v').1, by
        rw [(beqShared k k').2, (beqShared v v').2, beq]⟩
    | .aliasOf h n t, .aliasOf h' n' t' =>
      ⟨h == h' && n == n' && (beqShared t t').1, by rw [(beqShared t t').2, beq]⟩
    | .constructor h n s c fs, .constructor h' n' s' c' fs' =>
      ⟨h == h' && n == n' && s == s' && c == c' && (beqSharedFields fs fs').1, by
        rw [(beqSharedFields fs fs').2, beq]⟩
    | a, b => ⟨beq a b, rfl⟩
  ⟨withPtrEq a b (fun _ => (compared ()).1) (fun e => by rw [(compared ()).2, e, beq_self]),
    (compared ()).2⟩

def beqSharedFields : (fs gs : List (Labeled Ty)) → { r : Bool // r = beqFields fs gs }
  | ⟨t, l⟩ :: fs, ⟨t', l'⟩ :: gs =>
    ⟨l == l' && (beqShared t t').1 && (beqSharedFields fs gs).1, by
      rw [(beqShared t t').2, (beqSharedFields fs gs).2, beqFields]⟩
  | fs, gs => ⟨beqFields fs gs, rfl⟩
end

theorem beqShared_eq_true_iff (a b : Ty) : (beqShared a b).1 = true ↔ a = b := by
  rw [(beqShared a b).2]
  exact ⟨eq_of_beq, fun h => h ▸ beq_self a⟩

instance : DecidableEq Ty := fun a b => decidable_of_iff _ (beqShared_eq_true_iff a b)

end TypedValues.Ty
