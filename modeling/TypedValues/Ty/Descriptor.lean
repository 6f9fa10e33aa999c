import TypedValues.Ty.Basic

/-!
# Descriptors

A descriptor says what a type is without saying whose it is, so that a type can be described in one
universe and rebuilt in another.
-/

namespace TypedValues

inductive Descriptor where
  | value
  | void
  | int
  | real
  | str
  | loc
  | object (kind : String)
  | tuple (fields : List (Labeled Descriptor))
  | list (element : Descriptor)
  | set (element : Descriptor)
  | map (key value : Labeled Descriptor)
  | aliasOf (name : String) (aliased : Descriptor)
  | sort (name : String)
  | constructor (name : Option String) (sortName : String) (children : List (Labeled Descriptor))

namespace Descriptor

mutual
def beq : Descriptor → Descriptor → Bool
  | .value, .value | .void, .void | .int, .int => true
  | .real, .real | .str, .str | .loc, .loc => true
  | .object k, .object k' => k == k'
  | .tuple fs, .tuple fs' => beqFields fs fs'
  | .list d, .list d' => beq d d'
  | .set d, .set d' => beq d d'
  | .map ⟨k, l⟩ ⟨v, m⟩, .map ⟨k', l'⟩ ⟨v', m'⟩ => l == l' && m == m' && beq k k' && beq v v'
  | .aliasOf n d, .aliasOf n' d' => n == n' && beq d d'
  | .sort n, .sort n' => n == n'
  | .constructor n s fs, .constructor n' s' fs' => n == n' && s == s' && beqFields fs fs'
  | _, _ => false

def beqFields : List (Labeled Descriptor) → List (Labeled Descriptor) → Bool
  | [], [] => true
  | ⟨d, l⟩ :: fs, ⟨d', l'⟩ :: fs' => l == l' && beq d d' && beqFields fs fs'
  | _, _ => false
end

mutual
theorem eq_of_beq : ∀ {a b : Descriptor}, beq a b = true → a = b
  | .tuple fs, b, e => by
    cases b <;> simp [beq] at e
    rw [eq_of_beqFields e]
  | .list d, b, e => by
    cases b <;> simp [beq] at e
    rw [eq_of_beq e]
  | .set d, b, e => by
    cases b <;> simp [beq] at e
    rw [eq_of_beq e]
  | .map ⟨k, l⟩ ⟨v, m⟩, b, e => by
    cases b <;> simp [beq] at e
    obtain ⟨⟨⟨rfl, rfl⟩, ek⟩, ev⟩ := e
    rw [eq_of_beq ek, eq_of_beq ev]
  | .aliasOf n d, b, e => by
    cases b <;> simp [beq] at e
    rw [e.1, eq_of_beq e.2]
  | .constructor n s fs, b, e => by
    cases b <;> simp [beq] at e
    obtain ⟨⟨rfl, rfl⟩, ef⟩ := e
    rw [eq_of_beqFields ef]
  | .value, b, e | .void, b, e | .int, b, e | .real, b, e | .str, b, e | .loc, b, e => by
    cases b <;> simp_all [beq]
  | .object k, b, e | .sort k, b, e => by
    cases b <;> simp_all [beq]

theorem eq_of_beqFields : ∀ {fs gs : List (Labeled Descriptor)}, beqFields fs gs = true → fs = gs
  | [], [], _ => rfl
  | ⟨d, l⟩ :: fs, ⟨d', l'⟩ :: gs, e => by
    simp only [beqFields, Bool.and_eq_true, beq_iff_eq] at e
    rw [e.1.1, eq_of_beq e.1.2, eq_of_beqFields e.2]
  | [], _ :: _, e => by simp [beqFields] at e
  | _ :: _, [], e => by simp [beqFields] at e
end

mutual
theorem beq_self : ∀ a : Descriptor, beq a a = true
  | .tuple fs => by simp [beq, beqFields_self fs]
  | .list d => by simp [beq, beq_self d]
  | .set d => by simp [beq, beq_self d]
  | .map ⟨k, l⟩ ⟨v, m⟩ => by simp [beq, beq_self k, beq_self v]
  | .aliasOf n d => by simp [beq, beq_self d]
  | .constructor n s fs => by simp [beq, beqFields_self fs]
  | .value | .void | .int | .real | .str | .loc | .object .. | .sort .. => by simp [beq]

theorem beqFields_self : ∀ fs : List (Labeled Descriptor), beqFields fs fs = true
  | [] => by simp [beqFields]
  | ⟨d, l⟩ :: fs => by simp [beqFields, beq_self d, beqFields_self fs]
end

instance : DecidableEq Descriptor := fun a b =>
  decidable_of_iff (beq a b = true) ⟨eq_of_beq, fun h => h ▸ beq_self a⟩

end Descriptor

namespace Ty

mutual
/-- What a type is, its universe left out. -/
def descriptor : Ty → Descriptor
  | .value => .value
  | .void => .void
  | .int => .int
  | .real => .real
  | .str => .str
  | .loc => .loc
  | .object _ kind => .object kind
  | .tuple _ fields => .tuple (fieldDescriptors fields)
  | .list _ element => .list (descriptor element)
  | .set _ element => .set (descriptor element)
  | .map _ ⟨k, kl⟩ ⟨v, vl⟩ => .map ⟨descriptor k, kl⟩ ⟨descriptor v, vl⟩
  | .aliasOf _ name t => .aliasOf name (descriptor t)
  | .sort _ name => .sort name
  | .constructor _ name sortName _ children => .constructor name sortName (fieldDescriptors children)

def fieldDescriptors : List (Labeled Ty) → List (Labeled Descriptor)
  | [] => []
  | ⟨t, label⟩ :: fields => ⟨descriptor t, label⟩ :: fieldDescriptors fields
end

end Ty
end TypedValues
