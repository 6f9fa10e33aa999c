import TypedValues.Ty.Equality

/-!
# Subtyping

`value` is on top and `void` at the bottom. Composites are covariant and labels never matter. An
alias stands below whatever its target stands below, but only the alias itself stands below an alias.
-/

namespace TypedValues.Ty

mutual
/-- Whether every value of the first type is one of the second. -/
def subtype : Ty → Ty → Bool
  | a, b => a == b ||
    match a, b with
    | _, .value | .void, _ => true
    | .aliasOf _ _ t, b => subtype t b
    | .tuple _ fs, .tuple _ gs => subtypeFields fs gs
    | .list _ s, .list _ t | .set _ s, .set _ t => subtype s t
    | .map _ ⟨k, _⟩ ⟨v, _⟩, .map _ ⟨k', _⟩ ⟨v', _⟩ => subtype k k' && subtype v v'
    | .constructor h n s _ fs, .constructor h' n' s' _ gs =>
      n == n' && h == h' && s == s' && subtypeFields fs gs
    | .constructor h _ s _ _, .sort h' s' => h == h' && s == s'
    | _, _ => false

/-- Fields are compared by position, and there must be as many on either side. -/
def subtypeFields : List (Labeled Ty) → List (Labeled Ty) → Bool
  | [], [] => true
  | ⟨s, _⟩ :: fs, ⟨t, _⟩ :: gs => subtype s t && subtypeFields fs gs
  | _, _ => false
end

/-- Whether either type is a subtype of the other. -/
def comparable (a b : Ty) : Bool := subtype a b || subtype b a

mutual
/-- Equality up to labels. -/
def equivalent : Ty → Ty → Bool
  | a, b => a == b ||
    match a, b with
    | .tuple _ fs, .tuple _ gs => equivalentFields fs gs
    | .list _ s, .list _ t | .set _ s, .set _ t => equivalent s t
    | .map _ ⟨k, _⟩ ⟨v, _⟩, .map _ ⟨k', _⟩ ⟨v', _⟩ => equivalent k k' && equivalent v v'
    | .constructor h n s _ fs, .constructor h' n' s' _ gs =>
      n == n' && h == h' && s == s' && equivalentFields fs gs
    | _, _ => false

def equivalentFields : List (Labeled Ty) → List (Labeled Ty) → Bool
  | [], [] => true
  | ⟨s, _⟩ :: fs, ⟨t, _⟩ :: gs => equivalent s t && equivalentFields fs gs
  | _, _ => false
end

end TypedValues.Ty
