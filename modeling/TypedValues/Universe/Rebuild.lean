import TypedValues.Ty.Descriptor
import TypedValues.Universe.Declare

/-!
# Rebuilding described types

Rebuilding a type from its descriptor declares every alias, sort and constructor on the way. What was
declared before a refusal stays declared.
-/

namespace TypedValues.Universe

/-- A run of declarations: the universe is kept even when one of them is refused. -/
abbrev Declaring := ExceptT DeclarationError (StateM Universe)

/-- Makes one declaration. -/
def declaring (declare : Universe → Except DeclarationError (Ty × Universe)) : Declaring Ty := do
  match declare (← get) with
  | .ok (t, u) =>
    set u
    return t
  | .error e => throw e

mutual
/-- The type described, its declarations made in the universe at hand. -/
def rebuild : Descriptor → Declaring Ty
  | .value => return .value
  | .void => return .void
  | .int => return .int
  | .real => return .real
  | .str => return .str
  | .loc => return .loc
  | .object kind => return .object (← get).id kind
  | .tuple fields => do
    let fields ← rebuildFields fields
    return .tuple (← get).id fields
  | .list element => do
    let t ← rebuild element
    return .list (← get).id t
  | .set element => do
    let t ← rebuild element
    return .set (← get).id t
  | .map ⟨k, kl⟩ ⟨v, vl⟩ => do
    let k ← rebuild k
    let v ← rebuild v
    return .map (← get).id ⟨k, kl⟩ ⟨v, vl⟩
  | .aliasOf name aliased => do
    let t ← rebuild aliased
    declaring (declareAlias · name t)
  | .sort name => declaring (declareSort · name)
  | .constructor name sortName children => do
    let sort ← declaring (declareSort · sortName)
    let fields ← rebuildFields children
    let children := Ty.tuple (← get).id fields
    declaring (declareConstructor · sort name children)

def rebuildFields : List (Labeled Descriptor) → Declaring (List Field)
  | [] => return []
  | ⟨d, label⟩ :: fields => do
    let t ← rebuild d
    return ⟨t, label⟩ :: (← rebuildFields fields)
end

/-- Rebuilds a described type; also the universe afterwards, whether that succeeded or not. -/
def ofDescriptor (u : Universe) (d : Descriptor) : Except DeclarationError Ty × Universe :=
  (rebuild d).run u

end TypedValues.Universe
