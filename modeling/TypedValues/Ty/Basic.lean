/-!
# Types

Types are built structurally from a few leaves. Aliases and sorts are known by name, and the
constructors of a sort carry a tuple of children. A type other than a leaf belongs to the universe
that made it, so that equal terms are one type and equal shapes of two universes are two.
-/

namespace TypedValues

abbrev UniverseId := Nat

/-- An item that may carry a label. -/
structure Labeled (α : Type) where
  item : α
  label : Option String
deriving DecidableEq

inductive Ty where
  /-- Every value has this type. -/
  | value
  /-- No value has this type. -/
  | void
  | int
  | real
  | str
  | loc
  /-- Payloads of a kind defined elsewhere. -/
  | object (home : UniverseId) (kind : String)
  | tuple (home : UniverseId) (fields : List (Labeled Ty))
  | list (home : UniverseId) (element : Ty)
  | set (home : UniverseId) (element : Ty)
  | map (home : UniverseId) (key value : Labeled Ty)
  | aliasOf (home : UniverseId) (name : String) (aliased : Ty)
  | sort (home : UniverseId) (name : String)
  /-- A constructor belongs to a sort of its own universe; its tuple of children may come from
  another. The anonymous constructor has no name. -/
  | constructor (home : UniverseId) (name : Option String) (sortName : String)
      (childHome : UniverseId) (children : List (Labeled Ty))

abbrev Field := Labeled Ty

def Labeled.plain {α : Type} (item : α) : Labeled α := ⟨item, none⟩

namespace Ty

/-- The tuple type of unlabeled fields. -/
def tupleOf (home : UniverseId) (ts : List Ty) : Ty := .tuple home (ts.map Labeled.plain)

/-- The tuple type of labeled fields. -/
def labeledTupleOf (home : UniverseId) (fields : List (Ty × String)) : Ty :=
  .tuple home (fields.map fun (t, label) => ⟨t, some label⟩)

/-- The type at the end of a chain of aliases. -/
def resolved : Ty → Ty
  | .aliasOf _ _ t => t.resolved
  | t => t

/-- The fields of a tuple type, aliases of one included. -/
def tupleFields? (t : Ty) : Option (List Field) :=
  match t.resolved with
  | .tuple _ fields => some fields
  | _ => none

def isValue : Ty → Bool
  | .value => true
  | _ => false

def isVoid : Ty → Bool
  | .void => true
  | _ => false

def isAlias : Ty → Bool
  | .aliasOf .. => true
  | _ => false

def isTuple (t : Ty) : Bool := t.tupleFields?.isSome

def isList (t : Ty) : Bool :=
  match t.resolved with
  | .list .. => true
  | _ => false

def isSet (t : Ty) : Bool :=
  match t.resolved with
  | .set .. => true
  | _ => false

/-- A set of tuples is a relation. -/
def isRelation (t : Ty) : Bool :=
  match t.resolved with
  | .set _ element => element.isTuple
  | _ => false

/-- A list of tuples is a list relation. -/
def isListRelation (t : Ty) : Bool :=
  match t.resolved with
  | .list _ element => element.isTuple
  | _ => false

def isMap (t : Ty) : Bool :=
  match t.resolved with
  | .map .. => true
  | _ => false

def isSort (t : Ty) : Bool :=
  match t.resolved with
  | .sort .. => true
  | _ => false

def isConstructor (t : Ty) : Bool :=
  match t.resolved with
  | .constructor .. => true
  | _ => false

/-- The name of an alias, a sort, a constructor or an object kind. -/
def name? : Ty → Option String
  | .object _ kind => some kind
  | .aliasOf _ name _ => some name
  | .sort _ name => some name
  | .constructor _ name _ _ _ => name
  | _ => none

/-- The universe that made or declared the type; the leaves have none. -/
def home? : Ty → Option UniverseId
  | .object home _ | .tuple home _ | .list home _ | .set home _ | .map home _ _ => some home
  | .aliasOf home _ _ | .sort home _ | .constructor home _ _ _ _ => some home
  | _ => none

def aliased? : Ty → Option Ty
  | .aliasOf _ _ t => some t
  | _ => none

def element? (t : Ty) : Option Ty :=
  match t.resolved with
  | .list _ element | .set _ element => some element
  | _ => none

/-- The element type of a collection; a type without elements counts as one of any value. -/
def elementType (t : Ty) : Ty := t.element?.getD .value

def mapFields? (t : Ty) : Option (Field × Field) :=
  match t.resolved with
  | .map _ k v => some (k, v)
  | _ => none

def keyType? (t : Ty) : Option Ty := t.mapFields?.map (·.1.item)

def valueType? (t : Ty) : Option Ty := t.mapFields?.map (·.2.item)

def keyLabel? (t : Ty) : Option String := t.mapFields?.bind (·.1.label)

def valueLabel? (t : Ty) : Option String := t.mapFields?.bind (·.2.label)

def sort? (t : Ty) : Option Ty :=
  match t.resolved with
  | .constructor home _ sortName _ _ => some (.sort home sortName)
  | _ => none

def children? (t : Ty) : Option Ty :=
  match t.resolved with
  | .constructor _ _ _ childHome children => some (.tuple childHome children)
  | _ => none

/-- The fields of a tuple, of the children of a constructor, or of the tuples in a relation or list
relation; other types have none. -/
def fields (t : Ty) : List Field :=
  match t.resolved with
  | .tuple _ fields => fields
  | .constructor _ _ _ _ children => children
  | .list _ element | .set _ element => element.tupleFields?.getD []
  | _ => []

def arity (t : Ty) : Nat := t.fields.length

def fieldType? (t : Ty) (index : Nat) : Option Ty := t.fields[index]?.map (·.item)

def fieldLabel? (t : Ty) (index : Nat) : Option String := t.fields[index]?.bind (·.label)

/-- The position of the first field with this label. -/
def fieldIndex? (t : Ty) (label : String) : Option Nat :=
  t.fields.findIdx? fun f => f.label == some label

def hasFieldLabels (t : Ty) : Bool := t.fields.any fun f => f.label.isSome

end Ty
end TypedValues
