import TypedValues.Error
import TypedValues.Table
import TypedValues.Ty.Equality

/-!
# Universes

A universe remembers its declarations: the aliases, the sorts with their constructors, and the
annotations that values of a type may carry.
-/

namespace TypedValues

structure Universe where
  id : UniverseId
  /-- Each alias with the type it stands for. -/
  aliases : Table String Ty
  /-- Each sort with its constructors, in the order of their declaration. -/
  sorts : Table String (List Ty)
  /-- The types that annotations were declared on, each with its labels. -/
  annotated : Table Ty (Table String Ty)

namespace Universe

def empty (id : UniverseId) : Universe := ⟨id, [], [], []⟩

def alias? (u : Universe) (name : String) : Option Ty :=
  (Table.get? (· == name) u.aliases).map (.aliasOf u.id name)

def sort? (u : Universe) (name : String) : Option Ty :=
  (Table.get? (· == name) u.sorts).map fun _ => .sort u.id name

/-- The constructors of a sort that this universe has declared. -/
def signature? (u : Universe) : Ty → Option (List Ty)
  | .sort home name => if home = u.id then Table.get? (· == name) u.sorts else none
  | _ => none

/-- The constructors of a sort in the order of their declaration; none for any other type. -/
def constructorsOf (u : Universe) (sort : Ty) : List Ty := (u.signature? sort).getD []

/-- All constructors of a sort that share a name. -/
def constructorsCalled (u : Universe) (sort : Ty) (name : String) : List Ty :=
  (u.constructorsOf sort).filter fun c => c.name? == some name

/-- All constructors of one name, whatever their sort. -/
def constructorsNamed (u : Universe) (name : String) : List Ty :=
  (u.sorts.flatMap (·.2)).filter fun c => c.name? == some name

def anonymousConstructor (u : Universe) (sort : Ty) : Except Error Ty :=
  match (u.constructorsOf sort).find? fun c => c.name?.isNone with
  | some c => .ok c
  | none => .error (.unsupported "anonymous_constructor" sort)

/-- The types behind a chain of aliases. -/
def aliasTargets : Ty → List Ty
  | .aliasOf _ _ t => t :: aliasTargets t
  | _ => []

/-- The types whose annotations a type shares: `value`, the type itself, what it is an alias of, and
the sort of a constructor. A later one overrides an earlier one. -/
def scopes (on : Ty) : List Ty := [.value, on] ++ aliasTargets on ++ on.sort?.toList

/-- The labels declared on exactly this type. -/
def labelsOn (u : Universe) (on : Ty) : Table String Ty :=
  (Table.get? (· == on) u.annotated).getD []

/-- The type of an annotation, by the last scope that declares it. -/
def annotationType? (u : Universe) (on : Ty) (label : String) : Option Ty :=
  (scopes on).reverse.findSome? fun scope => Table.get? (· == label) (u.labelsOn scope)

def declaresLabel (u : Universe) (on : Ty) (label : String) : Bool :=
  (u.annotationType? on label).isSome

/-- All annotations visible from a type, later scopes written over earlier ones. -/
def annotations (u : Universe) (on : Ty) : Table String Ty :=
  ((scopes on).flatMap u.labelsOn).foldl
    (fun table (label, t) => Table.put (· == label) label t table) []

end Universe
end TypedValues
