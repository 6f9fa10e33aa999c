import TypedValues.Text.Identifier
import TypedValues.Universe.Basic

/-!
# Declarations

A declaration yields the declared type and the universe that knows it. One that repeats an earlier
declaration is harmless; one that contradicts it is refused, and the universe stays as it was.
-/

namespace TypedValues.Universe

def checkIdentifier (name : String) : Except DeclarationError Unit :=
  if Text.isIdentifier name then .ok () else .error (.invalidIdentifier name)

/-- Declares an alias. It may be declared again for the same type; the one declared first is then handed
out. -/
def declareAlias (u : Universe) (name : String) (aliased : Ty) :
    Except DeclarationError (Ty × Universe) := do
  checkIdentifier name
  match Table.get? (· == name) u.aliases with
  | some existing =>
    if existing = aliased then return (.aliasOf u.id name existing, u)
    else throw (.aliasConflict name existing aliased)
  | none =>
    if (u.sort? name).isSome then throw (.nameInUse name .sort)
    return (.aliasOf u.id name aliased, { u with aliases := u.aliases ++ [(name, aliased)] })

/-- Declares a sort, at first without constructors. -/
def declareSort (u : Universe) (name : String) : Except DeclarationError (Ty × Universe) := do
  checkIdentifier name
  if (u.sort? name).isSome then return (.sort u.id name, u)
  if (u.alias? name).isSome then throw (.nameInUse name .typeAlias)
  return (.sort u.id name, { u with sorts := u.sorts ++ [(name, [])] })

/-- The constructor asked for, once sort, children and name have been checked. -/
def constructorOf (u : Universe) (sort : Ty) (name : Option String) (children : Ty) :
    Except DeclarationError Ty :=
  match sort, children with
  | .sort _ sortName, .tuple childHome fields => do
    name.forM checkIdentifier
    if (u.signature? sort).isNone then throw (.unknownSort sort)
    return .constructor u.id name sortName childHome fields
  | .sort .., _ => .error (.childrenNotATuple children)
  | _, _ => .error (.notASort sort)

/-- Adds a constructor to its sort. A sort has at most one anonymous constructor. -/
def addConstructor (u : Universe) (sort c : Ty) : Except DeclarationError (Ty × Universe) :=
  let signature := u.constructorsOf sort
  if signature.contains c then .ok (c, u)
  else if c.name?.isNone && signature.any (·.name?.isNone) then
    .error (.duplicateAnonymousConstructor sort)
  else
    match sort with
    | .sort _ sortName =>
      .ok (c, { u with sorts := Table.put (· == sortName) sortName (signature ++ [c]) u.sorts })
    | _ => .error (.notASort sort)

/-- Declares a constructor of a sort of this universe. -/
def declareConstructor (u : Universe) (sort : Ty) (name : Option String) (children : Ty) :
    Except DeclarationError (Ty × Universe) := do
  u.addConstructor sort (← u.constructorOf sort name children)

/-- Declares a constructor whose children are all labeled. -/
def declareLabeledConstructor (u : Universe) (sort : Ty) (name : Option String)
    (children : List (Ty × String)) : Except DeclarationError (Ty × Universe) :=
  u.declareConstructor sort name (.labeledTupleOf u.id children)

/-- The type of this universe that has the same shape. Its components stay what they are; an alias, a
sort or a constructor is declared. -/
def adopt (u : Universe) : Ty → Except DeclarationError (Ty × Universe)
  | .object _ kind => .ok (.object u.id kind, u)
  | .tuple _ fields => .ok (.tuple u.id fields, u)
  | .list _ element => .ok (.list u.id element, u)
  | .set _ element => .ok (.set u.id element, u)
  | .map _ k v => .ok (.map u.id k v, u)
  | .aliasOf _ name t => u.declareAlias name t
  | .sort _ name => u.declareSort name
  | .constructor home name sortName childHome children =>
    u.declareConstructor (.sort home sortName) name (.tuple childHome children)
  | leaf => .ok (leaf, u)

/-- Declares that values of a type may carry an annotation. A label that is visible from the type
already must keep its type. -/
def annotate (u : Universe) (on : Ty) (label : String) (t : Ty) :
    Except DeclarationError Universe := do
  checkIdentifier label
  match u.annotationType? on label with
  | some existing =>
    if existing = t then return u else throw (.annotationConflict on label existing t)
  | none =>
    let labels := Table.put (· == label) label t (u.labelsOn on)
    return { u with annotated := Table.put (· == on) on labels u.annotated }

end TypedValues.Universe
