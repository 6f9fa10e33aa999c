import TypedValues.Ty.Text
import TypedValues.Text.Quoted

/-!
# Errors

An error is a cause and, where one was noted, the operations it passed through.
-/

namespace TypedValues

/-- What else a name may already stand for. -/
inductive NameUse where
  | sort
  | typeAlias
deriving DecidableEq

def NameUse.text : NameUse → String
  | .sort => "sort"
  | .typeAlias => "named type"

/-- Why a declaration is refused. -/
inductive DeclarationError where
  | invalidIdentifier (name : String)
  | aliasConflict (name : String) (existing requested : Ty)
  | nameInUse (name : String) (existing : NameUse)
  | unknownSort (t : Ty)
  | notASort (t : Ty)
  | childrenNotATuple (t : Ty)
  | duplicateAnonymousConstructor (sort : Ty)
  | annotationConflict (on : Ty) (label : String) (existing requested : Ty)

def DeclarationError.message : DeclarationError → String
  | .invalidIdentifier name => "not a valid identifier: " ++ Text.quoted name
  | .aliasConflict name existing requested =>
    "cannot redeclare " ++ name ++ " = " ++ existing.text ++ " as " ++ requested.text
  | .nameInUse name existing => name ++ " is already declared as a " ++ existing.text
  | .unknownSort t => "unknown sort: " ++ t.text
  | .notASort t => "not a sort: " ++ t.text
  | .childrenNotATuple t => "constructor children must be a tuple type, got " ++ t.text
  | .duplicateAnonymousConstructor sort =>
    "sort " ++ sort.text ++ " already has an anonymous constructor"
  | .annotationConflict on label existing requested =>
    "annotation @" ++ label ++ " on " ++ on.text ++ " is already declared as " ++ existing.text ++
      ", not " ++ requested.text

/-- The kind of collection a caller may insist on. -/
inductive CollectionKind where
  | set
  | relation
  | listRelation
deriving DecidableEq

def CollectionKind.text : CollectionKind → String
  | .set => "set"
  | .relation => "relation"
  | .listRelation => "list relation"

inductive Cause where
  | declaration (e : DeclarationError)
  /-- A value does not fit the declared bound. -/
  | typeMismatch (expected actual : Ty)
  /-- A collection is not of the kind insisted on. -/
  | resultTypeMismatch (expected : CollectionKind) (actual : Ty)
  | annotationTypeMismatch (label : String) (expected actual : Ty)
  | illegalState (message : String)
  | indexOutOfBounds (index length : Nat)
  | labelNotFound (label : String) (t : Ty)
  | unsupportedOperation (operation : String) (t : Ty)

def Cause.message : Cause → String
  | .declaration e => "declaration error: " ++ e.message
  | .typeMismatch expected actual =>
    "type mismatch: expected " ++ expected.text ++ ", got " ++ actual.text
  | .resultTypeMismatch expected actual =>
    "result type mismatch: expected a " ++ expected.text ++ ", got " ++ actual.text
  | .annotationTypeMismatch label expected actual =>
    "annotation @" ++ label ++ ": expected " ++ expected.text ++ ", got " ++ actual.text
  | .illegalState message => "illegal state: " ++ message
  | .indexOutOfBounds index length =>
    "index out of bounds: " ++ toString index ++ " (length " ++ toString length ++ ")"
  | .labelNotFound label t => "label not found: " ++ label ++ " in " ++ t.text
  | .unsupportedOperation operation t => "unsupported operation " ++ operation ++ " on " ++ t.text

/-- The operation that failed and the frames around it, the innermost first. -/
structure Context where
  operation : Option String
  stack : List String
deriving DecidableEq

namespace Context

def empty : Context := ⟨none, []⟩

/-- Names the operation; the one named before becomes a frame. -/
def withOperation (c : Context) (operation : String) : Context :=
  ⟨some operation, c.stack ++ c.operation.toList⟩

def withFrame (c : Context) (frame : String) : Context := { c with stack := c.stack ++ [frame] }

def text (c : Context) : String :=
  ((c.operation.map ("in " ++ ·)).getD "") ++ String.join (c.stack.map ("\n  from " ++ ·))

end Context

structure Error where
  cause : Cause
  context : Option Context

namespace Error

def of (cause : Cause) : Error := ⟨cause, none⟩

def declaration (e : DeclarationError) : Error := of (.declaration e)

def typeMismatch (expected actual : Ty) : Error := of (.typeMismatch expected actual)

def indexOutOfBounds (index length : Nat) : Error := of (.indexOutOfBounds index length)

def labelNotFound (label : String) (t : Ty) : Error := of (.labelNotFound label t)

def unsupported (operation : String) (t : Ty) : Error := of (.unsupportedOperation operation t)

def withContext (e : Error) (c : Context) : Error := { e with context := some c }

/-- Notes the operation that failed, keeping the frames noted before. -/
def inOperation (operation : String) (e : Error) : Error :=
  e.withContext ((e.context.getD .empty).withOperation operation)

def message (e : Error) : String := e.cause.message

def isDeclaration (e : Error) : Bool :=
  match e.cause with
  | .declaration _ => true
  | _ => false

end Error
end TypedValues
