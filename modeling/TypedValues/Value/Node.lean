import TypedValues.Universe.Basic
import TypedValues.Value.Tuple

/-!
# Nodes

A node is built by a constructor, which says how many children it has and of which types. Annotations
are values attached to a node under labels; a declared annotation keeps to its type.
-/

namespace TypedValues.NodeValue

/-- Checks children against those a constructor declares. -/
def checkChildren (home : UniverseId) (t : Ty) (children : List Value) : Except Error Unit := do
  if !t.isConstructor then throw (.unsupported "constructor" t)
  if children.length != t.arity then
    throw (.typeMismatch (t.children?.getD .void) (.tupleOf home (Value.runtimeTypes children)))
  Value.checkFields t children

/-- The node of a constructor type. -/
def of (home : UniverseId) (t : Ty) (children : List Value) : Except Error NodeValue := do
  (checkChildren home t children).mapError (.inOperation "constructor")
  return ⟨t, children, []⟩

/-- The first of some constructors that takes the children, or else what the last one objects to. -/
def firstAccepting (home : UniverseId) (children : List Value) :
    List Ty → Option Error → Except (Option Error) NodeValue
  | [], last => .error last
  | t :: ts, _ =>
    match checkChildren home t children with
    | .ok () => .ok ⟨t, children, []⟩
    | .error e => firstAccepting home children ts (some e)

/-- The node of the first constructor of this sort and name that takes the children. -/
def named (u : Universe) (sort : Ty) (name : String) (children : List Value) :
    Except Error NodeValue :=
  (firstAccepting u.id children (u.constructorsCalled sort name) none).mapError fun last =>
    (last.getD (.labelNotFound name sort)).inOperation "constructor_named"

def arity (n : NodeValue) : Nat := n.children.length

def get (n : NodeValue) (index : Nat) : Except Error Value :=
  match n.children[index]? with
  | some v => .ok v
  | none => .error (.indexOutOfBounds index n.arity)

def getLabel (n : NodeValue) (label : String) : Except Error Value := do
  n.get (← n.ty.indexOf label)

/-- Replaces one child; the annotations stay. -/
def set (n : NodeValue) (index : Nat) (v : Value) : Except Error NodeValue := do
  let _ ← n.get index
  (Value.checkField n.ty index v).mapError (.inOperation "constructor.set")
  return { n with children := n.children.set index v }

def setLabel (n : NodeValue) (label : String) (v : Value) : Except Error NodeValue := do
  n.set (← n.ty.indexOf label) v

def annotated? (n : NodeValue) (label : String) : Option Value :=
  Table.get? (· == label) n.annotations

/-- What stands in the way of an annotation: the declared type it does not fit, or, for a label without
declaration, the incomparable type of the value it would replace. -/
def objection? (u : Universe) (n : NodeValue) (label : String) (actual : Ty) : Option Ty :=
  match u.annotationType? n.ty label with
  | some declared => if actual.subtype declared then none else some declared
  | none => ((n.annotated? label).map (·.runtimeType)).filter fun old => !old.comparable actual

/-- Attaches a value under a label, in place of the one there. -/
def annotate (u : Universe) (n : NodeValue) (label : String) (v : Value) :
    Except Error NodeValue :=
  match objection? u n label v.runtimeType with
  | some expected =>
    .error ((Error.of (.annotationTypeMismatch label expected v.runtimeType)).inOperation
      "constructor.set_annotation")
  | none => .ok { n with annotations := Table.put (· == label) label v n.annotations }

/-- Detaches the value under a label. -/
def unannotate (n : NodeValue) (label : String) : NodeValue :=
  { n with annotations := Table.erase (· == label) n.annotations }

end TypedValues.NodeValue
