import TypedValues.Decimal.Notation
import TypedValues.Ty.Order

/-!
# Values

Values are immutable and carry their types. The elements of a set and the keys of a map are kept in
the order of their insertion. A node is built by a constructor of a sort and may carry annotations.
-/

namespace TypedValues

open Decimal (Binary64)

structure LinePosition where
  line : Nat
  column : Nat
deriving DecidableEq

/-- A region of a text file, with the lines it spans where they are known. -/
structure SourceLocation where
  path : String
  offset : Nat
  length : Nat
  start : Option LinePosition
  stop : Option LinePosition
deriving DecidableEq

def LinePosition.text (p : LinePosition) : String :=
  "<" ++ toString p.line ++ "," ++ toString p.column ++ ">"

/-- Lines are shown only when both ends are known. -/
def SourceLocation.text (l : SourceLocation) : String :=
  let lines := match l.start, l.stop with
    | some start, some stop => "," ++ start.text ++ "," ++ stop.text
    | _, _ => ""
  "|" ++ l.path ++ "|(" ++ toString l.offset ++ "," ++ toString l.length ++ lines ++ ")"

/-- The identity of the table behind a map. Whoever builds a map names its table; an update that
changes nothing keeps the name. -/
abbrev TableId := Nat

inductive Value where
  | int (n : Int64)
  | real (x : Binary64)
  | str (s : String)
  | loc (l : SourceLocation)
  /-- A payload defined elsewhere, known by its number. -/
  | object (ty : Ty) (payload : Nat)
  | tuple (ty : Ty) (fields : List Value)
  | list (ty : Ty) (elements : List Value)
  | set (ty : Ty) (elements : List Value)
  | map (ty : Ty) (table : TableId) (entries : List (Value × Value))
  | node (ty : Ty) (children : List Value) (annotations : List (String × Value))

/-- A tuple with its type. -/
structure TupleValue where
  ty : Ty
  fields : List Value

structure ListValue where
  ty : Ty
  elements : List Value

structure SetValue where
  ty : Ty
  elements : List Value

structure MapValue where
  ty : Ty
  table : TableId
  entries : List (Value × Value)

/-- A node keeps the exact constructor it was built by. -/
structure NodeValue where
  ty : Ty
  children : List Value
  annotations : List (String × Value)

def TupleValue.toValue (t : TupleValue) : Value := .tuple t.ty t.fields

def ListValue.toValue (l : ListValue) : Value := .list l.ty l.elements

def SetValue.toValue (s : SetValue) : Value := .set s.ty s.elements

def MapValue.toValue (m : MapValue) : Value := .map m.ty m.table m.entries

def NodeValue.toValue (n : NodeValue) : Value := .node n.ty n.children n.annotations

instance : Coe TupleValue Value := ⟨TupleValue.toValue⟩

instance : Coe ListValue Value := ⟨ListValue.toValue⟩

instance : Coe SetValue Value := ⟨SetValue.toValue⟩

instance : Coe MapValue Value := ⟨MapValue.toValue⟩

instance : Coe NodeValue Value := ⟨NodeValue.toValue⟩

/-- The sort of a node's constructor. -/
def NodeValue.sort (n : NodeValue) : Ty := n.ty.sort?.getD n.ty

/-- The name of a node's constructor. -/
def NodeValue.name? (n : NodeValue) : Option String := n.ty.resolved.name?

namespace Value

/-- The type of a value. A node has the type of its sort, not that of its constructor. -/
def runtimeType : Value → Ty
  | .int _ => .int
  | .real _ => .real
  | .str _ => .str
  | .loc _ => .loc
  | .object ty _ | .tuple ty _ | .list ty _ | .set ty _ | .map ty _ _ => ty
  | .node ty children annotations => (NodeValue.mk ty children annotations).sort

def hasType (v : Value) (t : Ty) : Bool := v.runtimeType.subtype t

def int? : Value → Option Int64
  | .int n => some n
  | _ => none

def real? : Value → Option Binary64
  | .real x => some x
  | _ => none

def str? : Value → Option String
  | .str s => some s
  | _ => none

def loc? : Value → Option SourceLocation
  | .loc l => some l
  | _ => none

def tuple? : Value → Option TupleValue
  | .tuple ty fields => some ⟨ty, fields⟩
  | _ => none

def list? : Value → Option ListValue
  | .list ty elements => some ⟨ty, elements⟩
  | _ => none

def set? : Value → Option SetValue
  | .set ty elements => some ⟨ty, elements⟩
  | _ => none

def map? : Value → Option MapValue
  | .map ty table entries => some ⟨ty, table, entries⟩
  | _ => none

def node? : Value → Option NodeValue
  | .node ty children annotations => some ⟨ty, children, annotations⟩
  | _ => none

end Value

/-- The element type of a list or set. -/
def ListValue.elementType (l : ListValue) : Ty := l.ty.elementType

def SetValue.elementType (s : SetValue) : Ty := s.ty.elementType

end TypedValues
