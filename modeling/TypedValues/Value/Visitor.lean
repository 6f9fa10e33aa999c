import TypedValues.Value.ListRelation
import TypedValues.Value.Relation

/-!
# Visitors

A visitor says what to do with each kind of value. Relations and list relations are kinds of their own,
which a visitor may leave to its treatment of sets and lists.
-/

namespace TypedValues

open Decimal (Binary64)

structure Visitor (α : Type) where
  int : Int64 → α
  real : Binary64 → α
  str : String → α
  loc : SourceLocation → α
  object : Ty → Nat → α
  tuple : TupleValue → α
  list : ListValue → α
  listRelation : ListRelation → α := fun r => list r.toList
  set : SetValue → α
  relation : Relation → α := fun r => set r.toSet
  map : MapValue → α
  node : NodeValue → α

/-- The name of a value's kind, where a relation is a set and a list relation a list. -/
def Visitor.plainKind : Visitor String where
  int _ := "integer"
  real _ := "real"
  str _ := "string"
  loc _ := "source_location"
  object _ _ := "object"
  tuple _ := "tuple"
  list _ := "list"
  set _ := "set"
  map _ := "map"
  node _ := "constructor"

/-- The name of a value's kind. -/
def Visitor.kind : Visitor String :=
  { Visitor.plainKind with
    listRelation := fun _ => "list_relation"
    relation := fun _ => "relation" }

namespace Value

/-- What a visitor makes of a value. -/
def accept {α : Type} (visitor : Visitor α) : Value → α
  | .int n => visitor.int n
  | .real x => visitor.real x
  | .str s => visitor.str s
  | .loc l => visitor.loc l
  | .object ty payload => visitor.object ty payload
  | .tuple ty fields => visitor.tuple ⟨ty, fields⟩
  | .list ty elements =>
    match ListValue.asListRelation ⟨ty, elements⟩ with
    | .ok r => visitor.listRelation r
    | .error _ => visitor.list ⟨ty, elements⟩
  | .set ty elements =>
    match SetValue.asRelation ⟨ty, elements⟩ with
    | .ok r => visitor.relation r
    | .error _ => visitor.set ⟨ty, elements⟩
  | .map ty table entries => visitor.map ⟨ty, table, entries⟩
  | .node ty children annotations => visitor.node ⟨ty, children, annotations⟩

def listRelation? (v : Value) : Option ListRelation := v.list?.bind (·.asListRelation.toOption)

def relation? (v : Value) : Option Relation := v.set?.bind (·.asRelation.toOption)

mutual
/-- How many values other than collections, tuples and nodes a value holds. Both the keys and the
values of a map count; annotations do not. -/
def leafCount : Value → Nat
  | .int _ | .real _ | .str _ | .loc _ | .object .. => 1
  | .tuple _ vs | .list _ vs | .set _ vs | .node _ vs _ => leafCounts vs
  | .map _ _ entries => entryLeafCounts entries

def leafCounts : List Value → Nat
  | [] => 0
  | v :: vs => leafCount v + leafCounts vs

def entryLeafCounts : List (Value × Value) → Nat
  | [] => 0
  | (k, v) :: es => leafCount k + leafCount v + entryLeafCounts es
end

end Value
end TypedValues
