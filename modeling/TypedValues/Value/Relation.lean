import TypedValues.Value.Set

/-!
# Relations

A relation is a set whose type says that its elements are tuples.

Selection, composition, closure and carrier walk the elements in the order of their insertion, and the
closure starts from the pairs in this order. A set that is kept in a trie is walked in the order of the
hashes, and pairs that are grouped by hashing in no fixed order. Every walk meets the same tuples. Which of
several that answer to one another is kept depends on the walk: where equality is transitive the results are
equal all the same; where it is not, as between the empty lists of two unrelated types and the empty list of
any value, another walk may keep others.
-/

namespace TypedValues

structure Relation where
  toSet : SetValue
  isRelation : toSet.ty.isRelation = true

instance : Coe Relation SetValue := ⟨Relation.toSet⟩

/-- The relation that a set is. -/
def SetValue.asRelation (s : SetValue) : Except Error Relation :=
  if h : s.ty.isRelation then .ok ⟨s, h⟩ else .error (.of (.resultTypeMismatch .relation s.ty))

namespace Relation

/-- The relation over a tuple type with these tuples, repetitions dropped. -/
def ofTuples (home : UniverseId) (fields : List Field) (tuples : List Value) : Relation :=
  ⟨⟨.set home (.tuple home fields), Members.ofList tuples⟩, rfl⟩

def ty (r : Relation) : Ty := r.toSet.ty

def size (r : Relation) : Nat := r.toSet.size

def isEmpty (r : Relation) : Bool := r.toSet.isEmpty

def tuples (r : Relation) : List TupleValue := r.toSet.elements.filterMap Value.tuple?

/-- The tuples of a binary relation. -/
def pairs (r : Relation) : List (Value × Value) := r.tuples.filterMap TupleValue.pair?

def arity (r : Relation) : Nat := r.ty.arity

def fieldType? (r : Relation) (index : Nat) : Option Ty := r.ty.fieldType? index

/-- The values of one field as a set, or several fields of every tuple as a relation. -/
def select (home : UniverseId) (r : Relation) (indices : List Nat) : Except Error SetValue := do
  let element := r.toSet.elementType
  match indices with
  | [index] =>
    match element.fieldType? index with
    | none => throw (.indexOutOfBounds index r.arity)
    | some t => return ⟨.set home t, Members.ofList (← r.tuples.mapM (·.get index))⟩
  | _ =>
    let t ← element.select home indices
    let selected ← r.tuples.mapM (TupleValue.select home · indices)
    return ⟨.set home t, Members.ofList (selected.map (·.toValue))⟩

/-- The set product: all pairs of an element of the one with an element of the other. -/
def product (home : UniverseId) (s t : SetValue) : Relation :=
  let fields := [.plain s.elementType, .plain t.elementType]
  ofTuples home fields
    (s.elements.flatMap fun a => t.elements.map fun b => .tuple (.tuple home fields) [a, b])

/-- Relates `a` to `c` where the one relation relates `a` to some `b` and the other `b` to `c`. -/
def compose (home : UniverseId) (r s : Relation) : Except Error Relation := do
  if r.arity != 2 then throw (.unsupported "relation.compose" r.ty)
  if s.arity != 2 then throw (.unsupported "relation.compose" s.ty)
  let fields ← r.toSet.elementType.composedFields s.toSet.elementType
  let composed := r.pairs.flatMap fun (a, b) =>
    (s.pairs.filter fun (b', _) => b'.equal b).map fun (_, c) =>
      Value.tuple (.tuple home fields) [a, c]
  return ofTuples home fields composed

/-- The second fields of the pairs, grouped under the first ones. -/
def successors (pairs : List (Value × Value)) : List (Value × List Value) :=
  pairs.foldl add []
where
  add : List (Value × List Value) → Value × Value → List (Value × List Value)
  | [], (a, b) => [(a, [b])]
  | (key, bs) :: rest, (a, b) =>
    if key.answers a then (key, bs ++ [b]) :: rest else (key, bs) :: add rest (a, b)

/-- Whether a value asked for meets a stored one: as in `Value.answers`, compared from its own side. -/
def meets (asked stored : Value) : Bool := stored.sameContents asked && asked.equal stored

/-- What follows a value in one step. -/
def onward (next : List (Value × List Value)) (v : Value) : List Value :=
  ((next.find? fun e => meets v e.1).map (·.2)).getD []

/-- The values met from the pending ones, the next one first. Each is followed once. -/
def reach (next : List (Value × List Value)) : Nat → List Value → List Value → List Value
  | 0, _, reached => reached
  | _, [], reached => reached
  | fuel + 1, v :: pending, reached =>
    if reached.any (meets v) then reach next fuel pending reached
    else reach next fuel ((onward next v).reverse ++ pending) (reached ++ [v])

/-- The values reachable in one or more steps. Of `n` pairs at most `n` values are followed, each to at
most `n` others. -/
def reachable (pairs : List (Value × Value)) (start : Value) : List Value :=
  let next := successors pairs
  let n := pairs.length
  reach next (n * n + n) (onward next start).reverse []

/-- The transitive closure of a binary relation, both fields typed by the join of the two. -/
def closure (home : UniverseId) (r : Relation) : Except Error Relation := do
  if r.arity != 2 then throw (.unsupported "relation.closure" r.ty)
  let fields ← (r.toSet.elementType.closedFields home).mapError (.inOperation "relation.closure")
  let closed := (successors r.pairs).flatMap fun (a, _) =>
    (reachable r.pairs a).map fun c => Value.tuple (.tuple home fields) [a, c]
  return ofTuples home fields closed

/-- The set of all field values. -/
def carrier (home : UniverseId) (r : Relation) : SetValue :=
  let types := r.toSet.elementType.fields.map (·.item)
  ⟨.set home (.joinAll home types), Members.ofList (r.tuples.flatMap (·.fields))⟩

end Relation
end TypedValues
