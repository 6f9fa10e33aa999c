import TypedValues.Table
import TypedValues.Ty.Join
import TypedValues.Value.Equality

/-!
# Maps

Maps from keys to single values. The name of the table tells two maps that share it from two that
only look alike, which matters once keys have come to answer to one another.
-/

namespace TypedValues

/-- The table behind a map. -/
structure Bindings where
  table : TableId
  entries : List (Value × Value)

namespace Bindings

/-- The table without entries. All of them may share one name. -/
def empty : Bindings := ⟨0, []⟩

def binding? (b : Bindings) (key : Value) : Option (Value × Value) :=
  Table.binding? (·.answers key) b.entries

/-- Binds a key, in the place of the one that answers to it. A key bound to this value already stays
as it is; otherwise the table takes the new name. -/
def put (fresh : TableId) (b : Bindings) (key v : Value) : Bindings :=
  let written : Bindings := ⟨fresh, Table.put (·.answers key) key v b.entries⟩
  match b.binding? key with
  | some (_, old) => if old.equal v then b else written
  | none => written

def putAll (fresh : TableId) (b : Bindings) (entries : List (Value × Value)) : Bindings :=
  entries.foldl (fun b (key, v) => b.put fresh key v) b

def erase (fresh : TableId) (b : Bindings) (key : Value) : Bindings :=
  if (b.binding? key).isSome then ⟨fresh, Table.erase (·.answers key) b.entries⟩ else b

end Bindings

namespace MapValue

def bindings (m : MapValue) : Bindings := ⟨m.table, m.entries⟩

def ofBindings (ty : Ty) (b : Bindings) : MapValue := ⟨ty, b.table, b.entries⟩

/-- The map type of unlabeled keys and values. -/
def plainType (home : UniverseId) (k v : Ty) : Ty := .map home (.plain k) (.plain v)

/-- The empty map of a key and a value type. -/
def empty (home : UniverseId) (k v : Ty) : MapValue := ofBindings (plainType home k v) .empty

def keyType (m : MapValue) : Ty := m.ty.keyType?.getD .value

def valueType (m : MapValue) : Ty := m.ty.valueType?.getD .value

def size (m : MapValue) : Nat := m.entries.length

def isEmpty (m : MapValue) : Bool := m.entries.isEmpty

def keys (m : MapValue) : List Value := m.entries.map (·.1)

def values (m : MapValue) : List Value := m.entries.map (·.2)

def get? (m : MapValue) (key : Value) : Option Value := (m.bindings.binding? key).map (·.2)

def containsKey (m : MapValue) (key : Value) : Bool := (m.bindings.binding? key).isSome

/-- The type of the map once a key and a value of other types have joined it; labels are kept. -/
def widened (home : UniverseId) (m : MapValue) (addedKey addedValue : Ty) : Ty :=
  match m.ty.mapFields? with
  | none => plainType home addedKey addedValue
  | some (k, v) =>
    let joinedKey := Ty.join home k.item addedKey
    let joinedValue := Ty.join home v.item addedValue
    if joinedKey = k.item ∧ joinedValue = v.item then m.ty
    else .map home { k with item := joinedKey } { v with item := joinedValue }

/-- Binds a key, widening the type to fit. -/
def put (home : UniverseId) (fresh : TableId) (m : MapValue) (key v : Value) : MapValue :=
  ofBindings (m.widened home key.runtimeType v.runtimeType) (m.bindings.put fresh key v)

def erase (fresh : TableId) (m : MapValue) (key : Value) : MapValue :=
  ofBindings m.ty (m.bindings.erase fresh key)

/-- The entries of both maps, those of the second overriding; typed by the join of the types. -/
def join (home : UniverseId) (fresh : TableId) (m n : MapValue) : MapValue :=
  ofBindings (.join home m.ty n.ty) (m.bindings.putAll fresh n.entries)

end MapValue
end TypedValues
