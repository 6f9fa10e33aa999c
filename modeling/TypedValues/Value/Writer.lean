import TypedValues.Value.ListRelation
import TypedValues.Value.Map
import TypedValues.Value.Relation

/-!
# Writers

A writer gathers the contents of one collection. Everything written must fit the declared types. Once
sealed it hands out the finished collection, the same one every time, and takes nothing more.
-/

namespace TypedValues

/-- What a writer has: the contents gathered so far, or the collection they became. -/
inductive Phase (γ ω : Type) where
  | filling (contents : γ)
  | sealed (result : ω)

namespace Phase
variable {γ ω : Type}

def isSealed : Phase γ ω → Bool
  | .filling _ => false
  | .sealed _ => true

/-- The contents of a writer that may still be written to. -/
def contents (operation : String) : Phase γ ω → Except Error γ
  | .filling contents => .ok contents
  | .sealed _ =>
    .error ((Error.of (.illegalState "writer is already sealed")).inOperation operation)

/-- How much has been gathered. A sealed writer has handed its contents over and counts none. -/
def count (size : γ → Nat) : Phase γ ω → Nat
  | .filling contents => size contents
  | .sealed _ => 0

/-- Whether nothing has been gathered, or all of it has been handed over. -/
def isEmpty (blank : γ → Bool) : Phase γ ω → Bool
  | .filling contents => blank contents
  | .sealed _ => true

def result (build : γ → ω) : Phase γ ω → ω
  | .filling contents => build contents
  | .sealed result => result

end Phase

/-- Checks that a value fits a declared type. -/
def Value.checkBound (operation : String) (bound : Ty) (v : Value) : Except Error Unit :=
  if v.hasType bound then .ok ()
  else .error ((Error.typeMismatch bound v.runtimeType).inOperation operation)

structure ListWriter where
  ty : Ty
  phase : Phase (List Value) ListValue

namespace ListWriter

/-- A writer of lists of an element type. -/
def new (home : UniverseId) (element : Ty) : ListWriter := ⟨.list home element, .filling []⟩

/-- A writer of list relations with these field types. -/
def ofFields (home : UniverseId) (ts : List Ty) : ListWriter := new home (.tupleOf home ts)

def elementType (w : ListWriter) : Ty := w.ty.elementType

def length (w : ListWriter) : Nat := w.phase.count List.length

def isEmpty (w : ListWriter) : Bool := w.phase.isEmpty List.isEmpty

def isSealed (w : ListWriter) : Bool := w.phase.isSealed

/-- Writes an element in front. -/
def insert (w : ListWriter) (v : Value) : Except Error ListWriter := do
  let contents ← w.phase.contents "list_writer.insert"
  v.checkBound "list_writer.insert" w.elementType
  return { w with phase := .filling (v :: contents) }

/-- Writes an element at the end. -/
def append (w : ListWriter) (v : Value) : Except Error ListWriter := do
  let contents ← w.phase.contents "list_writer.append"
  v.checkBound "list_writer.append" w.elementType
  return { w with phase := .filling (contents ++ [v]) }

/-- Writes elements in front, in their order, all or none of them. -/
def insertAll (w : ListWriter) (vs : List Value) : Except Error ListWriter := do
  let contents ← w.phase.contents "list_writer.insert_all"
  vs.forM (Value.checkBound "list_writer.insert_all" w.elementType)
  return { w with phase := .filling (vs ++ contents) }

/-- The finished list and the sealed writer. -/
def finish (w : ListWriter) : ListValue × ListWriter :=
  let list := w.phase.result fun contents => ⟨w.ty, contents⟩
  (list, { w with phase := .sealed list })

/-- The finished list as a list relation. The writer is sealed even if it is none. -/
def finishListRelation (w : ListWriter) : Except Error ListRelation × ListWriter :=
  let (list, sealed) := w.finish
  (list.asListRelation, sealed)

end ListWriter

structure SetWriter where
  ty : Ty
  phase : Phase (List Value) SetValue

namespace SetWriter

/-- A writer of sets of an element type. -/
def new (home : UniverseId) (element : Ty) : SetWriter := ⟨.set home element, .filling []⟩

/-- A writer of relations with these field types. -/
def ofFields (home : UniverseId) (ts : List Ty) : SetWriter := new home (.tupleOf home ts)

/-- A writer of a declared set type, or an alias of one. -/
def ofType (t : Ty) : Except Error SetWriter :=
  if t.isSet then .ok ⟨t, .filling []⟩ else .error (.unsupported "set_writer_of" t)

def elementType (w : SetWriter) : Ty := w.ty.elementType

/-- The number of distinct elements. -/
def size (w : SetWriter) : Nat := w.phase.count List.length

def isEmpty (w : SetWriter) : Bool := w.phase.isEmpty List.isEmpty

def isSealed (w : SetWriter) : Bool := w.phase.isSealed

def insert (w : SetWriter) (v : Value) : Except Error SetWriter := do
  let contents ← w.phase.contents "set_writer.insert"
  v.checkBound "set_writer.insert" w.elementType
  return { w with phase := .filling (Members.insert contents v) }

/-- Writes all of these elements or none. -/
def insertAll (w : SetWriter) (vs : List Value) : Except Error SetWriter := do
  let contents ← w.phase.contents "set_writer.insert_all"
  vs.forM (Value.checkBound "set_writer.insert_all" w.elementType)
  return { w with phase := .filling (Members.insertAll contents vs) }

/-- The finished set and the sealed writer. -/
def finish (w : SetWriter) : SetValue × SetWriter :=
  let set := w.phase.result fun contents => ⟨w.ty, contents⟩
  (set, { w with phase := .sealed set })

/-- The finished set as a relation. The writer is sealed even if it is none. -/
def finishRelation (w : SetWriter) : Except Error Relation × SetWriter :=
  let (set, sealed) := w.finish
  (set.asRelation, sealed)

end SetWriter

structure MapWriter where
  ty : Ty
  phase : Phase Bindings MapValue

namespace MapWriter

/-- A writer of maps of a key and a value type. -/
def new (home : UniverseId) (k v : Ty) : MapWriter :=
  ⟨MapValue.plainType home k v, .filling .empty⟩

/-- A writer of a declared map type, or an alias of one. -/
def ofType (t : Ty) : Except Error MapWriter :=
  if t.isMap then .ok ⟨t, .filling .empty⟩ else .error (.unsupported "map_writer_of" t)

def keyType (w : MapWriter) : Ty := w.ty.keyType?.getD .value

def valueType (w : MapWriter) : Ty := w.ty.valueType?.getD .value

def size (w : MapWriter) : Nat := w.phase.count fun b => b.entries.length

def isEmpty (w : MapWriter) : Bool := w.phase.isEmpty fun b => b.entries.isEmpty

def isSealed (w : MapWriter) : Bool := w.phase.isSealed

def checkEntry (operation : String) (w : MapWriter) (key v : Value) : Except Error Unit := do
  key.checkBound operation w.keyType
  v.checkBound operation w.valueType

/-- Binds a key, in place of an earlier binding. -/
def put (fresh : TableId) (w : MapWriter) (key v : Value) : Except Error MapWriter := do
  let contents ← w.phase.contents "map_writer.put"
  w.checkEntry "map_writer.put" key v
  return { w with phase := .filling (contents.put fresh key v) }

/-- Binds all of these keys or none. -/
def putAll (fresh : TableId) (w : MapWriter) (entries : List (Value × Value)) :
    Except Error MapWriter := do
  let contents ← w.phase.contents "map_writer.put_all"
  entries.forM fun (key, v) => w.checkEntry "map_writer.put_all" key v
  return { w with phase := .filling (contents.putAll fresh entries) }

/-- The finished map and the sealed writer. -/
def finish (w : MapWriter) : MapValue × MapWriter :=
  let map := w.phase.result (MapValue.ofBindings w.ty)
  (map, { w with phase := .sealed map })

end MapWriter
end TypedValues
