import Mathlib
import TypedValues.Proofs.Value.WellTyped
import TypedValues.Value.Node
import TypedValues.Value.Writer

/-!
# Sessions

A session holds values and writers. It starts with none, and each step makes a value out of those it
holds, opens a writer, writes values it holds, or finishes a writer. Calls that fail leave it as it is,
except that a writer finished as a relation is sealed even if it holds none.
-/

namespace TypedValues

/-- Tuples that one call makes of held values. -/
inductive TupleValue.Made (held : List Value) : TupleValue → Prop
  | of (home : UniverseId) {vs : List Value} : vs ⊆ held → Made held (.of home vs)
  | ofType {home : UniverseId} {ty : Ty} {vs : List Value} {u : TupleValue} :
    vs ⊆ held → TupleValue.ofType home ty vs = .ok u → Made held u
  | set {t u : TupleValue} {i : ℕ} {v : Value} :
    (t : Value) ∈ held → v ∈ held → t.set i v = .ok u → Made held u
  | setLabel {t u : TupleValue} {label : String} {v : Value} :
    (t : Value) ∈ held → v ∈ held → t.setLabel label v = .ok u → Made held u
  | select {home : UniverseId} {t u : TupleValue} {is : List ℕ} :
    (t : Value) ∈ held → t.select home is = .ok u → Made held u
  | selectLabels {home : UniverseId} {t u : TupleValue} {labels : List String} :
    (t : Value) ∈ held → t.selectLabels home labels = .ok u → Made held u

/-- Lists that one call makes of held values. -/
inductive ListValue.Made (held : List Value) : ListValue → Prop
  | of (home : UniverseId) {vs : List Value} : vs ⊆ held → Made held (.of home vs)
  | empty (home : UniverseId) (t : Ty) : Made held (.empty home t)
  | cons (home : UniverseId) {l : ListValue} {v : Value} :
    (l : Value) ∈ held → v ∈ held → Made held (l.cons home v)
  | concat (home : UniverseId) {l : ListValue} {v : Value} :
    (l : Value) ∈ held → v ∈ held → Made held (l.concat home v)
  | append (home : UniverseId) {l m : ListValue} :
    (l : Value) ∈ held → (m : Value) ∈ held → Made held (l.append home m)
  | reverse {l : ListValue} : (l : Value) ∈ held → Made held l.reverse
  | select {home : UniverseId} {r : ListRelation} {is : List ℕ} {l : ListValue} :
    (r.toList : Value) ∈ held → r.select home is = .ok l → Made held l
  | compose {home : UniverseId} {r s u : ListRelation} :
    (r.toList : Value) ∈ held → (s.toList : Value) ∈ held → r.compose home s = .ok u →
      Made held u.toList

/-- Sets that one call makes of held values. -/
inductive SetValue.Made (held : List Value) : SetValue → Prop
  | of (home : UniverseId) {vs : List Value} : vs ⊆ held → Made held (.of home vs)
  | empty (home : UniverseId) (t : Ty) : Made held (.empty home t)
  | insert (home : UniverseId) {s : SetValue} {v : Value} :
    (s : Value) ∈ held → v ∈ held → Made held (s.insert home v)
  | erase {s : SetValue} {v : Value} : (s : Value) ∈ held → v ∈ held → Made held (s.erase v)
  | union (home : UniverseId) {s t : SetValue} :
    (s : Value) ∈ held → (t : Value) ∈ held → Made held (s.union home t)
  | inter (home : UniverseId) {s t : SetValue} :
    (s : Value) ∈ held → (t : Value) ∈ held → Made held (s.inter home t)
  | diff {s t : SetValue} : (s : Value) ∈ held → (t : Value) ∈ held → Made held (s.diff t)
  | product (home : UniverseId) {s t : SetValue} :
    (s : Value) ∈ held → (t : Value) ∈ held → Made held (Relation.product home s t).toSet
  | select {home : UniverseId} {r : Relation} {is : List ℕ} {s : SetValue} :
    (r.toSet : Value) ∈ held → r.select home is = .ok s → Made held s
  | compose {home : UniverseId} {r s u : Relation} :
    (r.toSet : Value) ∈ held → (s.toSet : Value) ∈ held → r.compose home s = .ok u →
      Made held u.toSet
  | closure {home : UniverseId} {r u : Relation} :
    (r.toSet : Value) ∈ held → r.closure home = .ok u → Made held u.toSet
  | carrier (home : UniverseId) {r : Relation} :
    (r.toSet : Value) ∈ held → Made held (r.carrier home)
  | listCarrier (home : UniverseId) {r : ListRelation} :
    (r.toList : Value) ∈ held → Made held (r.carrier home)

/-- Maps that one call makes of held values. -/
inductive MapValue.Made (held : List Value) : MapValue → Prop
  | empty (home : UniverseId) (s t : Ty) : Made held (.empty home s t)
  | put (home : UniverseId) (fresh : TableId) {m : MapValue} {key v : Value} :
    (m : Value) ∈ held → key ∈ held → v ∈ held → Made held (m.put home fresh key v)
  | erase (fresh : TableId) {m : MapValue} {key : Value} :
    (m : Value) ∈ held → key ∈ held → Made held (m.erase fresh key)
  | join (home : UniverseId) (fresh : TableId) {m n : MapValue} :
    (m : Value) ∈ held → (n : Value) ∈ held → Made held (m.join home fresh n)

/-- Nodes that one call makes of held values. -/
inductive NodeValue.Made (held : List Value) : NodeValue → Prop
  | of {home : UniverseId} {ty : Ty} {vs : List Value} {n : NodeValue} :
    vs ⊆ held → NodeValue.of home ty vs = .ok n → Made held n
  | named {u : Universe} {sort : Ty} {name : String} {vs : List Value} {n : NodeValue} :
    vs ⊆ held → NodeValue.named u sort name vs = .ok n → Made held n
  | set {n m : NodeValue} {i : ℕ} {v : Value} :
    (n : Value) ∈ held → v ∈ held → n.set i v = .ok m → Made held m
  | setLabel {n m : NodeValue} {label : String} {v : Value} :
    (n : Value) ∈ held → v ∈ held → n.setLabel label v = .ok m → Made held m
  | annotate {u : Universe} {n m : NodeValue} {label : String} {v : Value} :
    (n : Value) ∈ held → v ∈ held → n.annotate u label v = .ok m → Made held m
  | unannotate {n : NodeValue} (label : String) :
    (n : Value) ∈ held → Made held (n.unannotate label)

/-- Values that one call makes of held values or reads off them. An object has an object type. -/
inductive Value.Made (held : List Value) : Value → Prop
  | int (n : Int64) : Made held (.int n)
  | real (x : Decimal.Binary64) : Made held (.real x)
  | str (s : String) : Made held (.str s)
  | loc (l : SourceLocation) : Made held (.loc l)
  | object (home : UniverseId) (kind : String) (payload : ℕ) :
    Made held (.object (.object home kind) payload)
  | tuple {t : TupleValue} : t.Made held → Made held t
  | list {l : ListValue} : l.Made held → Made held l
  | set {s : SetValue} : s.Made held → Made held s
  | map {m : MapValue} : m.Made held → Made held m
  | node {n : NodeValue} : n.Made held → Made held n
  | component {c v : Value} : v ∈ held → c ∈ v.components → Made held c

inductive Writer where
  | list (w : ListWriter)
  | set (w : SetWriter)
  | map (w : MapWriter)

namespace Writer

/-- Writers as they are when opened. -/
inductive Opened : Writer → Prop
  | list (home : UniverseId) (t : Ty) : Opened (.list (.new home t))
  | listRelation (home : UniverseId) (ts : List Ty) : Opened (.list (.ofFields home ts))
  | set (home : UniverseId) (t : Ty) : Opened (.set (.new home t))
  | setOfType {t : Ty} {w : SetWriter} : SetWriter.ofType t = .ok w → Opened (.set w)
  | relation (home : UniverseId) (ts : List Ty) : Opened (.set (.ofFields home ts))
  | map (home : UniverseId) (s t : Ty) : Opened (.map (.new home s t))
  | mapOfType {t : Ty} {w : MapWriter} : MapWriter.ofType t = .ok w → Opened (.map w)

/-- A writer before and after a write of held values. -/
inductive Written (held : List Value) : Writer → Writer → Prop
  | listInsert {w x : ListWriter} {v : Value} :
    v ∈ held → w.insert v = .ok x → Written held (.list w) (.list x)
  | listAppend {w x : ListWriter} {v : Value} :
    v ∈ held → w.append v = .ok x → Written held (.list w) (.list x)
  | listInsertAll {w x : ListWriter} {vs : List Value} :
    vs ⊆ held → w.insertAll vs = .ok x → Written held (.list w) (.list x)
  | setInsert {w x : SetWriter} {v : Value} :
    v ∈ held → w.insert v = .ok x → Written held (.set w) (.set x)
  | setInsertAll {w x : SetWriter} {vs : List Value} :
    vs ⊆ held → w.insertAll vs = .ok x → Written held (.set w) (.set x)
  | mapPut {fresh : TableId} {w x : MapWriter} {key v : Value} :
    key ∈ held → v ∈ held → w.put fresh key v = .ok x → Written held (.map w) (.map x)
  | mapPutAll {fresh : TableId} {w x : MapWriter} {es : List (Value × Value)} :
    (∀ e ∈ es, e.1 ∈ held ∧ e.2 ∈ held) → w.putAll fresh es = .ok x →
      Written held (.map w) (.map x)

/-- A writer before it is finished, what it hands out, and the writer after that. -/
inductive Finished : Writer → Option Value → Writer → Prop
  | list {w : ListWriter} : Finished (.list w) (some w.finish.1) (.list w.finish.2)
  | listRelation {w x : ListWriter} {r : ListRelation} :
    w.finishListRelation = (.ok r, x) → Finished (.list w) (some r.toList) (.list x)
  | noListRelation {w x : ListWriter} {e : Error} :
    w.finishListRelation = (.error e, x) → Finished (.list w) none (.list x)
  | set {w : SetWriter} : Finished (.set w) (some w.finish.1) (.set w.finish.2)
  | relation {w x : SetWriter} {r : Relation} :
    w.finishRelation = (.ok r, x) → Finished (.set w) (some r.toSet) (.set x)
  | noRelation {w x : SetWriter} {e : Error} :
    w.finishRelation = (.error e, x) → Finished (.set w) none (.set x)
  | map {w : MapWriter} : Finished (.map w) (some w.finish.1) (.map w.finish.2)

end Writer

structure Session where
  values : List Value
  writers : List Writer

namespace Session

def empty : Session := ⟨[], []⟩

inductive Step (s : Session) : Session → Prop
  | make {v : Value} : v.Made s.values → Step s { s with values := v :: s.values }
  | openWriter {w : Writer} : w.Opened → Step s { s with writers := s.writers ++ [w] }
  | write {i : ℕ} {w x : Writer} : s.writers[i]? = some w → w.Written s.values x →
    Step s { s with writers := s.writers.set i x }
  | finish {i : ℕ} {w x : Writer} {v : Option Value} : s.writers[i]? = some w → w.Finished v x →
    Step s ⟨v.toList ++ s.values, s.writers.set i x⟩

/-- The sessions that some number of steps leads to. -/
inductive Reached : Session → Prop
  | start : Reached empty
  | step {s t : Session} : Reached s → s.Step t → Reached t

end Session
end TypedValues
