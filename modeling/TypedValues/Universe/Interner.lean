import TypedValues.Universe.Declare

/-!
# The type cache

A universe keeps one instance of every composite shape for as long as somebody refers to it. The
cache refers to the types in it only weakly: an instance is in use while a handle, a declaration, or
the shape of some entry refers to it, directly or through types of other universes, and a sweep removes
the entries that are not in use.
-/

namespace TypedValues

namespace Ty

/-- The leaves are shared by all universes and need no cache. -/
def isLeaf : Ty → Bool
  | .value | .void | .int | .real | .str | .loc => true
  | _ => false

/-- The types that the shape of a type refers to. -/
def components : Ty → List Ty
  | .tuple _ fields => fields.map (·.item)
  | .list _ t | .set _ t | .aliasOf _ _ t => [t]
  | .map _ k v => [k.item, v.item]
  | .constructor home _ sortName childHome children => [.sort home sortName, .tuple childHome children]
  | _ => []

mutual
/-- The types of one universe that a reference to a type leads to: the type itself or, if another
universe made it, the nearest ones that its shape refers to. -/
def leadsTo (home : UniverseId) : Ty → List Ty
  | .object h kind => if h = home then [.object h kind] else []
  | .tuple h fields => if h = home then [.tuple h fields] else fieldsLeadTo home fields
  | .list h t => if h = home then [.list h t] else leadsTo home t
  | .set h t => if h = home then [.set h t] else leadsTo home t
  | .map h ⟨k, kl⟩ ⟨v, vl⟩ =>
    if h = home then [.map h ⟨k, kl⟩ ⟨v, vl⟩] else leadsTo home k ++ leadsTo home v
  | .aliasOf h name t => if h = home then [.aliasOf h name t] else leadsTo home t
  | .sort h name => if h = home then [.sort h name] else []
  | .constructor h name sortName childHome children =>
    if h = home then [.constructor h name sortName childHome children]
    else if childHome = home then [.tuple childHome children]
    else fieldsLeadTo home children
  | _ => []

def fieldsLeadTo (home : UniverseId) : List (Labeled Ty) → List Ty
  | [] => []
  | ⟨t, _⟩ :: fields => leadsTo home t ++ fieldsLeadTo home fields
end

end Ty

/-- All types a universe's declarations refer to. -/
def Universe.declared (u : Universe) : List Ty :=
  u.aliases.map (fun (name, t) => .aliasOf u.id name t) ++
  u.sorts.flatMap (fun (name, signature) => .sort u.id name :: signature) ++
  u.annotated.flatMap (fun (on, labels) => on :: labels.map (·.2))

/-- A cached shape and the number of its instance. -/
structure CacheEntry where
  ty : Ty
  instanceId : Nat
deriving DecidableEq

structure Interner where
  declarations : Universe
  entries : List CacheEntry
  /-- The handles that callers hold, one for every time a type was handed out. -/
  held : List Ty
  threshold : Nat
  /-- The number of entries at which the next new one causes a sweep. -/
  limit : Nat
  nextInstance : Nat

namespace Interner

def empty (id : UniverseId) (threshold : Nat) : Interner :=
  ⟨.empty id, [], [], threshold, threshold, 0⟩

/-- The order in which a sweep visits the entries. -/
abbrev Visit := List CacheEntry → List CacheEntry

def count (i : Interner) : Nat := i.entries.length

def binding? (i : Interner) (t : Ty) : Option CacheEntry := i.entries.find? (·.ty == t)

/-- Whether a handle, a declaration, one of the given types or the shape of an entry refers to it. -/
def inUse (i : Interner) (pinned : List Ty) (t : Ty) : Bool :=
  let leads (r : Ty) : Bool := (r.leadsTo i.declarations.id).contains t
  i.held.any leads || i.declarations.declared.any leads || pinned.any leads ||
    i.entries.any fun e => e.ty.components.any leads

/-- Removes an entry that is not in use, and with it what its shape refers to. -/
def release (pinned : List Ty) (i : Interner) (e : CacheEntry) : Interner :=
  if i.inUse pinned e.ty then i else { i with entries := i.entries.erase e }

/-- Visits every entry once. -/
def sweep (visit : Visit) (pinned : List Ty) (i : Interner) : Interner :=
  (visit i.entries).foldl (release pinned) i

/-- The limit is twice the number of entries left, but never less than the threshold. -/
def resetLimit (i : Interner) : Interner := { i with limit := max (2 * i.count) i.threshold }

/-- Sweeps once if the limit has been reached. -/
def makeRoom (visit : Visit) (pinned : List Ty) (i : Interner) : Interner :=
  if i.count < i.limit then i else (i.sweep visit pinned).resetLimit

/-- Gives a shape a new instance; a dead entry of the same shape is replaced. -/
def enter (t : Ty) (i : Interner) : Interner :=
  let e : CacheEntry := ⟨t, i.nextInstance⟩
  let entries := if (i.binding? t).isSome then i.entries.map fun old => if old.ty = t then e else old
    else i.entries ++ [e]
  { i with entries, nextInstance := i.nextInstance + 1 }

/-- Adds a handle. -/
def hold (t : Ty) (i : Interner) : Interner := { i with held := t :: i.held }

/-- Gives back one handle. -/
def drop (t : Ty) (i : Interner) : Interner := { i with held := i.held.erase t }

/-- Hands out the instance of a shape: the one in use, or else a new one. -/
def intern (visit : Visit) (t : Ty) (i : Interner) : Interner :=
  if t.isLeaf || (i.binding? t).isSome && i.inUse [] t then i.hold t
  else ((i.makeRoom visit t.components).enter t).hold t

def sweepAll (visit : Visit) (i : Interner) : Interner :=
  let swept := i.sweep visit []
  if swept.count < i.count then sweepAll visit swept else swept
termination_by i.count

/-- Sweeps until nothing more goes; also the number of entries removed. -/
def purge (visit : Visit) (i : Interner) : Nat × Interner :=
  let purged := (i.sweepAll visit).resetLimit
  (i.count - purged.count, purged)

/-- Declares an alias and hands it out. -/
def declareAlias (visit : Visit) (name : String) (aliased : Ty) (i : Interner) :
    Except DeclarationError Ty × Interner :=
  match i.declarations.declareAlias name aliased with
  | .ok (t, u) => (.ok t, { i.intern visit t with declarations := u })
  | .error e => (.error e, i)

/-- Declares a sort and hands it out. -/
def declareSort (visit : Visit) (name : String) (i : Interner) :
    Except DeclarationError Ty × Interner :=
  match i.declarations.declareSort name with
  | .ok (t, u) => (.ok t, { i.intern visit t with declarations := u })
  | .error e => (.error e, i)

/-- Declares a constructor and hands it out. The shape asked for is interned before a second anonymous
constructor is refused, so that a refused one leaves an entry which nobody uses. -/
def declareConstructor (visit : Visit) (sort : Ty) (name : Option String) (children : Ty)
    (i : Interner) : Except DeclarationError Ty × Interner :=
  match i.declarations.constructorOf sort name children with
  | .error e => (.error e, i)
  | .ok c =>
    let interned := i.intern visit c
    match i.declarations.addConstructor sort c with
    | .ok (t, u) => (.ok t, { interned with declarations := u })
    | .error e => (.error e, interned.drop c)

/-- Declares a constructor with labeled children, whose tuple type is interned first and given back. -/
def declareLabeledConstructor (visit : Visit) (sort : Ty) (name : Option String)
    (children : List (Ty × String)) (i : Interner) : Except DeclarationError Ty × Interner :=
  let tuple := Ty.labeledTupleOf i.declarations.id children
  let (declared, after) := (i.intern visit tuple).declareConstructor visit sort name tuple
  (declared, after.drop tuple)

/-- Hands out the type of this universe that has the same shape. An alias, a sort or a constructor is
declared. -/
def adopt (visit : Visit) (shape : Ty) (i : Interner) : Except DeclarationError Ty × Interner :=
  match shape with
  | .aliasOf _ name t => i.declareAlias visit name t
  | .sort _ name => i.declareSort visit name
  | .constructor home name sortName childHome children =>
    i.declareConstructor visit (.sort home sortName) name (.tuple childHome children)
  | shape =>
    match i.declarations.adopt shape with
    | .ok (t, _) => (.ok t, i.intern visit t)
    | .error e => (.error e, i)

/-- Declares an annotation. -/
def annotate (on : Ty) (label : String) (t : Ty) (i : Interner) :
    Except DeclarationError Unit × Interner :=
  match i.declarations.annotate on label t with
  | .ok u => (.ok (), { i with declarations := u })
  | .error e => (.error e, i)

end Interner
end TypedValues
