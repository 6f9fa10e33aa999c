import TypedValues.Universe.Interner
import TypedValues.Universe.Rebuild

/-!
# Type expressions

A type expression says how a type is made out of known types. Its parts are made from left to right,
inner ones first; an alias, a sort or a constructor is declared when its turn comes. What was declared
before a refusal stays declared.
-/

namespace TypedValues

inductive TypeExpr where
  | known (t : Ty)
  | object (kind : String)
  | tuple (fields : List (Labeled TypeExpr))
  | list (element : TypeExpr)
  | set (element : TypeExpr)
  | map (key value : Labeled TypeExpr)
  | aliasOf (name : String) (aliased : TypeExpr)
  | sort (name : String)
  | constructor (sort : TypeExpr) (name : Option String) (children : TypeExpr)

/-- A place where types are made. -/
structure TypeMaker (m : Type → Type) where
  /-- Makes a structural type. -/
  make : (UniverseId → Ty) → m Ty
  declareAlias : String → Ty → m Ty
  declareSort : String → m Ty
  declareConstructor : Ty → Option String → Ty → m Ty

namespace TypeExpr
variable {m : Type → Type} [Monad m]

mutual
/-- Makes a type at the given place. -/
def evaluate (maker : TypeMaker m) : TypeExpr → m Ty
  | .known t => return t
  | .object kind => maker.make (.object · kind)
  | .tuple fields => do
    let fields ← evaluateFields maker fields
    maker.make (.tuple · fields)
  | .list element => do
    let t ← evaluate maker element
    maker.make (.list · t)
  | .set element => do
    let t ← evaluate maker element
    maker.make (.set · t)
  | .map ⟨k, kl⟩ ⟨v, vl⟩ => do
    let k ← evaluate maker k
    let v ← evaluate maker v
    maker.make (.map · ⟨k, kl⟩ ⟨v, vl⟩)
  | .aliasOf name aliased => do
    let t ← evaluate maker aliased
    maker.declareAlias name t
  | .sort name => maker.declareSort name
  | .constructor s name children => do
    let s ← evaluate maker s
    let children ← evaluate maker children
    maker.declareConstructor s name children

def evaluateFields (maker : TypeMaker m) : List (Labeled TypeExpr) → m (List Field)
  | [] => return []
  | ⟨e, label⟩ :: fields => do
    let t ← evaluate maker e
    return ⟨t, label⟩ :: (← evaluateFields maker fields)
end

end TypeExpr

namespace Universe

def maker : TypeMaker Declaring where
  make f := return f (← get).id
  declareAlias name t := declaring (declareAlias · name t)
  declareSort name := declaring (declareSort · name)
  declareConstructor sort name children := declaring (declareConstructor · sort name children)

/-- Makes a type in a universe; also the universe afterwards, whether that succeeded or not. -/
def evaluate (u : Universe) (e : TypeExpr) : Except DeclarationError Ty × Universe :=
  (e.evaluate maker).run u

end Universe

namespace Interner

/-- A run of declarations in a cache: the cache is kept even when one of them is refused. -/
abbrev Interning := ExceptT DeclarationError (StateM Interner)

def maker (visit : Visit) : TypeMaker Interning where
  make f := do
    let t := f (← get).declarations.id
    modify (intern visit t)
    return t
  declareAlias name t := ExceptT.mk (declareAlias visit name t)
  declareSort name := ExceptT.mk (declareSort visit name)
  declareConstructor sort name children := ExceptT.mk (declareConstructor visit sort name children)

/-- Makes a type in a cache and hands it out. The handles of its parts are given back at the end. -/
def evaluate (visit : Visit) (e : TypeExpr) (i : Interner) : Except DeclarationError Ty × Interner :=
  let (made, after) := (e.evaluate (maker visit)).run i
  (made, { after with held := made.toOption.toList ++ i.held })

end Interner
end TypedValues
