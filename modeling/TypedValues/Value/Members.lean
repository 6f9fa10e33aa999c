import TypedValues.Value.Equality

/-!
# Distinct values

The elements of a set are a list of values without repetition, in the order of their insertion. Which
elements count as repetitions is decided by `Value.answers`.
-/

namespace TypedValues.Members

def contains (xs : List Value) (v : Value) : Bool := xs.any fun x => x.answers v

/-- Adds a value at the end, unless an element answers to it already. -/
def insert (xs : List Value) (v : Value) : List Value := if contains xs v then xs else xs ++ [v]

/-- Removes the first element that answers to a value. -/
def erase (xs : List Value) (v : Value) : List Value := xs.eraseP fun x => x.answers v

def insertAll (xs vs : List Value) : List Value := vs.foldl insert xs

def eraseAll (xs vs : List Value) : List Value := vs.foldl erase xs

def ofList (vs : List Value) : List Value := insertAll [] vs

/-- The longer list and the shorter one, the first counting as longer if both are of one length. -/
def bySize (xs ys : List Value) : List Value × List Value :=
  if ys.length ≤ xs.length then (xs, ys) else (ys, xs)

/-- The shorter list's elements inserted into the longer one. -/
def union (xs ys : List Value) : List Value :=
  let (longer, shorter) := bySize xs ys
  insertAll longer shorter

/-- The shorter list without the elements that the longer one lacks. -/
def inter (xs ys : List Value) : List Value :=
  let (longer, shorter) := bySize xs ys
  eraseAll shorter (shorter.filter fun v => !contains longer v)

/-- The first list without the elements of the second. -/
def diff (xs ys : List Value) : List Value :=
  if xs.length ≤ ys.length then eraseAll xs (xs.filter (contains ys)) else eraseAll xs ys

def isSubset (xs ys : List Value) : Bool := xs.length ≤ ys.length && xs.all (contains ys)

end TypedValues.Members
