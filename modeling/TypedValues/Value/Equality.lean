import TypedValues.Value.Basic

/-!
# Equality of values

Composite values are equal when their types are comparable and their contents are equal. Since
comparability is not transitive, neither is this equality, and membership in sets and maps needs care:
a stored key answers to a key asked for if the two have the same contents, types left aside, and the
stored one equals the other. The first such key is the one that counts.
-/

namespace TypedValues.Value

mutual
/-- Whether two values agree once types and annotations are left aside. -/
def sameContents : Value → Value → Bool
  | .int m, .int n => m == n
  | .real x, .real y => x == y
  | .str s, .str t => s == t
  | .loc l, .loc m => l == m
  | .object _ p, .object _ q => p == q
  | .tuple _ xs, .tuple _ ys => sameEach xs ys
  | .list _ xs, .list _ ys => sameEach xs ys
  | .set _ xs, .set _ ys => sameInAnyOrder xs ys
  | .map _ _ es, .map _ _ fs => sameEntries es fs
  | .node s xs _, .node t ys _ => s.resolved.name? == t.resolved.name? && sameEach xs ys
  | _, _ => false

def sameEach : List Value → List Value → Bool
  | [], [] => true
  | x :: xs, y :: ys => sameContents x y && sameEach xs ys
  | _, _ => false

/-- Each element has a partner of its own on the other side. -/
def sameInAnyOrder : List Value → List Value → Bool
  | [], ys => ys.isEmpty
  | x :: xs, ys =>
    let others := ys.eraseP fun y => sameContents x y
    others.length < ys.length && sameInAnyOrder xs others

def sameEntries : List (Value × Value) → List (Value × Value) → Bool
  | [], fs => fs.isEmpty
  | (k, v) :: es, fs =>
    let others := fs.eraseP fun f => sameContents k f.1 && sameContents v f.2
    others.length < fs.length && sameEntries es others
end

theorem sizeOf_key_lt {e : Value × Value} {es : List (Value × Value)} (h : e ∈ es) :
    sizeOf e.1 < sizeOf es := by
  have := List.sizeOf_lt_of_mem h
  cases e
  simp_all only [Prod.mk.sizeOf_spec]
  omega

theorem sizeOf_bound_lt {e : Value × Value} {es : List (Value × Value)} (h : e ∈ es) :
    sizeOf e.2 < sizeOf es := by
  have := List.sizeOf_lt_of_mem h
  cases e
  simp_all only [Prod.mk.sizeOf_spec]
  omega

theorem sizeOf_labeled_lt {a : String × Value} {as : List (String × Value)} (h : a ∈ as) :
    sizeOf a.2 < sizeOf as := by
  have := List.sizeOf_lt_of_mem h
  cases a
  simp_all only [Prod.mk.sizeOf_spec]
  omega

/-- Equality. Reals are compared by their bits and objects by their payload. Sets of one size are
equal when each element of the first is answered in the second; maps of one size, when each key is
and the values agree, or when they share their table; nodes compare their annotations as well. -/
def equal (a b : Value) : Bool :=
  match a, b with
  | .int m, .int n => m == n
  | .real x, .real y => x == y
  | .str s, .str t => s == t
  | .loc l, .loc m => l == m
  | .object _ p, .object _ q => p == q
  | .tuple s xs, .tuple t ys =>
    s.comparable t && xs.length == ys.length &&
      (xs.attach.zip ys.attach).all fun (x, y) => equal x.1 y.1
  | .list s xs, .list t ys =>
    s.comparable t && xs.length == ys.length &&
      (xs.attach.zip ys.attach).all fun (x, y) => equal x.1 y.1
  | .set s xs, .set t ys =>
    s.comparable t && xs.length == ys.length &&
      xs.attach.all fun x => ys.attach.any fun y => sameContents y.1 x.1 && equal y.1 x.1
  | .map s i es, .map t j fs =>
    s.comparable t && (i == j || (es.length == fs.length && es.attach.all fun e =>
      match fs.attach.find? fun f => sameContents f.1.1 e.1.1 && equal f.1.1 e.1.1 with
      | some f => equal f.1.2 e.1.2
      | none => false))
  | .node s xs as, .node t ys bs =>
    s.comparable t && xs.length == ys.length &&
      (xs.attach.zip ys.attach).all (fun (x, y) => equal x.1 y.1) &&
      as.length == bs.length && as.attach.all fun a =>
        match bs.attach.find? fun b => b.1.1 == a.1.1 with
        | some b => equal a.1.2 b.1.2
        | none => false
  | _, _ => false
termination_by sizeOf a + sizeOf b
decreasing_by
  all_goals
    simp only [tuple.sizeOf_spec, list.sizeOf_spec, set.sizeOf_spec, map.sizeOf_spec,
      node.sizeOf_spec]
  · have := List.sizeOf_lt_of_mem x.2
    have := List.sizeOf_lt_of_mem y.2
    omega
  · have := List.sizeOf_lt_of_mem x.2
    have := List.sizeOf_lt_of_mem y.2
    omega
  · have := List.sizeOf_lt_of_mem x.2
    have := List.sizeOf_lt_of_mem y.2
    omega
  · have := sizeOf_key_lt e.2
    have := sizeOf_key_lt f.2
    omega
  · have := sizeOf_bound_lt e.2
    have := sizeOf_bound_lt f.2
    omega
  · have := List.sizeOf_lt_of_mem x.2
    have := List.sizeOf_lt_of_mem y.2
    omega
  · have := sizeOf_labeled_lt a.2
    have := sizeOf_labeled_lt b.2
    omega

/-- Whether a stored key is the one for a key asked for. -/
def answers (stored asked : Value) : Bool := sameContents stored asked && equal stored asked

end TypedValues.Value
