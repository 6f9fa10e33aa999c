import Mathlib
import TypedValues.Proofs.Ty.JoinAll
import TypedValues.Proofs.Value.Members
import TypedValues.Value.List
import TypedValues.Value.Set

/-!
# Values typed by their contents

On tuples, lists and sets that are built bottom up and typed by what they are made of, equality is what the
contents say: it compares tuples and lists place by place and sets as finite sets. The types never stand in
the way, because the contents determine them.
-/

namespace TypedValues
open Decimal (Binary64)

/-- How a value is built from leaves. The universe that a composite is made in may be another one each
time. -/
inductive Literal where
  | int (n : Int64)
  | real (x : Binary64)
  | str (s : String)
  | loc (l : SourceLocation)
  | tuple (home : UniverseId) (fields : List Literal)
  | list (home : UniverseId) (elements : List Literal)
  | set (home : UniverseId) (elements : List Literal)

namespace Literal

mutual
/-- The value built. -/
def value : Literal → Value
  | .int n => .int n
  | .real x => .real x
  | .str s => .str s
  | .loc l => .loc l
  | .tuple home xs => TupleValue.of home (values xs)
  | .list home xs => ListValue.of home (values xs)
  | .set home xs => SetValue.of home (values xs)

def values : List Literal → List Value
  | [] => []
  | x :: xs => value x :: values xs
end

mutual
/-- The same kind and the same contents: tuples and lists agree place by place, and each element of a set is
the same as one of the other set. -/
inductive Same : Literal → Literal → Prop
  | int (n : Int64) : Same (.int n) (.int n)
  | real (x : Binary64) : Same (.real x) (.real x)
  | str (s : String) : Same (.str s) (.str s)
  | loc (l : SourceLocation) : Same (.loc l) (.loc l)
  | tuple {h k : UniverseId} {xs ys : List Literal} : Each xs ys → Same (.tuple h xs) (.tuple k ys)
  | list {h k : UniverseId} {xs ys : List Literal} : Each xs ys → Same (.list h xs) (.list k ys)
  | set {h k : UniverseId} {xs ys : List Literal} :
    Among xs ys → Among ys xs → Same (.set h xs) (.set k ys)

/-- Place by place the same. -/
inductive Each : List Literal → List Literal → Prop
  | nil : Each [] []
  | cons {x y : Literal} {xs ys : List Literal} : Same x y → Each xs ys → Each (x :: xs) (y :: ys)

/-- Each of the first is the same as one of the second. -/
inductive Among : List Literal → List Literal → Prop
  | nil {ys : List Literal} : Among [] ys
  | cons {x y : Literal} {xs ys : List Literal} : y ∈ ys → Same x y → Among xs ys → Among (x :: xs) ys
end

/-- All composites are made in one universe. -/
inductive MadeIn (home : UniverseId) : Literal → Prop
  | int (n : Int64) : MadeIn home (.int n)
  | real (x : Binary64) : MadeIn home (.real x)
  | str (s : String) : MadeIn home (.str s)
  | loc (l : SourceLocation) : MadeIn home (.loc l)
  | tuple {xs : List Literal} : (∀ x ∈ xs, MadeIn home x) → MadeIn home (.tuple home xs)
  | list {xs : List Literal} : (∀ x ∈ xs, MadeIn home x) → MadeIn home (.list home xs)
  | set {xs : List Literal} : (∀ x ∈ xs, MadeIn home x) → MadeIn home (.set home xs)

variable {a b x : Literal} {h k home : UniverseId} {xs ys : List Literal}

lemma values_eq_map : values xs = xs.map value := by
  induction xs with
  | nil => rfl
  | cons x xs ih => rw [values, ih, List.map_cons]

lemma each_iff : Each xs ys ↔ List.Forall₂ Same xs ys := by
  constructor
  · intro h
    induction xs generalizing ys with
    | nil =>
      cases h
      exact .nil
    | cons x xs ih =>
      cases h with
      | cons hxy h => exact .cons hxy (ih h)
  · intro h
    induction h with
    | nil => exact .nil
    | cons hxy _ ih => exact .cons hxy ih

lemma among_iff : Among xs ys ↔ ∀ x ∈ xs, ∃ y ∈ ys, Same x y := by
  induction xs with
  | nil => exact ⟨fun _ => nofun, fun _ => .nil⟩
  | cons x xs ih =>
    rw [List.forall_mem_cons, ← ih]
    constructor
    · intro h
      cases h with
      | cons hy hxy h => exact ⟨⟨_, hy, hxy⟩, h⟩
    · rintro ⟨⟨y, hy, hxy⟩, h⟩
      exact .cons hy hxy h

lemma same_int {m n : Int64} : Same (.int m) (.int n) ↔ m = n :=
  ⟨fun | .int _ => rfl, fun h => h ▸ .int m⟩

lemma same_real {m n : Binary64} : Same (.real m) (.real n) ↔ m = n :=
  ⟨fun | .real _ => rfl, fun h => h ▸ .real m⟩

lemma same_str {s t : String} : Same (.str s) (.str t) ↔ s = t :=
  ⟨fun | .str _ => rfl, fun h => h ▸ .str s⟩

lemma same_loc {l m : SourceLocation} : Same (.loc l) (.loc m) ↔ l = m :=
  ⟨fun | .loc _ => rfl, fun h => h ▸ .loc l⟩

lemma same_tuple : Same (.tuple h xs) (.tuple k ys) ↔ List.Forall₂ Same xs ys := by
  rw [← each_iff]
  exact ⟨fun | .tuple h => h, .tuple⟩

lemma same_list : Same (.list h xs) (.list k ys) ↔ List.Forall₂ Same xs ys := by
  rw [← each_iff]
  exact ⟨fun | .list h => h, .list⟩

lemma same_set : Same (.set h xs) (.set k ys) ↔
    (∀ x ∈ xs, ∃ y ∈ ys, Same x y) ∧ ∀ y ∈ ys, ∃ x ∈ xs, Same y x := by
  rw [← among_iff, ← among_iff]
  exact ⟨fun | .set h h' => ⟨h, h'⟩, fun ⟨h, h'⟩ => .set h h'⟩

/-! ### Types derived from the contents -/

/-- The type of the value built. -/
def type (a : Literal) : Ty := a.value.runtimeType

lemma runtimeTypes_values : Value.runtimeTypes (values xs) = xs.map type := by
  rw [Value.runtimeTypes, values_eq_map, List.map_map]
  rfl

lemma type_tuple : (tuple h xs).type = .tuple h ((xs.map type).map Labeled.plain) := by
  rw [← runtimeTypes_values]
  rfl

lemma type_list : (list h xs).type = .list h (.joinAll h (xs.map type)) := by
  rw [← runtimeTypes_values]
  rfl

lemma type_set : (set h xs).type = .set h (.joinAll h (xs.map type)) := by
  rw [← runtimeTypes_values]
  rfl

/-- What is inside a composite. -/
def elements : Literal → List Literal
  | .tuple _ xs | .list _ xs | .set _ xs => xs
  | _ => []

lemma sizeOf_element_lt (hx : x ∈ a.elements) : sizeOf x < sizeOf a := by
  cases a with
  | tuple h xs | list h xs | set h xs =>
    have hlt : sizeOf x < sizeOf xs := List.sizeOf_lt_of_mem hx
    simp only [tuple.sizeOf_spec, list.sizeOf_spec, set.sizeOf_spec]
    omega
  | _ => cases hx

/-- What holds of a literal whenever it holds of its elements holds of all literals. -/
lemma elementInduction {P : Literal → Prop} (step : ∀ a, (∀ x ∈ a.elements, P x) → P a)
    (a : Literal) : P a := by
  induction hn : sizeOf a using Nat.strong_induction_on generalizing a with
  | _ n ih =>
  subst hn
  exact step a fun x hx => ih _ (sizeOf_element_lt hx) x rfl

lemma plain_type (a : Literal) : a.type.Plain := by
  induction a using elementInduction with
  | _ a ih =>
  have leaf {t : Ty} (hn : ¬ t.Nominal) (hc : t.components = []) : t.Plain :=
    Ty.plain_iff.mpr ⟨hn, by simp [hc]⟩
  cases a with
  | int n | real x | str s | loc l => exact leaf id rfl
  | tuple h xs =>
    rw [type_tuple]
    refine Ty.plain_iff.mpr ⟨id, fun c hc => ?_⟩
    obtain ⟨x, hx, rfl⟩ : ∃ x ∈ xs, type x = c := by simpa [Ty.components, Labeled.plain] using hc
    exact ih x hx
  | list h xs | set h xs =>
    simp only [type_list, type_set]
    exact Ty.plain_iff.mpr ⟨id, List.forall_mem_singleton.mpr
      (Ty.Plain.joinAll (List.forall_mem_map.mpr ih))⟩

lemma MadeIn.within (ha : a.MadeIn home) : a.type.Within home := by
  induction ha with
  | int n | real x | str s | loc l => exact Ty.within_iff.mpr ⟨nofun, nofun⟩
  | @tuple xs _ ih =>
    rw [type_tuple]
    refine Ty.within_iff.mpr ⟨fun _ hk => (Option.some.inj hk).symm, fun c hc => ?_⟩
    obtain ⟨x, hx, rfl⟩ : ∃ x ∈ xs, type x = c := by simpa [Ty.components, Labeled.plain] using hc
    exact ih x hx
  | list _ ih | set _ ih =>
    simp only [type_list, type_set]
    exact Ty.within_iff.mpr ⟨fun _ hk => (Option.some.inj hk).symm, List.forall_mem_singleton.mpr
      (Ty.Within.joinAll (List.forall_mem_map.mpr ih))⟩

lemma fieldDescriptors_plain (ts : List Ty) : Ty.fieldDescriptors (ts.map Labeled.plain) =
    (ts.map Ty.descriptor).map Labeled.plain := by
  induction ts with
  | nil => rfl
  | cons t ts ih =>
    rw [List.map_cons, List.map_cons, List.map_cons, ← ih]
    rfl

lemma descriptor_joinAll_types
    (hmem : ∀ d, d ∈ xs.map (·.type.descriptor) ↔ d ∈ ys.map (·.type.descriptor)) :
    (Ty.joinAll h (xs.map type)).descriptor = (Ty.joinAll k (ys.map type)).descriptor := by
  have plain (zs : List Literal) : ∀ t ∈ zs.map type, t.Plain :=
    List.forall_mem_map.mpr fun z _ => plain_type z
  refine Ty.descriptor_joinAll h k (plain xs) (plain ys) fun d => ?_
  rw [List.map_map, List.map_map]
  exact hmem d

mutual
/-- Literals that are the same have types that are described alike. -/
lemma Same.descriptor_eq : ∀ {a b : Literal}, Same a b → a.type.descriptor = b.type.descriptor
  | _, _, .int n | _, _, .real x | _, _, .str s | _, _, .loc l => rfl
  | _, _, @Same.tuple _ _ xs ys h => by
    have htypes : (xs.map type).map Ty.descriptor = (ys.map type).map Ty.descriptor := by
      rw [List.map_map, List.map_map]
      exact h.descriptors
    rw [type_tuple, type_tuple, Ty.descriptor, Ty.descriptor, fieldDescriptors_plain,
      fieldDescriptors_plain, htypes]
  | _, _, .list h => by
    rw [type_list, type_list, Ty.descriptor, Ty.descriptor, descriptor_joinAll_types]
    exact fun d => by rw [h.descriptors]
  | _, _, .set h h' => by
    rw [type_set, type_set, Ty.descriptor, Ty.descriptor, descriptor_joinAll_types]
    exact fun d => ⟨fun hd => h.descriptors hd, fun hd => h'.descriptors hd⟩

lemma Each.descriptors : ∀ {xs ys : List Literal}, Each xs ys →
    xs.map (·.type.descriptor) = ys.map (·.type.descriptor)
  | _, _, .nil => rfl
  | _, _, .cons hxy h => by rw [List.map_cons, List.map_cons, hxy.descriptor_eq, h.descriptors]

lemma Among.descriptors : ∀ {xs ys : List Literal}, Among xs ys →
    xs.map (·.type.descriptor) ⊆ ys.map (·.type.descriptor)
  | _, _, .nil => List.nil_subset _
  | _, _, .cons hy hxy h => by
    rw [List.map_cons, hxy.descriptor_eq]
    exact List.cons_subset.mpr ⟨List.mem_map_of_mem hy, h.descriptors⟩
end

/-- Literals that are the same have comparable types, whichever universes they are made in. -/
lemma Same.comparable (h : Same a b) : a.type.comparable b.type = true := by
  rw [Ty.comparable, Ty.subtype_of_descriptor (plain_type a).aligned h.descriptor_eq]
  rfl

/-! ### What equality and the contents say -/

/-- Both comparisons of the values say whether the literals are the same. -/
def Exact (a b : Literal) : Prop :=
  (a.value.sameContents b.value = true ↔ Same a b) ∧ (a.value.equal b.value = true ↔ Same a b)

lemma forall₂_values {r : Value → Value → Prop}
    (h : ∀ x ∈ xs, ∀ y ∈ ys, r x.value y.value ↔ Same x y) :
    List.Forall₂ r (values xs) (values ys) ↔ List.Forall₂ Same xs ys := by
  rw [values_eq_map, values_eq_map, List.forall₂_map_left_iff, List.forall₂_map_right_iff]
  exact ⟨fun hxy => forall₂_imp_of_mem hxy fun x hx y hy => (h x hx y hy).mp,
    fun hxy => forall₂_imp_of_mem hxy fun x hx y hy => (h x hx y hy).mpr⟩

/-- What is compared place by place is compared exactly if the elements are. -/
lemma exact_of_inOrder (hab : a.value.InOrder b.value a.type b.type (values xs) (values ys))
    (hsame : Same a b ↔ List.Forall₂ Same xs ys) (hxy : ∀ x ∈ xs, ∀ y ∈ ys, Exact x y) :
    Exact a b := by
  rw [Exact, hab.sameContents_eq, hab.equal_iff, Value.sameEach_iff_forall₂,
    forall₂_values fun x hx y hy => (hxy x hx y hy).1, forall₂_values fun x hx y hy => (hxy x hx y hy).2,
    hsame]
  exact ⟨.rfl, and_iff_right_of_imp fun heach => (hsame.mpr heach).comparable⟩

lemma decided_values (h : ∀ x ∈ xs, ∀ y ∈ xs, Exact x y) : Members.Decided (values xs) := by
  rw [values_eq_map]
  intro v hv w hw hsame
  obtain ⟨x, hx, rfl⟩ := List.mem_map.mp hv
  obtain ⟨y, hy, rfl⟩ := List.mem_map.mp hw
  exact (h x hx y hy).2.mpr ((h x hx y hy).1.mp hsame)

lemma contents_values (hxy : ∀ x ∈ xs, ∀ y ∈ ys, Exact x y)
    (hyx : ∀ y ∈ ys, ∀ x ∈ xs, Exact y x) :
    (∀ g, g ∈ (values xs).map Value.sameContents ↔ g ∈ (values ys).map Value.sameContents) ↔
      (∀ x ∈ xs, ∃ y ∈ ys, Same x y) ∧ ∀ y ∈ ys, ∃ x ∈ xs, Same y x := by
  have subset {xs ys : List Literal} (h : ∀ x ∈ xs, ∀ y ∈ ys, Exact x y) :
      (∀ g ∈ (values xs).map Value.sameContents, g ∈ (values ys).map Value.sameContents) ↔
        ∀ x ∈ xs, ∃ y ∈ ys, Same x y := by
    rw [values_eq_map, values_eq_map, List.map_map, List.map_map, List.forall_mem_map]
    refine forall₂_congr fun x hx => ?_
    rw [List.mem_map]
    refine exists_congr fun y => and_congr_right fun hy => ?_
    rw [← (h x hx y hy).1, Value.sameContents_iff]
    exact eq_comm
  rw [← subset hxy, ← subset hyx]
  exact ⟨fun h => ⟨fun g => (h g).mp, fun g => (h g).mpr⟩, fun h g => ⟨h.1 g, h.2 g⟩⟩

lemma exact_set (hall : ∀ x ∈ xs ++ ys, ∀ y ∈ xs ++ ys, Exact x y) : Exact (set h xs) (set k ys) := by
  have left {x : Literal} (hx : x ∈ xs) : x ∈ xs ++ ys := List.mem_append_left _ hx
  have right {y : Literal} (hy : y ∈ ys) : y ∈ xs ++ ys := List.mem_append_right _ hy
  have hdecided : Members.Decided (values xs ++ values ys) := by
    have happend : values xs ++ values ys = values (xs ++ ys) := by simp only [values_eq_map, List.map_append]
    rw [happend]
    exact decided_values hall
  have hcontents := contents_values (fun x hx y hy => hall x (left hx) y (right hy))
    fun y hy x hx => hall y (right hy) x (left hx)
  rw [Exact, same_set, ← hcontents]
  refine ⟨?_, (Members.equal_sets hdecided).trans (and_iff_right_of_imp fun h => ?_)⟩
  · exact Members.sameContents_sets (hdecided.of_subset (List.subset_append_left ..))
      (hdecided.of_subset (List.subset_append_right ..))
  · exact (same_set.mpr (hcontents.mp h)).comparable

/-- Leaves of one kind are compared by what they hold, composites of one kind by their elements, and things
of different kinds are neither equal nor have the same contents. -/
lemma exact_of_elements
    (h : ∀ x ∈ a.elements ++ b.elements, ∀ y ∈ a.elements ++ b.elements, Exact x y) : Exact a b := by
  have hxy : ∀ x ∈ a.elements, ∀ y ∈ b.elements, Exact x y := fun x hx y hy =>
    h x (List.mem_append_left _ hx) y (List.mem_append_right _ hy)
  cases a <;> cases b
  case int.int | real.real | str.str | loc.loc =>
    simp only [Exact, value, Value.sameContents, Value.equal, beq_iff_eq, same_int, same_real, same_str,
      same_loc, and_self]
  case tuple.tuple => exact exact_of_inOrder Value.inOrder_tuple same_tuple hxy
  case list.list => exact exact_of_inOrder Value.inOrder_list same_list hxy
  case set.set => exact exact_set h
  all_goals
    refine ⟨iff_of_false ?_ (by rintro ⟨⟩), iff_of_false ?_ (by rintro ⟨⟩)⟩ <;>
    simp [value, TupleValue.of, TupleValue.toValue, ListValue.of, ListValue.toValue, SetValue.of,
      SetValue.toValue, Value.sameContents, Value.equal]

lemma exact (a b : Literal) : Exact a b := by
  have upTo (n : Nat) : ∀ a b : Literal, sizeOf a < n → sizeOf b < n → Exact a b := by
    induction n with
    | zero => exact fun _ _ ha => absurd ha (Nat.not_lt_zero _)
    | succ n ih =>
      intro a b ha hb
      have smaller : ∀ x ∈ a.elements ++ b.elements, sizeOf x < n := by
        intro x hx
        rcases List.mem_append.mp hx with hx | hx
        · exact Nat.lt_of_lt_of_le (sizeOf_element_lt hx) (Nat.le_of_lt_succ ha)
        · exact Nat.lt_of_lt_of_le (sizeOf_element_lt hx) (Nat.le_of_lt_succ hb)
      exact exact_of_elements fun x hx y hy => ih x y (smaller x hx) (smaller y hy)
  have ha : sizeOf a < sizeOf a + sizeOf b + 1 := by omega
  have hb : sizeOf b < sizeOf a + sizeOf b + 1 := by omega
  exact upTo _ a b ha hb

/-- Equality of literals is having the same contents, whatever these are compared with. -/
lemma equal_iff_sameContents : a.value.equal b.value = true ↔ a.value.sameContents = b.value.sameContents :=
  (exact a b).2.trans ((exact a b).1.symm.trans (Value.sameContents_iff _ _))

/-- Values typed by what they are made of are equal exactly if they are of one kind and made of the same:
leaves hold the same, tuples and lists agree place by place, and sets have the same elements, in whatever
order and however often these were given. So equality is an equivalence there, equal values have the same
contents, and within one universe they have one type. -/
theorem equal_iff_same :
    (∀ a b : Literal, a.value.equal b.value = true ↔ a.Same b) ∧
      (Equivalence fun a b : Literal => a.value.equal b.value = true) ∧
      (∀ a b : Literal, a.value.equal b.value = true → a.value.sameContents b.value = true) ∧
      ∀ (home : UniverseId) (a b : Literal), a.MadeIn home → b.MadeIn home →
        a.value.equal b.value = true → a.value.runtimeType = b.value.runtimeType := by
  refine ⟨fun a b => (exact a b).2, ⟨fun a => ?_, fun h => ?_, fun h h' => ?_⟩, fun a b h => ?_, ?_⟩
  · exact equal_iff_sameContents.mpr rfl
  · exact equal_iff_sameContents.mpr (equal_iff_sameContents.mp h).symm
  · exact equal_iff_sameContents.mpr ((equal_iff_sameContents.mp h).trans (equal_iff_sameContents.mp h'))
  · exact (exact a b).1.mpr ((exact a b).2.mp h)
  · intro home a b ha hb h
    exact Ty.eq_of_descriptor ha.within hb.within ((exact a b).2.mp h).descriptor_eq

/-- The set of `{1, 2}` and `{2}`, built in two ways. -/
theorem equal_iff_same_nested :
    let a : Literal := .set 0 [.set 0 [.int 1, .int 2], .set 0 [.int 2]]
    let b : Literal := .set 0 [.set 0 [.int 2], .set 0 [.int 2, .int 1], .set 0 [.int 1, .int 2, .int 1]]
    a.MadeIn 0 ∧ b.MadeIn 0 ∧ a.value.equal b.value = true ∧ a.value.sameContents b.value = true ∧
      a.value.runtimeType = b.value.runtimeType := by
  intro a b
  obtain ⟨hsame, -, hcontents, htype⟩ := equal_iff_same
  have numbers (ns : List Int64) : (Literal.set 0 (ns.map .int)).MadeIn 0 :=
    .set (List.forall_mem_map.mpr fun n _ => .int n)
  have ha : a.MadeIn 0 := .set (by simpa using ⟨numbers [1, 2], numbers [2]⟩)
  have hb : b.MadeIn 0 := .set (by simpa using ⟨numbers [2], numbers [2, 1], numbers [1, 2, 1]⟩)
  have h : a.value.equal b.value = true := by
    rw [hsame, same_set]
    simp [same_set, same_int]
  exact ⟨ha, hb, h, hcontents a b h, htype 0 a b ha hb h⟩

end Literal
end TypedValues
