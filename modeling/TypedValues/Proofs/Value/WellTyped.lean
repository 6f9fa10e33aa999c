import Mathlib
import TypedValues.Proofs.Parts
import TypedValues.Proofs.Ty.Bound
import TypedValues.Value.Basic

/-!
# Well-typed values

A value is well typed when it and all its parts fit the types they carry: a tuple or node place by place,
a collection element by element.
-/

namespace TypedValues.Value

/-- The values that a value is made of, those it is annotated with included. -/
def components : Value → List Value
  | .tuple _ vs | .list _ vs | .set _ vs => vs
  | .map _ _ entries => entries.map (·.1) ++ entries.map (·.2)
  | .node _ children annotations => children ++ annotations.map (·.2)
  | _ => []

/-- The value is the other one or a part of one of its components. -/
abbrev PartOf (p v : Value) : Prop := TypedValues.PartOf components p v

lemma mem_components_of_entry (ty : Ty) (table : TableId) {es : List (Value × Value)}
    {e : Value × Value} (he : e ∈ es) :
    e.1 ∈ (map ty table es).components ∧ e.2 ∈ (map ty table es).components :=
  ⟨List.mem_append_left _ (List.mem_map_of_mem he), List.mem_append_right _ (List.mem_map_of_mem he)⟩

/-- As many values as fields, each of the type declared for its place. -/
def Fit (vs : List Value) (fields : List Field) : Prop :=
  List.Forall₂ (fun v f => v.hasType f.item = true) vs fields

/-- This very value fits the type it carries. -/
def Typed : Value → Prop
  | .object ty _ => ∃ home kind, ty = .object home kind
  | .tuple ty vs => ty.isTuple = true ∧ Fit vs ty.fields
  | .list ty vs => ty.isList = true ∧ ∀ v ∈ vs, v.hasType ty.elementType = true
  | .set ty vs => ty.isSet = true ∧ ∀ v ∈ vs, v.hasType ty.elementType = true
  | .map ty _ entries => ∃ k v, ty.mapFields? = some (k, v) ∧
    ∀ e ∈ entries, e.1.hasType k.item = true ∧ e.2.hasType v.item = true
  | .node ty children _ => ty.isConstructor = true ∧ Fit children ty.fields
  | _ => True

/-- All parts fit the types they carry. -/
def WellTyped (v : Value) : Prop := ∀ p : Value, p.PartOf v → p.Typed

/-- The value is well typed and has the type. -/
abbrev Inhabits (v : Value) (t : Ty) : Prop := v.hasType t = true ∧ v.WellTyped

variable {v : Value} {vs : List Value} {s t : Ty} {table : TableId} {fields : List Field}

lemma hasType_mono (hv : v.hasType s = true) (hst : s.subtype t = true) : v.hasType t = true :=
  Ty.subtype_trans hv hst

lemma Inhabits.mono (hv : v.Inhabits s) (hst : s.subtype t = true) : v.Inhabits t :=
  ⟨hasType_mono hv.1 hst, hv.2⟩

lemma hasType_self (v : Value) : v.hasType v.runtimeType = true := Ty.subtype_refl _

lemma wellTyped_iff : v.WellTyped ↔ v.Typed ∧ ∀ c ∈ v.components, c.WellTyped := forall_partOf_iff

lemma WellTyped.part {p : Value} (hv : v.WellTyped) (hp : p.PartOf v) : p.WellTyped :=
  fun _ hq => hv _ (hq.trans hp)

lemma wellTyped_leaf (hv : v.Typed) (hc : v.components = []) : v.WellTyped :=
  wellTyped_iff.mpr ⟨hv, by simp [hc]⟩

lemma wellTyped_tuple : (tuple t vs).WellTyped ↔
    t.isTuple = true ∧ Fit vs t.fields ∧ ∀ v ∈ vs, v.WellTyped := by
  rw [wellTyped_iff, Typed, components, and_assoc]

lemma wellTyped_list : (list t vs).WellTyped ↔
    t.isList = true ∧ ∀ v ∈ vs, v.Inhabits t.elementType := by
  rw [wellTyped_iff, Typed, components, and_assoc, forall₂_and]

lemma wellTyped_set : (set t vs).WellTyped ↔
    t.isSet = true ∧ ∀ v ∈ vs, v.Inhabits t.elementType := by
  rw [wellTyped_iff, Typed, components, and_assoc, forall₂_and]

lemma wellTyped_map {entries : List (Value × Value)} : (map t table entries).WellTyped ↔
    ∃ k v, t.mapFields? = some (k, v) ∧ ∀ e ∈ entries,
      e.1.Inhabits k.item ∧ e.2.Inhabits v.item := by
  rw [wellTyped_iff, Typed, components, List.forall_mem_append, List.forall_mem_map,
    List.forall_mem_map]
  constructor
  · rintro ⟨⟨k, v, hkv, ht⟩, hk, hv⟩
    exact ⟨k, v, hkv, fun e he => ⟨⟨(ht e he).1, hk e he⟩, (ht e he).2, hv e he⟩⟩
  · rintro ⟨k, v, hkv, h⟩
    exact ⟨⟨k, v, hkv, fun e he => ⟨(h e he).1.1, (h e he).2.1⟩⟩, fun e he => (h e he).1.2,
      fun e he => (h e he).2.2⟩

lemma wellTyped_node {annotations : List (String × Value)} :
    (node t vs annotations).WellTyped ↔ t.isConstructor = true ∧ Fit vs t.fields ∧
      (∀ v ∈ vs, v.WellTyped) ∧ ∀ a ∈ annotations, a.2.WellTyped := by
  rw [wellTyped_iff, Typed, components, and_assoc, List.forall_mem_append, List.forall_mem_map]

/-! ### Fitting -/

lemma Fit.length_eq (hf : Fit vs fields) : vs.length = fields.length := List.Forall₂.length_eq hf

lemma fit_iff : Fit vs fields ↔ vs.length = fields.length ∧
    ∀ (i : ℕ) (v : Value) (f : Field), vs[i]? = some v → fields[i]? = some f →
      v.hasType f.item = true := by
  rw [Fit, List.forall₂_iff_get]
  refine and_congr_right fun hl => ⟨fun h i v f hv hf => ?_, fun h i hi hi' => ?_⟩
  · obtain ⟨hi, rfl⟩ := List.getElem?_eq_some_iff.mp hv
    obtain ⟨hi', rfl⟩ := List.getElem?_eq_some_iff.mp hf
    exact h i hi hi'
  · exact h i _ _ (List.getElem?_eq_getElem hi) (List.getElem?_eq_getElem hi')

lemma Fit.set (hf : Fit vs fields) {i : ℕ} {f : Field} (hi : fields[i]? = some f)
    (hv : v.hasType f.item = true) : Fit (vs.set i v) fields := by
  rw [fit_iff] at hf ⊢
  refine ⟨by rw [List.length_set, hf.1], fun j w g hw hg => ?_⟩
  rw [List.getElem?_set] at hw
  split_ifs at hw with hij hlt
  · obtain rfl : v = w := Option.some.inj hw
    rw [← hij, hi] at hg
    rwa [← Option.some.inj hg]
  · exact hf.2 j w g hw hg

lemma Fit.mono {gs : List Field} (hf : Fit vs fields) (hb : Ty.FieldsBelow fields gs) :
    Fit vs gs := by
  induction hf generalizing gs with
  | nil => cases hb with | nil => exact .nil
  | cons hv _ ih => cases hb with | cons hfg hb => exact .cons (hasType_mono hv hfg) (ih hb)

end TypedValues.Value
