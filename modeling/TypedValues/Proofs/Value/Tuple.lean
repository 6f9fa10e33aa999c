import Mathlib
import TypedValues.Proofs.Outcome
import TypedValues.Proofs.Value.WellTyped
import TypedValues.Value.Tuple

/-!
# Well-typed tuples

Values that pass the checks of a tuple or constructor type fit its fields, and every operation on tuples
yields well-typed tuples from well-typed values.
-/

namespace TypedValues

namespace Value

variable {t : Ty} {vs : List Value} {i : ℕ} {v : Value}

lemma checkField_eq_ok : checkField t i v = .ok () ↔
    ∃ f, t.fields[i]? = some f ∧ v.hasType f.item = true := by
  unfold checkField Ty.fieldType?
  cases t.fields[i]? with
  | none => simp
  | some f => by_cases hv : v.hasType f.item = true <;> simp [hv]

/-- As many values as there are fields pass the checks exactly when they fit. -/
lemma checkFields_eq_ok (hl : vs.length = t.arity) : checkFields t vs = .ok () ↔ Fit vs t.fields := by
  rw [checkFields, forM_eq_ok]
  constructor
  · intro hc
    refine fit_iff.mpr ⟨hl, fun i v f hv hf => ?_⟩
    obtain ⟨g, hg, hvg⟩ := checkField_eq_ok.mp (hc (v, i) (List.mem_zipIdx_iff_getElem?.mpr hv))
    rwa [Option.some.inj (hf.symm.trans hg)]
  · rintro hfit ⟨v, i⟩ hmem
    have hv := List.mem_zipIdx_iff_getElem?.mp hmem
    have hi : i < t.fields.length := by
      rw [← hfit.length_eq]
      exact (List.getElem?_eq_some_iff.mp hv).1
    have hf := List.getElem?_eq_getElem hi
    exact checkField_eq_ok.mpr ⟨_, hf, (fit_iff.mp hfit).2 i v _ hv hf⟩

end Value

namespace Ty

variable {t : Ty} {home : UniverseId} {is : List ℕ} {fs : List Field}

lemma fields_of_isTuple {h : UniverseId} (ht : t.resolved = .tuple h fs) : t.fields = fs := by
  simp [fields, ht]

lemma tupleFieldsFor_eq_ok {operation : String} :
    t.tupleFieldsFor operation = .ok fs ↔ ∃ h, t.resolved = .tuple h fs := by
  unfold tupleFieldsFor tupleFields?
  cases t.resolved <;> simp

/-- The selected fields stand at the selected positions. -/
lemma select_eq_ok {s : Ty} (hs : t.select home is = .ok s) :
    t.isTuple = true ∧ ∃ selected, s = .tuple home selected ∧
      List.Forall₂ (fun i f => t.fields[i]? = some f) is selected := by
  unfold select at hs
  obtain ⟨fs, hfs, hs⟩ := bind_eq_ok.mp hs
  obtain ⟨selected, hsel, hs⟩ := bind_eq_ok.mp hs
  obtain ⟨h, hr⟩ := tupleFieldsFor_eq_ok.mp hfs
  refine ⟨isTuple_iff.mpr ⟨h, fs, hr⟩, selected, (pure_eq_ok.mp hs).symm, ?_⟩
  rw [fields_of_isTuple hr]
  refine (mapM_eq_ok.mp hsel).imp fun i f hf => ?_
  split at hf
  · rename_i g hg
    rw [hg, Except.ok.inj hf]
  · simp at hf

lemma fieldsBelow_select {gs selected selected' : List Field} (hb : FieldsBelow fs gs)
    (hs : List.Forall₂ (fun i f => fs[i]? = some f) is selected)
    (hs' : List.Forall₂ (fun i f => gs[i]? = some f) is selected') :
    FieldsBelow selected selected' := by
  induction hs generalizing selected' with
  | nil => cases hs' with | nil => exact .nil
  | cons hf _ ih =>
    cases hs' with
    | cons hg hs' => exact .cons (hb.subtype_of_getElem? hf hg) (ih hs')

lemma subtype_select {s s' t' : Ty} (h : s.subtype t = true) (hs : s.select home is = .ok s')
    (ht : t.select home is = .ok t') : s'.subtype t' = true := by
  obtain ⟨hst, selected, rfl, hsel⟩ := select_eq_ok hs
  obtain ⟨htt, selected', rfl, hsel'⟩ := select_eq_ok ht
  obtain ⟨k, fs, hfs⟩ := isTuple_iff.mp hst
  obtain ⟨l, gs, hgs⟩ := isTuple_iff.mp htt
  have hbelow := resolved_subtype_resolved h
  rw [hfs, hgs, tuple_subtype_tuple] at hbelow
  rw [fields_of_isTuple hfs] at hsel
  rw [fields_of_isTuple hgs] at hsel'
  exact tuple_subtype_tuple.mpr (fieldsBelow_select hbelow hsel hsel')

lemma exists_select (home : UniverseId) (ht : t.isTuple = true) (h : ∀ i ∈ is, i < t.fields.length) :
    ∃ s, t.select home is = .ok s := by
  obtain ⟨k, fs, hfs⟩ := isTuple_iff.mp ht
  rw [fields_of_isTuple hfs] at h
  have hselected : ∃ selected, is.mapM (fun i => match fs[i]? with
      | some f => Except.ok f
      | none => .error (Error.indexOutOfBounds i fs.length)) = .ok selected := by
    refine exists_mapM_eq_ok fun i hi => ?_
    rw [List.getElem?_eq_getElem (h i hi)]
    exact ⟨_, rfl⟩
  obtain ⟨selected, hselected⟩ := hselected
  exact ⟨_, bind_eq_ok.mpr
    ⟨fs, tupleFieldsFor_eq_ok.mpr ⟨k, hfs⟩, bind_eq_ok.mpr ⟨_, hselected, rfl⟩⟩⟩

end Ty

namespace TupleValue

variable {home : UniverseId} {t u : TupleValue} {ty : Ty} {vs : List Value} {v : Value} {i : ℕ}

lemma get_eq_ok : t.get i = .ok v ↔ t.fields[i]? = some v := by
  unfold get
  cases t.fields[i]? <;> simp

lemma wellTyped_iff : (t : Value).WellTyped ↔
    t.ty.isTuple = true ∧ Value.Fit t.fields t.ty.fields ∧ ∀ v ∈ t.fields, v.WellTyped :=
  Value.wellTyped_tuple

lemma wellTyped_of (hvs : ∀ v ∈ vs, v.WellTyped) : (of home vs : Value).WellTyped := by
  refine wellTyped_iff.mpr ⟨rfl, ?_, hvs⟩
  rw [of, Ty.tupleOf, Ty.fields_of_isTuple rfl, Value.runtimeTypes, Value.Fit,
    List.forall₂_map_right_iff, List.forall₂_map_right_iff]
  exact List.forall₂_same.mpr fun v _ => v.hasType_self

/-- A tuple of a declared type is made of values that fit the fields of a tuple type, and of no others. -/
lemma ofType_eq_ok : ofType home ty vs = .ok t ↔
    ty.isTuple = true ∧ Value.Fit vs ty.fields ∧ t = ⟨ty, vs⟩ := by
  rw [ofType, mapError_eq_ok, checked]
  by_cases ht : ty.isTuple = true
  · by_cases hl : vs.length = ty.arity
    · simp only [ht, hl, Bool.not_true, bne_self_eq_false, Bool.false_eq_true, if_false, check_eq_ok,
        Value.checkFields_eq_ok hl, true_and]
    · have hfit : ¬ Value.Fit vs ty.fields := fun hfit => hl hfit.length_eq
      simp [ht, hl, hfit, bind_eq_ok, throw_ne_ok]
  · simp [ht, bind_eq_ok, throw_ne_ok]

lemma wellTyped_ofType (hvs : ∀ v ∈ vs, v.WellTyped) (h : ofType home ty vs = .ok t) :
    (t : Value).WellTyped := by
  obtain ⟨hty, hfit, rfl⟩ := ofType_eq_ok.mp h
  exact wellTyped_iff.mpr ⟨hty, hfit, hvs⟩

/-- A field that is there is replaced by a value of its declared type. -/
lemma set_eq_ok : t.set i v = .ok u ↔ i < t.fields.length ∧
    (∃ f, t.ty.fields[i]? = some f ∧ v.hasType f.item = true) ∧
      u = ⟨t.ty, t.fields.set i v⟩ := by
  rw [set, bind_eq_ok]
  simp only [check_eq_ok, mapError_eq_ok, get_eq_ok, Value.checkField_eq_ok, exists_and_right]
  rw [← Option.isSome_iff_exists, isSome_getElem?]

lemma wellTyped_set (ht : (t : Value).WellTyped) (hv : v.WellTyped) (h : t.set i v = .ok u) :
    (u : Value).WellTyped := by
  obtain ⟨-, ⟨f, hf, hvf⟩, rfl⟩ := set_eq_ok.mp h
  obtain ⟨hty, hfit, hvs⟩ := wellTyped_iff.mp ht
  refine wellTyped_iff.mpr ⟨hty, hfit.set hf hvf, fun w hw => ?_⟩
  rcases List.mem_or_eq_of_mem_set hw with hw | rfl
  · exact hvs w hw
  · exact hv

lemma wellTyped_setLabel {label : String} (ht : (t : Value).WellTyped) (hv : v.WellTyped)
    (h : t.setLabel label v = .ok u) : (u : Value).WellTyped := by
  obtain ⟨i, -, h⟩ := bind_eq_ok.mp h
  exact wellTyped_set ht hv h

/-- The selected values fit the selected fields, and those of any wider type as well. -/
lemma fit_select {is : List ℕ} {selected : List Field} (hf : Value.Fit t.fields t.ty.fields)
    (hs : List.Forall₂ (fun i f => t.ty.fields[i]? = some f) is selected)
    (hv : List.Forall₂ (fun i v => t.get i = .ok v) is vs) : Value.Fit vs selected := by
  induction hs generalizing vs with
  | nil => cases hv with | nil => exact .nil
  | cons hi _ ih =>
    cases hv with
    | cons hw hv => exact .cons ((Value.fit_iff.mp hf).2 _ _ _ (get_eq_ok.mp hw) hi) (ih hv)

lemma select_eq_ok {is : List ℕ} (h : t.select home is = .ok u) :
    t.ty.select home is = .ok u.ty ∧ List.Forall₂ (fun i v => t.get i = .ok v) is u.fields := by
  obtain ⟨s, hs, h⟩ := bind_eq_ok.mp h
  obtain ⟨vs, hvs, h⟩ := bind_eq_ok.mp h
  obtain rfl := pure_eq_ok.mp h
  exact ⟨hs, mapM_eq_ok.mp hvs⟩

lemma mem_fields_of_get {is : List ℕ} (h : List.Forall₂ (fun i v => t.get i = .ok v) is vs)
    (hv : v ∈ vs) : v ∈ t.fields := by
  induction h with
  | nil => simp at hv
  | cons hw _ ih =>
    rcases List.mem_cons.mp hv with rfl | hv
    · exact List.mem_of_getElem? (get_eq_ok.mp hw)
    · exact ih hv

lemma wellTyped_select {is : List ℕ} (ht : (t : Value).WellTyped) (h : t.select home is = .ok u) :
    (u : Value).WellTyped := by
  obtain ⟨hs, hv⟩ := select_eq_ok h
  obtain ⟨-, selected, hu, hsel⟩ := Ty.select_eq_ok hs
  obtain ⟨-, hfit, hvs⟩ := wellTyped_iff.mp ht
  refine wellTyped_iff.mpr ⟨by rw [hu]; rfl, ?_, fun w hw => hvs w (mem_fields_of_get hv hw)⟩
  rw [hu]
  exact fit_select hfit hsel hv

lemma wellTyped_selectLabels {labels : List String} (ht : (t : Value).WellTyped)
    (h : t.selectLabels home labels = .ok u) : (u : Value).WellTyped := by
  obtain ⟨is, -, h⟩ := bind_eq_ok.mp h
  exact wellTyped_select ht h

lemma exists_get (h : i < t.fields.length) : ∃ v, t.get i = .ok v :=
  ⟨_, get_eq_ok.mpr (List.getElem?_eq_getElem h)⟩

lemma exists_select {is : List ℕ} (home : UniverseId) (ht : (t : Value).WellTyped)
    (h : ∀ i ∈ is, i < t.fields.length) : ∃ u, t.select home is = .ok u := by
  obtain ⟨hty, hfit, -⟩ := wellTyped_iff.mp ht
  obtain ⟨s, hs⟩ := Ty.exists_select home hty fun i hi => hfit.length_eq ▸ h i hi
  obtain ⟨vs, hvs⟩ := exists_mapM_eq_ok fun i hi => exists_get (h i hi)
  exact ⟨_, bind_eq_ok.mpr ⟨s, hs, bind_eq_ok.mpr ⟨vs, hvs, rfl⟩⟩⟩

end TupleValue
end TypedValues
