import Mathlib
import TypedValues.Proofs.Table
import TypedValues.Proofs.Value.Tuple
import TypedValues.Value.Node

/-!
# Well-typed nodes

A node is made only by a constructor that takes its children, and keeps to it.
-/

namespace TypedValues.NodeValue

variable {home : UniverseId} {n m : NodeValue} {t : Ty} {children : List Value} {v : Value}
  {label : String}

lemma wellTyped_iff : (n : Value).WellTyped ↔ n.ty.isConstructor = true ∧
    Value.Fit n.children n.ty.fields ∧ (∀ v ∈ n.children, v.WellTyped) ∧
      ∀ a ∈ n.annotations, a.2.WellTyped :=
  Value.wellTyped_node

/-- A constructor takes the children that fit what it declares, and no others. -/
lemma checkChildren_eq_ok : checkChildren home t children = .ok () ↔
    t.isConstructor = true ∧ Value.Fit children t.fields := by
  unfold checkChildren
  by_cases ht : t.isConstructor = true
  · by_cases hl : children.length = t.arity
    · simp only [ht, hl, Bool.not_true, bne_self_eq_false, Bool.false_eq_true, if_false,
        Value.checkFields_eq_ok hl, true_and]
    · have hfit : ¬ Value.Fit children t.fields := fun hfit => hl hfit.length_eq
      simp [ht, hl, hfit, bind_eq_ok, throw_ne_ok]
  · simp [ht, bind_eq_ok, throw_ne_ok]

lemma wellTyped_of_checkChildren (hvs : ∀ v ∈ children, v.WellTyped)
    (h : checkChildren home t children = .ok ()) :
    (⟨t, children, []⟩ : NodeValue).toValue.WellTyped := by
  obtain ⟨hty, hfit⟩ := checkChildren_eq_ok.mp h
  exact wellTyped_iff.mpr ⟨hty, hfit, hvs, nofun⟩

lemma of_eq_ok : of home t children = .ok n ↔
    checkChildren home t children = .ok () ∧ n = ⟨t, children, []⟩ := by
  rw [of, check_eq_ok, mapError_eq_ok]

lemma wellTyped_of (hvs : ∀ v ∈ children, v.WellTyped) (h : of home t children = .ok n) :
    (n : Value).WellTyped := by
  obtain ⟨hc, rfl⟩ := of_eq_ok.mp h
  exact wellTyped_of_checkChildren hvs hc

lemma exists_of_firstAccepting {ts : List Ty} {last : Option Error}
    (h : firstAccepting home children ts last = .ok n) :
    ∃ t ∈ ts, checkChildren home t children = .ok () ∧ n = ⟨t, children, []⟩ := by
  induction ts generalizing last with
  | nil => simp [firstAccepting] at h
  | cons t ts ih =>
    rw [firstAccepting] at h
    split at h
    · rename_i hc
      exact ⟨t, List.mem_cons_self, hc, (Except.ok.inj h).symm⟩
    · obtain ⟨u, hu, hc⟩ := ih h
      exact ⟨u, List.mem_cons_of_mem t hu, hc⟩

lemma wellTyped_named {u : Universe} {sort : Ty} {name : String}
    (hvs : ∀ v ∈ children, v.WellTyped) (h : named u sort name children = .ok n) :
    (n : Value).WellTyped := by
  obtain ⟨t, -, hc, rfl⟩ := exists_of_firstAccepting (mapError_eq_ok.mp h)
  exact wellTyped_of_checkChildren hvs hc

lemma get_eq_ok {i : ℕ} : n.get i = .ok v ↔ n.children[i]? = some v := by
  unfold get
  cases n.children[i]? <;> simp

/-- A child that is there is replaced by a value of its declared type. -/
lemma set_eq_ok {i : ℕ} : n.set i v = .ok m ↔ i < n.children.length ∧
    (∃ f, n.ty.fields[i]? = some f ∧ v.hasType f.item = true) ∧
      m = ⟨n.ty, n.children.set i v, n.annotations⟩ := by
  rw [set, bind_eq_ok]
  simp only [check_eq_ok, mapError_eq_ok, get_eq_ok, Value.checkField_eq_ok, exists_and_right]
  rw [← Option.isSome_iff_exists, isSome_getElem?]

lemma wellTyped_set {i : ℕ} (hn : (n : Value).WellTyped) (hv : v.WellTyped)
    (h : n.set i v = .ok m) : (m : Value).WellTyped := by
  obtain ⟨-, ⟨f, hf, hvf⟩, rfl⟩ := set_eq_ok.mp h
  obtain ⟨hty, hfit, hvs, has⟩ := wellTyped_iff.mp hn
  refine wellTyped_iff.mpr ⟨hty, hfit.set hf hvf, fun w hw => ?_, has⟩
  rcases List.mem_or_eq_of_mem_set hw with hw | rfl
  · exact hvs w hw
  · exact hv

lemma wellTyped_setLabel (hn : (n : Value).WellTyped) (hv : v.WellTyped)
    (h : n.setLabel label v = .ok m) : (m : Value).WellTyped := by
  obtain ⟨i, -, h⟩ := bind_eq_ok.mp h
  exact wellTyped_set hn hv h

/-- A value is attached unless there is an objection to its type. -/
lemma annotate_eq_ok {u : Universe} : n.annotate u label v = .ok m ↔
    objection? u n label v.runtimeType = none ∧
      m = ⟨n.ty, n.children, Table.put (· == label) label v n.annotations⟩ := by
  unfold annotate
  cases objection? u n label v.runtimeType <;> simp [eq_comm]

lemma wellTyped_annotate {u : Universe} (hn : (n : Value).WellTyped) (hv : v.WellTyped)
    (h : n.annotate u label v = .ok m) : (m : Value).WellTyped := by
  obtain ⟨-, rfl⟩ := annotate_eq_ok.mp h
  obtain ⟨hty, hfit, hvs, has⟩ := wellTyped_iff.mp hn
  refine wellTyped_iff.mpr ⟨hty, hfit, hvs, fun a ha => ?_⟩
  rcases Table.mem_put _ ha with rfl | ha
  · exact hv
  · exact has a ha

lemma wellTyped_unannotate (hn : (n : Value).WellTyped) :
    (n.unannotate label : Value).WellTyped := by
  obtain ⟨hty, hfit, hvs, has⟩ := wellTyped_iff.mp hn
  exact wellTyped_iff.mpr ⟨hty, hfit, hvs, fun a ha => has a (Table.mem_of_mem_erase (· == label) ha)⟩

end TypedValues.NodeValue
