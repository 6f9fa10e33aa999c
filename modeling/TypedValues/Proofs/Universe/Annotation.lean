import TypedValues.Proofs.Universe.Registry

/-!
# Annotations

What has been declared for a label on a type stays declared, and nothing is declared on a type that sees the
label already. So a type goes on seeing what was declared on it, until a type that overrides it declares the
label: one that it is an alias of, or the sort of a constructor. These do not see what is declared on the
alias or on the constructor, and may declare another type.
-/

namespace TypedValues

lemma findSome?_eq_of_forall {α β : Type} {f : α → Option β} {b : β} {xs : List α}
    (hall : ∀ x ∈ xs, ∀ c, f x = some c → c = b) (hsome : ∃ x ∈ xs, f x ≠ none) :
    xs.findSome? f = some b := by
  cases hfound : xs.findSome? f with
  | none =>
    obtain ⟨x, hx, hfx⟩ := hsome
    exact absurd (List.findSome?_eq_none_iff.mp hfound x hx) hfx
  | some c =>
    obtain ⟨x, hx, hfx⟩ := List.exists_of_findSome?_eq_some hfound
    rw [hall x hx c hfx]

namespace Universe

variable {u v w : Universe} {on s t p : Ty} {label : String}

/-- What is declared for a label on exactly this type. -/
def declaredOn? (u : Universe) (label : String) (on : Ty) : Option Ty :=
  Table.get? (· == label) (u.labelsOn on)

/-- The types that override what is declared on a type itself: those it is an alias of, and its sort. -/
def overriding (on : Ty) : List Ty := aliasTargets on ++ on.sort?.toList

/-- What the last of the overriding types to declare a label declares for it. -/
def overridingType? (u : Universe) (on : Ty) (label : String) : Option Ty :=
  (overriding on).reverse.findSome? (u.declaredOn? label)

/-- Behind the overriding types come the type itself and `value`. -/
lemma annotationType?_eq (u : Universe) (on : Ty) (label : String) : u.annotationType? on label =
    (u.overridingType? on label).or ((u.declaredOn? label on).or (u.declaredOn? label .value)) := by
  have hscopes : (scopes on).reverse = (overriding on).reverse ++ [on, .value] := by
    rw [scopes, overriding, List.append_assoc, List.reverse_append]
    rfl
  have hlast : [on, .value].findSome? (u.declaredOn? label) =
      (u.declaredOn? label on).or (u.declaredOn? label .value) := by
    cases h : u.declaredOn? label on <;> cases h' : u.declaredOn? label .value <;> simp [h, h']
  rw [← hlast, overridingType?, ← List.findSome?_append, ← hscopes]
  rfl

lemma annotationType?_eq_none :
    u.annotationType? on label = none ↔ ∀ scope ∈ scopes on, u.declaredOn? label scope = none := by
  rw [annotationType?, List.findSome?_eq_none_iff]
  simp only [List.mem_reverse]
  rfl

lemma self_mem_scopes (on : Ty) : on ∈ scopes on := by simp [scopes]

/-- A label more on a type. -/
def withLabel (u : Universe) (on : Ty) (label : String) (t : Ty) : Universe :=
  { u with annotated := Table.put (· == on) on (Table.put (· == label) label t (u.labelsOn on)) u.annotated }

lemma labelsOn_withLabel : (u.withLabel on label t).labelsOn s =
    if on = s then Table.put (· == label) label t (u.labelsOn on) else u.labelsOn s := by
  rw [labelsOn, withLabel, Table.get?_put]
  split <;> rfl

lemma declaredOn?_withLabel {label' : String} : (u.withLabel on label t).declaredOn? label' s =
    if on = s ∧ label = label' then some t else u.declaredOn? label' s := by
  rw [declaredOn?, labelsOn_withLabel]
  by_cases hs : on = s
  · subst hs
    rw [if_pos rfl, Table.get?_put]
    simp [declaredOn?]
  · simp [hs, declaredOn?]

/-- A label that is visible must keep its type, and only one that is not is declared. -/
lemma annotate_eq_ok : u.annotate on label t = .ok v ↔ Text.isIdentifier label = true ∧
    (u.annotationType? on label = some t ∧ v = u ∨
      u.annotationType? on label = none ∧ v = u.withLabel on label t) := by
  rw [annotate, checkIdentifier_bind_eq_ok]
  refine and_congr_right fun _ => ?_
  cases h : u.annotationType? on label with
  | some existing =>
    simp only [ite_throw_eq_ok, pure_eq_ok, Option.some.injEq, reduceCtorEq, false_and, or_false]
    exact and_congr_right fun _ => eq_comm
  | none =>
    simp only [pure_eq_ok, reduceCtorEq, false_and, true_and, false_or]
    exact eq_comm

lemma annotated_of_adopt (h : u.adopt p = .ok (t, v)) : v.annotated = u.annotated := by
  cases p with
  | aliasOf home n s =>
    obtain ⟨-, -, ⟨-, rfl⟩ | ⟨-, -, rfl⟩⟩ := declareAlias_eq_ok.mp h <;> rfl
  | sort home n =>
    obtain ⟨-, -, ⟨-, rfl⟩ | ⟨-, -, rfl⟩⟩ := declareSort_eq_ok.mp h <;> rfl
  | constructor home cname n d fs =>
    obtain ⟨hc, h⟩ := declareConstructor_eq_ok.mp h
    obtain ⟨m, d', fs', hs, -, -, -, rfl⟩ := constructorOf_eq_ok.mp hc
    obtain ⟨rfl, rfl⟩ := Ty.sort.inj hs
    obtain ⟨-, ⟨-, rfl⟩ | ⟨-, -, rfl⟩⟩ := addConstructor_eq_ok.mp h <;> rfl
  | _ =>
    cases h
    rfl

/-! ### What stays -/

/-- Later declarations keep what is declared for a label on each type. They may add to it, but not on a type
that sees the label. -/
structure KeepsAnnotations (u v : Universe) : Prop where
  kept : ∀ {label s t}, u.declaredOn? label s = some t → v.declaredOn? label s = some t
  unless_visible : ∀ {label s}, u.annotationType? s label ≠ none →
    v.declaredOn? label s = u.declaredOn? label s

namespace KeepsAnnotations

lemma of_annotated_eq (h : v.annotated = u.annotated) : u.KeepsAnnotations v := by
  have hdeclared (label : String) (s : Ty) : v.declaredOn? label s = u.declaredOn? label s := by
    rw [declaredOn?, declaredOn?, labelsOn, labelsOn, h]
  exact ⟨fun hs => (hdeclared _ _).trans hs, fun _ => hdeclared _ _⟩

lemma absent (h : u.KeepsAnnotations v) (hv : v.declaredOn? label s = none) :
    u.declaredOn? label s = none := by
  cases hu : u.declaredOn? label s with
  | none => rfl
  | some t =>
    rw [h.kept hu] at hv
    cases hv

/-- What is visible stays visible, if not with the same type. -/
lemma visible (h : u.KeepsAnnotations v) (hu : u.annotationType? on label ≠ none) :
    v.annotationType? on label ≠ none := by
  intro hv
  rw [annotationType?_eq_none] at hv
  exact hu (annotationType?_eq_none.mpr fun scope hscope => h.absent (hv scope hscope))

lemma trans (h : u.KeepsAnnotations v) (h' : v.KeepsAnnotations w) : u.KeepsAnnotations w where
  kept hs := h'.kept (h.kept hs)
  unless_visible hs := (h'.unless_visible (h.visible hs)).trans (h.unless_visible hs)

lemma withLabel (hnone : u.annotationType? on label = none) :
    u.KeepsAnnotations (u.withLabel on label t) where
  kept {label' s t'} hs := by
    rw [declaredOn?_withLabel, if_neg]
    · exact hs
    · rintro ⟨rfl, rfl⟩
      rw [annotationType?_eq_none.mp hnone on (self_mem_scopes on)] at hs
      cases hs
  unless_visible {label' s} hs := by
    rw [declaredOn?_withLabel, if_neg]
    rintro ⟨rfl, rfl⟩
    exact hs hnone

lemma annotate (h : u.annotate on label t = .ok v) : u.KeepsAnnotations v := by
  obtain ⟨-, ⟨-, rfl⟩ | ⟨hnone, rfl⟩⟩ := annotate_eq_ok.mp h
  · exact of_annotated_eq rfl
  · exact withLabel hnone

lemma adopt (h : u.adopt p = .ok (t, v)) : u.KeepsAnnotations v := of_annotated_eq (annotated_of_adopt h)

/-- A type goes on seeing what it sees, until an overriding type declares the label. -/
lemma annotationType?_eq (h : u.KeepsAnnotations v) (ht : u.annotationType? on label = some t) :
    v.annotationType? on label = some ((v.overridingType? on label).getD t) := by
  have hown := h.unless_visible (s := on) (by rw [ht]; nofun)
  rw [Universe.annotationType?_eq] at ht ⊢
  cases hv : v.overridingType? on label with
  | some s => rfl
  | none =>
    have hu : u.overridingType? on label = none :=
      List.findSome?_eq_none_iff.mpr fun scope hscope =>
        h.absent (List.findSome?_eq_none_iff.mp hv scope hscope)
    rw [hu, Option.none_or] at ht
    rw [hown, Option.none_or, Option.getD_none]
    cases hon : u.declaredOn? label on with
    | some s => rwa [hon] at ht
    | none =>
      rw [hon, Option.none_or] at ht
      exact h.kept ht

end KeepsAnnotations

/-- What has just been declared is what is seen. -/
lemma annotationType?_of_annotate (h : u.annotate on label t = .ok v) :
    v.annotationType? on label = some t := by
  obtain ⟨-, ⟨hvisible, rfl⟩ | ⟨hnone, rfl⟩⟩ := annotate_eq_ok.mp h
  · exact hvisible
  · have hself : (u.withLabel on label t).declaredOn? label on = some t := by
      rw [declaredOn?_withLabel, if_pos ⟨rfl, rfl⟩]
    refine findSome?_eq_of_forall (fun scope hscope s hs => ?_)
      ⟨on, List.mem_reverse.mpr (self_mem_scopes on), by rw [← declaredOn?, hself]; nofun⟩
    rw [← declaredOn?, declaredOn?_withLabel] at hs
    split at hs
    · exact (Option.some.inj hs).symm
    · rw [annotationType?_eq_none.mp hnone scope (List.mem_reverse.mp hscope)] at hs
      cases hs

end Universe

namespace Interner

variable {i j k : Interner} {on t : Ty} {label : String}

lemma Step.keepsAnnotations (h : i.Step j) : i.declarations.KeepsAnnotations j.declarations := by
  rcases h.declarations_eq with heq | ⟨p, t, h⟩ | ⟨on, label, t, h⟩
  · exact .of_annotated_eq (by rw [heq])
  · exact .adopt h
  · exact .annotate h

lemma keepsAnnotations_of_steps (h : Relation.ReflTransGen Step i j) :
    i.declarations.KeepsAnnotations j.declarations := by
  induction h with
  | refl => exact .of_annotated_eq rfl
  | tail _ h ih => exact ih.trans h.keepsAnnotations

lemma annotate_eq_ok : (i.annotate on label t).1 = .ok () ↔
    i.declarations.annotate on label t = .ok (i.annotate on label t).2.declarations := by
  unfold annotate
  cases i.declarations.annotate on label t <;> simp

/-- From then on a type on which a label has been declared sees the label: with the type that was declared or,
once overriding types declare the label, with the one that the last of them declares. As long as it sees the
type that was declared, declaring it again changes nothing. -/
theorem annotation_kept_unless_overridden {i k : Interner} {on t : Ty} {label : String}
    (hdeclared : (i.annotate on label t).1 = .ok ())
    (hlater : Relation.ReflTransGen Step (i.annotate on label t).2 k) :
    (i.annotate on label t).2.declarations.annotationType? on label = some t ∧
    k.declarations.annotationType? on label = some ((k.declarations.overridingType? on label).getD t) ∧
    (k.declarations.annotationType? on label = some t → k.annotate on label t = (.ok (), k)) := by
  have hok := annotate_eq_ok.mp hdeclared
  have hfirst := Universe.annotationType?_of_annotate hok
  refine ⟨hfirst, (keepsAnnotations_of_steps hlater).annotationType?_eq hfirst, fun hnow => ?_⟩
  have hagain : k.declarations.annotate on label t = .ok k.declarations :=
    Universe.annotate_eq_ok.mpr ⟨(Universe.annotate_eq_ok.mp hok).1, .inl ⟨hnow, rfl⟩⟩
  rw [annotate, hagain]

/-- The sort of a constructor declares another label, and the constructor keeps its own. -/
theorem annotation_kept_unless_overridden_label :
    let stmt : Ty := .sort 0 "Stmt"
    let skip : Ty := .constructor 0 (some "skip") "Stmt" 0 []
    let i := (((empty 0 0).perform List.reverse (.declareSort "Stmt")).2.perform List.reverse
      (.declareLabeledConstructor stmt (some "skip") [])).2
    let j := (i.annotate skip "pos" .str).2
    let k := (j.annotate stmt "doc" .loc).2
    (i.annotate skip "pos" .str).1 = .ok () ∧ j.Step k ∧
      k.declarations.annotationType? skip "doc" = some .loc ∧
      k.declarations.annotationType? skip "pos" = some .str ∧ k.annotate skip "pos" .str = (.ok (), k) := by
  intro stmt skip i j k
  have hdeclared : (i.annotate skip "pos" .str).1 = .ok () := by rfl
  have hstep : j.Step k := .annotate "doc" (.inr (by decide +kernel)) (.inl rfl)
  obtain ⟨-, hseen, hagain⟩ := annotation_kept_unless_overridden hdeclared (.single hstep)
  have hnone : k.declarations.overridingType? skip "pos" = none := by decide +kernel
  rw [hnone] at hseen
  exact ⟨hdeclared, hstep, by decide +kernel, hseen, hagain hseen⟩

/-- A constructor declares a label, and then its sort is allowed to declare another type for it. The
constructor sees that type, and its own declaration is refused when it is repeated. -/
theorem overridden_annotation_changes :
    let stmt : Ty := .sort 0 "Stmt"
    let skip : Ty := .constructor 0 (some "skip") "Stmt" 0 []
    let i := (((empty 0 0).perform List.reverse (.declareSort "Stmt")).2.perform List.reverse
      (.declareLabeledConstructor stmt (some "skip") [])).2
    let j := (i.annotate skip "pos" .str).2
    let k := (j.annotate stmt "pos" .loc).2
    i.Reached ∧ (i.annotate skip "pos" .str).1 = .ok () ∧
      j.declarations.annotationType? skip "pos" = some .str ∧ j.Step k ∧
      k.declarations.annotationType? skip "pos" = some .loc ∧
      (k.annotate skip "pos" .str).1 = .error (.annotationConflict skip "pos" .loc .str) := by
  intro stmt skip i j k
  have hi : i.Reached := by
    refine ⟨0, 0, (steps_perform List.reverse ?_).trans (steps_perform List.reverse ?_)⟩
    · exact nofun
    · exact List.forall_mem_singleton.mpr (.inr (by decide +kernel))
  have hstep : j.Step k := .annotate "pos" (.inr (by decide +kernel)) (.inl rfl)
  exact ⟨hi, by rfl, by decide +kernel, hstep, by decide +kernel, by rfl⟩

end Interner
end TypedValues
