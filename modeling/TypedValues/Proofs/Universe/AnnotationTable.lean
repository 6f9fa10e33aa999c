import TypedValues.Proofs.Universe.Refusal

/-!
# The annotations of a type as a table

The annotations that are visible from a type are looked up one by one, from the last scope to the first, or
written into one table, from the first scope to the last. As no type declares a label twice, the two agree.
-/

namespace TypedValues.Universe

variable {u v : Universe} {on s t : Ty} {label : String}

/-- No type declares a label twice. -/
def LabelsDistinct (u : Universe) : Prop := ∀ s, ((u.labelsOn s).map (·.1)).Nodup

lemma LabelsDistinct.of_annotated_eq (hu : u.LabelsDistinct) (h : v.annotated = u.annotated) :
    v.LabelsDistinct := by
  intro s
  rw [labelsOn, h]
  exact hu s

lemma LabelsDistinct.annotate (hu : u.LabelsDistinct) (h : u.annotate on label t = .ok v) :
    v.LabelsDistinct := by
  obtain ⟨-, ⟨-, rfl⟩ | ⟨-, rfl⟩⟩ := annotate_eq_ok.mp h
  · exact hu
  · intro s
    rw [labelsOn_withLabel]
    split
    · exact Table.nodup_keys_put t (hu on)
    · exact hu s

lemma Reached.labelsDistinct (hu : u.Reached) : u.LabelsDistinct := by
  induction hu with
  | start id => exact fun _ => .nil
  | @declareAlias u v name s t _ h ih =>
    exact ih.of_annotated_eq (annotated_of_adopt (p := .aliasOf 0 name t) h)
  | @declareSort u v name s _ h ih => exact ih.of_annotated_eq (annotated_of_adopt (p := .sort 0 name) h)
  | declareConstructor _ h ih => exact ih.of_annotated_eq (annotated_of_adopt (adopt_of_declareConstructor h))
  | annotate _ h ih => exact ih.annotate h
  | rebuild d _ ih => exact ih.of_annotated_eq (annotated_ofDescriptor _ d)

/-- Written over one another from the first scope on, the declarations leave the one that is found first from
the last scope back. -/
lemma get?_annotations (hu : u.LabelsDistinct) (on : Ty) (label : String) :
    Table.get? (· == label) (u.annotations on) = u.annotationType? on label := by
  have hwritten : Table.get? (· == label) (u.annotations on) =
      Table.get? (· == label) ((scopes on).flatMap u.labelsOn).reverse :=
    (Table.get?_foldl_put label ((scopes on).flatMap u.labelsOn) []).trans Option.or_none
  rw [hwritten, List.reverse_flatMap, Table.get?_flatMap]
  refine congrArg (fun f => List.findSome? f (scopes on).reverse) (funext fun scope => ?_)
  exact Table.get?_reverse (hu scope)

lemma nodup_labels_annotations (u : Universe) (on : Ty) : ((u.annotations on).map (·.1)).Nodup :=
  Table.nodup_keys_foldl_put ((scopes on).flatMap u.labelsOn) .nil

/-- What is seen for a label is what the last scope to declare it declares. -/
lemma annotationType?_eq_some : u.annotationType? on label = some t ↔ ∃ before scope after,
    scopes on = before ++ scope :: after ∧ u.declaredOn? label scope = some t ∧
      ∀ s ∈ after, u.declaredOn? label s = none := by
  have hfirst : u.annotationType? on label = some t ↔ ∃ after scope before,
      (scopes on).reverse = after ++ scope :: before ∧ u.declaredOn? label scope = some t ∧
        ∀ s ∈ after, u.declaredOn? label s = none := List.findSome?_eq_some_iff
  rw [hfirst]
  constructor
  · rintro ⟨after, scope, before, hsplit, ht, hnone⟩
    refine ⟨before.reverse, scope, after.reverse, ?_, ht, fun s hs => hnone s (List.mem_reverse.mp hs)⟩
    simpa using congrArg List.reverse hsplit
  · rintro ⟨before, scope, after, hsplit, ht, hnone⟩
    refine ⟨after.reverse, scope, before.reverse, ?_, ht, fun s hs => hnone s (List.mem_reverse.mp hs)⟩
    simpa using congrArg List.reverse hsplit

/-- The table of all annotations visible from a type lists each label once. It lists the labels that are
declared for the type, each with the type that is seen for it, and this is what the last scope to declare the
label declares. -/
theorem annotations_agree (hu : u.Reached) (on : Ty) :
    ((u.annotations on).map (·.1)).Nodup ∧
    (∀ label, label ∈ (u.annotations on).map (·.1) ↔ u.declaresLabel on label = true) ∧
    (∀ label t, (label, t) ∈ u.annotations on ↔ u.annotationType? on label = some t) ∧
    ∀ label t, u.annotationType? on label = some t ↔ ∃ before scope after,
      scopes on = before ++ scope :: after ∧ u.declaredOn? label scope = some t ∧
        ∀ s ∈ after, u.declaredOn? label s = none := by
  have hlisted (label : String) (t : Ty) :
      (label, t) ∈ u.annotations on ↔ u.annotationType? on label = some t := by
    rw [Table.mem_iff_get? (u.nodup_labels_annotations on), get?_annotations hu.labelsDistinct]
  refine ⟨u.nodup_labels_annotations on, fun label => ?_, hlisted, fun _ _ => annotationType?_eq_some⟩
  rw [declaresLabel, Option.isSome_iff_exists, List.mem_map]
  constructor
  · rintro ⟨⟨label, t⟩, hmem, rfl⟩
    exact ⟨t, (hlisted label t).mp hmem⟩
  · rintro ⟨t, ht⟩
    exact ⟨(label, t), (hlisted label t).mpr ht, rfl⟩

/-- An alias of an alias of a constructor, the sort of the constructor and `value` declare four types for one
label, the more general ones later. The alias sees what the sort declares. -/
theorem annotations_agree_chain :
    let stmt : Ty := .sort 0 "Stmt"
    let skip : Ty := .constructor 0 (some "skip") "Stmt" 0 []
    let node : Ty := .aliasOf 0 "Node" skip
    let outer : Ty := .aliasOf 0 "Outer" node
    let u₀ := ((Universe.empty 0).ofDescriptor outer.descriptor).2
    let u₁ := u₀.withLabel outer "pos" .str
    let u₂ := u₁.withLabel node "pos" .real
    let u₃ := u₂.withLabel stmt "pos" .loc
    let u := u₃.withLabel .value "pos" .int
    u.Reached ∧ scopes outer = [.value, outer, node, skip, stmt] ∧
      u.annotationType? outer "pos" = some .loc ∧ ("pos", .loc) ∈ u.annotations outer ∧
      u.declaresLabel outer "pos" = true ∧ (u.annotations outer).length = 1 := by
  intro stmt skip node outer u₀ u₁ u₂ u₃ u
  have h₁ : u₀.annotate outer "pos" .str = .ok u₁ := rfl
  have h₂ : u₁.annotate node "pos" .real = .ok u₂ := rfl
  have h₃ : u₂.annotate stmt "pos" .loc = .ok u₃ := rfl
  have h₄ : u₃.annotate .value "pos" .int = .ok u := rfl
  have hu₀ : u₀.Reached := (Reached.start 0).rebuild outer.descriptor
  have hu : u.Reached := (((hu₀.annotate h₁).annotate h₂).annotate h₃).annotate h₄
  obtain ⟨-, hlabels, hlisted, -⟩ := annotations_agree hu outer
  have hseen : u.annotationType? outer "pos" = some .loc := rfl
  have hlisted : ("pos", .loc) ∈ u.annotations outer := (hlisted "pos" .loc).mpr hseen
  exact ⟨hu, rfl, hseen, hlisted, (hlabels "pos").mp (List.mem_map_of_mem hlisted), rfl⟩

end TypedValues.Universe
