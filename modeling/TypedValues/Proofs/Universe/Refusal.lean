import TypedValues.Proofs.Universe.Annotation
import TypedValues.Proofs.Universe.Rebuild

/-!
# Descriptors that are refused

A descriptor asks for its declarations one after the other, those of a part before its own. Rebuilding makes
them in this order up to the first one that is refused, and the ones before it stay. So a refused descriptor
leaves the declarations as they were only if all that it asked for before the refusal had been there already.
-/

namespace TypedValues

namespace Descriptor

mutual
/-- The aliases, sorts and constructors that the descriptor asks for, in the order of their declaration. -/
def declarations : Descriptor → List Descriptor
  | .tuple fields => fieldDeclarations fields
  | .list element | .set element => declarations element
  | .map ⟨k, _⟩ ⟨v, _⟩ => declarations k ++ declarations v
  | .aliasOf name aliased => declarations aliased ++ [.aliasOf name aliased]
  | .sort name => [.sort name]
  | .constructor name sortName children =>
    [.sort sortName] ++ (fieldDeclarations children ++ [.constructor name sortName children])
  | _ => []

def fieldDeclarations : List (Labeled Descriptor) → List Descriptor
  | [] => []
  | ⟨d, _⟩ :: fields => declarations d ++ fieldDeclarations fields
end

end Descriptor

namespace Universe

variable {α β : Type} {u v w : Universe} {d : Descriptor} {ds : List Descriptor} {e : DeclarationError}

/-- Makes declarations in turn, up to the first one that is refused. -/
def declareAll (u : Universe) : List Descriptor → Option DeclarationError × Universe
  | [] => (none, u)
  | d :: ds =>
    match u.adopt (d.typeIn u.id) with
    | .ok (_, v) => v.declareAll ds
    | .error e => (some e, u)

lemma declareAll_append (u : Universe) (ds ds' : List Descriptor) :
    u.declareAll (ds ++ ds') = match u.declareAll ds with
      | (none, v) => v.declareAll ds'
      | (some e, v) => (some e, v) := by
  induction ds generalizing u with
  | nil => rfl
  | cons d ds ih =>
    rw [List.cons_append, declareAll, declareAll]
    cases u.adopt (d.typeIn u.id) with
    | ok tv => exact ih tv.2
    | error e => rfl

lemma declareAll_cons_eq_none : u.declareAll (d :: ds) = (none, w) ↔
    ∃ t v, u.adopt (d.typeIn u.id) = .ok (t, v) ∧ v.declareAll ds = (none, w) := by
  rw [declareAll]
  cases u.adopt (d.typeIn u.id) with
  | ok tv =>
    refine ⟨fun h => ⟨tv.1, tv.2, rfl, h⟩, ?_⟩
    rintro ⟨t, v, heq, h⟩
    rwa [Except.ok.inj heq]
  | error e => simp

/-- There is a first declaration that is refused, and those before it have been made. -/
lemma declareAll_eq_some : u.declareAll ds = (some e, w) ↔ ∃ made refused rest,
    ds = made ++ refused :: rest ∧ u.declareAll made = (none, w) ∧
      w.adopt (refused.typeIn w.id) = .error e := by
  constructor
  · intro h
    induction ds generalizing u with
    | nil => cases h
    | cons d ds ih =>
      rw [declareAll] at h
      cases hd : u.adopt (d.typeIn u.id) with
      | ok tv =>
        rw [hd] at h
        obtain ⟨made, refused, rest, rfl, hmade, hrefused⟩ := ih h
        exact ⟨d :: made, refused, rest, rfl,
          declareAll_cons_eq_none.mpr ⟨tv.1, tv.2, hd, hmade⟩, hrefused⟩
      | error e' =>
        rw [hd] at h
        obtain ⟨he, rfl⟩ := Prod.mk.inj h
        obtain rfl := Option.some.inj he
        exact ⟨[], d, ds, rfl, rfl, hd⟩
  · rintro ⟨made, refused, rest, rfl, hmade, hrefused⟩
    rw [declareAll_append, hmade]
    simp only [declareAll, hrefused]

/-- What declarations that are not refused leave behind. -/
structure DeclaredAll (ds : List Descriptor) (u v : Universe) : Prop where
  grows : u.GrowsInto v
  registers : ∀ d ∈ ds, v.Registers (d.typeIn u.id)

/-- A type described in a universe is handed out as it is. -/
lemma eq_typeIn_of_adopt {s : Ty} (h : u.adopt (d.typeIn u.id) = .ok (s, v)) : s = d.typeIn u.id := by
  rw [eq_typeFor_of_adopt h]
  cases d <;> rfl

lemma declaredAll (h : u.declareAll ds = (none, w)) : DeclaredAll ds u w := by
  induction ds generalizing u with
  | nil =>
    obtain ⟨-, rfl⟩ := Prod.mk.inj h
    exact ⟨.refl u, nofun⟩
  | cons d ds ih =>
    obtain ⟨t, v, hd, h⟩ := declareAll_cons_eq_none.mp h
    obtain ⟨hgrows, hregisters⟩ := ih h
    have hfirst := growsInto_of_adopt hd
    have hreg := registers_of_adopt hd
    rw [eq_typeIn_of_adopt hd] at hreg
    rw [hfirst.kept.id_eq] at hregisters
    exact ⟨hfirst.trans hgrows,
      List.forall_mem_cons.mpr ⟨hgrows.kept.registers hreg, hregisters⟩⟩

lemma annotated_declareAll (u : Universe) (ds : List Descriptor) :
    (u.declareAll ds).2.annotated = u.annotated := by
  induction ds generalizing u with
  | nil => rfl
  | cons d ds ih =>
    rw [declareAll]
    cases hd : u.adopt (d.typeIn u.id) with
    | ok tv => exact (ih tv.2).trans (annotated_of_adopt hd)
    | error e => rfl

/-- What is declared already is declared again without a trace. -/
lemma declareAll_of_registers (hu : u.Consistent) (hds : ∀ d ∈ ds, u.Registers (d.typeIn u.id)) :
    u.declareAll ds = (none, u) := by
  induction ds with
  | nil => rfl
  | cons d ds ih =>
    obtain ⟨hd, hds⟩ := List.forall_mem_cons.mp hds
    exact declareAll_cons_eq_none.mpr ⟨_, u, adopt_of_registers hu hd, ih hds⟩

/-! ### Rebuilding as a row of declarations -/

/-- The run makes the declarations in turn and, if none is refused, yields the result. -/
def Makes (x : Declaring α) (u : Universe) (ds : List Descriptor) (a : α) : Prop :=
  x.run u = match u.declareAll ds with
    | (none, v) => (.ok a, v)
    | (some e, v) => (.error e, v)

lemma makes_pure {a : α} : Makes (pure a) u [] a := rfl

lemma Makes.bind {x : Declaring α} {f : α → Declaring β} {ds ds' : List Descriptor} {a : α} {b : β}
    (hx : Makes x u ds a) (hf : ∀ v, u.id = v.id → Makes (f a) v ds' b) :
    Makes (x >>= f) u (ds ++ ds') b := by
  rw [Makes, run_bind, hx, declareAll_append]
  rcases h : u.declareAll ds with ⟨_ | e, v⟩
  · exact hf v (declaredAll h).grows.kept.id_eq.symm
  · rfl

/-- What only computes a result behind a run adds no declaration. -/
lemma Makes.map {x : Declaring α} {f : α → Declaring β} {a : α} {b : β} (hx : Makes x u ds a)
    (hf : ∀ v, u.id = v.id → Makes (f a) v [] b) : Makes (x >>= f) u ds b := by
  have h := hx.bind hf
  rwa [List.append_nil] at h

lemma makes_adopt {declare : Universe → Except DeclarationError (Ty × Universe)}
    (h : declare u = u.adopt (d.typeIn u.id)) : Makes (declaring declare) u [d] (d.typeIn u.id) := by
  rw [Makes, run_declaring, declareAll, h]
  cases hd : u.adopt (d.typeIn u.id) with
  | ok sv =>
    obtain ⟨s, v⟩ := sv
    rw [eq_typeIn_of_adopt hd]
    rfl
  | error e => rfl

mutual
lemma makes_rebuild : ∀ (d : Descriptor) (u : Universe), Makes (rebuild d) u d.declarations (d.typeIn u.id)
  | .value, _ | .void, _ | .int, _ | .real, _ | .str, _ | .loc, _ | .object _, _ => makes_pure
  | .tuple ds, u => (makes_rebuildFields ds u).map fun _ hid => hid ▸ rfl
  | .list d, u | .set d, u => (makes_rebuild d u).map fun _ hid => hid ▸ rfl
  | .map ⟨k, _⟩ ⟨d, _⟩, u =>
    (makes_rebuild k u).bind fun v hv => hv ▸ (makes_rebuild d v).map fun _ hw => hw ▸ rfl
  | .aliasOf _ d, u => (makes_rebuild d u).bind fun _ hv => hv ▸ makes_adopt rfl
  | .sort _, _ => makes_adopt rfl
  | .constructor _ sortName ds, _ => (makes_adopt (d := .sort sortName) rfl).bind fun v hv =>
    hv ▸ (makes_rebuildFields ds v).bind fun _ hw => hw ▸ makes_adopt rfl

lemma makes_rebuildFields : ∀ (ds : List (Labeled Descriptor)) (u : Universe),
    Makes (rebuildFields ds) u (Descriptor.fieldDeclarations ds) (Descriptor.fieldsIn u.id ds)
  | [], _ => makes_pure
  | ⟨d, _⟩ :: ds, u =>
    (makes_rebuild d u).bind fun v hv => hv ▸ (makes_rebuildFields ds v).map fun _ _ => rfl
end

/-! ### What a refusal leaves -/

lemma ofDescriptor_eq (u : Universe) (d : Descriptor) :
    u.ofDescriptor d = match u.declareAll d.declarations with
      | (none, v) => (.ok (d.typeIn u.id), v)
      | (some e, v) => (.error e, v) :=
  makes_rebuild d u

lemma declareAll_of_refused (h : u.ofDescriptor d = (.error e, v)) :
    u.declareAll d.declarations = (some e, v) := by
  rw [ofDescriptor_eq] at h
  rcases hall : u.declareAll d.declarations with ⟨_ | e', w⟩ <;> rw [hall] at h
  · cases h
  · obtain ⟨he, rfl⟩ := Prod.mk.inj h
    rw [Except.error.inj he]

/-- A descriptor declares no annotations, whether it is refused or not. -/
lemma annotated_ofDescriptor (u : Universe) (d : Descriptor) :
    (u.ofDescriptor d).2.annotated = u.annotated := by
  rw [← annotated_declareAll u d.declarations, ofDescriptor_eq]
  rcases u.declareAll d.declarations with ⟨_ | e, v⟩ <;> rfl

/-- The declarations of the two answer every question alike. -/
structure AnswersLike (u v : Universe) : Prop where
  aliases : ∀ name, v.alias? name = u.alias? name
  sorts : ∀ name, v.sort? name = u.sort? name
  constructors : ∀ sort, v.constructorsOf sort = u.constructorsOf sort
  annotationTypes : ∀ on label, v.annotationType? on label = u.annotationType? on label
  annotations : ∀ on, v.annotations on = u.annotations on

lemma AnswersLike.registers {t : Ty} (h : u.AnswersLike v) (hid : v.id = u.id) (ht : v.Registers t) :
    u.Registers t := by
  cases t with
  | aliasOf home name t => exact (h.aliases name).symm.trans ht
  | sort home name => exact (h.sorts name).symm.trans ht
  | constructor home name sortName childHome children =>
    obtain ⟨hhome, hlisted⟩ := ht
    rw [hid] at hhome hlisted
    rw [h.constructors] at hlisted
    exact ⟨hhome, hlisted⟩
  | object | tuple | list | set | map => exact Eq.trans ht hid
  | _ => trivial

/-- A descriptor is refused because one of its declarations is. Those before it have been made: they add
to what the universe answers and change nothing that it answered, annotations not at all. It answers as before
if and only if all of them had been made already. -/
theorem refused_descriptor_harmless_iff (hu : u.Reached) (h : u.ofDescriptor d = (.error e, v)) :
    ∃ made refused rest, d.declarations = made ++ refused :: rest ∧ u.declareAll made = (none, v) ∧
      v.adopt (refused.typeIn v.id) = .error e ∧ u.GrowsInto v ∧ v.annotated = u.annotated ∧
      (u.AnswersLike v ↔ ∀ p ∈ made, u.Registers (p.typeIn u.id)) := by
  obtain ⟨made, refused, rest, hsplit, hmade, hrefused⟩ := declareAll_eq_some.mp (declareAll_of_refused h)
  obtain ⟨hgrows, hregisters⟩ := declaredAll hmade
  have hannotated := u.annotated_ofDescriptor d
  rw [h] at hannotated
  refine ⟨made, refused, rest, hsplit, hmade, hrefused, hgrows, hannotated, fun hsame p hp => ?_,
    fun hall => ?_⟩
  · exact hsame.registers hgrows.kept.id_eq (hregisters p hp)
  · rw [declareAll_of_registers hu.consistent hall] at hmade
    obtain ⟨-, rfl⟩ := Prod.mk.inj hmade
    exact ⟨fun _ => rfl, fun _ => rfl, fun _ => rfl, fun _ _ => rfl, fun _ => rfl⟩

/-- An alias that is known already comes before a sort of the same name, and nothing changes. -/
theorem refused_descriptor_harmless_iff_known :
    let age : Descriptor := .aliasOf "Age" .int
    let d : Descriptor := .tuple [⟨age, some "age"⟩, ⟨.sort "Age", none⟩]
    let u := ((Universe.empty 0).ofDescriptor age).2
    let v := (u.ofDescriptor d).2
    u.Reached ∧ u.ofDescriptor d = (.error (.nameInUse "Age" .typeAlias), v) ∧ u.AnswersLike v := by
  intro age d u v
  have hu : u.Reached := .rebuild age (.start 0)
  have hrefused : u.ofDescriptor d = (.error (.nameInUse "Age" .typeAlias), v) := by rfl
  obtain ⟨made, refused, rest, hsplit, -, -, -, -, hsame⟩ := refused_descriptor_harmless_iff hu hrefused
  refine ⟨hu, hrefused, hsame.mpr fun p hp => ?_⟩
  have hsplit : [age, .sort "Age"] = made ++ refused :: rest := hsplit
  match made, hsplit, hp with
  | [q], hsplit, hp =>
    obtain ⟨rfl, -⟩ := List.cons.inj hsplit
    rw [List.mem_singleton.mp hp]
    exact (by rfl : u.alias? "Age" = some (.aliasOf 0 "Age" .int))
  | q :: q' :: made, hsplit, _ => simp at hsplit

/-- An alias is declared before a sort of the same name is refused, and stays. -/
theorem refused_descriptor_declares :
    let d : Descriptor := .tuple [⟨.aliasOf "Age" .int, some "age"⟩, ⟨.sort "Age", none⟩]
    let u := Universe.empty 0
    let v := (u.ofDescriptor d).2
    u.Reached ∧ u.ofDescriptor d = (.error (.nameInUse "Age" .typeAlias), v) ∧
      u.alias? "Age" = none ∧ v.alias? "Age" = some (.aliasOf 0 "Age" .int) ∧ ¬ u.AnswersLike v := by
  intro d u v
  have hafter : v.alias? "Age" = some (.aliasOf 0 "Age" .int) := by rfl
  refine ⟨.start 0, by rfl, by rfl, hafter, fun hsame => ?_⟩
  have hbefore := (hsame.aliases "Age").symm.trans hafter
  cases hbefore

end Universe
end TypedValues
