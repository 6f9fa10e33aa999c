import Mathlib
import TypedValues.Proofs.Ty.Described
import TypedValues.Proofs.Universe.Declare
import TypedValues.Universe.Rebuild

/-!
# Rebuilding described types

A descriptor that is rebuilt yields the type it describes, and only that one. In a universe whose
declarations are consistent the types it owns are rebuilt as themselves.
-/

namespace TypedValues.Universe

variable {α β : Type} {u v : Universe} {s t p : Ty} {d : Descriptor}

/-- One universe comes from another through declarations. -/
abbrev Grows : Universe → Universe → Prop := Relation.ReflTransGen Growth

lemma Grows.extends (h : u.Grows v) : u.Extends v := by
  induction h with
  | refl => exact .refl u
  | tail _ h ih => exact ih.trans h.extends

lemma Grows.consistent (h : u.Grows v) (hu : u.Consistent) : v.Consistent := by
  induction h with
  | refl => exact hu
  | tail _ h ih => exact h.consistent ih

/-! ### Owned types -/

lemma Owns.within (h : u.Owns t) : t.Within u.id :=
  fun p hp => (h p hp).registers.home_eq

lemma owns_of_components_nil (h : u.Declares t) (hc : t.components = []) : u.Owns t :=
  owns_iff.mpr ⟨h, by simp [hc]⟩

lemma owns_tuple {fs : List Field} (h : ∀ f ∈ fs, u.Owns f.item) : u.Owns (.tuple u.id fs) :=
  owns_iff.mpr ⟨rfl, List.forall_mem_map.mpr h⟩

lemma owns_list (h : u.Owns t) : u.Owns (.list u.id t) :=
  owns_iff.mpr ⟨rfl, List.forall_mem_singleton.mpr h⟩

lemma owns_set (h : u.Owns t) : u.Owns (.set u.id t) :=
  owns_iff.mpr ⟨rfl, List.forall_mem_singleton.mpr h⟩

lemma owns_map {k v : Field} (hk : u.Owns k.item) (hv : u.Owns v.item) : u.Owns (.map u.id k v) :=
  owns_iff.mpr ⟨rfl, by simpa [Ty.components] using ⟨hk, hv⟩⟩

/-- What a call hands out is owned if the universe owns what it is made of. -/
lemma owns_of_adopt (h : u.adopt p = .ok (s, v)) (hcs : ∀ c ∈ p.components, u.Owns c) : v.Owns s := by
  have hextends := (growth_of_adopt h).extends
  have hcomponents : ∀ c ∈ s.components, v.Owns c := by
    rw [components_of_adopt h]
    exact fun c hc => hextends.owns (hcs c hc)
  exact owns_iff.mpr
    ⟨(registers_of_adopt h).declares fun c hc => hcomponents c hc c .self, hcomponents⟩

/-! ### What a run of declarations yields -/

lemma run_bind (x : Declaring α) (f : α → Declaring β) (u : Universe) :
    (x >>= f).run u = match x.run u with
      | (.ok a, v) => (f a).run v
      | (.error e, v) => (.error e, v) := by
  change (match x.run u with | (r, v) => (ExceptT.bindCont f r).run v) = _
  rcases x.run u with ⟨_ | a, v⟩ <;> rfl

lemma run_declaring (declare : Universe → Except DeclarationError (Ty × Universe)) (u : Universe) :
    (declaring declare).run u = match declare u with
      | .ok (t, v) => (.ok t, v)
      | .error e => (.error e, u) := by
  unfold declaring
  rw [run_bind]
  change (match declare u with
    | .ok (t, v) => do set v; return t
    | .error e => throw e : Declaring Ty).run u = _
  cases declare u <;> rfl

/-- A run only adds declarations, and what it yields has the property. -/
def Yields (x : Declaring α) (u : Universe) (Q : α → Universe → Prop) : Prop :=
  ∀ r v, x.run u = (r, v) → u.Grows v ∧ ∀ a, r = .ok a → Q a v

lemma yields_pure {a : α} {Q : α → Universe → Prop} (h : Q a u) : Yields (pure a) u Q := by
  rintro r v hrun
  obtain ⟨rfl, rfl⟩ := Prod.mk.inj hrun
  exact ⟨.refl, fun b hb => Except.ok.inj hb ▸ h⟩

lemma Yields.bind {x : Declaring α} {f : α → Declaring β} {Q : α → Universe → Prop}
    {R : β → Universe → Prop} (hx : Yields x u Q)
    (hf : ∀ a v, u.Grows v → Q a v → Yields (f a) v R) : Yields (x >>= f) u R := by
  intro r v hrun
  rw [run_bind] at hrun
  rcases hxu : x.run u with ⟨e | a, w⟩ <;> rw [hxu] at hrun
  · obtain ⟨rfl, rfl⟩ := Prod.mk.inj hrun
    exact ⟨(hx _ _ hxu).1, nofun⟩
  · obtain ⟨hgrows, hQ⟩ := hx _ _ hxu
    obtain ⟨hgrows', hR⟩ := hf a w hgrows (hQ a rfl) r v hrun
    exact ⟨hgrows.trans hgrows', hR⟩

lemma yields_declaring {declare : Universe → Except DeclarationError (Ty × Universe)}
    {Q : Ty → Universe → Prop} (h : ∀ t v, declare u = .ok (t, v) → u.Growth v ∧ Q t v) :
    Yields (declaring declare) u Q := by
  intro r v hrun
  rw [run_declaring] at hrun
  cases hu : declare u with
  | error e =>
    rw [hu] at hrun
    obtain ⟨rfl, rfl⟩ := Prod.mk.inj hrun
    exact ⟨.refl, nofun⟩
  | ok tv =>
    rw [hu] at hrun
    obtain ⟨rfl, rfl⟩ := Prod.mk.inj hrun
    obtain ⟨hgrowth, hQ⟩ := h _ _ hu
    exact ⟨.single hgrowth, fun t ht => Except.ok.inj ht ▸ hQ⟩

/-- A run succeeds, and what it yields has the property. -/
def Succeeds (x : Declaring α) (u : Universe) (Q : α → Universe → Prop) : Prop :=
  ∃ a v, x.run u = (.ok a, v) ∧ Q a v

lemma succeeds_pure {a : α} {Q : α → Universe → Prop} (h : Q a u) : Succeeds (pure a) u Q :=
  ⟨a, u, rfl, h⟩

lemma Succeeds.bind {x : Declaring α} {f : α → Declaring β} {Q : α → Universe → Prop}
    {R : β → Universe → Prop} (hx : Succeeds x u Q) (hf : ∀ a v, Q a v → Succeeds (f a) v R) :
    Succeeds (x >>= f) u R := by
  obtain ⟨a, v, hrun, hQ⟩ := hx
  obtain ⟨b, w, hrun', hR⟩ := hf a v hQ
  exact ⟨b, w, by rw [run_bind, hrun]; exact hrun', hR⟩

lemma succeeds_declaring {declare : Universe → Except DeclarationError (Ty × Universe)}
    {Q : Ty → Universe → Prop} (h : declare u = .ok (t, v)) (hQ : Q t v) :
    Succeeds (declaring declare) u Q :=
  ⟨t, v, by rw [run_declaring, h], hQ⟩

lemma yields_get_bind {f : Universe → Declaring β} {R : β → Universe → Prop} (h : Yields (f u) u R) :
    Yields (get >>= f) u R := h

lemma succeeds_get_bind {f : Universe → Declaring β} {R : β → Universe → Prop}
    (h : Succeeds (f u) u R) : Succeeds (get >>= f) u R := h

/-! ### Rebuilding yields the type described -/

lemma yields_declareSort {name : String} : Yields (declaring (declareSort · name)) u fun s v =>
    s = .sort u.id name ∧ v.Owns s := by
  refine yields_declaring fun s w h => ?_
  refine ⟨growth_of_declareSort h, (declareSort_eq_ok.mp h).2.1, ?_⟩
  exact owns_of_adopt (p := .sort u.id name) h (by simp [Ty.components])

mutual
lemma yields_rebuild : ∀ (d : Descriptor) (u : Universe),
    Yields (rebuild d) u fun t v => t = d.typeIn u.id ∧ v.Owns t
  | .value, u | .void, u | .int, u | .real, u | .str, u | .loc, u =>
    yields_pure ⟨rfl, owns_of_components_nil trivial rfl⟩
  | .object kind, u => yields_get_bind (yields_pure ⟨rfl, owns_of_components_nil rfl rfl⟩)
  | .tuple ds, u => by
    refine (yields_rebuildFields ds u).bind fun fs v hv ⟨hfs, ho⟩ => yields_get_bind (yields_pure ?_)
    exact ⟨by rw [hfs, hv.extends.id_eq]; rfl, owns_tuple ho⟩
  | .list d, u => by
    refine (yields_rebuild d u).bind fun t v hv ⟨ht, ho⟩ => yields_get_bind (yields_pure ?_)
    exact ⟨by rw [ht, hv.extends.id_eq]; rfl, owns_list ho⟩
  | .set d, u => by
    refine (yields_rebuild d u).bind fun t v hv ⟨ht, ho⟩ => yields_get_bind (yields_pure ?_)
    exact ⟨by rw [ht, hv.extends.id_eq]; rfl, owns_set ho⟩
  | .map ⟨k, kl⟩ ⟨d, dl⟩, u => by
    refine (yields_rebuild k u).bind fun s v hv ⟨hs, hos⟩ => ?_
    refine (yields_rebuild d v).bind fun t w hw ⟨ht, hot⟩ => yields_get_bind (yields_pure ?_)
    exact ⟨by rw [hs, ht, hw.extends.id_eq, hv.extends.id_eq]; rfl,
      owns_map (hw.extends.owns hos) hot⟩
  | .aliasOf name d, u => by
    refine (yields_rebuild d u).bind fun t v hv ⟨ht, ho⟩ => yields_declaring fun s w h => ?_
    refine ⟨growth_of_declareAlias h, ?_, owns_of_adopt (p := .aliasOf v.id name t) h ?_⟩
    · rw [(declareAlias_eq_ok.mp h).2.1, ht, hv.extends.id_eq]
      rfl
    · simpa [Ty.components] using ho
  | .sort _, _ => yields_declareSort
  | .constructor name sortName ds, u => by
    refine yields_declareSort.bind fun s v hv ⟨hs, hos⟩ => ?_
    refine (yields_rebuildFields ds v).bind fun fs w hw ⟨hfs, ho⟩ =>
      yields_get_bind (yields_declaring fun t x h => ?_)
    subst hs
    rw [← hv.extends.id_eq, ← hw.extends.id_eq] at h hos
    refine ⟨growth_of_declareConstructor h, ?_, owns_of_adopt
      (p := .constructor w.id name sortName w.id fs) h ?_⟩
    · obtain ⟨n, d, gs, hn, -, hd, -, rfl⟩ := constructorOf_eq_ok.mp (declareConstructor_eq_ok.mp h).1
      obtain ⟨-, rfl⟩ := Ty.sort.inj hn
      obtain ⟨rfl, rfl⟩ := Ty.tuple.inj hd
      rw [hfs, hw.extends.id_eq, hv.extends.id_eq]
      rfl
    · simpa [Ty.components] using ⟨hw.extends.owns hos, owns_tuple ho⟩

lemma yields_rebuildFields : ∀ (ds : List (Labeled Descriptor)) (u : Universe),
    Yields (rebuildFields ds) u fun fs v => fs = Descriptor.fieldsIn u.id ds ∧ ∀ f ∈ fs, v.Owns f.item
  | [], u => yields_pure ⟨rfl, nofun⟩
  | ⟨d, label⟩ :: ds, u => by
    refine (yields_rebuild d u).bind fun t v hv ⟨ht, ho⟩ =>
      (yields_rebuildFields ds v).bind fun fs w hw ⟨hfs, hos⟩ => yields_pure ⟨?_, ?_⟩
    · rw [ht, hfs, hv.extends.id_eq]
      rfl
    · exact List.forall_mem_cons.mpr ⟨hw.extends.owns ho, hos⟩
end

/-! ### Rebuilding what is accepted -/

/-- Under an invariant, every part of the type is handed out as it is once all it is made of is owned. -/
def Accepts (I : Universe → Prop) (t : Ty) : Prop :=
  ∀ u p, I u → p.PartOf t → (∀ c ∈ p.components, u.Owns c) → ∃ v, u.adopt p = .ok (p, v) ∧ I v

section Accepted

variable {I : Universe → Prop} {home : UniverseId}

lemma Accepts.part (ht : Accepts I t) (hp : p.PartOf t) : Accepts I p :=
  fun u q hu hq => ht u q hu (hq.trans hp)

lemma Accepts.component (ht : Accepts I t) (hp : p ∈ t.components) : Accepts I p :=
  ht.part (.inside hp .self)

/-- The call that hands out an accepted type. -/
lemma Accepts.declaring (ht : Accepts I t)
    (declare : Universe → Except DeclarationError (Ty × Universe)) (hu : I u)
    (hcs : ∀ c ∈ t.components, u.Owns c)
    (hdeclare : u.adopt t = declare u) :
    Succeeds (declaring declare) u fun s v => s = t ∧ v.Owns t ∧ I v ∧ u.Extends v := by
  obtain ⟨v, hv, hI⟩ := ht u t hu .self hcs
  exact succeeds_declaring (hdeclare ▸ hv) ⟨rfl, owns_of_adopt hv hcs, hI, (growth_of_adopt hv).extends⟩

mutual
lemma succeeds_rebuild (hI : ∀ v, I v → v.id = home) : ∀ (d : Descriptor) (u : Universe), I u →
    Accepts I (d.typeIn home) → Succeeds (rebuild d) u fun t v =>
      t = d.typeIn home ∧ v.Owns t ∧ I v ∧ u.Extends v
  | .value, u, hu, _ | .void, u, hu, _ | .int, u, hu, _ | .real, u, hu, _ | .str, u, hu, _
  | .loc, u, hu, _ => succeeds_pure ⟨rfl, owns_of_components_nil trivial rfl, hu, .refl u⟩
  | .object kind, u, hu, _ => succeeds_get_bind (succeeds_pure
      ⟨by rw [hI u hu]; rfl, owns_of_components_nil rfl rfl, hu, .refl u⟩)
  | .tuple ds, u, hu, ha => by
    have hds := succeeds_rebuildFields hI ds u hu fun f hf => ha.component (List.mem_map_of_mem hf)
    refine hds.bind fun fs v ⟨hfs, ho, hv, hext⟩ => succeeds_get_bind (succeeds_pure ?_)
    exact ⟨by rw [hfs, hI v hv]; rfl, owns_tuple ho, hv, hext⟩
  | .list d, u, hu, ha => by
    have hd := succeeds_rebuild hI d u hu (ha.component (by simp [Descriptor.typeIn, Ty.components]))
    refine hd.bind fun t v ⟨ht, ho, hv, hext⟩ => succeeds_get_bind (succeeds_pure ?_)
    exact ⟨by rw [ht, hI v hv]; rfl, owns_list ho, hv, hext⟩
  | .set d, u, hu, ha => by
    have hd := succeeds_rebuild hI d u hu (ha.component (by simp [Descriptor.typeIn, Ty.components]))
    refine hd.bind fun t v ⟨ht, ho, hv, hext⟩ => succeeds_get_bind (succeeds_pure ?_)
    exact ⟨by rw [ht, hI v hv]; rfl, owns_set ho, hv, hext⟩
  | .map ⟨k, kl⟩ ⟨d, dl⟩, u, hu, ha => by
    have hk := succeeds_rebuild hI k u hu (ha.component (by simp [Descriptor.typeIn, Ty.components]))
    refine hk.bind fun s v ⟨hs, hos, hv, hext⟩ => ?_
    have hd := succeeds_rebuild hI d v hv (ha.component (by simp [Descriptor.typeIn, Ty.components]))
    refine hd.bind fun t w ⟨ht, hot, hw, hext'⟩ => succeeds_get_bind (succeeds_pure ?_)
    exact ⟨by rw [hs, ht, hI w hw]; rfl, owns_map (hext'.owns hos) hot, hw, hext.trans hext'⟩
  | .aliasOf name d, u, hu, ha => by
    have hd := succeeds_rebuild hI d u hu (ha.component (by simp [Descriptor.typeIn, Ty.components]))
    refine hd.bind fun t v ⟨ht, ho, hv, hext⟩ => ?_
    subst ht
    obtain ⟨s, w, hrun, rfl, hos, hw, hext'⟩ := ha.declaring (declareAlias · name _) hv
      (by simpa [Descriptor.typeIn, Ty.components] using ho) rfl
    exact ⟨_, w, hrun, rfl, hos, hw, hext.trans hext'⟩
  | .sort name, u, hu, ha => by
    obtain ⟨s, w, hrun, rfl, hos, hw, hext⟩ := ha.declaring (declareSort · name) hu
      (by simp [Descriptor.typeIn, Ty.components]) rfl
    exact ⟨_, w, hrun, rfl, hos, hw, hext⟩
  | .constructor name sortName ds, u, hu, ha => by
    have hsort : Accepts I (.sort home sortName) :=
      ha.component (by simp [Descriptor.typeIn, Ty.components])
    have htuple : Accepts I (.tuple home (Descriptor.fieldsIn home ds)) :=
      ha.component (by simp [Descriptor.typeIn, Ty.components])
    refine (hsort.declaring (declareSort · sortName) hu (by simp [Ty.components])
      rfl).bind fun s v ⟨hs, hos, hv, hext⟩ => ?_
    have hds := succeeds_rebuildFields hI ds v hv fun f hf =>
      htuple.component (List.mem_map_of_mem hf)
    refine hds.bind fun fs w ⟨hfs, ho, hw, hext'⟩ => succeeds_get_bind ?_
    subst hs hfs
    rw [hI w hw]
    have hchildren : w.Owns (.tuple home (Descriptor.fieldsIn home ds)) := by
      rw [← hI w hw] at ho ⊢
      exact owns_tuple ho
    obtain ⟨s, x, hrun, rfl, hos', hx, hext''⟩ := ha.declaring
      (declareConstructor · (.sort home sortName) name _) hw
      (by simpa [Descriptor.typeIn, Ty.components] using ⟨hext'.owns hos, hchildren⟩) rfl
    exact ⟨_, x, hrun, rfl, hos', hx, (hext.trans hext').trans hext''⟩

lemma succeeds_rebuildFields (hI : ∀ v, I v → v.id = home) :
    ∀ (ds : List (Labeled Descriptor)) (u : Universe), I u →
      (∀ f ∈ Descriptor.fieldsIn home ds, Accepts I f.item) → Succeeds (rebuildFields ds) u fun fs v =>
        fs = Descriptor.fieldsIn home ds ∧ (∀ f ∈ fs, v.Owns f.item) ∧ I v ∧ u.Extends v
  | [], u, hu, _ => succeeds_pure ⟨rfl, nofun, hu, .refl u⟩
  | ⟨d, label⟩ :: ds, u, hu, ha => by
    obtain ⟨had, hads⟩ := List.forall_mem_cons.mp ha
    refine (succeeds_rebuild hI d u hu had).bind fun t v ⟨ht, ho, hv, hext⟩ =>
      (succeeds_rebuildFields hI ds v hv hads).bind fun fs w ⟨hfs, hos, hw, hext'⟩ => succeeds_pure ?_
    exact ⟨by rw [ht, hfs]; rfl, List.forall_mem_cons.mpr ⟨hext'.owns ho, hos⟩, hw, hext.trans hext'⟩
end

end Accepted

/-! ### Types and their descriptors -/

/-- A universe rebuilds the types it owns as themselves and learns nothing new. -/
lemma ofDescriptor_of_owns (hu : u.Consistent) (ht : u.Owns t) :
    u.ofDescriptor t.descriptor = (.ok t, u) := by
  have hself : t.descriptor.typeIn u.id = t := Ty.rehomed_of_within ht.within
  have haccepts : Accepts (· = u) (t.descriptor.typeIn u.id) := by
    rintro v p rfl hp -
    rw [hself] at hp
    exact ⟨v, adopt_of_registers hu (ht p hp).registers, rfl⟩
  obtain ⟨s, v, hrun, rfl, -, rfl, -⟩ :=
    succeeds_rebuild (fun v (hv : v = u) => hv ▸ rfl) t.descriptor u rfl haccepts
  rw [hself] at hrun
  exact hrun

/-- What is rebuilt is the type described, and the universe owns it. -/
lemma ofDescriptor_eq_ok (h : u.ofDescriptor d = (.ok t, v)) :
    t = d.typeIn u.id ∧ u.Grows v ∧ v.Owns t :=
  have ⟨hgrows, hyield⟩ := yields_rebuild d u _ _ h
  have ⟨htype, howns⟩ := hyield t rfl
  ⟨htype, hgrows, howns⟩

/-- The universes that any sequence of calls leads to. Structural types are made without a trace in the
declarations, and so is a call that is refused, except for rebuilding: what was declared before the
refusal stays. -/
inductive Reached : Universe → Prop
  | start (id : UniverseId) : Reached (.empty id)
  | declareAlias {u v : Universe} {name : String} {s t : Ty} (hu : Reached u)
      (h : u.declareAlias name t = .ok (s, v)) : Reached v
  | declareSort {u v : Universe} {name : String} {s : Ty} (hu : Reached u)
      (h : u.declareSort name = .ok (s, v)) : Reached v
  | declareConstructor {u v : Universe} {sort children s : Ty} {name : Option String} (hu : Reached u)
      (h : u.declareConstructor sort name children = .ok (s, v)) : Reached v
  | annotate {u v : Universe} {on t : Ty} {label : String} (hu : Reached u)
      (h : u.annotate on label t = .ok v) : Reached v
  | rebuild {u : Universe} (d : Descriptor) (hu : Reached u) : Reached (u.ofDescriptor d).2

lemma Reached.consistent (h : u.Reached) : u.Consistent := by
  induction h with
  | start id => exact consistent_empty id
  | declareAlias _ h ih => exact (growth_of_declareAlias h).consistent ih
  | declareSort _ h ih => exact (growth_of_declareSort h).consistent ih
  | declareConstructor _ h ih => exact (growth_of_declareConstructor h).consistent ih
  | annotate _ h ih => exact (growth_of_annotate h).consistent ih
  | @rebuild u d _ ih => exact (yields_rebuild d u _ _ rfl).1.consistent ih

/-- Types and descriptors are inverse to each other. What a universe hands out when it owns what it is made
of is owned, whether it is made, declared or rebuilt; an owned type is rebuilt as itself, without a new
declaration; and whatever is rebuilt has the descriptor asked for. -/
theorem descriptor_inverse (hu : u.Reached) :
    (∀ p s v, (∀ c ∈ p.components, u.Owns c) → u.adopt p = .ok (s, v) → v.Owns s) ∧
    (∀ t, u.Owns t → u.ofDescriptor t.descriptor = (.ok t, u)) ∧
    (∀ d t v, u.ofDescriptor d = (.ok t, v) → t.descriptor = d ∧ v.Owns t) ∧
    ∀ s t, u.Owns s → u.Owns t → (s = t ↔ s.descriptor = t.descriptor) := by
  refine ⟨fun p s v hcs h => owns_of_adopt h hcs, fun t => ofDescriptor_of_owns hu.consistent,
    fun d t v h => ?_, fun s t hs ht => ⟨fun h => h ▸ rfl, Ty.eq_of_descriptor hs.within ht.within⟩⟩
  obtain ⟨rfl, -, howns⟩ := ofDescriptor_eq_ok h
  exact ⟨d.descriptor_typeIn u.id, howns⟩

/-- A universe in which a rebuilding has been refused at its last declaration. -/
theorem descriptor_inverse_after_refusal :
    let age : Descriptor := .aliasOf "Age" .int
    let add : Descriptor := .constructor (some "add") "Expr" [⟨.sort "Expr", some "lhs"⟩, ⟨age, none⟩]
    let run := (Universe.empty 0).ofDescriptor (.tuple [⟨add, none⟩, ⟨.aliasOf "Expr" .int, none⟩])
    let u := run.2
    run.1 = .error (.nameInUse "Expr" .sort) ∧ u.Reached ∧ u.Owns (add.typeIn 0) ∧
      u.ofDescriptor (add.typeIn 0).descriptor = (.ok (add.typeIn 0), u) := by
  intro age add run u
  have hu : u.Reached := .rebuild _ (.start 0)
  have howns : u.Owns (add.typeIn 0) := ((descriptor_inverse hu).2.2.1 add (add.typeIn 0) u rfl).2
  exact ⟨rfl, hu, howns, (descriptor_inverse hu).2.1 _ howns⟩

end TypedValues.Universe
