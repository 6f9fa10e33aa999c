import Mathlib
import TypedValues.Proofs.Classes
import TypedValues.Proofs.Ty.Bound
import TypedValues.Proofs.Ty.Grouping
import TypedValues.Ty.Descriptor

/-!
# Described types

A descriptor describes one type in every universe. Two types that are moved to another universe through
their descriptors stand there as they stood before, and so does their join, as long as equal descriptors
of types known by name mean equal types.
-/

namespace TypedValues

namespace Descriptor

mutual
/-- The type described, all parts of it made in one universe. -/
def typeIn (home : UniverseId) : Descriptor → Ty
  | .value => .value
  | .void => .void
  | .int => .int
  | .real => .real
  | .str => .str
  | .loc => .loc
  | .object kind => .object home kind
  | .tuple fields => .tuple home (fieldsIn home fields)
  | .list element => .list home (typeIn home element)
  | .set element => .set home (typeIn home element)
  | .map ⟨k, kl⟩ ⟨v, vl⟩ => .map home ⟨typeIn home k, kl⟩ ⟨typeIn home v, vl⟩
  | .aliasOf name aliased => .aliasOf home name (typeIn home aliased)
  | .sort name => .sort home name
  | .constructor name sortName children =>
    .constructor home name sortName home (fieldsIn home children)

def fieldsIn (home : UniverseId) : List (Labeled Descriptor) → List Field
  | [] => []
  | ⟨d, label⟩ :: fields => ⟨typeIn home d, label⟩ :: fieldsIn home fields
end

mutual
lemma descriptor_typeIn (home : UniverseId) : ∀ d : Descriptor, (d.typeIn home).descriptor = d
  | .value | .void | .int | .real | .str | .loc | .object _ | .sort _ => rfl
  | .tuple fields => by rw [typeIn, Ty.descriptor, fieldDescriptors_fieldsIn home fields]
  | .list d => by rw [typeIn, Ty.descriptor, descriptor_typeIn home d]
  | .set d => by rw [typeIn, Ty.descriptor, descriptor_typeIn home d]
  | .map ⟨k, kl⟩ ⟨v, vl⟩ => by
    rw [typeIn, Ty.descriptor, descriptor_typeIn home k, descriptor_typeIn home v]
  | .aliasOf name d => by rw [typeIn, Ty.descriptor, descriptor_typeIn home d]
  | .constructor name sortName children => by
    rw [typeIn, Ty.descriptor, fieldDescriptors_fieldsIn home children]

lemma fieldDescriptors_fieldsIn (home : UniverseId) :
    ∀ fields : List (Labeled Descriptor), Ty.fieldDescriptors (fieldsIn home fields) = fields
  | [] => rfl
  | ⟨d, label⟩ :: fields => by
    rw [fieldsIn, Ty.fieldDescriptors, descriptor_typeIn home d,
      fieldDescriptors_fieldsIn home fields]
end

end Descriptor

namespace Ty

variable {a b p t x y : Ty} {home h k : UniverseId} {fs gs : List Field}

/-- The type of another universe that has the same descriptor. -/
def rehomed (home : UniverseId) (t : Ty) : Ty := t.descriptor.typeIn home

def rehomedField (home : UniverseId) (f : Field) : Field := ⟨f.item.rehomed home, f.label⟩

@[simp] lemma descriptor_rehomed (home : UniverseId) (t : Ty) :
    (t.rehomed home).descriptor = t.descriptor :=
  Descriptor.descriptor_typeIn home _

lemma rehomed_eq_rehomed : a.rehomed home = b.rehomed home ↔ a.descriptor = b.descriptor := by
  constructor
  · intro h
    rw [← descriptor_rehomed home a, h, descriptor_rehomed]
  · exact congrArg (Descriptor.typeIn home)

lemma fieldsIn_fieldDescriptors (home : UniverseId) (fs : List Field) :
    Descriptor.fieldsIn home (fieldDescriptors fs) = fs.map (rehomedField home) := by
  induction fs with
  | nil => rfl
  | cons f fs ih => rw [fieldDescriptors, Descriptor.fieldsIn, ih]; rfl

/-! ### Rehoming type by type -/

@[simp] lemma rehomed_value : value.rehomed k = .value := rfl

@[simp] lemma rehomed_void : void.rehomed k = .void := rfl

@[simp] lemma rehomed_int : int.rehomed k = .int := rfl

@[simp] lemma rehomed_real : real.rehomed k = .real := rfl

@[simp] lemma rehomed_str : str.rehomed k = .str := rfl

@[simp] lemma rehomed_loc : loc.rehomed k = .loc := rfl

@[simp] lemma rehomed_object (kind : String) : (object h kind).rehomed k = .object k kind := rfl

@[simp] lemma rehomed_tuple : (tuple h fs).rehomed k = .tuple k (fs.map (rehomedField k)) :=
  congrArg (tuple k) (fieldsIn_fieldDescriptors k fs)

@[simp] lemma rehomed_list : (list h a).rehomed k = .list k (a.rehomed k) := rfl

@[simp] lemma rehomed_set : (set h a).rehomed k = .set k (a.rehomed k) := rfl

@[simp] lemma rehomed_map (f g : Field) :
    (map h f g).rehomed k = .map k (rehomedField k f) (rehomedField k g) := rfl

@[simp] lemma rehomed_aliasOf (n : String) :
    (aliasOf h n a).rehomed k = .aliasOf k n (a.rehomed k) := rfl

@[simp] lemma rehomed_sort (n : String) : (sort h n).rehomed k = .sort k n := rfl

@[simp] lemma rehomed_constructor {d : UniverseId} (n : Option String) (s : String) :
    (constructor h n s d fs).rehomed k = .constructor k n s k (fs.map (rehomedField k)) :=
  congrArg (constructor k n s k) (fieldsIn_fieldDescriptors k fs)

lemma components_rehomed (t : Ty) : (t.rehomed k).components = t.components.map (rehomed k) := by
  cases t <;> simp [components, rehomedField]

/-- The parts of a type moved to another universe are its parts moved there. -/
lemma exists_part_of_rehomed (hp : p.PartOf (t.rehomed k)) :
    ∃ q : Ty, q.PartOf t ∧ p = q.rehomed k := by
  generalize hx : t.rehomed k = x at hp
  induction hp generalizing t with
  | self => exact ⟨t, .self, hx.symm⟩
  | inside hc _ ih =>
    rw [← hx, components_rehomed] at hc
    obtain ⟨d, hd, rfl⟩ := List.mem_map.mp hc
    obtain ⟨q, hq, rfl⟩ := ih rfl
    exact ⟨q, .inside hd hq, rfl⟩

/-! ### Types of one universe -/

/-- The type and all its parts were made in one universe. -/
def Within (home : UniverseId) (t : Ty) : Prop := ∀ p : Ty, p.PartOf t → ∀ h ∈ p.home?, h = home

lemma within_iff : t.Within home ↔ (∀ h ∈ t.home?, h = home) ∧ ∀ c ∈ t.components, c.Within home :=
  forall_partOf_iff

lemma within_rehomed (k : UniverseId) (t : Ty) : (t.rehomed k).Within k := by
  intro p hp h hh
  obtain ⟨q, -, rfl⟩ := exists_part_of_rehomed hp
  cases q <;> simp_all [home?]

/-- Moving a type of one universe to that universe leaves it as it is. -/
lemma rehomed_of_within (ht : t.Within home) : t.rehomed home = t := by
  induction hn : sizeOf t using Nat.strong_induction_on generalizing t with
  | _ n ih =>
  subst hn
  obtain ⟨hhome, hcs⟩ := within_iff.mp ht
  have component {c : Ty} (hc : c ∈ t.components) : c.rehomed home = c :=
    ih _ (sizeOf_component_lt hc) (hcs c hc) rfl
  have eq_self {fs : List Field} (hfs : ∀ f ∈ fs, f.item.rehomed home = f.item) :
      fs.map (rehomedField home) = fs := by
    conv_rhs => rw [← List.map_id fs]
    exact List.map_congr_left fun f hf => by rw [rehomedField, hfs f hf]; rfl
  cases t with
  | value | void | int | real | str | loc => rfl
  | object h kind => rw [rehomed_object, hhome h rfl]
  | sort h n => rw [rehomed_sort, hhome h rfl]
  | tuple h fs =>
    rw [rehomed_tuple, hhome h rfl, eq_self fun f hf => component (List.mem_map_of_mem hf)]
  | list h e => rw [rehomed_list, hhome h rfl, component (by simp [components])]
  | set h e => rw [rehomed_set, hhome h rfl, component (by simp [components])]
  | aliasOf h n e => rw [rehomed_aliasOf, hhome h rfl, component (by simp [components])]
  | map h f g =>
    rw [rehomed_map, hhome h rfl, rehomedField, rehomedField, component (by simp [components]),
      component (by simp [components])]
  | constructor h n s d fs =>
    -- The tuple of children is a component of its own, which has to be of the same universe.
    have hchildren := component (c := .tuple d fs) (by simp [components])
    rw [rehomed_tuple] at hchildren
    obtain ⟨rfl, hfs⟩ := Ty.tuple.inj hchildren
    rw [rehomed_constructor, hhome h rfl, hfs]

/-- Types of one universe are told apart by their descriptors. -/
lemma eq_of_descriptor (ha : a.Within home) (hb : b.Within home)
    (h : a.descriptor = b.descriptor) : a = b := by
  rw [← rehomed_of_within ha, ← rehomed_of_within hb]
  exact rehomed_eq_rehomed.mpr h

/-! ### Types known by name -/

/-- Known by a name that its universe has given it: not the same as what it is made of. -/
def Nominal : Ty → Prop
  | .object .. | .aliasOf .. | .sort .. | .constructor .. => True
  | _ => False

/-- Among the parts of two types, those known by name are the same whenever they are described alike. -/
def Aligned (a b : Ty) : Prop :=
  ∀ p : Ty, p.PartOf a → ∀ q : Ty, q.PartOf b → p.Nominal → p.descriptor = q.descriptor → p = q

lemma Aligned.part (hab : Aligned a b) (hx : x.PartOf a) (hy : y.PartOf b) : Aligned x y :=
  fun p hp q hq => hab p (hp.trans hx) q (hq.trans hy)

lemma Aligned.component (hab : Aligned a b) (hx : x ∈ a.components) (hy : y ∈ b.components) :
    Aligned x y :=
  hab.part (.inside hx .self) (.inside hy .self)

lemma aligned_of_within (ha : a.Within home) (hb : b.Within home) : Aligned a b := by
  intro p hp q hq _ h
  exact eq_of_descriptor (fun r hr => ha r (hr.trans hp)) (fun r hr => hb r (hr.trans hq)) h

lemma fieldDescriptors_eq_iff : fieldDescriptors fs = fieldDescriptors gs ↔
    List.Forall₂ (fun f g => f.item.descriptor = g.item.descriptor ∧ f.label = g.label) fs gs := by
  induction fs generalizing gs with
  | nil => cases gs <;> simp [fieldDescriptors]
  | cons f fs ih => cases gs <;> simp [fieldDescriptors, ih]

/-! ### Subtyping elsewhere -/

lemma eq_void_of_rehomed (h : a.rehomed k = .void) : a = .void := by
  cases a <;> simp at h
  rfl

lemma eq_value_of_rehomed (h : a.rehomed k = .value) : a = .value := by
  cases a <;> simp at h
  rfl

/-- Types that are described alike stand below one another. -/
lemma subtype_of_descriptor (hab : Aligned a b) (h : a.descriptor = b.descriptor) :
    a.subtype b = true := by
  induction hn : sizeOf a using Nat.strong_induction_on generalizing a b with
  | _ n ih =>
  subst hn
  have component {c d : Ty} (hc : c ∈ a.components) (hd : d ∈ b.components)
      (hcd : c.descriptor = d.descriptor) : c.subtype d = true :=
    ih _ (sizeOf_component_lt hc) (hab.component hc hd) hcd rfl
  cases a with
  | value | void | int | real | str | loc =>
    cases b <;> cases h
    exact subtype_refl _
  | object h k | aliasOf h n e | sort h n | constructor h n s d fs =>
    rw [hab _ .self _ .self trivial h]
    exact subtype_refl b
  | tuple h fs =>
    cases b <;> simp only [descriptor, reduceCtorEq, Descriptor.tuple.injEq] at h
    refine tuple_subtype_tuple.mpr (forall₂_imp_of_mem (fieldDescriptors_eq_iff.mp h) ?_)
    intro f hf g hg hfg
    exact component (List.mem_map_of_mem hf) (List.mem_map_of_mem hg) hfg.1
  | list h e =>
    cases b <;> simp only [descriptor, reduceCtorEq, Descriptor.list.injEq] at h
    exact list_subtype_list.mpr (component (by simp [components]) (by simp [components]) h)
  | set h e =>
    cases b <;> simp only [descriptor, reduceCtorEq, Descriptor.set.injEq] at h
    exact set_subtype_set.mpr (component (by simp [components]) (by simp [components]) h)
  | map h f g =>
    cases b <;> simp only [descriptor, reduceCtorEq, Descriptor.map.injEq, Labeled.mk.injEq] at h
    obtain ⟨⟨hf, -⟩, hg, -⟩ := h
    exact map_subtype_map.mpr ⟨component (by simp [components]) (by simp [components]) hf,
      component (by simp [components]) (by simp [components]) hg⟩

lemma fieldsBelow_rehomed : FieldsBelow (fs.map (rehomedField k)) (gs.map (rehomedField k)) ↔
    List.Forall₂ (fun f g => (f.item.rehomed k).subtype (g.item.rehomed k) = true) fs gs := by
  rw [FieldsBelow, List.forall₂_map_left_iff, List.forall₂_map_right_iff]
  rfl

/-- The rules of subtyping hold elsewhere between the same types. -/
lemma below_rehomed (hab : Aligned a b) (ih : ∀ x y : Ty, sizeOf x < sizeOf a → Aligned x y →
    ((x.rehomed k).subtype (y.rehomed k) = true ↔ x.subtype y = true)) :
    Below (a.rehomed k) (b.rehomed k) ↔ Below a b := by
  have component {c d : Ty} (hc : c ∈ a.components) (hd : d ∈ b.components) :=
    ih c d (sizeOf_component_lt hc) (hab.component hc hd)
  have resolved {h : UniverseId} {n : String} {t : Ty} (ha : a = .aliasOf h n t) :=
    have hmem : t ∈ a.components := by simp [ha, components]
    ih t b (sizeOf_component_lt hmem) (hab.part (.inside hmem .self) .self)
  have child {h h' d d' : UniverseId} {n n' : Option String} {s s' : String} {fs gs : List Field}
      (ha : a = .constructor h n s d fs) (hb : b = .constructor h' n' s' d' gs) {f g : Field}
      (hf : f ∈ fs) (hg : g ∈ gs) :=
    have hfs : .tuple d fs ∈ a.components := by simp [ha, components]
    have hgs : .tuple d' gs ∈ b.components := by simp [hb, components]
    have hf : f.item ∈ (tuple d fs).components := List.mem_map_of_mem hf
    have hg : g.item ∈ (tuple d' gs).components := List.mem_map_of_mem hg
    ih f.item g.item ((sizeOf_component_lt hf).trans (sizeOf_component_lt hfs))
      ((hab.component hfs hgs).component hf hg)
  constructor
  · intro hb
    cases a with
    | value | void | int | real | str | loc | object h n | sort h n => cases hb
    | aliasOf h n t =>
      cases hb with
      | aliasOf ht => exact .aliasOf ((resolved rfl).mp ht)
    | tuple h fs =>
      rw [rehomed_tuple] at hb
      cases b <;> cases hb
      case tuple.tuple l gs hfg =>
        rw [fieldsIn_fieldDescriptors] at hfg
        refine .tuple (forall₂_imp_of_mem (fieldsBelow_rehomed.mp hfg) fun f hf g hg => ?_)
        exact (component (List.mem_map_of_mem hf) (List.mem_map_of_mem hg)).mp
    | list h e =>
      cases b <;> cases hb
      case list.list l e' he =>
        exact .list ((component (by simp [components]) (by simp [components])).mp he)
    | set h e =>
      cases b <;> cases hb
      case set.set l e' he =>
        exact .set ((component (by simp [components]) (by simp [components])).mp he)
    | map h f g =>
      cases b <;> cases hb
      case map.map l f' g' hf hg =>
        exact .map ((component (by simp [components]) (by simp [components])).mp hf)
          ((component (by simp [components]) (by simp [components])).mp hg)
    | constructor h n s d fs =>
      rw [rehomed_constructor] at hb
      have sort_eq {l : UniverseId} (hpart : (sort l s).PartOf b) : Ty.sort h s = .sort l s :=
        hab _ (.inside (by simp [components]) .self) _ hpart trivial rfl
      cases b <;> cases hb
      case sort.sort l =>
        obtain rfl : h = l := (Ty.sort.inj (sort_eq .self)).1
        exact .sort
      case constructor.constructor l d' gs hfg =>
        obtain rfl : h = l := (Ty.sort.inj (sort_eq (.inside (List.mem_cons_self) .self))).1
        rw [fieldsIn_fieldDescriptors] at hfg
        refine .constructor (forall₂_imp_of_mem (fieldsBelow_rehomed.mp hfg) fun f hf g hg => ?_)
        exact (child rfl rfl hf hg).mp
  · intro hb
    cases hb with
    | @aliasOf h n t b ht => exact .aliasOf ((resolved rfl).mpr ht)
    | tuple hfg =>
      rw [rehomed_tuple, rehomed_tuple]
      refine .tuple (fieldsBelow_rehomed.mpr (forall₂_imp_of_mem hfg fun f hf g hg => ?_))
      exact (component (List.mem_map_of_mem hf) (List.mem_map_of_mem hg)).mpr
    | list hst => exact .list ((component (by simp [components]) (by simp [components])).mpr hst)
    | set hst => exact .set ((component (by simp [components]) (by simp [components])).mpr hst)
    | map hf hg =>
      exact .map ((component (by simp [components]) (by simp [components])).mpr hf)
        ((component (by simp [components]) (by simp [components])).mpr hg)
    | constructor hfg =>
      rw [rehomed_constructor, rehomed_constructor]
      refine .constructor (fieldsBelow_rehomed.mpr (forall₂_imp_of_mem hfg fun f hf g hg => ?_))
      exact (child rfl rfl hf hg).mpr
    | sort =>
      rw [rehomed_constructor]
      exact .sort

/-- Types that are moved to another universe stand there as they stood before. -/
lemma subtype_rehomed (k : UniverseId) (hab : Aligned a b) :
    (a.rehomed k).subtype (b.rehomed k) = true ↔ a.subtype b = true := by
  induction hn : sizeOf a using Nat.strong_induction_on generalizing a b with
  | _ n ih =>
  subst hn
  constructor
  · intro h
    rcases subtype_iff.mp h with heq | hv | hv | hb
    · exact subtype_of_descriptor hab (rehomed_eq_rehomed.mp heq)
    · rw [eq_void_of_rehomed hv]
      exact void_subtype b
    · rw [eq_value_of_rehomed hv]
      exact subtype_value a
    · exact ((below_rehomed hab fun x y hx hxy => ih _ hx hxy rfl).mp hb).subtype
  · intro h
    rcases subtype_iff.mp h with rfl | rfl | rfl | hb
    · exact subtype_refl _
    · exact void_subtype _
    · exact subtype_value _
    · exact ((below_rehomed hab fun x y hx hxy => ih _ hx hxy rfl).mpr hb).subtype

/-! ### Joins elsewhere -/

@[simp] lemma resolved_rehomed (t : Ty) : (t.rehomed k).resolved = t.resolved.rehomed k := by
  fun_induction resolved t with
  | case1 h n t ih => exact ih
  | case2 t ht =>
    refine resolved_of_not_alias ?_
    cases t <;> simp_all [isAlias]

lemma aliasChain_rehomed (t : Ty) :
    (t.rehomed k).aliasChain = t.aliasChain.map (rehomed k) := by
  fun_induction aliasChain t with
  | case1 h n t ih => rw [rehomed_aliasOf, aliasChain_aliasOf, ih, List.map_cons, rehomed_aliasOf]
  | case2 t ht =>
    refine aliasChain_of_not_alias ?_
    cases t <;> simp_all [isAlias]

lemma nominal_of_mem_aliasChain (hx : x ∈ t.aliasChain) : x.Nominal := by
  fun_induction aliasChain t with
  | case1 h n t ih =>
    rcases List.mem_cons.mp hx with rfl | hx
    · trivial
    · exact ih hx
  | case2 => simp at hx

lemma sharedAlias?_rehomed (hab : Aligned a b) :
    sharedAlias? (a.rehomed k) (b.rehomed k) = (sharedAlias? a b).map (rehomed k) := by
  rw [sharedAlias?, sharedAlias?, aliasChain_rehomed, aliasChain_rehomed, List.find?_map]
  refine congrArg _ (List.find?_congr fun x hx => ?_)
  rw [Function.comp_apply, Bool.eq_iff_iff, List.contains_iff_mem, List.contains_iff_mem]
  constructor
  · intro hmem
    obtain ⟨y, hy, hyx⟩ := List.mem_map.mp hmem
    rwa [hab x (partOf_of_mem_aliasChain hx) y (partOf_of_mem_aliasChain hy)
      (nominal_of_mem_aliasChain hx) (rehomed_eq_rehomed.mp hyx).symm]
  · exact List.mem_map_of_mem

lemma joinFields_rehomed (hjoin : ∀ f ∈ fs, ∀ g ∈ gs,
    (join h f.item g.item).rehomed k = join k (f.item.rehomed k) (g.item.rehomed k)) :
    (joinFields h fs gs).map (rehomedField k) =
      joinFields k (fs.map (rehomedField k)) (gs.map (rehomedField k)) := by
  simp only [joinFields_eq_zipWith]
  refine List.ext_getElem (by simp) fun i hi hi' => ?_
  simp only [List.getElem_map, List.getElem_zipWith, joinField, rehomedField]
  rw [hjoin _ (List.getElem_mem _) _ (List.getElem_mem _)]

end Ty

/-- The shape of a type moved to another universe. -/
def Shape.rehomed (home : UniverseId) : Shape → Shape
  | .leaf t => .leaf (t.rehomed home)
  | .family _ name => .family home name
  | s => s

namespace Ty

variable {a b : Ty} {h k : UniverseId}

@[simp] lemma shape?_rehomed (t : Ty) :
    (t.rehomed k).shape? = t.shape?.map (Shape.rehomed k) := by
  cases t <;> simp [Shape.rehomed]

lemma partOf_of_shape?_family {n : String} (ha : a.shape? = some (.family h n)) :
    (sort h n).PartOf a := by
  rcases shape?_eq_family.mp ha with rfl | ⟨c, d, fs, rfl⟩
  · exact .self
  · exact .inside List.mem_cons_self .self

lemma eq_of_leaf (hab : Aligned a b) (ha : a.shape? = some (.leaf a))
    (h : a.descriptor = b.descriptor) : a = b := by
  cases a with
  | object l n => exact hab _ .self _ .self trivial h
  | int | real | str | loc =>
    cases b <;> cases h
    rfl
  | _ => simp at ha

/-- Types of different shapes have different shapes elsewhere. -/
lemma eq_of_shape_rehomed (hab : Aligned a b) {r s : Shape} (ha : a.shape? = some r)
    (hb : b.shape? = some s) (h : r.rehomed k = s.rehomed k) : r = s := by
  cases r with
  | leaf t =>
    cases s <;> simp only [Shape.rehomed, reduceCtorEq, Shape.leaf.injEq] at h
    obtain rfl := shape?_eq_leaf ha
    obtain rfl := shape?_eq_leaf hb
    rw [eq_of_leaf hab ha (rehomed_eq_rehomed.mp h)]
  | family l n =>
    cases s <;> simp only [Shape.rehomed, reduceCtorEq, Shape.family.injEq, true_and] at h
    subst h
    obtain ⟨rfl, -⟩ := Ty.sort.inj
      (hab _ (partOf_of_shape?_family ha) _ (partOf_of_shape?_family hb) trivial rfl)
    rfl
  | tuple n | list | set | map => cases s <;> simp_all [Shape.rehomed]

/-- The join of two types that are moved to another universe is their join, moved there. -/
lemma rehomed_join (h k : UniverseId) (hab : Aligned a b) :
    (join h a b).rehomed k = join k (a.rehomed k) (b.rehomed k) := by
  revert hab
  refine joinInduction (motive := fun a b => Aligned a b → (join h a b).rehomed k =
    join k (a.rehomed k) (b.rehomed k)) (fun a _ => ?_)
    (fun b _ => ?_) (fun a _ => ?_) (fun b _ => ?_) (fun a _ => ?_)
    (fun a b ha ha' hb hb' hn ih hab => ?_)
    (fun l m fs gs hne hl ih hab => ?_) (fun l m s t hne ih hab => ?_) (fun l m s t hne ih hab => ?_)
    (fun l m f g f' g' hne ihf ihg hab => ?_) (fun a b l name hne ha hb hab => ?_)
    (fun a b r s hne ha hb hab => ?_) a b
  · rw [join_self, join_self]
  · simp
  · simp
  · simp
  · simp
  · have hne_void {t : Ty} (ht : t ≠ .void) : t.rehomed k ≠ .void :=
      fun h => ht (eq_void_of_rehomed h)
    have hne_value {t : Ty} (ht : t ≠ .value) : t.rehomed k ≠ .value :=
      fun h => ht (eq_value_of_rehomed h)
    have halias (t : Ty) : (t.rehomed k).isAlias = t.isAlias := by cases t <;> simp [isAlias]
    rw [join_alias ha ha' hb hb' hn, join_alias (hne_void ha) (hne_value ha') (hne_void hb)
      (hne_value hb') (by rwa [halias, halias]), sharedAlias?_rehomed hab, resolved_rehomed,
      resolved_rehomed, ← ih (hab.part (partOf_resolved a) (partOf_resolved b))]
    cases sharedAlias? a b <;> rfl
  · rw [join_tuple hne hl, rehomed_tuple, rehomed_tuple, rehomed_tuple, join_tuples (by simp [hl])]
    refine congrArg _ (joinFields_rehomed fun f hf g hg => ih f hf g hg (hab.component ?_ ?_))
    · exact List.mem_map_of_mem hf
    · exact List.mem_map_of_mem hg
  · rw [join_list hne, rehomed_list, rehomed_list, rehomed_list, join_lists,
      ih (hab.component (by simp [components]) (by simp [components]))]
  · rw [join_set hne, rehomed_set, rehomed_set, rehomed_set, join_sets,
      ih (hab.component (by simp [components]) (by simp [components]))]
  · rw [join_map hne, rehomed_map, rehomed_map, rehomed_map, join_maps]
    simp only [rehomedField, joinField]
    rw [ihf (hab.component (by simp [components]) (by simp [components])),
      ihg (hab.component (by simp [components]) (by simp [components]))]
  · have hnominal : a.Nominal := by
      rcases shape?_eq_family.mp ha with rfl | ⟨c, d, fs, rfl⟩ <;> trivial
    have hne' : a.rehomed k ≠ b.rehomed k := fun heq =>
      hne (hab a .self b .self hnominal (rehomed_eq_rehomed.mp heq))
    rw [join_family hne ha hb, rehomed_sort, join_family hne' (by rw [shape?_rehomed, ha]; rfl)
      (by rw [shape?_rehomed, hb]; rfl)]
  · rw [join_of_shape_ne hne ha hb, rehomed_value,
      join_of_shape_ne (fun h => hne (eq_of_shape_rehomed hab ha hb h))
        (by rw [shape?_rehomed, ha]; rfl) (by rw [shape?_rehomed, hb]; rfl)]

end Ty
end TypedValues
