import Mathlib
import TypedValues.Proofs.Universe.Retention

/-!
# The registry

The declarations of a universe only grow, whatever is asked of it and in whichever order. A call that is
refused leaves them as they are, and one that is repeated hands out the type that is there.
-/

namespace TypedValues

/-- The types that exist because they have been declared. -/
def Ty.IsDeclared : Ty → Prop
  | .aliasOf .. | .sort .. | .constructor .. => True
  | _ => False

/-- Whether the type is a constructor of this sort; an alias of one is not. -/
def Ty.isConstructorOf (c sort : Ty) : Bool :=
  match c with
  | .constructor home _ sortName _ _ => decide (sort = .sort home sortName)
  | _ => false

namespace Universe

variable {u v w : Universe} {p s t sort children : Ty} {cname : Option String}

lemma adopt_of_declareConstructor (h : u.declareConstructor sort cname children = .ok (t, v)) :
    u.adopt t = .ok (t, v) := by
  obtain ⟨n, d, fs, rfl, -, rfl, -, rfl⟩ := constructorOf_eq_ok.mp (declareConstructor_eq_ok.mp h).1
  exact h

/-- What a universe hands out for a shape, it hands out again for the shape and for the type itself. -/
lemma adopt_eq_adopt (h : u.adopt p = .ok (t, v)) (w : Universe) : w.adopt p = w.adopt t := by
  rw [eq_typeFor_of_adopt h]
  cases p <;> rfl

/-- A call that succeeded once succeeds ever after, with the same type and without a new declaration. -/
lemma adopt_again (h : u.adopt p = .ok (t, v)) (hv : v.Extends w) (hw : w.Consistent) :
    w.adopt p = .ok (t, w) := by
  rw [adopt_eq_adopt h w]
  exact adopt_of_registers hw (hv.registers (registers_of_adopt h))

lemma declareConstructor_again (h : u.declareConstructor sort cname children = .ok (t, v))
    (hv : v.Extends w) (hw : w.Consistent) : w.declareConstructor sort cname children = .ok (t, w) := by
  have hagain := adopt_again (adopt_of_declareConstructor h) hv hw
  obtain ⟨n, d, fs, rfl, -, rfl, -, rfl⟩ := constructorOf_eq_ok.mp (declareConstructor_eq_ok.mp h).1
  exact hagain

lemma constructorsOf_eq_nil (h : ∀ n, s ≠ .sort u.id n) : u.constructorsOf s = [] := by
  refine List.eq_nil_iff_forall_not_mem.mpr fun c hc => ?_
  obtain ⟨n, hn⟩ := sort_of_mem_constructorsOf hc
  exact h n hn

lemma constructorsOf_empty (id : UniverseId) (s : Ty) : (empty id).constructorsOf s = [] := by
  refine List.eq_nil_iff_forall_not_mem.mpr fun c hc => ?_
  obtain ⟨n, rfl⟩ := sort_of_mem_constructorsOf hc
  cases sort?_of_mem_constructorsOf hc

/-- A constructor that is handed out is added to its sort, behind those that are listed there, unless it
is one of them. -/
lemma constructorsOf_of_adopt (h : u.adopt p = .ok (t, v)) (s : Ty) : v.constructorsOf s =
    u.constructorsOf s ++ if t.isConstructorOf s = true ∧ t ∉ u.constructorsOf s then [t] else [] := by
  cases p with
  | aliasOf home n s' =>
    obtain ⟨-, rfl, ⟨-, rfl⟩ | ⟨-, -, rfl⟩⟩ := declareAlias_eq_ok.mp h
    · exact (List.append_nil _).symm
    · exact (List.append_nil _).symm
  | sort home n =>
    obtain ⟨-, rfl, ⟨-, rfl⟩ | ⟨-, -, rfl⟩⟩ := declareSort_eq_ok.mp h
    · exact (List.append_nil _).symm
    · exact (constructorsOf_withSort s).trans (List.append_nil _).symm
  | constructor home cname n d fs =>
    obtain ⟨hc, h⟩ := declareConstructor_eq_ok.mp h
    obtain ⟨m, d', fs', hs, -, -, -, rfl⟩ := constructorOf_eq_ok.mp hc
    obtain ⟨rfl, rfl⟩ := Ty.sort.inj hs
    simp only [Ty.isConstructorOf, decide_eq_true_eq]
    obtain ⟨-, ⟨hold, rfl⟩ | ⟨hnew, -, rfl⟩⟩ := addConstructor_eq_ok.mp h
    · rw [if_neg, List.append_nil]
      rintro ⟨rfl, hnew⟩
      exact hnew hold
    · by_cases hs : s = .sort u.id n
      · subst hs
        rw [constructorsOf_withConstructor, if_pos rfl, if_pos ⟨rfl, hnew⟩]
      · rw [if_neg fun h => hs h.1, List.append_nil]
        by_cases hm : ∃ m, s = .sort u.id m
        · obtain ⟨m, rfl⟩ := hm
          have hne : n ≠ m := by
            rintro rfl
            exact hs rfl
          rw [constructorsOf_withConstructor, if_neg hne]
        · rw [not_exists] at hm
          exact (constructorsOf_eq_nil (u := u.withConstructor n _) hm).trans (constructorsOf_eq_nil hm).symm
  | _ =>
    cases h
    exact (List.append_nil _).symm

lemma constructorsOf_of_annotate {on : Ty} {label : String} (h : u.annotate on label t = .ok v) (s : Ty) :
    v.constructorsOf s = u.constructorsOf s := by
  unfold annotate at h
  obtain ⟨-, h⟩ := checkIdentifier_bind_eq_ok.mp h
  split at h
  · obtain ⟨-, h⟩ := ite_throw_eq_ok.mp h
    rw [pure_eq_ok.mp h]
  · rw [← pure_eq_ok.mp h]
    rfl

lemma mem_declared_of_registers (ht : u.Registers t) (hdeclared : t.IsDeclared) : t ∈ u.declared := by
  cases t with
  | aliasOf home n t =>
    obtain ⟨s, hs, heq⟩ := Option.map_eq_some_iff.mp ht
    exact mem_declared.mpr (.inl ⟨_, Table.mem_of_get? hs, heq⟩)
  | sort home n =>
    obtain ⟨⟨cs, hcs⟩, heq⟩ := sort?_eq_some.mp ht
    exact mem_declared.mpr (.inr (.inl ⟨_, Table.mem_of_get? hcs, .inl heq.symm⟩))
  | constructor home cname n d fs =>
    have hlisted := ht.2
    obtain ⟨⟨cs, hcs⟩, -⟩ := sort?_eq_some.mp (sort?_of_mem_constructorsOf hlisted)
    rw [constructorsOf_sort, hcs, Option.getD_some] at hlisted
    exact mem_declared.mpr (.inr (.inl ⟨_, Table.mem_of_get? hcs, .inr hlisted⟩))
  | _ => cases hdeclared

lemma home_of_registers (ht : u.Registers t) (hdeclared : t.IsDeclared) : t.home? = some u.id := by
  cases t with
  | aliasOf | sort | constructor => exact congrArg some (ht.home_eq _ rfl)
  | _ => cases hdeclared

/-- The later declarations keep the earlier ones, and the constructors of each sort in their order. -/
structure GrowsInto (u v : Universe) : Prop where
  kept : u.Extends v
  constructors_extend : ∀ s, u.constructorsOf s <+: v.constructorsOf s
  constructors_nodup : ∀ s, (u.constructorsOf s).Nodup → (v.constructorsOf s).Nodup

lemma GrowsInto.refl (u : Universe) : u.GrowsInto u := ⟨.refl u, fun _ => List.prefix_rfl, fun _ h => h⟩

lemma GrowsInto.trans (h : u.GrowsInto v) (h' : v.GrowsInto w) : u.GrowsInto w where
  kept := h.kept.trans h'.kept
  constructors_extend s := (h.constructors_extend s).trans (h'.constructors_extend s)
  constructors_nodup s hs := h'.constructors_nodup s (h.constructors_nodup s hs)

lemma growsInto_of_adopt (h : u.adopt p = .ok (t, v)) : u.GrowsInto v where
  kept := (growth_of_adopt h).extends
  constructors_extend s := by
    rw [constructorsOf_of_adopt h]
    exact List.prefix_append _ _
  constructors_nodup s hs := by
    rw [constructorsOf_of_adopt h]
    split
    · next hnew => exact List.concat_eq_append ▸ hs.concat hnew.2
    · rwa [List.append_nil]

lemma growsInto_of_annotate {on : Ty} {label : String} (h : u.annotate on label t = .ok v) :
    u.GrowsInto v where
  kept := (growth_of_annotate h).extends
  constructors_extend s := by rw [constructorsOf_of_annotate h]
  constructors_nodup s hs := by rwa [constructorsOf_of_annotate h]

end Universe

namespace Interner

variable {i j : Interner} {p s t sort children : Ty} {cname : Option String} {visit visit' : Visit}

/-! ### Answers -/

/-- The cache answers as its declarations do, and keeps what they have become. -/
inductive Follows (i : Interner) :
    Except DeclarationError (Ty × Universe) → Except DeclarationError Ty × Interner → Prop
  | ok {t : Ty} {j : Interner} : Follows i (.ok (t, j.declarations)) (.ok t, j)
  | error {e : DeclarationError} {j : Interner} (h : j.declarations = i.declarations) :
      Follows i (.error e) (.error e, j)

lemma follows_declareConstructor (visit : Visit) (sort : Ty) (cname : Option String) (children : Ty)
    (i : Interner) : i.Follows (i.declarations.declareConstructor sort cname children)
      (i.declareConstructor visit sort cname children) := by
  cases h : i.declarations.declareConstructor sort cname children with
  | ok tu =>
    obtain ⟨t, u⟩ := tu
    rw [declareConstructor_of_ok h]
    exact .ok (j := { i.intern visit t with declarations := u })
  | error e =>
    unfold Universe.declareConstructor at h
    unfold declareConstructor
    cases hc : i.declarations.constructorOf sort cname children with
    | error e' =>
      rw [hc] at h
      cases h
      exact .error rfl
    | ok c =>
      have h : i.declarations.addConstructor sort c = .error e := by rwa [hc] at h
      simp only [h]
      exact .error declarations_intern

lemma follows_adopt (visit : Visit) (p : Ty) (i : Interner) :
    i.Follows (i.declarations.adopt p) (i.adopt visit p) := by
  cases h : i.declarations.adopt p with
  | ok tu =>
    obtain ⟨t, u⟩ := tu
    rw [adopt_of_ok h]
    exact .ok (j := { i.intern visit t with declarations := u })
  | error e =>
    cases p with
    | aliasOf home n s =>
      have h : i.declarations.declareAlias n s = .error e := h
      simp only [adopt, declareAlias, h]
      exact .error rfl
    | sort home n =>
      have h : i.declarations.declareSort n = .error e := h
      simp only [adopt, declareSort, h]
      exact .error rfl
    | constructor home cname n d fs =>
      rw [← h]
      exact follows_declareConstructor visit _ _ _ i
    | _ => cases h

/-! ### Runs -/

/-- A step changes the declarations at most by a call that succeeds. -/
lemma Step.declarations_eq (h : i.Step j) : j.declarations = i.declarations ∨
    (∃ p t, i.declarations.adopt p = .ok (t, j.declarations)) ∨
      ∃ on label t, i.declarations.annotate on label t = .ok j.declarations := by
  cases h with
  | @adopt visit p hcs =>
    have hfollows := i.follows_adopt visit p
    generalize hx : i.declarations.adopt p = x, hy : i.adopt visit p = y at hfollows
    cases hfollows with
    | @ok t j => exact .inr (.inl ⟨p, t, hx⟩)
    | error h => exact .inl h
  | @declareConstructor visit sort children cname hsort hchildren =>
    have hfollows := i.follows_declareConstructor visit sort cname children
    generalize hx : i.declarations.declareConstructor sort cname children = x,
      hy : i.declareConstructor visit sort cname children = y at hfollows
    cases hfollows with
    | @ok t j => exact .inr (.inl ⟨t, t, Universe.adopt_of_declareConstructor hx⟩)
    | error h => exact .inl h
  | @annotate on t label hon ht =>
    unfold Interner.annotate
    cases h : i.declarations.annotate on label t with
    | ok u => exact .inr (.inr ⟨on, label, t, h⟩)
    | error e => exact .inl rfl
  | share | receive | drop => exact .inl rfl
  | purge visit => exact .inl thins_sweepAll.declarations

lemma Step.growsInto (h : i.Step j) : i.declarations.GrowsInto j.declarations := by
  rcases h.declarations_eq with heq | ⟨p, t, h⟩ | ⟨on, label, t, h⟩
  · exact heq ▸ .refl _
  · exact Universe.growsInto_of_adopt h
  · exact Universe.growsInto_of_annotate h

lemma growsInto_of_steps (h : Relation.ReflTransGen Step i j) :
    i.declarations.GrowsInto j.declarations := by
  induction h with
  | refl => exact .refl _
  | tail _ h ih => exact ih.trans h.growsInto

/-! ### Calls -/

/-- What may be asked of the registry. -/
inductive Call
  | declareAlias (name : String) (aliased : Ty)
  | declareSort (name : String)
  | declareConstructor (sort : Ty) (name : Option String) (children : Ty)
  | declareLabeledConstructor (sort : Ty) (name : Option String) (children : List (Ty × String))
  | annotate (on : Ty) (label : String) (t : Ty)
  | intern (shape : Ty)

/-- The types that the caller must have. -/
def Call.given : Call → List Ty
  | .declareAlias _ aliased => [aliased]
  | .declareSort _ => []
  | .declareConstructor sort _ children => [sort, children]
  | .declareLabeledConstructor sort _ children => sort :: children.map (·.1)
  | .annotate on _ t => [on, t]
  | .intern shape => shape.components

/-- Makes the call. All but an annotation hand out a type. -/
def perform (visit : Visit) (i : Interner) : Call → Except DeclarationError (Option Ty) × Interner
  | .declareAlias name aliased => (i.declareAlias visit name aliased).map (·.map some) id
  | .declareSort name => (i.declareSort visit name).map (·.map some) id
  | .declareConstructor sort name children =>
    (i.declareConstructor visit sort name children).map (·.map some) id
  | .declareLabeledConstructor sort name children =>
    (i.declareLabeledConstructor visit sort name children).map (·.map some) id
  | .annotate on label t => (i.annotate on label t).map (·.map fun _ => none) id
  | .intern shape => (i.adopt visit shape).map (·.map some) id

lemma follows_declareLabeledConstructor (visit : Visit) (sort : Ty) (cname : Option String)
    (children : List (Ty × String)) (i : Interner) :
    i.Follows (i.declarations.declareLabeledConstructor sort cname children)
      (i.declareLabeledConstructor visit sort cname children) := by
  let tuple := Ty.labeledTupleOf i.declarations.id children
  have hfollows := follows_declareConstructor visit sort cname tuple (i.intern visit tuple)
  rw [declarations_intern] at hfollows
  rw [Universe.declareLabeledConstructor, declareLabeledConstructor]
  generalize i.declarations.declareConstructor sort cname tuple = x,
    (i.intern visit tuple).declareConstructor visit sort cname tuple = y at hfollows
  cases hfollows with
  | @ok t j => exact .ok (j := j.drop tuple)
  | error h => exact .error (h.trans declarations_intern)

lemma Follows.declarations_of_error {x : Except DeclarationError (Ty × Universe)}
    {y : Except DeclarationError Ty × Interner} {e : DeclarationError} (h : i.Follows x y)
    (he : (y.map (·.map some) id).1 = .error e) :
    (y.map (·.map some) id).2.declarations = i.declarations := by
  cases h with
  | ok => cases he
  | error h => exact h

/-- A call that fails leaves the declarations as they were. -/
lemma declarations_of_perform_error {c : Call} {e : DeclarationError}
    (h : (i.perform visit c).1 = .error e) : (i.perform visit c).2.declarations = i.declarations := by
  cases c with
  | declareAlias name aliased =>
    exact (i.follows_adopt visit (.aliasOf 0 name aliased)).declarations_of_error h
  | declareSort name => exact (i.follows_adopt visit (.sort 0 name)).declarations_of_error h
  | declareConstructor sort name children =>
    exact (i.follows_declareConstructor visit sort name children).declarations_of_error h
  | declareLabeledConstructor sort name children =>
    exact (i.follows_declareLabeledConstructor visit sort name children).declarations_of_error h
  | annotate on label t =>
    simp only [perform, Interner.annotate] at h ⊢
    cases ha : i.declarations.annotate on label t with
    | ok u =>
      rw [ha] at h
      cases h
    | error e => rfl
  | intern shape => exact (i.follows_adopt visit shape).declarations_of_error h

lemma held_intern : (i.intern visit t).held = t :: i.held := by
  unfold intern
  split
  · rfl
  · exact congrArg (t :: ·) held_makeRoom

lemma AtHand.intern (h : i.AtHand s) : (i.intern visit t).AtHand s := by
  rw [AtHand, held_intern]
  exact h.imp_right (List.mem_cons_of_mem _)

/-- A call with types at hand is a step of the cache or, if it has children to label, three of them. -/
lemma steps_perform (visit : Visit) {c : Call} (hgiven : ∀ t ∈ c.given, i.AtHand t) :
    Relation.ReflTransGen Step i (i.perform visit c).2 := by
  cases c with
  | declareAlias name aliased => exact .single (.adopt visit (p := .aliasOf 0 name aliased) hgiven)
  | declareSort name => exact .single (.adopt visit (p := .sort 0 name) nofun)
  | declareConstructor sort name children =>
    exact .single (.declareConstructor visit name (hgiven sort (by simp [Call.given]))
      (hgiven children (by simp [Call.given])))
  | declareLabeledConstructor sort name children =>
    let tuple := Ty.labeledTupleOf i.declarations.id children
    obtain ⟨hsort, hchildren⟩ := List.forall_mem_cons.mp hgiven
    have htuple : ∀ t ∈ tuple.components, i.AtHand t := by
      simpa [tuple, Ty.labeledTupleOf, Ty.components] using hchildren
    have hmade : (i.intern visit tuple).AtHand tuple := .inr (by rw [held_intern]; exact List.mem_cons_self)
    refine .head (.adopt visit htuple) (.head ?_ (.single (.drop tuple)))
    exact .declareConstructor visit name hsort.intern hmade
  | annotate on label t =>
    exact .single (.annotate label (hgiven on (by simp [Call.given])) (hgiven t (by simp [Call.given])))
  | intern shape => exact .single (.adopt visit hgiven)

/-! ### Calls that are repeated -/

lemma Follows.of_ok {x : Except DeclarationError (Ty × Universe)}
    {y : Except DeclarationError Ty × Interner} (h : i.Follows x y) (ht : y.1 = .ok t) :
    x = .ok (t, y.2.declarations) := by
  cases h with
  | ok =>
    cases ht
    rfl
  | error => cases ht

lemma map_some_eq_ok {y : Except DeclarationError Ty × Interner}
    (h : (y.map (·.map some) id).1 = .ok (some t)) : y.1 = .ok t := by
  obtain ⟨a, j⟩ := y
  cases a with
  | error e => cases h
  | ok s =>
    cases h
    rfl

/-- What a call yields that finds everything declared: the type is handed out, no declaration is added and,
if the type is a declared one, nothing changes but for the handle. -/
structure Repeats (i : Interner) (t : Ty) (y : Except DeclarationError Ty × Interner) : Prop where
  handedOut : y.1 = .ok t
  declarations_eq : y.2.declarations = i.declarations
  held_only : t.IsDeclared → y.2 = i.hold t

lemma Sound.intern_of_registers (hi : i.Sound) (ht : i.declarations.Registers t)
    (hdeclared : t.IsDeclared) : i.intern visit t = i.hold t :=
  hi.intern_of_reachable ⟨t, .inr (Universe.mem_declared_of_registers ht hdeclared), .self⟩
    (Universe.home_of_registers ht hdeclared)

lemma Sound.repeats_adopt (hi : i.Sound) (h : i.declarations.adopt p = .ok (t, i.declarations)) :
    i.Repeats t (i.adopt visit p) := by
  rw [adopt_of_ok h, intern_unchanged]
  exact ⟨rfl, declarations_intern, hi.intern_of_registers (Universe.registers_of_adopt h)⟩

lemma Sound.repeats_declareConstructor (hi : i.Sound)
    (h : i.declarations.declareConstructor sort cname children = .ok (t, i.declarations)) :
    i.Repeats t (i.declareConstructor visit sort cname children) := by
  have hreg := Universe.registers_of_adopt (Universe.adopt_of_declareConstructor h)
  rw [declareConstructor_of_ok h, intern_unchanged]
  exact ⟨rfl, declarations_intern, hi.intern_of_registers hreg⟩

lemma drop_hold_hold (h : t ≠ s) : ((i.hold s).hold t).drop s = i.hold t := by
  simp [drop, hold, h]

/-- The tuple of the children is in use by the constructor that is declared already. -/
lemma Sound.repeats_declareLabeledConstructor (hi : i.Sound) {children : List (Ty × String)}
    (h : i.declarations.declareLabeledConstructor sort cname children = .ok (t, i.declarations)) :
    i.Repeats t (i.declareLabeledConstructor visit sort cname children) := by
  let tuple := Ty.labeledTupleOf i.declarations.id children
  have h : i.declarations.declareConstructor sort cname tuple = .ok (t, i.declarations) := h
  have hreg := Universe.registers_of_adopt (Universe.adopt_of_declareConstructor h)
  obtain ⟨n, d, fs, rfl, -, hfs, -, rfl⟩ :=
    Universe.constructorOf_eq_ok.mp (Universe.declareConstructor_eq_ok.mp h).1
  have htuple : i.Reachable tuple := by
    refine ⟨_, .inr (Universe.mem_declared_of_registers hreg trivial), .inside ?_ .self⟩
    rw [hfs]
    exact List.mem_cons_of_mem _ List.mem_cons_self
  have hheld : (i.hold tuple).Sound := (hi.step (.share htuple)).1
  rw [declareLabeledConstructor, hi.intern_of_reachable htuple rfl]
  obtain ⟨hout, hdecl, hsame⟩ := @Sound.repeats_declareConstructor _ _ _ _ _ visit hheld h
  have hne : .constructor i.declarations.id cname n d fs ≠ tuple := by
    rw [hfs]
    exact nofun
  exact ⟨hout, hdecl, fun hdeclared =>
    (congrArg (Interner.drop tuple) (hsame hdeclared)).trans (drop_hold_hold hne)⟩

lemma Repeats.map_some {y : Except DeclarationError Ty × Interner} (h : i.Repeats t y) :
    (y.map (·.map some) id).1 = .ok (some t) ∧ (y.map (·.map some) id).2.declarations = i.declarations ∧
      (t.IsDeclared → y.map (·.map some) id = (.ok (some t), i.hold t)) := by
  obtain ⟨a, j⟩ := y
  obtain ⟨rfl, hdecl, hheld⟩ := h
  exact ⟨rfl, hdecl, fun hdeclared => Prod.ext rfl (hheld hdeclared)⟩

/-- A call that succeeded once does so again in every later state. -/
lemma Sound.perform_again (hj : j.Sound) {c : Call} (h : (i.perform visit c).1 = .ok (some t))
    (hgrown : (i.perform visit c).2.declarations.Extends j.declarations) (visit' : Visit) :
    (j.perform visit' c).1 = .ok (some t) ∧ (j.perform visit' c).2.declarations = j.declarations ∧
      (t.IsDeclared → j.perform visit' c = (.ok (some t), j.hold t)) := by
  have adopted {p : Ty} (h : (i.adopt visit p).1 = .ok t)
      (hgrown : (i.adopt visit p).2.declarations.Extends j.declarations) :
      j.Repeats t (j.adopt visit' p) :=
    hj.repeats_adopt (Universe.adopt_again ((i.follows_adopt visit p).of_ok h) hgrown hj.consistent)
  cases c with
  | declareAlias name aliased =>
    exact (adopted (p := .aliasOf 0 name aliased) (map_some_eq_ok h) hgrown).map_some
  | declareSort name => exact (adopted (p := .sort 0 name) (map_some_eq_ok h) hgrown).map_some
  | declareConstructor sort name children =>
    have hx := (i.follows_declareConstructor visit sort name children).of_ok (map_some_eq_ok h)
    exact (hj.repeats_declareConstructor
      (Universe.declareConstructor_again hx hgrown hj.consistent)).map_some
  | declareLabeledConstructor sort name children =>
    have hx := (i.follows_declareLabeledConstructor visit sort name children).of_ok (map_some_eq_ok h)
    refine (hj.repeats_declareLabeledConstructor ?_).map_some
    have hid : j.declarations.id = i.declarations.id :=
      hgrown.id_eq.trans (Universe.growth_of_declareConstructor hx).extends.id_eq
    rw [Universe.declareLabeledConstructor, hid]
    exact Universe.declareConstructor_again hx hgrown hj.consistent
  | annotate on label t =>
    simp only [perform, Interner.annotate] at h
    split at h
    · cases h
    · cases h
  | intern shape => exact (adopted (map_some_eq_ok h) hgrown).map_some

/-- The declarations are consistent at every point of a run and only grow from there. No name is an alias
and a sort; what an alias or a sort is looked up as, it is ever after; and to the constructors of a sort,
which are all different and at most one of them anonymous, others are added at the end. A call leads on in
the run. One that fails leaves the declarations as they were; one that succeeded hands out the same type
whenever it is repeated, and declares nothing. -/
theorem registry_only_grows (hi : i.Reached) :
    (∀ n, i.declarations.sort? n ≠ none → i.declarations.alias? n = none) ∧
    (∀ s, (i.declarations.constructorsOf s).Nodup ∧
      (∀ c ∈ i.declarations.constructorsOf s, ∃ cname n d fs,
        s = .sort i.declarations.id n ∧ c = .constructor i.declarations.id cname n d fs) ∧
      ∀ c ∈ i.declarations.constructorsOf s, ∀ c' ∈ i.declarations.constructorsOf s,
        c.name? = none → c'.name? = none → c = c') ∧
    (∀ j, Relation.ReflTransGen Step i j →
      (∀ n t, i.declarations.alias? n = some t →
        (∃ aliased, t = .aliasOf i.declarations.id n aliased) ∧ j.declarations.alias? n = some t) ∧
      (∀ n t, i.declarations.sort? n = some t →
        t = .sort i.declarations.id n ∧ j.declarations.sort? n = some t) ∧
      ∀ s, i.declarations.constructorsOf s <+: j.declarations.constructorsOf s) ∧
    ∀ visit c, (∀ t ∈ c.given, i.AtHand t) →
      Relation.ReflTransGen Step i (i.perform visit c).2 ∧
      (∀ e, (i.perform visit c).1 = .error e → (i.perform visit c).2.declarations = i.declarations) ∧
      ∀ t, (i.perform visit c).1 = .ok (some t) →
        ∀ j, Relation.ReflTransGen Step (i.perform visit c).2 j → ∀ visit',
          (j.perform visit' c).1 = .ok (some t) ∧
          (j.perform visit' c).2.declarations = j.declarations ∧
          (t.IsDeclared → j.perform visit' c = (.ok (some t), j.hold t)) := by
  have hconsistent := hi.sound.consistent
  refine ⟨hconsistent.apart, fun s => ⟨?_, fun c hc => ?_, fun c hc c' hc' => ?_⟩,
    fun j hj => ⟨fun n t ht => ⟨?_, ?_⟩, fun n t ht => ⟨?_, ?_⟩, ?_⟩,
    fun visit c hgiven => ⟨steps_perform visit hgiven, fun e => declarations_of_perform_error,
      fun t ht j hj visit' => ?_⟩⟩
  · obtain ⟨id, threshold, hrun⟩ := hi
    refine (growsInto_of_steps hrun).constructors_nodup s ?_
    exact Universe.constructorsOf_empty id s ▸ .nil
  · obtain ⟨n, rfl⟩ := Universe.sort_of_mem_constructorsOf hc
    obtain ⟨cname, d, fs, rfl, -⟩ := hconsistent.constructor n c hc
    exact ⟨cname, n, d, fs, rfl, rfl⟩
  · obtain ⟨n, rfl⟩ := Universe.sort_of_mem_constructorsOf hc
    exact hconsistent.anonymous n c c' hc hc'
  · obtain ⟨aliased, -, rfl⟩ := Option.map_eq_some_iff.mp ht
    exact ⟨aliased, rfl⟩
  · exact (growsInto_of_steps hj).kept.aliases n t ht
  · exact (Universe.sort?_eq_some.mp ht).2.symm
  · exact (growsInto_of_steps hj).kept.sorts n t ht
  · exact (growsInto_of_steps hj).constructors_extend
  · obtain ⟨id, threshold, hrun⟩ := hi
    have hlater : j.Reached := ⟨id, threshold, (hrun.trans (steps_perform visit hgiven)).trans hj⟩
    exact hlater.sound.perform_again ht (growsInto_of_steps hj).kept visit'

/-- A second anonymous constructor is refused, and a named one with the same labeled child is listed once,
however often it is declared. -/
theorem registry_only_grows_constructor :
    let sort : Ty := .sort 0 "Expr"
    let leaf : Ty := .constructor 0 none "Expr" 0 []
    let next : Ty := .constructor 0 (some "Next") "Expr" 0 [⟨sort, some "rest"⟩]
    let i := (((empty 0 0).perform List.reverse (.declareSort "Expr")).2.perform List.reverse
      (.declareLabeledConstructor sort none [])).2
    let refused : Call := .declareLabeledConstructor sort none [(sort, "rest")]
    let named : Call := .declareLabeledConstructor sort (some "Next") [(sort, "rest")]
    let j := (i.perform List.reverse named).2
    (i.perform List.reverse refused).1.isOk = false ∧
      (i.perform List.reverse refused).2.declarations = i.declarations ∧
      i.declarations.constructorsOf sort = [leaf] ∧ j.declarations.constructorsOf sort = [leaf, next] ∧
      j.perform List.reverse named = (.ok (some next), j.hold next) := by
  intro sort leaf next i refused named j
  have hi : i.Reached := by
    refine ⟨0, 0, (steps_perform List.reverse ?_).trans (steps_perform List.reverse ?_)⟩
    · exact nofun
    · exact List.forall_mem_singleton.mpr (.inr (by decide +kernel))
  have hsort : i.AtHand sort := .inr (by decide +kernel)
  obtain ⟨-, -, -, hcalls⟩ := registry_only_grows hi
  obtain ⟨-, hfails, -⟩ := hcalls List.reverse refused (by simp [refused, Call.given, hsort])
  obtain ⟨-, -, hagain⟩ := hcalls List.reverse named (by simp [named, Call.given, hsort])
  have hrefused : (i.perform List.reverse refused).1.isOk = false := by decide +kernel
  have hnamed : (i.perform List.reverse named).1 = .ok (some next) := by rfl
  refine ⟨hrefused, ?_, by decide +kernel, by decide +kernel, ?_⟩
  · cases h : (i.perform List.reverse refused).1 with
    | error e => exact hfails e h
    | ok t =>
      rw [h] at hrefused
      cases hrefused
  · exact (hagain next hnamed j .refl List.reverse).2.2 trivial

end Interner
end TypedValues
