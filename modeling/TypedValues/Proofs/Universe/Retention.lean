import Mathlib
import TypedValues.Proofs.Universe.Cache

/-!
# What the cache retains

A universe hands out one instance of a shape for as long as anybody can reach it. Every call keeps the
entries of the types that are reachable, so that a type which is asked for again is the one that is there.
-/

namespace TypedValues

namespace Universe

variable {u v : Universe} {p r t : Ty}

lemma mem_declared : r ∈ u.declared ↔ (∃ e ∈ u.aliases, .aliasOf u.id e.1 e.2 = r) ∨
    (∃ e ∈ u.sorts, r = .sort u.id e.1 ∨ r ∈ e.2) ∨
    ∃ e ∈ u.annotated, r = e.1 ∨ ∃ l ∈ e.2, l.2 = r := by
  simp [declared]

/-- A call declares at most what it hands out. -/
lemma declared_of_adopt (h : u.adopt p = .ok (t, v)) (hr : r ∈ v.declared) :
    r ∈ u.declared ∨ r = t := by
  cases p with
  | aliasOf home n s =>
    obtain ⟨-, rfl, ⟨-, rfl⟩ | ⟨-, -, rfl⟩⟩ := declareAlias_eq_ok.mp h
    · exact .inl hr
    · rw [mem_declared] at hr ⊢
      rcases hr with ⟨e, he, rfl⟩ | hr | hr
      · rcases List.mem_append.mp he with he | he
        · exact .inl (.inl ⟨e, he, rfl⟩)
        · rw [List.mem_singleton.mp he]
          exact .inr rfl
      · exact .inl (.inr (.inl hr))
      · exact .inl (.inr (.inr hr))
  | sort home n =>
    obtain ⟨-, rfl, ⟨-, rfl⟩ | ⟨-, -, rfl⟩⟩ := declareSort_eq_ok.mp h
    · exact .inl hr
    · rw [mem_declared] at hr ⊢
      rcases hr with hr | ⟨e, he, hr⟩ | hr
      · exact .inl (.inl hr)
      · rcases List.mem_append.mp he with he | he
        · exact .inl (.inr (.inl ⟨e, he, hr⟩))
        · rw [List.mem_singleton.mp he] at hr
          exact .inr (hr.resolve_right List.not_mem_nil)
      · exact .inl (.inr (.inr hr))
  | constructor home cname n d fs =>
    obtain ⟨hc, h⟩ := declareConstructor_eq_ok.mp h
    obtain ⟨m, d', fs', hs, hsort, -, -, rfl⟩ := constructorOf_eq_ok.mp hc
    obtain ⟨rfl, rfl⟩ := Ty.sort.inj hs
    obtain ⟨-, ⟨-, rfl⟩ | ⟨-, -, rfl⟩⟩ := addConstructor_eq_ok.mp h
    · exact .inl hr
    · obtain ⟨⟨cs, hcs⟩, -⟩ := sort?_eq_some.mp hsort
      have hmem := Table.mem_of_get? hcs
      rw [mem_declared] at hr ⊢
      rcases hr with hr | ⟨e, he, hr⟩ | hr
      · exact .inl (.inl hr)
      · rcases Table.mem_put _ he with rfl | he
        · rw [constructorsOf_sort, hcs, Option.getD_some, List.mem_append, List.mem_singleton] at hr
          rcases hr with hr | hr | hr
          · exact .inl (.inr (.inl ⟨_, hmem, .inl hr⟩))
          · exact .inl (.inr (.inl ⟨_, hmem, .inr hr⟩))
          · exact .inr hr
        · exact .inl (.inr (.inl ⟨e, he, hr⟩))
      · exact .inl (.inr (.inr hr))
  | _ =>
    cases h
    exact .inl hr

lemma declared_of_annotate {on : Ty} {label : String} (h : u.annotate on label t = .ok v)
    (hr : r ∈ v.declared) : r ∈ u.declared ∨ r = on ∨ r = t := by
  unfold annotate at h
  obtain ⟨-, h⟩ := checkIdentifier_bind_eq_ok.mp h
  split at h
  · obtain ⟨-, h⟩ := ite_throw_eq_ok.mp h
    obtain rfl := pure_eq_ok.mp h
    exact .inl hr
  · obtain rfl := pure_eq_ok.mp h
    rw [mem_declared] at hr ⊢
    rcases hr with hr | hr | ⟨e, he, hr⟩
    · exact .inl (.inl hr)
    · exact .inl (.inr (.inl hr))
    · rcases Table.mem_put _ he with rfl | he
      · rcases hr with hr | ⟨l, hl, hr⟩
        · exact .inr (.inl hr)
        · rcases Table.mem_put _ hl with rfl | hl
          · exact .inr (.inr hr.symm)
          · rw [labelsOn] at hl
            cases hlabels : Table.get? (· == on) u.annotated with
            | none => simp [hlabels] at hl
            | some labels =>
              rw [hlabels] at hl
              exact .inl (.inr (.inr ⟨_, Table.mem_of_get? hlabels, .inr ⟨l, hl, hr⟩⟩))
      · exact .inl (.inr (.inr ⟨e, he, hr⟩))

end Universe

namespace Interner

variable {i j : Interner} {p t sort children : Ty} {u : Universe} {visit : Visit}
  {cname : Option String}

/-! ### Handing out -/

/-- New handles and declarations do no harm if what they lead to has an entry and is registered. -/
lemma Sound.update (hi : i.Sound) (hu : i.declarations.Growth u) {held : List Ty} (fresh : List Ty)
    (hheld : ∀ r ∈ held, r ∈ i.held ∨ r ∈ fresh)
    (hdeclared : ∀ r ∈ u.declared, r ∈ i.declarations.declared ∨ r ∈ fresh)
    (hfresh : ∀ r ∈ fresh, ∀ s ∈ r.leadsTo i.declarations.id, i.Cached s ∧ u.Registers s) :
    ({ i with held, declarations := u } : Interner).Sound where
  consistent := hu.consistent hi.consistent
  distinct := hi.distinct
  own e he := (hi.own e he).trans (congrArg some hu.extends.id_eq.symm)
  backed r hr s hs := by
    rw [show ({ i with held, declarations := u } : Interner).declarations.id = i.declarations.id from
      hu.extends.id_eq] at hs
    have hold_or : i.Refers r ∨ r ∈ fresh := by
      rcases hr with h | h | h
      · exact (hheld r h).imp_left .inl
      · exact (hdeclared r h).imp_left fun h => .inr (.inl h)
      · exact .inl (.inr (.inr h))
    rcases hold_or with h | h
    · obtain ⟨hcached, hreg⟩ := hi.backed r h s hs
      exact ⟨hcached, hu.extends.registers hreg⟩
    · exact hfresh r h s hs

lemma Sound.hold (hi : i.Sound) (ht : i.Backed t) : (i.hold t).Sound := by
  refine hi.update .same [t] (fun r hr => ?_) (fun _ hr => .inl hr) fun r hr => ?_
  · exact (List.mem_cons.mp hr).symm.imp_right List.mem_singleton.mpr
  · rw [List.mem_singleton.mp hr]
    exact ht

lemma Sound.drop (hi : i.Sound) : (i.drop t).Sound :=
  hi.update .same [] (fun _ hr => .inl (List.mem_of_mem_erase hr)) (fun _ hr => .inl hr)
    nofun

/-- The cache after a shape made of types at hand has been declared and handed out. -/
lemma Sound.handOut (hi : i.Sound) (h : i.declarations.adopt p = .ok (t, u))
    (hcs : ∀ c ∈ p.components, i.AtHand c) :
    ({ i.intern visit t with declarations := u } : Interner).Sound ∧
      i.Spares { i.intern visit t with declarations := u } := by
  have hgrowth := Universe.growth_of_adopt h
  have hreg := Universe.registers_of_adopt h
  have hhome : ∀ l ∈ t.home?, l = i.declarations.id := fun l hl =>
    (hreg.home_eq l hl).trans hgrowth.extends.id_eq
  obtain ⟨hsound, hspares, hcached⟩ := hi.entered visit hhome
    (by rwa [Universe.components_of_adopt h])
  rw [intern_eq]
  refine ⟨hsound.update (u := u) ?_ [t] ?_ ?_ ?_, hspares⟩
  · rwa [declarations_entered]
  · exact fun r hr => (List.mem_cons.mp hr).symm.imp_right List.mem_singleton.mpr
  · intro r hr
    rw [declarations_entered]
    simpa using Universe.declared_of_adopt h hr
  · simp only [List.mem_singleton, forall_eq, declarations_entered]
    intro s hs
    by_cases hnone : t.home? = none
    · rw [Ty.leadsTo_of_home?_eq_none hnone] at hs
      cases hs
    · obtain ⟨l, hl⟩ := Option.ne_none_iff_exists'.mp hnone
      rw [Ty.leadsTo_own (hl.trans (congrArg some (hhome l hl)))] at hs
      rw [List.mem_singleton.mp hs]
      exact ⟨hcached hnone, hreg⟩

@[simp] lemma declarations_intern : (i.intern visit t).declarations = i.declarations := by
  rw [intern_eq]
  exact declarations_entered

lemma intern_unchanged : { i.intern visit t with declarations := i.declarations } = i.intern visit t := by
  rw [← @declarations_intern i t visit]

lemma drop_hold : (i.hold t).drop t = i := by
  simp [drop, hold]

lemma declareConstructor_of_ok {c : Ty}
    (h : i.declarations.declareConstructor sort cname children = .ok (c, u)) :
    i.declareConstructor visit sort cname children =
      (.ok c, { i.intern visit c with declarations := u }) := by
  obtain ⟨hc, hadd⟩ := Universe.declareConstructor_eq_ok.mp h
  simp only [declareConstructor, hc, hadd]

/-- A call that succeeds hands out what the declarations say. -/
lemma adopt_of_ok (h : i.declarations.adopt p = .ok (t, u)) :
    i.adopt visit p = (.ok t, { i.intern visit t with declarations := u }) := by
  cases p with
  | aliasOf home n s =>
    have h : i.declarations.declareAlias n s = .ok (t, u) := h
    simp only [adopt, declareAlias, h]
  | sort home n =>
    have h : i.declarations.declareSort n = .ok (t, u) := h
    simp only [adopt, declareSort, h]
  | constructor home cname n d fs => exact declareConstructor_of_ok h
  | _ =>
    cases h
    rw [intern_unchanged]
    rfl

/-- A constructor that is refused may leave an entry behind, to which nothing refers. -/
lemma declareConstructor_of_error (visit : Visit) {e : DeclarationError}
    (h : i.declarations.declareConstructor sort cname children = .error e) :
    (i.declareConstructor visit sort cname children).2 = i ∨
      ∃ c, c.home? = some i.declarations.id ∧ c.components = [sort, children] ∧
        (i.declareConstructor visit sort cname children).2 = i.entered visit c := by
  unfold declareConstructor
  cases hc : i.declarations.constructorOf sort cname children with
  | error e => exact .inl rfl
  | ok c =>
    obtain ⟨n, d, fs, rfl, -, rfl, -, rfl⟩ := Universe.constructorOf_eq_ok.mp hc
    cases hadd : i.declarations.addConstructor (.sort i.declarations.id n)
        (.constructor i.declarations.id cname n d fs) with
    | error e =>
      refine .inr ⟨.constructor i.declarations.id cname n d fs, rfl, rfl, ?_⟩
      simp only [hadd, intern_eq, drop_hold]
    | ok cu =>
      obtain ⟨c, u⟩ := cu
      obtain rfl := (Universe.addConstructor_eq_ok.mp hadd).1
      rw [Universe.declareConstructor_eq_ok.mpr ⟨hc, hadd⟩] at h
      cases h

lemma Sound.declareConstructor (hi : i.Sound) (hsort : i.AtHand sort) (hchildren : i.AtHand children) :
    (i.declareConstructor visit sort cname children).2.Sound ∧
      i.Spares (i.declareConstructor visit sort cname children).2 := by
  cases h : i.declarations.declareConstructor sort cname children with
  | error e =>
    rcases declareConstructor_of_error visit h with heq | ⟨c, hhome, hcs, heq⟩
    · rw [heq]
      exact ⟨hi, fun _ he _ => he⟩
    · rw [heq]
      obtain ⟨hsound, hspares, -⟩ := hi.entered visit (t := c)
        (fun l hl => Option.some.inj (hl.symm.trans hhome)) (by simp [hcs, hsort, hchildren])
      exact ⟨hsound, hspares⟩
  | ok cu =>
    obtain ⟨c, u⟩ := cu
    rw [declareConstructor_of_ok h]
    obtain ⟨hc, -⟩ := Universe.declareConstructor_eq_ok.mp h
    obtain ⟨n, d, fs, rfl, -, rfl, -, rfl⟩ := Universe.constructorOf_eq_ok.mp hc
    exact hi.handOut (p := .constructor i.declarations.id cname n d fs) h
      (by simp [Ty.components, hsort, hchildren])

lemma Sound.adopt (hi : i.Sound) (hcs : ∀ c ∈ p.components, i.AtHand c) :
    (i.adopt visit p).2.Sound ∧ i.Spares (i.adopt visit p).2 := by
  cases h : i.declarations.adopt p with
  | ok tu =>
    obtain ⟨t, u⟩ := tu
    rw [adopt_of_ok h]
    exact hi.handOut h hcs
  | error e =>
    cases p with
    | aliasOf home n s =>
      have h : i.declarations.declareAlias n s = .error e := h
      simp only [Interner.adopt, Interner.declareAlias, h]
      exact ⟨hi, fun _ he _ => he⟩
    | sort home n =>
      have h : i.declarations.declareSort n = .error e := h
      simp only [Interner.adopt, Interner.declareSort, h]
      exact ⟨hi, fun _ he _ => he⟩
    | constructor home cname n d fs =>
      exact hi.declareConstructor (hcs _ (by simp [Ty.components])) (hcs _ (by simp [Ty.components]))
    | _ => cases h

lemma Sound.annotate (hi : i.Sound) {on : Ty} (label : String) (hon : i.AtHand on) (ht : i.AtHand t) :
    (i.annotate on label t).2.Sound ∧ i.Spares (i.annotate on label t).2 := by
  unfold Interner.annotate
  cases h : i.declarations.annotate on label t with
  | error e => exact ⟨hi, fun _ he _ => he⟩
  | ok u =>
    have hgrowth := Universe.growth_of_annotate h
    refine ⟨hi.update hgrowth [on, t] (fun _ hr => .inl hr) (fun r hr => ?_) fun r hr s hs => ?_,
      fun _ he _ => he⟩
    · simpa using Universe.declared_of_annotate h hr
    · have hatHand : i.AtHand r := by
        rcases List.mem_cons.mp hr with rfl | hr
        · exact hon
        · rwa [List.mem_singleton.mp hr]
      obtain ⟨hcached, hreg⟩ := hi.backed_of_atHand hatHand s hs
      exact ⟨hcached, hgrowth.extends.registers hreg⟩

/-! ### Runs -/

/-- What can happen to the cache: a shape is handed out or refused, a type is annotated, somebody takes
another handle of a type within reach, another universe makes a type out of types at hand, a handle is
given back, or the cache is purged. A call that needs room sweeps on its own, in any order. -/
inductive Step (i : Interner) : Interner → Prop
  | adopt (visit : Visit) {p : Ty} (hcs : ∀ c ∈ p.components, i.AtHand c) : Step i (i.adopt visit p).2
  | declareConstructor (visit : Visit) {sort children : Ty} (cname : Option String)
      (hsort : i.AtHand sort) (hchildren : i.AtHand children) :
      Step i (i.declareConstructor visit sort cname children).2
  | annotate {on t : Ty} (label : String) (hon : i.AtHand on) (ht : i.AtHand t) :
      Step i (i.annotate on label t).2
  | share {t : Ty} (ht : i.Reachable t) : Step i (i.hold t)
  | receive {t : Ty} (hforeign : t.home? ≠ some i.declarations.id)
      (hcs : ∀ c ∈ t.components, i.AtHand c) : Step i (i.hold t)
  | drop (t : Ty) : Step i (i.drop t)
  | purge (visit : Visit) : Step i (i.purge visit).2

/-- The caches that a run leads to, whatever the threshold. -/
def Reached (i : Interner) : Prop := ∃ id threshold, Relation.ReflTransGen Step (empty id threshold) i

lemma sound_empty (id : UniverseId) (threshold : Nat) : (empty id threshold).Sound where
  consistent := Universe.consistent_empty id
  distinct := .nil
  own := nofun
  backed t ht := by
    rcases ht with h | h | ⟨e, he, -⟩
    · cases h
    · cases h
    · cases he

lemma Sound.step (hi : i.Sound) (h : i.Step j) : j.Sound ∧ i.Spares j := by
  cases h with
  | adopt visit hcs => exact hi.adopt hcs
  | declareConstructor visit cname hsort hchildren => exact hi.declareConstructor hsort hchildren
  | annotate label hon ht => exact hi.annotate label hon ht
  | share ht =>
    have hlive := hi.live_of_reachable ht
    exact ⟨hi.hold fun s hs => ⟨(hlive s hs).1, (hlive s hs).2.1⟩, fun _ he _ => he⟩
  | receive hforeign hcs =>
    refine ⟨hi.hold fun s hs => ?_, fun _ he _ => he⟩
    rw [Ty.leadsTo_foreign hforeign] at hs
    obtain ⟨c, hc, hs⟩ := List.mem_flatMap.mp hs
    exact hi.backed_of_atHand (hcs c hc) s hs
  | drop t => exact ⟨hi.drop, fun _ he _ => he⟩
  | purge visit => exact hi.purge

lemma Reached.sound (hi : i.Reached) : i.Sound := by
  obtain ⟨id, threshold, hrun⟩ := hi
  induction hrun with
  | refl => exact sound_empty id threshold
  | tail _ h ih => exact (ih.step h).1

lemma Sound.intern_of_reachable (hi : i.Sound) (ht : i.Reachable t)
    (hown : t.home? = some i.declarations.id) : i.intern visit t = i.hold t := by
  obtain ⟨hcached, -, huse⟩ := hi.kept ht hown
  rw [intern, if_pos]
  rw [binding?_isSome.mpr hcached, huse, Bool.and_self, Bool.or_true]

/-- Asking for a reachable type of the universe hands out the one that is there. -/
lemma Sound.adopt_of_reachable (hi : i.Sound) (ht : i.Reachable t)
    (hown : t.home? = some i.declarations.id) : i.adopt visit t = (.ok t, i.hold t) := by
  obtain ⟨-, hreg, -⟩ := hi.kept ht hown
  rw [adopt_of_ok (Universe.adopt_of_registers hi.consistent hreg), intern_unchanged,
    hi.intern_of_reachable ht hown]

/-- Interning is canonical at every point of a run: there is one entry for a shape; every type of the
universe that a handle or a declaration leads to has one; no sweep, no purge and no other step takes it away
or puts another instance in its place; and asking for such a type again hands it out as it is, with one
more handle and not one more entry. -/
theorem interning_canonical (hi : i.Reached) :
    (i.entries.map (·.ty)).Nodup ∧
    (∀ t, i.Reachable t → t.home? = some i.declarations.id → ∃ e ∈ i.entries, e.ty = t) ∧
    (∀ e ∈ i.entries, i.Reachable e.ty →
      (∀ visit pinned, e ∈ (i.sweep visit pinned).entries) ∧
      (∀ visit, e ∈ (i.purge visit).2.entries) ∧ ∀ j, i.Step j → e ∈ j.entries) ∧
    ∀ visit t, i.Reachable t → t.home? = some i.declarations.id →
      i.adopt visit t = (.ok t, i.hold t) ∧ (i.adopt visit t).2.count = i.count := by
  have hsound := hi.sound
  refine ⟨hsound.distinct, fun t ht hown => (hsound.kept ht hown).1, fun e he hreach => ⟨?_, ?_, ?_⟩,
    fun visit t ht hown => ?_⟩
  · exact fun visit pinned => (hsound.sweep visit pinned).2 e he hreach
  · exact fun visit => hsound.purge.2 e he hreach
  · exact fun j hj => (hsound.step hj).2 e he hreach
  · rw [hsound.adopt_of_reachable ht hown]
    exact ⟨rfl, rfl⟩

/-- A sort keeps its anonymous constructor, which nobody holds, when a second one has been refused and the
cache sweeps at every call. -/
theorem interning_canonical_constructor :
    let sort : Ty := .sort 0 "Expr"
    let leaf : Ty := .constructor 0 none "Expr" 0 []
    let made := (((empty 0 0).adopt List.reverse sort).2.adopt List.reverse (.tuple 0 [])).2
    let listed := (made.adopt List.reverse leaf).2
    let taken := (listed.adopt List.reverse (.tuple 0 [⟨sort, none⟩])).2
    let refused := taken.adopt List.reverse (.constructor 0 none "Expr" 0 [⟨sort, none⟩])
    let i := refused.2.drop leaf
    refused.1.isOk = false ∧ i.Reached ∧ leaf ∉ i.held ∧
      i.adopt List.reverse leaf = (.ok leaf, i.hold leaf) ∧ (i.adopt List.reverse leaf).2.count = 5 := by
  intro sort leaf made listed taken refused i
  have hmade : ∀ c ∈ leaf.components, made.AtHand c := by
    refine List.forall_mem_cons.mpr ⟨.inr ?_, List.forall_mem_singleton.mpr (.inr ?_)⟩
    · decide +kernel
    · decide +kernel
  have hlisted : ∀ c ∈ (Ty.tuple 0 [⟨sort, none⟩]).components, listed.AtHand c :=
    List.forall_mem_singleton.mpr (.inr (by decide +kernel))
  have htaken : ∀ c ∈ (Ty.constructor 0 none "Expr" 0 [⟨sort, none⟩]).components, taken.AtHand c := by
    refine List.forall_mem_cons.mpr ⟨.inr ?_, List.forall_mem_singleton.mpr (.inr ?_)⟩
    · decide +kernel
    · decide +kernel
  have hi : i.Reached := by
    refine ⟨0, 0, ?_⟩
    refine Relation.ReflTransGen.tail ?_ (.drop leaf)
    refine Relation.ReflTransGen.tail ?_ (.adopt List.reverse htaken)
    refine Relation.ReflTransGen.tail ?_ (.adopt List.reverse hlisted)
    refine Relation.ReflTransGen.tail ?_ (.adopt List.reverse hmade)
    refine Relation.ReflTransGen.tail ?_ (.adopt List.reverse nofun)
    exact Relation.ReflTransGen.single (.adopt List.reverse nofun)
  have hleaf : i.Reachable leaf := ⟨leaf, .inr (by decide +kernel), .self⟩
  obtain ⟨hadopt, hcount⟩ := (interning_canonical hi).2.2.2 List.reverse leaf hleaf (by decide +kernel)
  exact ⟨by decide +kernel, hi, by decide +kernel, hadopt, hcount.trans (by decide +kernel)⟩

end Interner
end TypedValues
