import TypedValues.Proofs.Universe.Registry

/-!
# The size of the cache

A new entry is made below the limit, or behind a sweep that sets the limit anew. As the limit is at least
twice the number of entries that the last sweep left, the cache stays within twice what was in use then,
unless it is smaller than its threshold.
-/

namespace TypedValues.Interner

variable {i j : Interner} {t : Ty} {e : CacheEntry} {visit : Visit} {pinned : List Ty} {threshold left : Nat}

/-- A leaf, or a type with an instance in use. Asking for it makes no entry. -/
def Found (i : Interner) (t : Ty) : Prop := t.isLeaf = true ∨ i.Cached t ∧ i.inUse [] t = true

lemma found_iff : (t.isLeaf || (i.binding? t).isSome && i.inUse [] t) = true ↔ i.Found t := by
  rw [Bool.or_eq_true, Bool.and_eq_true, binding?_isSome, Found]

instance : Decidable (i.Found t) := decidable_of_iff _ found_iff

lemma entered_eq_ite : i.entered visit t =
    if i.Found t then i else (i.makeRoom visit t.components).enter t :=
  if_congr found_iff rfl rfl

/-- The caches of one threshold that a run leads to, each with the number of entries that the last sweep or
purge of the run left: 0 if there was none. -/
inductive SweptTo (threshold : Nat) : Interner → Nat → Prop
  | start (id : UniverseId) : SweptTo threshold (empty id threshold) 0
  /-- Handles are taken or given back, or something is declared. -/
  | refer {i : Interner} {left : Nat} (h : SweptTo threshold i left) (held : List Ty) (u : Universe) :
      SweptTo threshold { i with held, declarations := u } left
  | found {i : Interner} {left : Nat} {t : Ty} (h : SweptTo threshold i left) (visit : Visit)
      (hfound : i.Found t) : SweptTo threshold (i.intern visit t) left
  | room {i : Interner} {left : Nat} {t : Ty} (h : SweptTo threshold i left) (visit : Visit)
      (hnew : ¬ i.Found t) (hroom : i.count < i.limit) : SweptTo threshold (i.intern visit t) left
  /-- There is no room for a new entry, and the cache is swept first. -/
  | full {i : Interner} {left : Nat} {t : Ty} (h : SweptTo threshold i left) (visit : Visit)
      (hnew : ¬ i.Found t) (hfull : i.limit ≤ i.count) :
      SweptTo threshold (i.intern visit t) (i.sweep visit t.components).count
  | purge {i : Interner} {left : Nat} (h : SweptTo threshold i left) (visit : Visit) :
      SweptTo threshold (i.purge visit).2 (i.purge visit).2.count

/-! ### The bound -/

lemma count_enter_le : (i.enter t).count ≤ i.count + 1 := by
  have hlength := congrArg List.length (@map_enter i t)
  rw [List.length_map] at hlength
  rw [count, hlength, count]
  split <;> simp

/-- The limit is the one that the last sweep has set, and a new entry was made below the limit or when the
cache was empty. -/
structure Bounded (threshold left : Nat) (i : Interner) : Prop where
  threshold_eq : i.threshold = threshold
  limit_eq : i.limit = max (2 * left) threshold
  count_le : i.count ≤ max i.limit 1

lemma Bounded.resetLimit (h : i.threshold = threshold) : i.resetLimit.Bounded threshold i.count where
  threshold_eq := h
  limit_eq := congrArg (max (2 * i.count)) h
  count_le := by
    change i.count ≤ max (max (2 * i.count) i.threshold) 1
    omega

/-- An entry more keeps the bound if there is room for it. -/
lemma Bounded.enter (h : i.Bounded threshold left) (hroom : i.count < max i.limit 1) :
    (i.enter t).Bounded threshold left where
  threshold_eq := h.threshold_eq
  limit_eq := h.limit_eq
  count_le := count_enter_le.trans hroom

lemma Bounded.refer (h : i.Bounded threshold left) (held : List Ty) (u : Universe) :
    Bounded threshold left { i with held, declarations := u } :=
  ⟨h.threshold_eq, h.limit_eq, h.count_le⟩

lemma Bounded.hold (h : i.Bounded threshold left) (t : Ty) : (i.hold t).Bounded threshold left :=
  h.refer (t :: i.held) i.declarations

lemma SweptTo.bounded (h : SweptTo threshold i left) : i.Bounded threshold left := by
  induction h with
  | start id => exact ⟨rfl, (Nat.max_eq_right threshold.zero_le).symm, Nat.zero_le _⟩
  | refer h held u ih => exact ih.refer held u
  | found h visit hfound ih =>
    rw [intern_eq, entered_eq_ite, if_pos hfound]
    exact ih.hold _
  | @room i left t h visit hnew hroom ih =>
    rw [intern_eq, entered_eq_ite, if_neg hnew, makeRoom, if_pos hroom]
    exact (ih.enter (lt_max_of_lt_left hroom)).hold t
  | @full i left t h visit hnew hfull ih =>
    rw [intern_eq, entered_eq_ite, if_neg hnew, makeRoom, if_neg hfull.not_gt]
    have hreset := Bounded.resetLimit (i := i.sweep visit t.components)
      (thins_sweep.threshold.trans ih.threshold_eq)
    -- Twice the entries that are left is more than one entry more, unless none are left.
    have hroom : (i.sweep visit t.components).resetLimit.count <
        max (i.sweep visit t.components).resetLimit.limit 1 := by
      change (i.sweep visit t.components).count < max (max (2 * (i.sweep visit t.components).count) _) 1
      omega
    exact (hreset.enter hroom).hold t
  | purge h visit ih => exact .resetLimit (thins_sweepAll.threshold.trans ih.threshold_eq)

/-! ### Runs of the cache -/

/-- A refused constructor is made a type before it is refused, and its handle is given back. -/
lemma interns_declareConstructor (visit : Visit) (sort children : Ty) (cname : Option String) (i : Interner) :
    (∃ u, (i.declareConstructor visit sort cname children).2 = { i with declarations := u }) ∨
      ∃ t held u, (i.declareConstructor visit sort cname children).2 =
        { i.intern visit t with held, declarations := u } := by
  cases h : i.declarations.declareConstructor sort cname children with
  | ok cu =>
    obtain ⟨c, u⟩ := cu
    rw [declareConstructor_of_ok h]
    exact .inr ⟨c, _, u, rfl⟩
  | error e =>
    rcases declareConstructor_of_error visit h with heq | ⟨c, -, -, heq⟩
    · exact .inl ⟨i.declarations, heq⟩
    · rw [heq, ← drop_hold (i := i.entered visit c) (t := c), ← intern_eq]
      exact .inr ⟨c, _, (i.intern visit c).declarations, rfl⟩

lemma interns_adopt (visit : Visit) (p : Ty) (i : Interner) :
    (∃ u, (i.adopt visit p).2 = { i with declarations := u }) ∨
      ∃ t held u, (i.adopt visit p).2 = { i.intern visit t with held, declarations := u } := by
  cases h : i.declarations.adopt p with
  | ok tu =>
    obtain ⟨t, u⟩ := tu
    rw [adopt_of_ok h]
    exact .inr ⟨t, _, u, rfl⟩
  | error e =>
    cases p with
    | aliasOf home n s =>
      have h : i.declarations.declareAlias n s = .error e := h
      simp only [adopt, declareAlias, h]
      exact .inl ⟨i.declarations, rfl⟩
    | sort home n =>
      have h : i.declarations.declareSort n = .error e := h
      simp only [adopt, declareSort, h]
      exact .inl ⟨i.declarations, rfl⟩
    | constructor home cname n d fs => exact i.interns_declareConstructor visit _ _ cname
    | _ => cases h

/-- Apart from handles and declarations a step asks for the instance of one type, purges or does nothing. -/
lemma Step.interns (h : i.Step j) : (∃ held u, j = { i with held, declarations := u }) ∨
    (∃ visit t held u, j = { i.intern visit t with held, declarations := u }) ∨
      ∃ visit, j = (i.purge visit).2 := by
  cases h with
  | @adopt visit p hcs =>
    rcases i.interns_adopt visit p with ⟨u, heq⟩ | ⟨t, held, u, heq⟩
    · exact .inl ⟨i.held, u, heq⟩
    · exact .inr (.inl ⟨visit, t, held, u, heq⟩)
  | declareConstructor visit cname hsort hchildren =>
    rcases i.interns_declareConstructor visit _ _ cname with ⟨u, heq⟩ | ⟨t, held, u, heq⟩
    · exact .inl ⟨i.held, u, heq⟩
    · exact .inr (.inl ⟨visit, t, held, u, heq⟩)
  | @annotate on t label hon ht =>
    rw [Interner.annotate]
    cases i.declarations.annotate on label t with
    | ok u => exact .inl ⟨i.held, u, rfl⟩
    | error e => exact .inl ⟨i.held, i.declarations, rfl⟩
  | share | receive | drop => exact .inl ⟨_, i.declarations, rfl⟩
  | purge visit => exact .inr (.inr ⟨visit, rfl⟩)

lemma SweptTo.intern (h : SweptTo threshold i left) (visit : Visit) (t : Ty) :
    ∃ left', SweptTo threshold (i.intern visit t) left' := by
  by_cases hfound : i.Found t
  · exact ⟨left, h.found visit hfound⟩
  · rcases lt_or_ge i.count i.limit with hroom | hfull
    · exact ⟨left, h.room visit hfound hroom⟩
    · exact ⟨_, h.full visit hfound hfull⟩

lemma SweptTo.step (h : SweptTo threshold i left) (hstep : i.Step j) :
    ∃ left', SweptTo threshold j left' := by
  rcases hstep.interns with ⟨held, u, rfl⟩ | ⟨visit, t, held, u, rfl⟩ | ⟨visit, rfl⟩
  · exact ⟨left, h.refer held u⟩
  · obtain ⟨left', h'⟩ := h.intern visit t
    exact ⟨left', h'.refer held u⟩
  · exact ⟨_, h.purge visit⟩

/-- At every point of a run the cache has at most as many entries as its threshold, twice as many as the last
sweep or purge left, or one. -/
theorem cache_never_outgrows (threshold : Nat) :
    (∀ i left, SweptTo threshold i left → i.count ≤ max threshold (max (2 * left) 1)) ∧
    ∀ id i, Relation.ReflTransGen Step (empty id threshold) i → ∃ left, SweptTo threshold i left := by
  refine ⟨fun i left h => ?_, fun id i hrun => ?_⟩
  · obtain ⟨-, hlimit, hcount⟩ := h.bounded
    omega
  · induction hrun with
    | refl => exact ⟨0, .start id⟩
    | tail _ hstep ih =>
      obtain ⟨left, h⟩ := ih
      exact h.step hstep

/-- Without a threshold the cache is swept before its first entry and before its second one. The first type is
still held, so that the bound is reached. -/
theorem cache_never_outgrows_doubled :
    let i := (empty 0 0).intern List.reverse (.list 0 .int)
    let j := i.intern List.reverse (.set 0 .int)
    SweptTo 0 j 1 ∧ j.count ≤ max 0 (max (2 * 1) 1) ∧ j.count = 2 ∧
      Relation.ReflTransGen Step (empty 0 0) j ∧ ∃ left, SweptTo 0 j left := by
  intro i j
  have hfirst : SweptTo 0 i 0 := .full (.start 0) List.reverse (by decide +kernel) (by decide +kernel)
  have hsecond : SweptTo 0 j 1 := hfirst.full List.reverse (by decide +kernel) (by decide +kernel)
  have hrun : Relation.ReflTransGen Step (empty 0 0) j := by
    refine Relation.ReflTransGen.tail (.single ?_) ?_ (b := i)
    · exact .adopt List.reverse (p := .list 0 .int) (List.forall_mem_singleton.mpr (.inl rfl))
    · exact .adopt List.reverse (p := .set 0 .int) (List.forall_mem_singleton.mpr (.inl rfl))
  obtain ⟨hbound, hruns⟩ := cache_never_outgrows 0
  exact ⟨hsecond, hbound j 1 hsecond, by decide +kernel, hrun, hruns 0 j hrun⟩

end TypedValues.Interner
