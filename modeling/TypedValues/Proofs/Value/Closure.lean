import TypedValues.Proofs.Value.Composition
import TypedValues.Proofs.Value.Mirror

/-!
# Transitive closure

The closure of a binary relation is found by a search from each first field: a list of values still to be
followed, and the values met so far. Where equality is an equivalence on the field values the search ends
on every relation, cyclic ones too, and what it has met is exactly what a chain of tuples leads to.
-/

namespace TypedValues.Relation

variable {P : Value → Prop} {home : UniverseId} {r u : Relation} {a b c v : Value}
  {pairs : List (Value × Value)} {next : List (Value × List Value)} {cs pending reached result : List Value}

/-! ### Chains -/

/-- A chain of one or more tuples leads from the one value to the other: it starts at a first field equal to
the one, each second field equals the first field of the next tuple, and the last second field equals the
other. -/
inductive Leads (r : Relation) : Value → Value → Prop
  | last {a x y c} (hxy : r.Relates x y) (ha : a.equal x = true) (hc : y.equal c = true) : r.Leads a c
  | step {a x y c} (hxy : r.Relates x y) (ha : a.equal x = true) (hc : r.Leads y c) : r.Leads a c

namespace Leads

lemma congr_left (hP : Value.Lawful P) (hr : r.FieldsIn P) (ha : P a) (hb : P b)
    (hab : a.equal b = true) (h : r.Leads b c) : r.Leads a c := by
  cases h with
  | last hxy hb' hc => exact .last hxy (hP.equivalence.trans ha hb (hr _ _ hxy).1 hab hb') hc
  | step hxy hb' hc => exact .step hxy (hP.equivalence.trans ha hb (hr _ _ hxy).1 hab hb') hc

lemma congr_right (hP : Value.Lawful P) (hr : r.FieldsIn P) (hb : P b) (hc : P c)
    (h : r.Leads a b) (hbc : b.equal c = true) : r.Leads a c := by
  induction h with
  | last hxy ha hyb => exact .last hxy ha (hP.equivalence.trans (hr _ _ hxy).2 hb hc hyb hbc)
  | step hxy ha _ ih => exact .step hxy ha (ih hb hbc)

lemma trans (hP : Value.Lawful P) (hr : r.FieldsIn P) (hb : P b) (hab : r.Leads a b)
    (hbc : r.Leads b c) : r.Leads a c := by
  induction hab with
  | last hxy ha hyb => exact .step hxy ha (hbc.congr_left hP hr (hr _ _ hxy).2 hb hyb)
  | step hxy ha _ ih => exact .step hxy ha (ih hb hbc)

end Leads

/-! ### Successors, grouped under the first fields -/

lemma add_cases (next : List (Value × List Value)) (a b : Value) :
    (∃ pre key bs post, next = pre ++ (key, bs) :: post ∧ key.answers a = true ∧
      successors.add next (a, b) = pre ++ (key, bs ++ [b]) :: post) ∨
    ((∀ e ∈ next, e.1.answers a = false) ∧ successors.add next (a, b) = next ++ [(a, [b])]) := by
  induction next with
  | nil => exact .inr ⟨by simp, rfl⟩
  | cons e next ih =>
    obtain ⟨key, bs⟩ := e
    rw [successors.add]
    by_cases hkey : key.answers a
    · rw [if_pos hkey]
      exact .inl ⟨[], key, bs, next, rfl, hkey, rfl⟩
    · rw [if_neg hkey]
      rcases ih with ⟨pre, key', bs', post, rfl, hkey', hadd⟩ | ⟨hnone, hadd⟩
      · exact .inl ⟨(key, bs) :: pre, key', bs', post, rfl, hkey', by rw [hadd]; rfl⟩
      · refine .inr ⟨List.forall_mem_cons.mpr ⟨by simpa using hkey, hnone⟩, by rw [hadd]; rfl⟩

/-- The second fields of some of the pairs, under a first field that is equal to theirs. -/
structure Group (pairs : List (Value × Value)) (e : Value × List Value) : Prop where
  first : ∃ p ∈ pairs, p.1 = e.1
  sound : ∀ c ∈ e.2, ∃ p ∈ pairs, e.1.equal p.1 = true ∧ p.2 = c
  short : e.2.length ≤ pairs.length

lemma Group.mono {e : Value × List Value} (h : Group pairs e) (p : Value × Value) :
    Group (pairs ++ [p]) e where
  first := h.first.imp fun _ => And.imp_left (List.mem_append_left _)
  sound c hc := (h.sound c hc).imp fun _ => And.imp_left (List.mem_append_left _)
  short := by
    have := h.short
    simp only [List.length_append, List.length_singleton]
    omega

lemma Group.grow (h : Group pairs (a, cs)) (hab : a.equal b = true) :
    Group (pairs ++ [(b, c)]) (a, cs ++ [c]) where
  first := (h.mono _).first
  sound d hd := by
    rcases List.mem_append.mp hd with hd | hd
    · exact (h.mono _).sound d hd
    · rw [List.mem_singleton.mp hd]
      exact ⟨_, List.mem_append_right _ List.mem_cons_self, hab, rfl⟩
  short := by
    have := h.short
    simp only [List.length_append, List.length_singleton] at this ⊢
    omega

/-- All pairs are grouped, and no two groups are under equal values. -/
structure Groups (pairs : List (Value × Value)) (next : List (Value × List Value)) : Prop where
  keys : Unrepeated Value.equal (next.map Prod.fst)
  group : ∀ e ∈ next, Group pairs e
  complete : ∀ p ∈ pairs, ∃ e ∈ next, e.1.equal p.1 = true ∧ p.2 ∈ e.2

namespace Groups

lemma key (h : Groups pairs next) (hp : ∀ p ∈ pairs, P p.1) : ∀ e ∈ next, P e.1 := by
  intro e he
  obtain ⟨p, hmem, hkey⟩ := (h.group e he).first
  exact hkey ▸ hp p hmem

lemma add (hP : Value.Lawful P) (hp : ∀ p ∈ pairs, P p.1) (ha : P a) (h : Groups pairs next) :
    Groups (pairs ++ [(a, b)]) (successors.add next (a, b)) := by
  rcases add_cases next a b with ⟨pre, key, bs, post, rfl, hkey, hadd⟩ | ⟨hnone, hadd⟩
  · have hequal : key.equal a = true := (Value.answers_iff.mp hkey).2
    have hgrown : (key, bs ++ [b]) ∈ pre ++ (key, bs ++ [b]) :: post :=
      List.mem_append_right _ List.mem_cons_self
    rw [hadd]
    refine ⟨by simpa using h.keys, fun e he => ?_, fun p hmem => ?_⟩
    · rcases List.mem_cons.mp (List.perm_middle.mem_iff.mp he) with rfl | he
      · exact (h.group _ (List.mem_append_right _ List.mem_cons_self)).grow hequal
      · exact (h.group e (List.perm_middle.mem_iff.mpr (List.mem_cons_of_mem _ he))).mono _
    · rcases List.mem_append.mp hmem with hmem | hmem
      · obtain ⟨e, he, hep, hin⟩ := h.complete p hmem
        rcases List.mem_cons.mp (List.perm_middle.mem_iff.mp he) with rfl | he
        · exact ⟨_, hgrown, hep, List.mem_append_left _ hin⟩
        · exact ⟨e, List.perm_middle.mem_iff.mpr (List.mem_cons_of_mem _ he), hep, hin⟩
      · rw [List.mem_singleton.mp hmem]
        exact ⟨_, hgrown, hequal, List.mem_append_right _ List.mem_cons_self⟩
  · have hself : a.equal a = true := hP.equivalence.refl ha
    rw [hadd]
    refine ⟨?_, fun e he => ?_, fun p hmem => ?_⟩
    · rw [List.map_append]
      refine List.pairwise_append.mpr ⟨h.keys, List.pairwise_singleton _ _, ?_⟩
      intro k hk a' ha'
      obtain ⟨e, he, rfl⟩ := List.mem_map.mp hk
      rw [List.mem_singleton.mp ha', ← hP.answers_eq (h.key hp e he) ha]
      exact hnone e he
    · rcases List.mem_append.mp he with he | he
      · exact (h.group e he).mono _
      · rw [List.mem_singleton.mp he]
        exact ⟨⟨_, List.mem_append_right _ List.mem_cons_self, rfl⟩, fun c hc =>
          ⟨_, List.mem_append_right _ List.mem_cons_self, hself, (List.mem_singleton.mp hc).symm⟩,
          by simp⟩
    · rcases List.mem_append.mp hmem with hmem | hmem
      · obtain ⟨e, he, hep⟩ := h.complete p hmem
        exact ⟨e, List.mem_append_left _ he, hep⟩
      · rw [List.mem_singleton.mp hmem]
        exact ⟨_, List.mem_append_right _ List.mem_cons_self, hself, List.mem_cons_self⟩

end Groups

lemma groups_successors (hP : Value.Lawful P) (hp : ∀ p ∈ pairs, P p.1) :
    Groups pairs (successors pairs) := by
  induction pairs using List.reverseRecOn with
  | nil => exact ⟨.nil, by simp [successors], by simp⟩
  | append_singleton pairs p ih =>
    rw [List.forall_mem_append] at hp
    have hadd := (ih hp.1).add (b := p.2) hP hp.1 (hp.2 p List.mem_cons_self)
    rwa [successors, List.foldl_append]

/-! ### One step of the search -/

lemma meets_eq (hP : Value.Lawful P) (hv : P v) (ha : P a) : meets v a = v.equal a := by
  rw [meets, Bool.and_eq_right_iff_imp]
  intro hva
  exact hP.contents ha hv (hP.equivalence.symm hv ha hva)

/-- What follows a value are the second fields of the pairs whose first field equals it. -/
lemma mem_onward (hP : Value.Lawful P) (hp : ∀ p ∈ pairs, P p.1) (h : Groups pairs next) (hv : P v) :
    c ∈ onward next v ↔ ∃ p ∈ pairs, v.equal p.1 = true ∧ p.2 = c := by
  have hkey := h.key hp
  rw [onward]
  cases hfind : next.find? fun e => meets v e.1 with
  | none =>
    refine iff_of_false (by simp) ?_
    rintro ⟨p, hmem, hvp, -⟩
    obtain ⟨e, he, hep, -⟩ := h.complete p hmem
    have hmeet := List.find?_eq_none.mp hfind e he
    rw [meets_eq hP hv (hkey e he)] at hmeet
    exact hmeet (hP.equivalence.trans hv (hp p hmem) (hkey e he) hvp
      (hP.equivalence.symm (hkey e he) (hp p hmem) hep))
  | some e =>
    have he := List.mem_of_find?_eq_some hfind
    have hve : v.equal e.1 = true := by
      rw [← meets_eq hP hv (hkey e he)]
      simpa using List.find?_some hfind
    rw [Option.map_some, Option.getD_some]
    constructor
    · intro hc
      obtain ⟨p, hmem, hep, hpc⟩ := (h.group e he).sound c hc
      exact ⟨p, hmem, hP.equivalence.trans hv (hkey e he) (hp p hmem) hve hep, hpc⟩
    · rintro ⟨p, hmem, hvp, rfl⟩
      obtain ⟨e', he', hep, hin⟩ := h.complete p hmem
      have hve' : v.equal e'.1 = true := hP.equivalence.trans hv (hp p hmem) (hkey e' he') hvp
        (hP.equivalence.symm (hkey e' he') (hp p hmem) hep)
      -- both groups are under values equal to `v`, and no two are
      have hone : next.Pairwise fun e e' => ¬ (v.equal e.1 = true ∧ v.equal e'.1 = true) := by
        refine (List.pairwise_map.mp h.keys).imp_of_mem fun {x y} hx hy hxy hboth => ?_
        rw [← hP.equivalence.congr_left hv (hkey x hx) (hkey y hy) hboth.1, hboth.2] at hxy
        exact Bool.false_ne_true hxy.symm
      rwa [eq_of_pairwise_not_both hone he he' hve hve']

lemma mem_of_mem_onward (h : Groups pairs next) : ∀ c ∈ onward next v, c ∈ pairs.map Prod.snd := by
  refine onward_spec fun e he c hc => ?_
  obtain ⟨p, hmem, -, rfl⟩ := (h.group e he).sound c hc
  exact List.mem_map_of_mem hmem

lemma length_onward_le (h : Groups pairs next) (v : Value) : (onward next v).length ≤ pairs.length := by
  rw [onward]
  cases hfind : next.find? fun e => meets v e.1 with
  | none => simp
  | some e => exact (h.group e (List.mem_of_find?_eq_some hfind)).short

/-! ### The search -/

/-- The search from a work list, in as many steps as it takes. -/
inductive Search (next : List (Value × List Value)) : List Value → List Value → List Value → Prop
  | done {reached : List Value} : Search next [] reached reached
  | skip {v : Value} {pending reached result : List Value} (hv : reached.any (meets v) = true)
      (h : Search next pending reached result) : Search next (v :: pending) reached result
  | follow {v : Value} {pending reached result : List Value} (hv : reached.any (meets v) = false)
      (h : Search next ((onward next v).reverse ++ pending) (reached ++ [v]) result) :
      Search next (v :: pending) reached result

lemma not_met (hP : Value.Lawful P) (hr : ∀ x ∈ reached, P x) (hv : P v)
    (hmet : reached.any (meets v) = false) : ∀ x ∈ reached, x.equal v = false := by
  intro x hx
  have hvx := List.any_eq_false.mp hmet x hx
  rw [meets_eq hP hv (hr x hx), hP.equivalence.comm hv (hr x hx)] at hvx
  simpa using hvx

/-- The search ends. Nothing is followed that equals something followed before, so that there are at most as
many values to follow as pairs, each with at most as many to follow after it. -/
lemma search_reach (hP : Value.Lawful P) (hp : ∀ p ∈ pairs, P p.1 ∧ P p.2) (h : Groups pairs next)
    {fuel : ℕ} (hpending : ∀ v ∈ pending, v ∈ pairs.map Prod.snd)
    (hreached : ∀ v ∈ reached, v ∈ pairs.map Prod.snd) (hd : Unrepeated Value.equal reached)
    (hfuel : pending.length + (pairs.length - reached.length) * pairs.length ≤ fuel) :
    Search next pending reached (reach next fuel pending reached) := by
  have hsnd : ∀ v ∈ pairs.map Prod.snd, P v := by
    intro v hv
    obtain ⟨p, hmem, rfl⟩ := List.mem_map.mp hv
    exact (hp p hmem).2
  induction fuel generalizing pending reached with
  | zero =>
    have hnil : pending = [] := List.length_eq_zero_iff.mp (by omega)
    rw [hnil]
    exact .done
  | succ fuel ih =>
    cases pending with
    | nil => exact .done
    | cons v pending =>
      obtain ⟨hv, hpending⟩ := List.forall_mem_cons.mp hpending
      rw [List.length_cons] at hfuel
      rw [reach]
      by_cases hmet : reached.any (meets v)
      · rw [if_pos hmet]
        exact .skip hmet (ih hpending hreached hd (by omega))
      · rw [if_neg hmet]
        have hmet : reached.any (meets v) = false := by simpa using hmet
        have hreached' : ∀ x ∈ reached ++ [v], x ∈ pairs.map Prod.snd :=
          List.forall_mem_append.mpr ⟨hreached, by simpa using hv⟩
        have hd' : Unrepeated Value.equal (reached ++ [v]) := by
          refine List.pairwise_append.mpr ⟨hd, List.pairwise_singleton _ _, fun x hx w hw => ?_⟩
          rw [List.mem_singleton.mp hw]
          exact not_met hP (fun x hx => hsnd x (hreached x hx)) (hsnd v hv) hmet x hx
        have hlen : (reached ++ [v]).length ≤ (pairs.map Prod.snd).length :=
          hP.equivalence.length_le hsnd (fun x hx => hsnd x (hreached' x hx)) hd'
            fun x hx => ⟨x, hreached' x hx, hP.equivalence.refl (hsnd x (hreached' x hx))⟩
        refine .follow hmet (ih ?_ hreached' hd' ?_)
        · refine List.forall_mem_append.mpr ⟨fun c hc => ?_, hpending⟩
          exact mem_of_mem_onward h c (List.mem_reverse.mp hc)
        · have hstep := length_onward_le h v
          have hroom : (pairs.length - reached.length) * pairs.length =
              (pairs.length - (reached.length + 1)) * pairs.length + pairs.length := by
            simp only [List.length_append, List.length_singleton, List.length_map] at hlen
            rw [← Nat.succ_mul]
            congr 1
            omega
          simp only [List.length_append, List.length_reverse, List.length_singleton]
          omega

namespace Search

lemma subset (h : Search next pending reached result) : reached ⊆ result := by
  induction h with
  | done => exact List.Subset.refl _
  | skip _ _ ih => exact ih
  | follow _ _ ih => exact List.Subset.trans (List.subset_append_left _ _) ih

/-- What holds of the values to follow, and goes over to those that follow, holds of all that are met. -/
lemma forall_result (h : Search next pending reached result)
    (hnext : ∀ v, P v → ∀ c ∈ onward next v, P c)
    (hpending : ∀ v ∈ pending, P v) (hreached : ∀ v ∈ reached, P v) : ∀ v ∈ result, P v := by
  induction h with
  | done => exact hreached
  | skip _ _ ih => exact ih (List.forall_mem_cons.mp hpending).2 hreached
  | follow _ _ ih =>
    obtain ⟨hv, hpending⟩ := List.forall_mem_cons.mp hpending
    refine ih (List.forall_mem_append.mpr ⟨fun c hc => ?_, hpending⟩)
      (List.forall_mem_append.mpr ⟨hreached, by simpa using hv⟩)
    exact hnext _ hv c (List.mem_reverse.mp hc)

/-- Every value to follow is met. -/
lemma meets_pending (h : Search next pending reached result) (hself : ∀ v, P v → meets v v = true)
    (hnext : ∀ v, P v → ∀ c ∈ onward next v, P c) (hpending : ∀ v ∈ pending, P v) :
    ∀ v ∈ pending, ∃ x ∈ result, meets v x = true := by
  induction h with
  | done => simp
  | skip hv h ih =>
    obtain ⟨-, hpending⟩ := List.forall_mem_cons.mp hpending
    refine List.forall_mem_cons.mpr ⟨?_, ih hpending⟩
    obtain ⟨x, hx, hmeet⟩ := List.any_eq_true.mp hv
    exact ⟨x, h.subset hx, hmeet⟩
  | follow hv h ih =>
    obtain ⟨hPv, hpending⟩ := List.forall_mem_cons.mp hpending
    refine List.forall_mem_cons.mpr ⟨⟨_, h.subset (by simp), hself _ hPv⟩, fun w hw => ?_⟩
    refine ih (List.forall_mem_append.mpr ⟨fun c hc => ?_, hpending⟩) w (List.mem_append_right _ hw)
    exact hnext _ hPv c (List.mem_reverse.mp hc)

/-- What follows a value that is met is met. -/
lemma meets_onward (h : Search next pending reached result) (hself : ∀ v, P v → meets v v = true)
    (hnext : ∀ v, P v → ∀ c ∈ onward next v, P c) (hpending : ∀ v ∈ pending, P v)
    (hclosed : ∀ x ∈ reached, ∀ c ∈ onward next x, ∃ y ∈ result, meets c y = true) :
    ∀ x ∈ result, ∀ c ∈ onward next x, ∃ y ∈ result, meets c y = true := by
  induction h with
  | done => exact hclosed
  | skip _ _ ih => exact ih (List.forall_mem_cons.mp hpending).2 hclosed
  | follow _ h ih =>
    obtain ⟨hv, hpending⟩ := List.forall_mem_cons.mp hpending
    have hpending' := List.forall_mem_append.mpr
      ⟨fun c hc => hnext _ hv c (List.mem_reverse.mp hc), hpending⟩
    refine ih hpending' (List.forall_mem_append.mpr ⟨hclosed, fun x hx c hc => ?_⟩)
    rw [List.mem_singleton.mp hx] at hc
    exact h.meets_pending hself hnext hpending' c (List.mem_append_left _ (List.mem_reverse.mpr hc))

end Search

/-! ### The closure -/

lemma FieldsIn.forall_pairs (hr : r.FieldsIn P) : ∀ p ∈ r.pairs, P p.1 ∧ P p.2 :=
  fun _ hmem => hr _ _ (mem_pairs.mp hmem)

lemma FieldsIn.groups (hr : r.FieldsIn P) (hP : Value.Lawful P) : Groups r.pairs (successors r.pairs) :=
  groups_successors hP fun p hmem => (hr.forall_pairs p hmem).1

/-- The steps of the search are the tuples of the relation. -/
lemma mem_onward_successors (hP : Value.Lawful P) (hr : r.FieldsIn P) (hv : P v) :
    c ∈ onward (successors r.pairs) v ↔ ∃ x, r.Relates x c ∧ v.equal x = true := by
  rw [mem_onward hP (fun p hmem => (hr.forall_pairs p hmem).1) (hr.groups hP) hv]
  constructor
  · rintro ⟨p, hmem, hvp, rfl⟩
    exact ⟨p.1, mem_pairs.mp hmem, hvp⟩
  · rintro ⟨x, hxc, hvx⟩
    exact ⟨(x, c), mem_pairs.mpr hxc, hvx, rfl⟩

lemma search_reachable (hP : Value.Lawful P) (hr : r.FieldsIn P) (start : Value) :
    Search (successors r.pairs) (onward (successors r.pairs) start).reverse [] (reachable r.pairs start) := by
  have h := hr.groups hP
  refine search_reach hP hr.forall_pairs h (fun c hc => mem_of_mem_onward h c (List.mem_reverse.mp hc))
    (by simp) .nil ?_
  have hstart := length_onward_le h start
  rw [List.length_reverse, List.length_nil, Nat.sub_zero]
  omega

lemma meets_self (hP : Value.Lawful P) : ∀ v, P v → meets v v = true := by
  intro v hv
  rw [meets_eq hP hv hv, hP.equivalence.refl hv]

lemma forall_onward (hP : Value.Lawful P) (hr : r.FieldsIn P) :
    ∀ v, P v → ∀ c ∈ onward (successors r.pairs) v, P c := by
  intro v hv c hc
  obtain ⟨x, hxc, -⟩ := (mem_onward_successors hP hr hv).mp hc
  exact (hr x c hxc).2

lemma leads_of_mem_onward (hP : Value.Lawful P) (hr : r.FieldsIn P) (ha : P a)
    (hc : c ∈ onward (successors r.pairs) a) : r.Leads a c := by
  obtain ⟨x, hxc, hax⟩ := (mem_onward_successors hP hr ha).mp hc
  exact .last hxc hax (hP.equivalence.refl (hr x c hxc).2)

/-- Chains lead to whatever is reachable. -/
lemma leads_of_mem_reachable (hP : Value.Lawful P) (hr : r.FieldsIn P) (ha : P a) :
    ∀ x ∈ reachable r.pairs a, P x ∧ r.Leads a x := by
  refine (search_reachable hP hr a).forall_result (fun v hv c hc => ?_) (fun c hc => ?_) (by simp)
  · exact ⟨forall_onward hP hr v hv.1 c hc, hv.2.trans hP hr hv.1 (leads_of_mem_onward hP hr hv.1 hc)⟩
  · have hc := List.mem_reverse.mp hc
    exact ⟨forall_onward hP hr a ha c hc, leads_of_mem_onward hP hr ha hc⟩

/-- What chains lead to is in every list that has met what follows the start, and what follows its own
members. -/
lemma exists_equal_of_leads (hP : Value.Lawful P) (hr : r.FieldsIn P) (ha : P a) (hc : P c)
    (hresult : ∀ v ∈ result, P v)
    (hstart : ∀ y ∈ onward (successors r.pairs) a, ∃ z ∈ result, meets y z = true)
    (hclosed : ∀ x ∈ result, ∀ y ∈ onward (successors r.pairs) x, ∃ z ∈ result, meets y z = true)
    (h : r.Leads a c) : ∃ z ∈ result, z.equal c = true := by
  have next {a x y : Value} (ha : P a) (hxy : r.Relates x y) (hax : a.equal x = true)
      (hstart : ∀ y ∈ onward (successors r.pairs) a, ∃ z ∈ result, meets y z = true) :
      ∃ z ∈ result, z.equal y = true := by
    have hy := (hr x y hxy).2
    obtain ⟨z, hz, hyz⟩ := hstart y ((mem_onward_successors hP hr ha).mpr ⟨x, hxy, hax⟩)
    rw [meets_eq hP hy (hresult z hz)] at hyz
    exact ⟨z, hz, hP.equivalence.symm hy (hresult z hz) hyz⟩
  induction h with
  | last hxy hax hyc =>
    obtain ⟨z, hz, hzy⟩ := next ha hxy hax hstart
    exact ⟨z, hz, hP.equivalence.trans (hresult z hz) (hr _ _ hxy).2 hc hzy hyc⟩
  | @step a x y c hxy hax _ ih =>
    have hy := (hr x y hxy).2
    obtain ⟨z, hz, hzy⟩ := next ha hxy hax hstart
    refine ih hy hc fun w hw => ?_
    -- whatever follows `y` follows the value equal to it that has been met
    obtain ⟨x', hxw, hyx⟩ := (mem_onward_successors hP hr hy).mp hw
    have hzx := hP.equivalence.trans (hresult z hz) hy (hr x' w hxw).1 hzy hyx
    exact hclosed z hz w ((mem_onward_successors hP hr (hresult z hz)).mpr ⟨x', hxw, hzx⟩)

/-- A value is reachable from another when a chain leads to it. -/
lemma reachable_iff_leads (hP : Value.Lawful P) (hr : r.FieldsIn P) (ha : P a) (hc : P c) :
    (∃ x ∈ reachable r.pairs a, x.equal c = true) ↔ r.Leads a c := by
  have hsound := leads_of_mem_reachable hP hr ha
  constructor
  · rintro ⟨x, hx, hxc⟩
    exact (hsound x hx).2.congr_right hP hr (hsound x hx).1 hc hxc
  · intro h
    have hsearch := search_reachable hP hr a
    have hpending : ∀ v ∈ (onward (successors r.pairs) a).reverse, P v :=
      fun v hv => forall_onward hP hr a ha v (List.mem_reverse.mp hv)
    have hstart := hsearch.meets_pending (meets_self hP) (forall_onward hP hr) hpending
    have hclosed := hsearch.meets_onward (meets_self hP) (forall_onward hP hr) hpending (by simp)
    exact exists_equal_of_leads hP hr ha hc (fun v hv => (hsound v hv).1)
      (fun y hy => hstart y (List.mem_reverse.mpr hy)) hclosed h

/-- Each first field with what is reachable from it. -/
def closed (pairs : List (Value × Value)) : List (Value × Value) :=
  (successors pairs).flatMap fun e => (reachable pairs e.1).map fun c => (e.1, c)

lemma closedPairs_eq_map (ty : Ty) (pairs : List (Value × Value)) :
    closedPairs ty pairs = (closed pairs).map fun p => .tuple ty [p.1, p.2] := by
  simp only [closedPairs, closed, List.map_flatMap, List.map_map]
  rfl

lemma mem_closed {p : Value × Value} :
    p ∈ closed pairs ↔ ∃ e ∈ successors pairs, ∃ c ∈ reachable pairs e.1, p = (e.1, c) := by
  simp only [closed, List.mem_flatMap, List.mem_map, eq_comm (a := p)]

lemma holds_closure (hP : Value.Lawful P) (hr : r.FieldsIn P) (h : r.closure home = .ok u) :
    u.Holds P r.Leads := by
  obtain ⟨-, fields, -, rfl⟩ := closure_eq_ok.mp h
  have hgroups := hr.groups hP
  have hkey : ∀ e ∈ successors r.pairs, P e.1 := hgroups.key fun p hmem => (hr.forall_pairs p hmem).1
  have hreach : ∀ v, ∀ c ∈ reachable r.pairs v, P c :=
    fun v => reachable_spec fun p hmem => (hr.forall_pairs p hmem).2
  have hps : ∀ p ∈ closed r.pairs, P p.1 ∧ P p.2 := by
    intro p hp
    obtain ⟨e, he, c, hc, rfl⟩ := mem_closed.mp hp
    exact ⟨hkey e he, hreach _ c hc⟩
  rw [closedPairs_eq_map]
  refine (holds_ofPairs hP hps).congr fun a c ha hc => ?_
  constructor
  · rintro ⟨p, hp, hpa, hpc⟩
    obtain ⟨e, he, x, hx, rfl⟩ := mem_closed.mp hp
    have hleads := (reachable_iff_leads hP hr (hkey e he) hc).mp ⟨x, hx, hpc⟩
    exact hleads.congr_left hP hr ha (hkey e he) (hP.equivalence.symm (hkey e he) ha hpa)
  · intro hleads
    obtain ⟨x, y, hxy, hax⟩ : ∃ x y, r.Relates x y ∧ a.equal x = true := by
      cases hleads with
      | last hxy hax _ => exact ⟨_, _, hxy, hax⟩
      | step hxy hax _ => exact ⟨_, _, hxy, hax⟩
    obtain ⟨e, he, hex, -⟩ := hgroups.complete (x, y) (mem_pairs.mpr hxy)
    have hea : e.1.equal a = true := hP.equivalence.trans (hkey e he) (hr _ _ hxy).1 ha hex
      (hP.equivalence.symm ha (hr _ _ hxy).1 hax)
    obtain ⟨z, hz, hzc⟩ := (reachable_iff_leads hP hr (hkey e he) hc).mpr
      (hleads.congr_left hP hr (hkey e he) ha hea)
    exact ⟨(e.1, z), mem_closed.mpr ⟨e, he, z, hz, rfl⟩, hea, hzc⟩

/-- A chain of chains is a chain. -/
lemma leads_leads_iff (hP : Value.Lawful P) (hr : r.FieldsIn P) (hu : u.Holds P r.Leads) (ha : P a)
    (hc : P c) : u.Leads a c ↔ r.Leads a c := by
  have hpair {x y : Value} (hxy : u.Relates x y) : r.Leads x y := by
    obtain ⟨hx, hy⟩ := hu.fieldsIn x y hxy
    exact (hu.hasPair_iff x y hx hy).mp ⟨x, y, hxy, hP.equivalence.refl hx, hP.equivalence.refl hy⟩
  constructor
  · intro h
    induction h with
    | last hxy hax hyc =>
      obtain ⟨hx, hy⟩ := hu.fieldsIn _ _ hxy
      exact ((hpair hxy).congr_left hP hr ha hx hax).congr_right hP hr hy hc hyc
    | step hxy hax _ ih =>
      obtain ⟨hx, hy⟩ := hu.fieldsIn _ _ hxy
      exact ((hpair hxy).congr_left hP hr ha hx hax).trans hP hr hy (ih hy hc)
  · intro h
    obtain ⟨a', c', hac, ha', hc'⟩ := (hu.hasPair_iff a c ha hc).mpr h
    exact .last hac (hP.equivalence.symm (hu.fieldsIn _ _ hac).1 ha ha') hc'

/-- A binary relation can be closed, and both fields of the closure have the join of the two types. -/
lemma exists_closure {f g : Field} (home : UniverseId) (hfg : r.toSet.elementType.fields = [f, g]) :
    ∃ u, r.closure home = .ok u ∧ u.ty = .set home (.tuple home
      [⟨.join home f.item g.item, f.label⟩, ⟨.join home f.item g.item, g.label⟩]) := by
  have har : r.arity = 2 := by rw [arity_eq, hfg]; rfl
  have hfields : r.toSet.elementType.closedFields home =
      .ok [⟨.join home f.item g.item, f.label⟩, ⟨.join home f.item g.item, g.label⟩] :=
    bind_eq_ok.mpr ⟨_, Ty.tupleFieldsFor_eq_ok.mpr (resolved_elementType hfg), rfl⟩
  exact ⟨_, closure_eq_ok.mpr ⟨har, _, hfields, rfl⟩, rfl⟩

/-- Where equality is an equivalence on the field values and equal ones have equal contents: the search from
every value ends, a binary relation can be closed, its closure holds exactly the pairs from whose first value
a chain of tuples leads to the second, each once, and the closure of that is equal to it and of the identical
type. -/
theorem closure_exact (home : UniverseId) (hP : Value.Lawful P) (hr : r.FieldsIn P) (har : r.arity = 2) :
    (∀ start, Search (successors r.pairs) (onward (successors r.pairs) start).reverse []
      (reachable r.pairs start)) ∧
    ∃ u w, r.closure home = .ok u ∧ u.Holds P r.Leads ∧ u.closure home = .ok w ∧
      (w.toSet : Value).equal u.toSet = true ∧ w.ty = u.ty := by
  obtain ⟨f, g, hfg⟩ := exists_fields har
  obtain ⟨u, hu, htyu⟩ := exists_closure home hfg
  obtain ⟨w, hw, htyw⟩ := exists_closure home (fields_of_ty htyu)
  have hholdu : u.Holds P r.Leads := holds_closure hP hr hu
  have hholdw : w.Holds P r.Leads := (holds_closure hP hholdu.fieldsIn hw).congr fun a c ha hc =>
    leads_leads_iff hP hr hholdu ha hc
  have hty : w.ty = u.ty := by
    rw [htyw, htyu, Ty.join_self]
  exact ⟨search_reachable hP hr, u, w, hu, hholdu, hw, hholdw.equal hholdu hP hty, hty⟩

/-- A way round from 1 to 3 and back, with a way out of it. -/
theorem closure_exact_cycle :
    let r : Relation := .ofPairs 0 [⟨.int, some "start"⟩, ⟨.int, some "stop"⟩]
      ([(1, 2), (2, 3), (3, 1), (3, 4)].map fun p : Int64 × Int64 => (.int p.1, .int p.2))
    Value.Lawful Value.Scalar ∧ r.FieldsIn Value.Scalar ∧ r.arity = 2 ∧
      (∀ start, Search (successors r.pairs) (onward (successors r.pairs) start).reverse []
        (reachable r.pairs start)) ∧
      ∃ u w, r.closure 0 = .ok u ∧ u.Holds Value.Scalar r.Leads ∧ u.closure 0 = .ok w ∧
        (w.toSet : Value).equal u.toSet = true ∧ w.ty = u.ty := by
  intro r
  have hP := Value.lawful_scalars
  have hr : r.FieldsIn Value.Scalar := by
    refine (holds_ofPairs hP fun p hp => ?_).fieldsIn
    obtain ⟨q, -, rfl⟩ := List.mem_map.mp hp
    exact ⟨trivial, trivial⟩
  exact ⟨hP, hr, rfl, closure_exact 0 hP hr rfl⟩

end TypedValues.Relation
