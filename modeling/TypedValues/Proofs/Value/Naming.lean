import TypedValues.Proofs.Value.Origin
import TypedValues.Proofs.Value.Reachable

/-!
# Names of tables

A table is made under a name that no table has. Then a name stands for one table: maps that share it have
the same entries, however often they have been passed on since.
-/

namespace TypedValues

namespace Value

/-- A map with this table is a part of the value. -/
def Uses (v : Value) (b : Bindings) : Prop := ∃ ty, (map ty b.table b.entries).PartOf v

variable {v : Value} {b : Bindings}

lemma uses_iff : v.Uses b ↔
    (∃ ty, v = map ty b.table b.entries) ∨ ∃ c ∈ v.components, c.Uses b := by
  constructor
  · rintro ⟨ty, hpart⟩
    cases hpart with
    | self => exact Or.inl ⟨ty, rfl⟩
    | inside hc hpart => exact Or.inr ⟨_, hc, ty, hpart⟩
  · rintro (⟨ty, rfl⟩ | ⟨c, hc, ty, hpart⟩)
    · exact ⟨ty, .self⟩
    · exact ⟨ty, .inside hc hpart⟩

lemma labeled_iff : v.Labeled ↔
    (∀ ty xs as, v = node ty xs as → (as.map (·.1)).Nodup) ∧ ∀ c ∈ v.components, c.Labeled :=
  forall_partOf_iff

end Value

open Value (From Grown)

namespace Session

variable {s t : Session} {v n : Value} {b c : Bindings}

/-- The tables of the maps that a session holds or is writing, and the empty one that all maps share. -/
def Tables (s : Session) (b : Bindings) : Prop := b = .empty ∨ ∃ r ∈ s.roots, r.Uses b

/-- Every table that the second session has and the first has not has a name of its own. -/
def NamesAfresh (s t : Session) : Prop :=
  ∀ b, t.Tables b → s.Tables b ∨ ∀ c, s.Tables c → c.table ≠ b.table

/-- The sessions that are reached by steps that name their tables afresh. -/
inductive Named : Session → Prop
  | start : Named empty
  | step {s t : Session} : Named s → s.Step t → s.NamesAfresh t → Named t

lemma Named.reached (hs : s.Named) : s.Reached := by
  induction hs with
  | start => exact .start
  | step _ hstep _ ih => exact .step ih hstep

/-- What comes from a session uses no other tables. -/
lemma tables_of_from (hv : From s.roots v) : ∀ b, v.Uses b → s.Tables b := by
  refine hv.inherits (P := fun v => ∀ b, v.Uses b → s.Tables b) ?_ ?_ ?_
  · intro v c hv hc b hb
    exact hv b (Value.uses_iff.mpr (Or.inr ⟨c, hc, hb⟩))
  · intro ty vs hvs b hb
    rcases Value.uses_iff.mp hb with ⟨_, heq⟩ | ⟨c, hc, hb⟩
    · cases heq
    · exact hvs c hc b hb
  · intro v hv b hb
    exact Or.inr ⟨v, hv, hb⟩

lemma tables_of_grown (hn : Grown s.roots n) (hb : n.Uses b) :
    s.Tables b ∨ ∃ ty, n = .map ty b.table b.entries := by
  rcases Value.uses_iff.mp hb with hself | ⟨c, hc, hb⟩
  · exact Or.inr hself
  · exact Or.inl (tables_of_from (hn.components c hc) b hb)

/-- A step makes at most one table, that of a map. -/
lemma Step.tables (h : s.Step t) :
    ∃ n : Value, ∀ b, t.Tables b → s.Tables b ∨ ∃ ty, n = .map ty b.table b.entries := by
  obtain ⟨n, hn, hroots⟩ := h.grown
  refine ⟨n, ?_⟩
  rintro b (hempty | ⟨r, hr, hb⟩)
  · exact Or.inl (Or.inl hempty)
  · rcases hroots r hr with hr | rfl
    · exact Or.inl (Or.inr ⟨r, hr, hb⟩)
    · exact tables_of_grown hn hb

/-- Making a value other than a map makes no table. -/
lemma Named.make (hs : s.Named) (hv : v.Made s.values) (hmap : v.map? = none) :
    Named { s with values := v :: s.values } := by
  refine .step hs (.make hv) ?_
  rintro b (hempty | ⟨r, hr, hb⟩)
  · exact Or.inl (Or.inl hempty)
  · rcases List.mem_cons.mp hr with rfl | hr
    · rcases tables_of_grown (hv.grown.mono s.values_subset_roots) hb with hb | ⟨ty, rfl⟩
      · exact Or.inl hb
      · cases hmap
    · exact Or.inl (Or.inr ⟨r, hr, hb⟩)

/-- A name stands for one table. -/
theorem Named.table_unique (hs : s.Named) (hb : s.Tables b) (hc : s.Tables c)
    (hname : b.table = c.table) : b = c := by
  induction hs generalizing b c with
  | start =>
    have hnone : ∀ {d : Bindings}, empty.Tables d → d = .empty := by
      rintro d (hd | ⟨r, hr, -⟩)
      · exact hd
      · exact absurd hr List.not_mem_nil
    rw [hnone hb, hnone hc]
  | @step s t _ hstep hfresh ih =>
    obtain ⟨n, hn⟩ := hstep.tables
    by_cases hbs : s.Tables b
    · by_cases hcs : s.Tables c
      · exact ih hbs hcs hname
      · exact absurd hname (((hfresh c hc).resolve_left hcs) b hbs)
    · by_cases hcs : s.Tables c
      · exact absurd hname.symm (((hfresh b hb).resolve_left hbs) c hcs)
      · obtain ⟨ty, hnb⟩ := (hn b hb).resolve_left hbs
        obtain ⟨ty', hnc⟩ := (hn c hc).resolve_left hcs
        rw [hnb] at hnc
        obtain ⟨-, htable, hentries⟩ := Value.map.inj hnc
        cases b
        cases c
        simp only at htable hentries
        rw [htable, hentries]

/-- No node of a session that can be reached carries two annotations under one label. -/
theorem Reached.labeled (hs : s.Reached) : ∀ r ∈ s.roots, r.Labeled :=
  hs.forall_partOf (fun _ _ => nofun) fun _ _ hlabels hn => hn.grown.labels hlabels

end Session
end TypedValues
