import Mathlib
import TypedValues.Proofs.Value.Equality
import TypedValues.Proofs.Value.Naming

/-!
# The history of a map

Whatever calls have made a map, its entries come from binding and unbinding keys in turn. Its keys stay
unequal for as long as no key is bound that equals a stored one besides that whose place it takes.
-/

namespace TypedValues

/-- What happens to the entries of a map. -/
inductive Change where
  | bind (key v : Value)
  | unbind (key : Value)

/-- Two keys are unequal from either side. -/
def Value.Unequal (x y : Value) : Prop := x.equal y = false ∧ y.equal x = false

lemma Value.Unequal.symm {x y : Value} (h : x.Unequal y) : y.Unequal x := And.symm h

def KeysUnequal (es : List (Value × Value)) : Prop := es.Pairwise fun e f => e.1.Unequal f.1

namespace Change

variable {es : List (Value × Value)} {b : Bindings} {c : Change} {cs ds : List Change} {fresh : TableId}
  {key v : Value}

/-- The entries after a change. The name of the table makes no difference to them. -/
def apply (es : List (Value × Value)) : Change → List (Value × Value)
  | bind key v => ((⟨0, es⟩ : Bindings).put 0 key v).entries
  | unbind key => ((⟨0, es⟩ : Bindings).erase 0 key).entries

/-- The entries after a history of changes. -/
def run (cs : List Change) : List (Value × Value) := cs.foldl apply []

/-- A key that is bound equals no stored key but the one whose place it takes, or else nothing changes. -/
def Settles (es : List (Value × Value)) : Change → Prop
  | bind key v =>
    apply es (bind key v) = es ∨ ∀ e ∈ Table.erase (·.answers key) es, key.Unequal e.1
  | unbind _ => True

/-- Each change of the history settles. -/
inductive Settled : List Change → Prop
  | nil : Settled []
  | snoc {cs : List Change} {c : Change} : Settled cs → c.Settles (run cs) → Settled (cs ++ [c])

lemma run_append (cs ds : List Change) : run (cs ++ ds) = ds.foldl apply (run cs) := List.foldl_append

lemma run_snoc (cs : List Change) (c : Change) : run (cs ++ [c]) = apply (run cs) c := run_append cs [c]

lemma apply_bind (key v : Value) (es : List (Value × Value)) :
    apply es (bind key v) = es ∨ apply es (bind key v) = Table.put (·.answers key) key v es := by
  unfold apply Bindings.put
  dsimp only
  split
  · split
    · exact .inl rfl
    · exact .inr rfl
  · exact .inr rfl

lemma entries_put : (b.put fresh key v).entries = apply b.entries (bind key v) := by
  unfold apply Bindings.put Bindings.binding?
  dsimp only
  split
  · split <;> rfl
  · rfl

lemma apply_unbind (key : Value) (es : List (Value × Value)) :
    apply es (unbind key) = Table.erase (·.answers key) es := Bindings.entries_erase

lemma entries_erase : (b.erase fresh key).entries = apply b.entries (unbind key) := by
  rw [apply_unbind, Bindings.entries_erase]

lemma entries_putAll (es : List (Value × Value)) :
    (b.putAll fresh es).entries = (es.map fun e => bind e.1 e.2).foldl apply b.entries := by
  induction es generalizing b with
  | nil => rfl
  | cons e es ih => rw [List.map_cons, List.foldl_cons, ← entries_put, ← ih]; rfl

lemma keysUnequal_erase (h : KeysUnequal es) (key : Value) :
    KeysUnequal (Table.erase (·.answers key) es) := h.sublist List.eraseP_sublist

/-- The keys are unequal after a change exactly if it settles. -/
lemma settles_iff (h : KeysUnequal es) : c.Settles es ↔ KeysUnequal (apply es c) := by
  cases c with
  | bind key v =>
    by_cases hsame : apply es (bind key v) = es
    · simp only [Settles, hsame, true_or, h]
    · have hput := (apply_bind key v es).resolve_left hsame
      have hsymm : ∀ {e f : Value × Value}, e.1.Unequal f.1 → f.1.Unequal e.1 := fun h => h.symm
      rw [Settles, hput, KeysUnequal, (Table.put_perm _ key v es).pairwise_iff hsymm, List.pairwise_cons,
        ← hput]
      exact ⟨fun hs => ⟨hs.resolve_left hsame, keysUnequal_erase h key⟩, fun hs => .inr hs.1⟩
  | unbind key =>
    rw [apply_unbind]
    exact iff_of_true trivial (keysUnequal_erase h key)

/-- At every stage of a history the keys are unequal exactly if each change settles. -/
theorem settled_iff : Settled cs ↔ ∀ ds, ds <+: cs → KeysUnequal (run ds) := by
  constructor
  · intro h
    induction h with
    | nil =>
      intro ds hds
      rw [List.prefix_nil.mp hds]
      exact .nil
    | @snoc cs c _ hc ih =>
      intro ds hds
      rcases List.prefix_concat_iff.mp hds with rfl | hds
      · rw [run_snoc]
        exact (settles_iff (ih cs List.prefix_rfl)).mp hc
      · exact ih ds hds
  · intro h
    induction cs using List.reverseRecOn with
    | nil => exact .nil
    | append_singleton cs c ih =>
      have hcs : cs <+: cs ++ [c] := List.prefix_append cs [c]
      refine .snoc (ih fun ds hds => h ds (hds.trans hcs)) ((settles_iff (h cs hcs)).mpr ?_)
      rw [← run_snoc]
      exact h _ List.prefix_rfl

end Change

open Change (run)

namespace MapValue

variable {m n : MapValue} {cs : List Change} {home : UniverseId} {fresh : TableId} {key v : Value}

/-- The entries of the map are those after the changes. -/
def BuiltBy (m : MapValue) (cs : List Change) : Prop := m.entries = run cs

lemma builtBy_empty (home : UniverseId) (s t : Ty) : (empty home s t).BuiltBy [] := rfl

lemma BuiltBy.put (hm : m.BuiltBy cs) : (m.put home fresh key v).BuiltBy (cs ++ [.bind key v]) := by
  rw [BuiltBy, Change.run_snoc, ← hm]
  exact Change.entries_put (b := m.bindings)

lemma BuiltBy.erase (hm : m.BuiltBy cs) : (m.erase fresh key).BuiltBy (cs ++ [.unbind key]) := by
  rw [BuiltBy, Change.run_snoc, ← hm]
  exact Change.entries_erase (b := m.bindings)

/-- Joining binds the keys of the second map in turn. -/
lemma BuiltBy.join (hm : m.BuiltBy cs) :
    (m.join home fresh n).BuiltBy (cs ++ n.entries.map fun e => .bind e.1 e.2) := by
  rw [BuiltBy, Change.run_append, ← hm]
  exact Change.entries_putAll (b := m.bindings) n.entries

end MapValue

/-! ### Every map has a history -/

namespace Value

/-- The entries of each map within the value have a history. -/
def Historic (v : Value) : Prop :=
  ∀ p : Value, p.PartOf v → ∀ ty i es, p = map ty i es → ∃ cs, run cs = es

end Value

lemma MapValue.Made.builtBy {held : List Value} {m : MapValue} (hheld : ∀ v ∈ held, v.Historic)
    (hm : m.Made held) : ∃ cs, m.BuiltBy cs := by
  have history {m : MapValue} (hm : (m : Value) ∈ held) : ∃ cs, m.BuiltBy cs := by
    obtain ⟨cs, hcs⟩ := hheld m hm m .self m.ty m.table m.entries rfl
    exact ⟨cs, hcs.symm⟩
  cases hm with
  | empty home s t => exact ⟨[], builtBy_empty home s t⟩
  | put home fresh hm hk hv =>
    obtain ⟨cs, hcs⟩ := history hm
    exact ⟨_, hcs.put⟩
  | erase fresh hm hk =>
    obtain ⟨cs, hcs⟩ := history hm
    exact ⟨_, hcs.erase⟩
  | join home fresh hm hn =>
    obtain ⟨cs, hcs⟩ := history hm
    exact ⟨_, hcs.join⟩

lemma MapWriter.history {w : MapWriter} {contents : Bindings} (hp : w.phase = .filling contents)
    (hw : (Writer.map w).current.Historic) : ∃ cs, run cs = contents.entries := by
  refine hw _ .self w.ty contents.table contents.entries ?_
  rw [Writer.current, MapWriter.finish, hp]
  rfl

/-- A writer binds the keys that are written in turn. -/
lemma Writer.Written.history {held : List Value} {w x : Writer} (hw : w.current.Historic)
    (hx : w.Written held x) : ∀ ty i es, x.current = .map ty i es → ∃ cs, run cs = es := by
  cases hx with
  | @mapPut fresh w x key v hk hv h =>
    obtain ⟨contents, hp, -, rfl⟩ := Phase.write_eq_ok.mp h
    obtain ⟨cs, hcs⟩ := MapWriter.history hp hw
    have hrun : run (cs ++ [.bind key v]) = (contents.put fresh key v).entries := by
      rw [Change.run_snoc, hcs, ← Change.entries_put]
    rintro ty i es ⟨⟩
    exact ⟨_, hrun⟩
  | @mapPutAll fresh w x written hes h =>
    obtain ⟨contents, hp, -, rfl⟩ := Phase.write_eq_ok.mp h
    obtain ⟨cs, hcs⟩ := MapWriter.history hp hw
    have hrun : run (cs ++ written.map fun e => .bind e.1 e.2) = (contents.putAll fresh written).entries := by
      rw [Change.run_append, hcs, ← Change.entries_putAll]
    rintro ty i es ⟨⟩
    exact ⟨_, hrun⟩
  | _ => exact nofun

namespace Session

variable {s : Session} {n : Value}

lemma Added.history (hs : ∀ r ∈ s.roots, r.Historic) (h : s.Added n) :
    ∀ ty i es, n = .map ty i es → ∃ cs, run cs = es := by
  cases h with
  | made hv =>
    have hvalues : ∀ v ∈ s.values, v.Historic := fun v hv => hs v (s.values_subset_roots hv)
    cases hv with
    | map hm =>
      obtain ⟨cs, hcs⟩ := hm.builtBy hvalues
      rintro ty i es ⟨⟩
      exact ⟨cs, hcs.symm⟩
    | component hv hc => exact hvalues _ hv _ (.inside hc .self)
    | _ => exact nofun
  | opened hw =>
    intro ty i es heq
    have hnil := hw.components_eq_nil
    rw [heq] at hnil
    exact ⟨[], (List.map_eq_nil_iff.mp (List.append_eq_nil_iff.mp hnil).1).symm⟩
  | written hw hx => exact hx.history (hs _ hw)
  | kept hn => exact hs _ hn _ .self

/-- Every map within a session that can be reached has a history. -/
lemma Reached.historic (hs : s.Reached) : ∀ r ∈ s.roots, r.Historic :=
  hs.forall_partOf (fun _ _ => nofun) fun _ _ hheld hn => hn.history hheld

end Session
end TypedValues
