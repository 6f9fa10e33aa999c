import TypedValues.Proofs.Value.Node
import TypedValues.Proofs.Value.Relation
import TypedValues.Proofs.Value.Session
import TypedValues.Proofs.Value.Writer

/-!
# Where values come from

A call makes one value at a time. Its components are held values, parts of them, or tuples of such, and a
step of a session adds no more than that one value to what the session holds and is writing.
-/

namespace TypedValues

/-- Held values, their components, and tuples of such values. -/
inductive Value.From (held : List Value) : Value → Prop
  | held {v : Value} : v ∈ held → From held v
  | component {v c : Value} : From held v → c ∈ v.components → From held c
  | tuple {ty : Ty} {vs : List Value} : (∀ v ∈ vs, From held v) → From held (.tuple ty vs)

open Value (From)

variable {held : List Value} {home : UniverseId} {is : List ℕ} {i : ℕ} {v : Value}
  {xs ys vs : List Value} {ty : Ty}

namespace Value

/-- What passes from values to their components and on to tuples of them, and holds of all held values,
holds of the values that come from them. -/
lemma From.inherits {P : Value → Prop} (hcomponent : ∀ v c, P v → c ∈ v.components → P c)
    (htuple : ∀ ty vs, (∀ v ∈ vs, P v) → P (.tuple ty vs)) (hheld : ∀ v ∈ held, P v)
    (hv : From held v) : P v := by
  induction hv with
  | held hv => exact hheld _ hv
  | component _ hc ih => exact hcomponent _ _ ih hc
  | tuple _ ih => exact htuple _ _ ih

lemma From.pair {a c : Value} (ha : From held a) (hc : From held c) : From held (.tuple ty [a, c]) := by
  apply From.tuple
  intro v hv
  rcases List.mem_pair.mp hv with rfl | rfl
  · exact ha
  · exact hc

end Value

section Rows

variable (hxs : ∀ x ∈ xs, From held x)
include hxs

lemma from_fields {t : TupleValue} (ht : t ∈ xs.filterMap Value.tuple?) :
    ∀ f ∈ t.fields, From held f := by
  intro f hf
  exact .component (hxs t (Value.mem_tuples.mp ht)) hf

lemma from_pairs {p : Value × Value}
    (hp : p ∈ (xs.filterMap Value.tuple?).filterMap TupleValue.pair?) :
    From held p.1 ∧ From held p.2 := by
  obtain ⟨t, ht, hfields⟩ := Value.exists_tuple_of_mem_pairs hp
  have hf := from_fields hxs ht
  rw [hfields] at hf
  exact ⟨hf p.1 (by simp), hf p.2 (by simp)⟩

lemma from_column (h : (xs.filterMap Value.tuple?).mapM (·.get i) = .ok vs) :
    ∀ v ∈ vs, From held v := by
  intro v hv
  obtain ⟨t, ht, hget⟩ := exists_of_mapM h hv
  exact from_fields hxs ht v (List.mem_of_getElem? (TupleValue.get_eq_ok.mp hget))

lemma from_selected {e e' : Ty} (h : Selected home e (xs.filterMap Value.tuple?) is e' vs) :
    ∀ v ∈ vs, From held v := by
  cases h with
  | column _ hvs => exact from_column hxs hvs
  | rows _ _ hus =>
    intro v hv
    obtain ⟨u, hu, rfl⟩ := List.mem_map.mp hv
    obtain ⟨t, ht, hselect⟩ := exists_of_mapM hus hu
    apply From.tuple
    intro f hf
    exact from_fields hxs ht f (TupleValue.mem_fields_of_get (TupleValue.select_eq_ok hselect).2 hf)

lemma from_composed (hys : ∀ y ∈ ys, From held y)
    (hv : v ∈ composedPairs ty ((xs.filterMap Value.tuple?).filterMap TupleValue.pair?)
      ((ys.filterMap Value.tuple?).filterMap TupleValue.pair?)) : From held v := by
  obtain ⟨p, hp, q, hq, -, rfl⟩ := mem_composedPairs.mp hv
  exact .pair (from_pairs hxs hp).1 (from_pairs hys hq).2

lemma from_carrier : ∀ v ∈ (xs.filterMap Value.tuple?).flatMap (·.fields), From held v := by
  intro v hv
  obtain ⟨t, ht, hf⟩ := List.mem_flatMap.mp hv
  exact from_fields hxs ht v hf

end Rows

/-! ### Contents of the values that one call makes -/

section Contents

lemma TupleValue.Made.fields {t : TupleValue} (ht : t.Made held) : ∀ f ∈ t.fields, From held f := by
  have hset : ∀ {t u : TupleValue} {i : ℕ} {v : Value}, (t : Value) ∈ held → v ∈ held →
      t.set i v = .ok u → ∀ f ∈ u.fields, From held f := by
    intro t u i v ht hv h f hf
    obtain ⟨-, -, rfl⟩ := TupleValue.set_eq_ok.mp h
    rcases List.mem_or_eq_of_mem_set hf with hf | rfl
    · exact .component (.held ht) hf
    · exact .held hv
  have hselect : ∀ {t u : TupleValue} {home : UniverseId} {is : List ℕ}, (t : Value) ∈ held →
      t.select home is = .ok u → ∀ f ∈ u.fields, From held f := by
    intro t u home is ht h f hf
    have hmem := TupleValue.mem_fields_of_get (TupleValue.select_eq_ok h).2 hf
    exact .component (.held ht) hmem
  cases ht with
  | of home hvs => exact fun f hf => .held (hvs hf)
  | ofType hvs h =>
    obtain ⟨-, -, rfl⟩ := TupleValue.ofType_eq_ok.mp h
    exact fun f hf => .held (hvs hf)
  | set ht hv h => exact hset ht hv h
  | setLabel ht hv h =>
    obtain ⟨i, -, h⟩ := bind_eq_ok.mp h
    exact hset ht hv h
  | select ht h => exact hselect ht h
  | selectLabels ht h =>
    obtain ⟨is, -, h⟩ := bind_eq_ok.mp h
    exact hselect ht h

lemma ListValue.Made.elements {l : ListValue} (hl : l.Made held) :
    ∀ v ∈ l.elements, From held v := by
  have helements : ∀ {l : ListValue}, (l : Value) ∈ held → ∀ v ∈ l.elements, From held v := by
    intro l hl v hv
    exact .component (.held hl) hv
  cases hl with
  | of home hvs => exact fun v hv => .held (hvs hv)
  | empty home t => exact nofun
  | cons home hl hv => exact List.forall_mem_cons.mpr ⟨.held hv, helements hl⟩
  | concat home hl hv =>
    exact List.forall_mem_append.mpr ⟨helements hl, List.forall_mem_singleton.mpr (.held hv)⟩
  | append home hl hm => exact List.forall_mem_append.mpr ⟨helements hl, helements hm⟩
  | reverse hl => exact fun v hv => helements hl v (List.mem_reverse.mp hv)
  | select hr h =>
    obtain ⟨e, vs, hsel, rfl⟩ := ListRelation.select_eq_ok.mp h
    exact from_selected (helements hr) hsel
  | compose hr hs h =>
    obtain ⟨-, -, fields, -, rfl⟩ := ListRelation.compose_eq_ok.mp h
    exact fun v hv => from_composed (helements hr) (helements hs) hv

lemma Relation.from_closure {r u : Relation} (hr : ∀ x ∈ r.toSet.elements, From held x)
    (h : r.closure home = .ok u) : ∀ v ∈ u.toSet.elements, From held v := by
  obtain ⟨-, fields, -, rfl⟩ := Relation.closure_eq_ok.mp h
  have hpairs : ∀ p ∈ r.pairs, From held p.1 ∧ From held p.2 := fun p hp => from_pairs hr hp
  intro v hv
  obtain ⟨e, he, c, hc, rfl⟩ := Relation.mem_closedPairs.mp (Members.mem_of_mem_ofList hv)
  have hstart := (Relation.successors_spec hpairs e he).1
  have hstop := Relation.reachable_spec (fun p hp => (hpairs p hp).2) c hc
  exact .pair hstart hstop

lemma SetValue.Made.elements {s : SetValue} (hs : s.Made held) :
    ∀ v ∈ s.elements, From held v := by
  have helements : ∀ {s : SetValue}, (s : Value) ∈ held → ∀ v ∈ s.elements, From held v := by
    intro s hs v hv
    exact .component (.held hs) hv
  cases hs with
  | of home hvs => exact fun v hv => .held (hvs (Members.mem_of_mem_ofList hv))
  | empty home t => exact nofun
  | insert home hs hv =>
    intro w hw
    rcases Members.mem_insert hw with hw | rfl
    · exact helements hs w hw
    · exact .held hv
  | erase hs hv => exact fun v hv => helements hs v (Members.mem_of_mem_erase hv)
  | union home hs ht =>
    intro v hv
    rcases Members.mem_union hv with hv | hv
    · exact helements hs v hv
    · exact helements ht v hv
  | inter home hs ht =>
    intro v hv
    rcases Members.mem_inter hv with hv | hv
    · exact helements hs v hv
    · exact helements ht v hv
  | diff hs ht => exact fun v hv => helements hs v (Members.mem_of_mem_diff hv)
  | product home hs ht =>
    intro v hv
    obtain ⟨a, ha, hv⟩ := List.mem_flatMap.mp (Members.mem_of_mem_ofList hv)
    obtain ⟨c, hc, rfl⟩ := List.mem_map.mp hv
    exact .pair (helements hs a ha) (helements ht c hc)
  | select hr h =>
    obtain ⟨e, vs, hsel, rfl⟩ := Relation.select_eq_ok.mp h
    exact fun v hv => from_selected (helements hr) hsel v (Members.mem_of_mem_ofList hv)
  | compose hr hs h =>
    obtain ⟨-, -, fields, -, rfl⟩ := Relation.compose_eq_ok.mp h
    exact fun v hv => from_composed (helements hr) (helements hs) (Members.mem_of_mem_ofList hv)
  | closure hr h => exact Relation.from_closure (helements hr) h
  | carrier home hr =>
    exact fun v hv => from_carrier (helements hr) v (Members.mem_of_mem_ofList hv)
  | listCarrier home hr =>
    have hlist : ∀ {l : ListValue}, (l : Value) ∈ held → ∀ v ∈ l.elements, From held v := by
      intro l hl v hv
      exact .component (.held hl) hv
    exact fun v hv => from_carrier (hlist hr) v (Members.mem_of_mem_ofList hv)

lemma MapValue.Made.entries {m : MapValue} (hm : m.Made held) :
    ∀ e ∈ m.entries, From held e.1 ∧ From held e.2 := by
  have hentries : ∀ {m : MapValue}, (m : Value) ∈ held →
      ∀ e ∈ m.entries, From held e.1 ∧ From held e.2 := by
    intro m hm e he
    have hmem := Value.mem_components_of_entry m.ty m.table he
    exact ⟨.component (.held hm) hmem.1, .component (.held hm) hmem.2⟩
  cases hm with
  | empty home s t => exact nofun
  | put home fresh hm hk hv =>
    intro e he
    rcases Bindings.mem_put he with he | rfl
    · exact hentries hm e he
    · exact ⟨.held hk, .held hv⟩
  | erase fresh hm hk => exact fun e he => hentries hm e (Bindings.mem_of_mem_erase he)
  | join home fresh hm hn =>
    intro e he
    rcases Bindings.mem_putAll he with he | he
    · exact hentries hm e he
    · exact hentries hn e he

/-- A node made of held values: its children and the values attached come from them, and attaching or
detaching a value leaves no label twice. -/
lemma NodeValue.Made.spec {n : NodeValue} (hn : n.Made held) :
    (∀ c ∈ n.children, From held c) ∧ (∀ a ∈ n.annotations, From held a.2) ∧
      ((∀ m : NodeValue, (m : Value) ∈ held → (m.annotations.map (·.1)).Nodup) →
        (n.annotations.map (·.1)).Nodup) := by
  have hchildren : ∀ n : NodeValue, (n : Value) ∈ held → ∀ c ∈ n.children, From held c := by
    intro n hn c hc
    exact .component (.held hn) (List.mem_append_left _ hc)
  have hannotations : ∀ n : NodeValue, (n : Value) ∈ held → ∀ a ∈ n.annotations, From held a.2 := by
    intro n hn a ha
    exact .component (.held hn) (List.mem_append_right _ (List.mem_map_of_mem ha))
  have hset : ∀ {n m : NodeValue} {i : ℕ} {v : Value}, (n : Value) ∈ held → v ∈ held →
      n.set i v = .ok m → (∀ c ∈ m.children, From held c) ∧ (∀ a ∈ m.annotations, From held a.2) ∧
        ((∀ m : NodeValue, (m : Value) ∈ held → (m.annotations.map (·.1)).Nodup) →
          (m.annotations.map (·.1)).Nodup) := by
    intro n m i v hn hv h
    obtain ⟨-, -, rfl⟩ := NodeValue.set_eq_ok.mp h
    refine ⟨?_, hannotations n hn, fun hlabels => hlabels n hn⟩
    intro c hc
    rcases List.mem_or_eq_of_mem_set hc with hc | rfl
    · exact hchildren n hn c hc
    · exact .held hv
  cases hn with
  | of hvs h =>
    obtain ⟨-, rfl⟩ := NodeValue.of_eq_ok.mp h
    exact ⟨fun c hc => .held (hvs hc), nofun, fun _ => List.nodup_nil⟩
  | named hvs h =>
    obtain ⟨t, -, -, rfl⟩ := NodeValue.exists_of_firstAccepting (mapError_eq_ok.mp h)
    exact ⟨fun c hc => .held (hvs hc), nofun, fun _ => List.nodup_nil⟩
  | set hn hv h => exact hset hn hv h
  | setLabel hn hv h =>
    obtain ⟨i, -, h⟩ := bind_eq_ok.mp h
    exact hset hn hv h
  | @annotate u n m label v hn hv h =>
    obtain ⟨-, rfl⟩ := NodeValue.annotate_eq_ok.mp h
    refine ⟨hchildren n hn, ?_, fun hlabels => Table.nodup_keys_put v (hlabels n hn)⟩
    intro a ha
    rcases Table.mem_put _ ha with rfl | ha
    · exact .held hv
    · exact hannotations n hn a ha
  | @unannotate n label hn =>
    refine ⟨hchildren n hn, ?_, ?_⟩
    · exact fun a ha => hannotations n hn a (Table.mem_of_mem_erase (· == label) ha)
    · exact fun hlabels => Table.nodup_keys_erase (· == label) (hlabels n hn)

end Contents

/-! ### What a step adds -/

namespace Value

/-- No node within the value carries two annotations under one label. -/
def Labeled (v : Value) : Prop :=
  ∀ p : Value, p.PartOf v → ∀ ty xs as, p = node ty xs as → (as.map (·.1)).Nodup

/-- A value whose components come from held values. If it is a node that carries a label twice, then so
does a part of a held one. -/
structure Grown (held : List Value) (n : Value) : Prop where
  components : ∀ c ∈ n.components, From held c
  labels : (∀ v ∈ held, v.Labeled) → ∀ ty xs as, n = node ty xs as → (as.map (·.1)).Nodup

lemma From.mono {held' : List Value} (h : held ⊆ held') (hv : From held v) : From held' v := by
  induction hv with
  | held hv => exact .held (h hv)
  | component _ hc ih => exact .component ih hc
  | tuple _ ih => exact .tuple ih

lemma Grown.mono {held' : List Value} (h : held ⊆ held') (hv : Grown held v) : Grown held' v where
  components c hc := (hv.components c hc).mono h
  labels hlabels := hv.labels fun u hu => hlabels u (h hu)

lemma Grown.of_held (hv : v ∈ held) : Grown held v where
  components _ hc := .component (.held hv) hc
  labels hlabels := hlabels v hv v .self

lemma Grown.of_components_eq_nil (hv : v.components = []) : Grown held v where
  components := by
    rw [hv]
    exact nofun
  labels := by
    rintro - ty xs as rfl
    have has := (List.append_eq_nil_iff.mp hv).2
    rw [List.map_eq_nil_iff.mp has]
    exact List.nodup_nil

lemma Grown.of_entries {table : TableId} {es : List (Value × Value)}
    (hes : ∀ e ∈ es, From held e.1 ∧ From held e.2) : Grown held (.map ty table es) := by
  refine ⟨?_, nofun⟩
  intro c hc
  rcases List.mem_append.mp hc with hc | hc
  · obtain ⟨e, he, rfl⟩ := List.mem_map.mp hc
    exact (hes e he).1
  · obtain ⟨e, he, rfl⟩ := List.mem_map.mp hc
    exact (hes e he).2

lemma Made.grown (hv : v.Made held) : Grown held v := by
  cases hv with
  | int | real | str | loc | object => exact .of_components_eq_nil rfl
  | tuple ht => exact ⟨ht.fields, nofun⟩
  | list hl => exact ⟨hl.elements, nofun⟩
  | set hs => exact ⟨hs.elements, nofun⟩
  | map hm => exact Grown.of_entries hm.entries
  | @node n hn =>
    obtain ⟨hchildren, hannotations, hlabels⟩ := hn.spec
    refine ⟨?_, ?_⟩
    · intro c hc
      rcases List.mem_append.mp hc with hc | hc
      · exact hchildren c hc
      · obtain ⟨a, ha, rfl⟩ := List.mem_map.mp hc
        exact hannotations a ha
    · intro hheld ty xs as heq
      cases heq
      exact hlabels fun m hm => hheld m hm m .self m.ty m.children m.annotations rfl
  | component hu hv =>
    refine ⟨fun d hd => .component (.component (.held hu) hv) hd, ?_⟩
    intro hheld
    exact hheld _ hu v (.inside hv .self)

end Value

open Value (Grown)

namespace Writer

/-- What the writer would hand out now. -/
def current : Writer → Value
  | .list w => w.finish.1
  | .set w => w.finish.1
  | .map w => w.finish.1

lemma Opened.components_eq_nil {w : Writer} (hw : w.Opened) : w.current.components = [] := by
  cases hw with
  | setOfType h =>
    obtain ⟨-, rfl⟩ := SetWriter.ofType_eq_ok.mp h
    rfl
  | mapOfType h =>
    obtain ⟨-, rfl⟩ := MapWriter.ofType_eq_ok.mp h
    rfl
  | _ => rfl

/-- Finishing hands out what the writer had, and the writer keeps it. -/
lemma Finished.current_eq {w x : Writer} {v : Option Value} (hx : w.Finished v x) :
    (∀ u ∈ v, u = w.current) ∧ x.current = w.current := by
  cases hx with
  | list | set | map => exact ⟨fun u hu => (Option.some.inj hu).symm, rfl⟩
  | listRelation h =>
    obtain ⟨hr, rfl⟩ := Prod.mk.inj h
    refine ⟨?_, rfl⟩
    intro u hu
    rw [← Option.some.inj hu, ListValue.toList_of_asListRelation hr]
    rfl
  | relation h =>
    obtain ⟨hr, rfl⟩ := Prod.mk.inj h
    refine ⟨?_, rfl⟩
    intro u hu
    rw [← Option.some.inj hu, SetValue.toSet_of_asRelation hr]
    rfl
  | noListRelation h | noRelation h =>
    obtain ⟨-, rfl⟩ := Prod.mk.inj h
    exact ⟨nofun, rfl⟩

end Writer

section Written

variable {roots : List Value}

lemma ListWriter.components_current {w : ListWriter} {contents : List Value}
    (hp : w.phase = .filling contents) : (Writer.list w).current.components = contents := by
  rw [Writer.current, ListWriter.finish, hp]
  rfl

lemma SetWriter.components_current {w : SetWriter} {contents : List Value}
    (hp : w.phase = .filling contents) : (Writer.set w).current.components = contents := by
  rw [Writer.current, SetWriter.finish, hp]
  rfl

/-- What a writer has gathered comes from what it would hand out. -/
lemma Writer.from_contents {w : Writer} {contents : List Value}
    (hc : w.current.components = contents) (hw : w.current ∈ roots) : ∀ c ∈ contents, From roots c := by
  subst hc
  exact fun c hc => .component (.held hw) hc

lemma MapWriter.from_contents {w : MapWriter} {contents : Bindings}
    (hp : w.phase = .filling contents) (hw : (Writer.map w).current ∈ roots) :
    ∀ e ∈ contents.entries, From roots e.1 ∧ From roots e.2 := by
  have hcurrent : (Writer.map w).current = .map w.ty contents.table contents.entries := by
    rw [Writer.current, MapWriter.finish, hp]
    rfl
  intro e he
  rw [hcurrent] at hw
  obtain ⟨hkey, hvalue⟩ := Value.mem_components_of_entry w.ty contents.table he
  exact ⟨.component (.held hw) hkey, .component (.held hw) hvalue⟩

/-- A write leaves the writer with a collection of what it had and of held values. -/
lemma Writer.Written.grown {w x : Writer} (hheld : held ⊆ roots) (hw : w.current ∈ roots)
    (hx : w.Written held x) : Grown roots x.current := by
  have hvalues : ∀ {vs : List Value}, vs ⊆ held → ∀ v ∈ vs, From roots v := by
    intro vs hvs v hv
    exact .held (hheld (hvs hv))
  cases hx with
  | listInsert hv h =>
    obtain ⟨contents, hp, -, rfl⟩ := Phase.write_eq_ok.mp h
    refine ⟨?_, nofun⟩
    exact List.forall_mem_cons.mpr
      ⟨.held (hheld hv), Writer.from_contents (ListWriter.components_current hp) hw⟩
  | listAppend hv h =>
    obtain ⟨contents, hp, -, rfl⟩ := Phase.write_eq_ok.mp h
    refine ⟨?_, nofun⟩
    exact List.forall_mem_append.mpr
      ⟨Writer.from_contents (ListWriter.components_current hp) hw,
        List.forall_mem_singleton.mpr (.held (hheld hv))⟩
  | listInsertAll hvs h =>
    obtain ⟨contents, hp, -, rfl⟩ := Phase.write_eq_ok.mp h
    refine ⟨?_, nofun⟩
    exact List.forall_mem_append.mpr
      ⟨hvalues hvs, Writer.from_contents (ListWriter.components_current hp) hw⟩
  | setInsert hv h =>
    obtain ⟨contents, hp, -, rfl⟩ := Phase.write_eq_ok.mp h
    refine ⟨?_, nofun⟩
    intro c hc
    rcases Members.mem_insert hc with hc | rfl
    · exact Writer.from_contents (SetWriter.components_current hp) hw c hc
    · exact .held (hheld hv)
  | setInsertAll hvs h =>
    obtain ⟨contents, hp, -, rfl⟩ := Phase.write_eq_ok.mp h
    refine ⟨?_, nofun⟩
    intro c hc
    rcases Members.mem_insertAll hc with hc | hc
    · exact Writer.from_contents (SetWriter.components_current hp) hw c hc
    · exact hvalues hvs c hc
  | mapPut hk hv h =>
    obtain ⟨contents, hp, -, rfl⟩ := Phase.write_eq_ok.mp h
    apply Grown.of_entries
    intro e he
    rcases Bindings.mem_put he with he | rfl
    · exact MapWriter.from_contents hp hw e he
    · exact ⟨.held (hheld hk), .held (hheld hv)⟩
  | mapPutAll hes h =>
    obtain ⟨contents, hp, -, rfl⟩ := Phase.write_eq_ok.mp h
    apply Grown.of_entries
    intro e he
    rcases Bindings.mem_putAll he with he | he
    · exact MapWriter.from_contents hp hw e he
    · exact ⟨.held (hheld (hes e he).1), .held (hheld (hes e he).2)⟩

end Written

namespace Session

/-- What a session holds and what its writers would hand out. -/
def roots (s : Session) : List Value := s.values ++ s.writers.map Writer.current

lemma values_subset_roots (s : Session) : s.values ⊆ s.roots := List.subset_append_left _ _

lemma current_mem_roots {s : Session} {i : ℕ} {w : Writer} (h : s.writers[i]? = some w) :
    w.current ∈ s.roots :=
  List.mem_append_right _ (List.mem_map_of_mem (List.mem_of_getElem? h))

/-- What a step can add: a value made of held ones, or what a writer hands out when it has been opened or
written to. -/
inductive Added (s : Session) : Value → Prop
  | made {v : Value} : v.Made s.values → Added s v
  | opened {w : Writer} : w.Opened → Added s w.current
  | written {w x : Writer} : w.current ∈ s.roots → w.Written s.values x → Added s x.current
  | kept {v : Value} : v ∈ s.roots → Added s v

lemma Step.added {s t : Session} (h : s.Step t) :
    ∃ n, s.Added n ∧ ∀ r ∈ t.roots, r ∈ s.roots ∨ r = n := by
  have hreplaced : ∀ {i : ℕ} {x : Writer}, ∀ r ∈ s.values ++ (s.writers.set i x).map Writer.current,
      r ∈ s.roots ∨ r = x.current := by
    intro i x r hr
    rcases List.mem_append.mp hr with hr | hr
    · exact Or.inl (s.values_subset_roots hr)
    · obtain ⟨w, hw, rfl⟩ := List.mem_map.mp hr
      rcases List.mem_or_eq_of_mem_set hw with hw | rfl
      · exact Or.inl (List.mem_append_right _ (List.mem_map_of_mem hw))
      · exact Or.inr rfl
  cases h with
  | @make v hv =>
    refine ⟨v, .made hv, ?_⟩
    intro r hr
    rcases List.mem_cons.mp hr with rfl | hr
    · exact Or.inr rfl
    · exact Or.inl hr
  | @openWriter w hw =>
    refine ⟨w.current, .opened hw, ?_⟩
    intro r hr
    rw [roots, List.map_append, ← List.append_assoc] at hr
    rcases List.mem_append.mp hr with hr | hr
    · exact Or.inl hr
    · exact Or.inr (List.mem_singleton.mp hr)
  | @write i w x hw hx => exact ⟨x.current, .written (current_mem_roots hw) hx, hreplaced⟩
  | @finish i w x v hw hx =>
    obtain ⟨hv, hcurrent⟩ := hx.current_eq
    refine ⟨w.current, .kept (current_mem_roots hw), ?_⟩
    intro r hr
    rw [roots, List.append_assoc] at hr
    rcases List.mem_append.mp hr with hr | hr
    · exact Or.inr (hv r (Option.mem_toList.mp hr))
    · rw [← hcurrent]
      exact hreplaced r hr

lemma Added.grown {s : Session} {n : Value} (h : s.Added n) : Grown s.roots n := by
  cases h with
  | made hv => exact hv.grown.mono s.values_subset_roots
  | opened hw => exact .of_components_eq_nil hw.components_eq_nil
  | written hw hx => exact hx.grown s.values_subset_roots hw
  | kept hv => exact .of_held hv

/-- A step adds at most one value, whose components come from what was there. -/
theorem Step.grown {s t : Session} (h : s.Step t) :
    ∃ n, Grown s.roots n ∧ ∀ r ∈ t.roots, r ∈ s.roots ∨ r = n := by
  obtain ⟨n, hn, hroots⟩ := h.added
  exact ⟨n, hn.grown, hroots⟩

/-- What holds of every tuple, and of whatever a step adds to a session within which it holds, holds within
every session that can be reached. -/
theorem Reached.forall_partOf {s : Session} {P : Value → Prop} (htuple : ∀ ty vs, P (.tuple ty vs))
    (hadded : ∀ (s : Session) (n : Value),
      (∀ r ∈ s.roots, ∀ p : Value, p.PartOf r → P p) → s.Added n → P n)
    (hs : s.Reached) : ∀ r ∈ s.roots, ∀ p : Value, p.PartOf r → P p := by
  induction hs with
  | start => exact nofun
  | @step s t _ hstep ih =>
    obtain ⟨n, hn, hroots⟩ := hstep.added
    have hcomponents : ∀ c ∈ n.components, ∀ p : Value, p.PartOf c → P p := by
      intro c hc
      refine (hn.grown.components c hc).inherits (fun v d hv hd => ?_) (fun ty vs hvs => ?_) ih
      · exact (forall_partOf_iff.mp hv).2 d hd
      · exact forall_partOf_iff.mpr ⟨htuple ty vs, hvs⟩
    intro r hr
    rcases hroots r hr with hr | rfl
    · exact ih r hr
    · exact forall_partOf_iff.mpr ⟨hadded s r ih hn, hcomponents⟩

end Session
end TypedValues
