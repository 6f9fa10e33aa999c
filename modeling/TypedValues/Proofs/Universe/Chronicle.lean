import TypedValues.Proofs.Universe.Refusal

/-!
# The order of declarations

An empty universe is asked for declarations, some of which it refuses. The types that it hands out, one after
the other, tell in which order they were declared: under each sort the universe lists the constructors among
them, every one where it was handed out first.
-/

namespace TypedValues

section Lists

variable {α : Type} [BEq α] [LawfulBEq α]

lemma eraseDups_concat (l : List α) (a : α) :
    (l ++ [a]).eraseDups = l.eraseDups ++ if l.contains a then [] else [a] := by
  have hone : [a].eraseDups = [a] := by rw [List.eraseDups_cons, List.filter_nil, List.eraseDups_nil]
  rw [List.eraseDups_append, List.cons_removeAll]
  cases l.contains a <;> simp [List.removeAll, hone]

/-- What repeats an earlier element is not the first to pass a test. -/
lemma find?_eraseDups (p : α → Bool) (l : List α) : l.eraseDups.find? p = l.find? p := by
  induction l using List.reverseRecOn with
  | nil => rfl
  | append_singleton l a ih =>
    rw [eraseDups_concat, List.find?_append, List.find?_append, ih]
    split
    · next ha =>
      by_cases hp : p a = true
      · have hsome : (l.find? p).isSome := List.find?_isSome.mpr ⟨a, List.contains_iff_mem.mp ha, hp⟩
        rw [Option.or_of_isSome hsome, Option.or_of_isSome hsome]
      · rw [List.find?_nil, List.find?_cons_of_neg hp, List.find?_nil]
    · rfl

end Lists

namespace Universe

variable {u v w : Universe} {s t : Ty} {ts made : List Ty}

/-! ### A record of what is handed out -/

/-- Declarations that are made one after the other lead from one universe to another, and hand out these
types. -/
inductive Chronicle : Universe → List Ty → Universe → Prop
  | nothing (u : Universe) : Chronicle u [] u
  | handsOut {u v w : Universe} {p t : Ty} {ts : List Ty} :
    u.adopt p = .ok (t, v) → Chronicle v ts w → Chronicle u (t :: ts) w
  | annotates {u v w : Universe} {on t : Ty} {label : String} {ts : List Ty} :
    u.annotate on label t = .ok v → Chronicle v ts w → Chronicle u ts w

namespace Chronicle

lemma append {ts' : List Ty} (h : Chronicle u ts v) (h' : Chronicle v ts' w) : Chronicle u (ts ++ ts') w := by
  induction h with
  | nothing => exact h'
  | handsOut hadopt _ ih => exact .handsOut hadopt (ih h')
  | annotates hannotate _ ih => exact .annotates hannotate (ih h')

lemma reached (h : Chronicle u ts v) (hu : u.Reached) : v.Reached := by
  induction h with
  | nothing => exact hu
  | @handsOut u v w p t ts hadopt _ ih =>
    refine ih ?_
    cases p with
    | aliasOf home name aliased => exact .declareAlias hu hadopt
    | sort home name => exact .declareSort hu hadopt
    | constructor home name sortName childHome children => exact .declareConstructor hu hadopt
    | _ =>
      cases hadopt
      exact hu
  | annotates hannotate _ ih => exact ih (.annotate hu hannotate)

end Chronicle

/-- Under each sort the universe lists the constructors among these types, every one where it comes first. -/
def Lists (u : Universe) (made : List Ty) : Prop :=
  ∀ s, u.constructorsOf s = (made.filter (·.isConstructorOf s)).eraseDups

lemma lists_empty (id : UniverseId) : (empty id).Lists [] := constructorsOf_empty id

lemma Lists.adopt {p : Ty} (hu : u.Lists made) (h : u.adopt p = .ok (t, v)) : v.Lists (made ++ [t]) := by
  intro s
  rw [constructorsOf_of_adopt h, hu s, List.filter_append]
  by_cases ht : t.isConstructorOf s = true
  · simp only [List.filter_cons, ht, if_true, List.filter_nil, eraseDups_concat]
    simp [List.mem_eraseDups, ht]
  · simp [ht]

lemma Chronicle.lists (h : Chronicle u ts v) (hu : u.Lists made) : v.Lists (made ++ ts) := by
  induction h generalizing made with
  | nothing u =>
    rw [List.append_nil]
    exact hu
  | handsOut hadopt _ ih =>
    have hrest := ih (hu.adopt hadopt)
    rwa [List.append_assoc] at hrest
  | annotates hannotate _ ih => exact ih fun s => (constructorsOf_of_annotate hannotate s).trans (hu s)

/-! ### Requests -/

/-- What may be asked of a universe: one declaration, or those of a descriptor. -/
inductive Request
  | call (c : Interner.Call)
  | rebuild (d : Descriptor)

/-- The type that a declaration hands out, and the universe afterwards. One that is refused changes
nothing. -/
def answer (u : Universe) : Except DeclarationError (Ty × Universe) → List Ty × Universe
  | .ok (t, v) => ([t], v)
  | .error _ => ([], u)

/-- What a call hands out, which for an annotation is nothing, and the universe afterwards. -/
def call (u : Universe) : Interner.Call → List Ty × Universe
  | .declareAlias name aliased => u.answer (u.declareAlias name aliased)
  | .declareSort name => u.answer (u.declareSort name)
  | .declareConstructor sort name children => u.answer (u.declareConstructor sort name children)
  | .declareLabeledConstructor sort name children =>
    u.answer (u.declareLabeledConstructor sort name children)
  | .annotate on label t => ([], (u.annotate on label t).toOption.getD u)
  | .intern shape => u.answer (u.adopt shape)

/-- What declarations in turn hand out, up to the first one that is refused. -/
def handOut (u : Universe) : List Descriptor → List Ty
  | [] => []
  | d :: ds =>
    match u.adopt (d.typeIn u.id) with
    | .ok (t, v) => t :: v.handOut ds
    | .error _ => []

/-- What a request hands out, and the universe afterwards. -/
def perform (u : Universe) : Request → List Ty × Universe
  | .call c => u.call c
  | .rebuild d => (u.handOut d.declarations, (u.ofDescriptor d).2)

/-- Makes requests one after the other. -/
def run (u : Universe) : List Request → List Ty × Universe
  | [] => ([], u)
  | r :: rs =>
    let (ts, v) := u.perform r
    let (ts', w) := v.run rs
    (ts ++ ts', w)

lemma chronicle_answer {x : Except DeclarationError (Ty × Universe)}
    (h : ∀ t v, x = .ok (t, v) → ∃ p, u.adopt p = .ok (t, v)) :
    Chronicle u (u.answer x).1 (u.answer x).2 := by
  match x, h with
  | .ok (t, v), h =>
    obtain ⟨p, hp⟩ := h t v rfl
    exact .handsOut hp (.nothing v)
  | .error e, _ => exact .nothing u

lemma chronicle_call (u : Universe) (c : Interner.Call) : Chronicle u (u.call c).1 (u.call c).2 := by
  cases c with
  | declareAlias name aliased => exact chronicle_answer fun t v h => ⟨.aliasOf 0 name aliased, h⟩
  | declareSort name => exact chronicle_answer fun t v h => ⟨.sort 0 name, h⟩
  | declareConstructor sort name children =>
    exact chronicle_answer fun t v h => ⟨t, adopt_of_declareConstructor h⟩
  | declareLabeledConstructor sort name children =>
    exact chronicle_answer fun t v h => ⟨t, adopt_of_declareConstructor h⟩
  | annotate on label t =>
    rw [call]
    cases h : u.annotate on label t with
    | ok v => exact .annotates h (.nothing v)
    | error e => exact .nothing u
  | intern shape => exact chronicle_answer fun t v h => ⟨shape, h⟩

lemma chronicle_handOut (u : Universe) (ds : List Descriptor) :
    Chronicle u (u.handOut ds) (u.declareAll ds).2 := by
  induction ds generalizing u with
  | nil => exact .nothing u
  | cons d ds ih =>
    rw [handOut, declareAll]
    cases h : u.adopt (d.typeIn u.id) with
    | ok tv => exact .handsOut h (ih tv.2)
    | error e => exact .nothing u

lemma chronicle_perform (u : Universe) (r : Request) : Chronicle u (u.perform r).1 (u.perform r).2 := by
  cases r with
  | call c => exact chronicle_call u c
  | rebuild d =>
    have hafter : (u.ofDescriptor d).2 = (u.declareAll d.declarations).2 := by
      rw [ofDescriptor_eq]
      rcases u.declareAll d.declarations with ⟨_ | e, v⟩ <;> rfl
    rw [perform, hafter]
    exact chronicle_handOut u d.declarations

lemma chronicle_run (u : Universe) (rs : List Request) : Chronicle u (u.run rs).1 (u.run rs).2 := by
  induction rs generalizing u with
  | nil => exact .nothing u
  | cons r rs ih => exact (chronicle_perform u r).append (ih _)

lemma run_append (u : Universe) (rs rs' : List Request) :
    (u.run (rs ++ rs')).2 = ((u.run rs).2.run rs').2 := by
  induction rs generalizing u with
  | nil => rfl
  | cons r rs ih => exact ih _

/-- Runs of requests lead to all universes that can be reached, and to no others. -/
lemma reached_iff_run : u.Reached ↔ ∃ id rs, u = ((empty id).run rs).2 := by
  constructor
  · have hrun {u : Universe} (hu : ∃ id rs, u = ((empty id).run rs).2) (r : Request) :
        ∃ id rs, (u.perform r).2 = ((empty id).run rs).2 := by
      obtain ⟨id, rs, rfl⟩ := hu
      exact ⟨id, rs ++ [r], (run_append _ rs [r]).symm⟩
    intro h
    induction h with
    | start id => exact ⟨id, [], rfl⟩
    | @declareAlias u v name s t _ h ih =>
      have hcall := hrun ih (.call (.declareAlias name t))
      rwa [perform, call, h] at hcall
    | @declareSort u v name s _ h ih =>
      have hcall := hrun ih (.call (.declareSort name))
      rwa [perform, call, h] at hcall
    | @declareConstructor u v sort children s name _ h ih =>
      have hcall := hrun ih (.call (.declareConstructor sort name children))
      rwa [perform, call, h] at hcall
    | @annotate u v on t label _ h ih =>
      have hcall := hrun ih (.call (.annotate on label t))
      rwa [perform, call, h] at hcall
    | rebuild d _ ih => exact hrun ih (.rebuild d)
  · rintro ⟨id, rs, rfl⟩
    exact (chronicle_run (empty id) rs).reached (.start id)

/-- After any run of requests the constructors of a sort are listed in the order in which they were
declared. -/
theorem lists_run (id : UniverseId) (rs : List Request) : ((empty id).run rs).2.Lists ((empty id).run rs).1 :=
  (chronicle_run (empty id) rs).lists (lists_empty id)

end Universe
end TypedValues
