import TypedValues.Proofs.Universe.Chronicle
import TypedValues.Proofs.Value.Node

/-!
# Overloaded constructors

A node that is asked for by sort and name is built by the constructor declared first of those that accept its
children. Later declarations come behind that one, so that the same node is built ever after.
-/

namespace TypedValues

/-- Whether the children are as many as the constructor declares, each of a type below the declared one. -/
def Ty.accepts (c : Ty) (children : List Value) : Bool :=
  children.length == c.arity && (children.zip c.fields).all fun (v, f) => v.runtimeType.subtype f.item

/-- Whether a type is a constructor of this sort and name that accepts the children. -/
def Ty.builds (c sort : Ty) (name : String) (children : List Value) : Bool :=
  c.isConstructorOf sort && c.name? == some name && c.accepts children

lemma Ty.isConstructor_of_isConstructorOf {c sort : Ty} (h : c.isConstructorOf sort = true) :
    c.isConstructor = true := by
  cases c with
  | constructor => rfl
  | _ => cases h

namespace NodeValue

variable {home : UniverseId} {n : NodeValue} {c sort : Ty} {name : String} {children : List Value}
  {cs made : List Ty} {last : Option Error} {u : Universe}

lemma checkChildren_iff_accepts (hc : c.isConstructor = true) :
    checkChildren home c children = .ok () ↔ c.accepts children = true := by
  rw [checkChildren_eq_ok, Value.Fit, List.forall₂_iff_zip, Ty.accepts, Bool.and_eq_true, beq_iff_eq,
    List.all_eq_true, Prod.forall]
  exact and_iff_right hc

/-- Constructors are tried one after the other. -/
lemma firstAccepting_eq_ok (hcs : ∀ c ∈ cs, c.isConstructor = true) :
    firstAccepting home children cs last = .ok n ↔
      ∃ c, cs.find? (·.accepts children) = some c ∧ n = ⟨c, children, []⟩ := by
  induction cs generalizing last with
  | nil => simp [firstAccepting]
  | cons c cs ih =>
    obtain ⟨hc, hcs⟩ := List.forall_mem_cons.mp hcs
    rw [firstAccepting, List.find?_cons]
    cases hcheck : checkChildren home c children with
    | ok =>
      have haccepts := (checkChildren_iff_accepts hc).mp hcheck
      simp [haccepts, eq_comm]
    | error e =>
      have haccepts : c.accepts children = false := by
        rw [Bool.eq_false_iff]
        intro haccepts
        rw [(checkChildren_iff_accepts hc).mpr haccepts] at hcheck
        cases hcheck
      rw [haccepts]
      exact ih hcs

section Declared

variable (hu : u.Lists made)
include hu

/-- The node comes from the first listed constructor that accepts the children. -/
lemma named_eq_ok : named u sort name children = .ok n ↔
    ∃ c, (u.constructorsCalled sort name).find? (·.accepts children) = some c ∧
      n = ⟨c, children, []⟩ := by
  rw [named, mapError_eq_ok, firstAccepting_eq_ok]
  intro c hc
  have hlisted := (List.mem_filter.mp hc).1
  rw [hu sort, List.mem_eraseDups] at hlisted
  exact Ty.isConstructor_of_isConstructorOf (List.mem_filter.mp hlisted).2

lemma exists_named : (∃ n, named u sort name children = .ok n) ↔
    ∃ c ∈ u.constructorsOf sort, c.name? = some name ∧ c.accepts children = true := by
  have hsome : (∃ n, named u sort name children = .ok n) ↔
      ((u.constructorsCalled sort name).find? (·.accepts children)).isSome = true := by
    simp only [named_eq_ok hu, Option.isSome_iff_exists]
    constructor
    · rintro ⟨n, c, hc, -⟩
      exact ⟨c, hc⟩
    · rintro ⟨c, hc⟩
      exact ⟨_, c, hc, rfl⟩
  rw [hsome, List.find?_isSome]
  simp only [Universe.constructorsCalled, List.mem_filter, beq_iff_eq, and_assoc]

/-- The first listed constructor that accepts the children is the first one that was declared. -/
lemma find?_called : (u.constructorsCalled sort name).find? (·.accepts children) =
    made.find? (·.builds sort name children) := by
  rw [Universe.constructorsCalled, List.find?_filter, hu sort, find?_eraseDups, List.find?_filter]
  congr 1
  funext c
  rw [Bool.eq_iff_iff]
  simp [Ty.builds, and_assoc]

lemma named_eq_ok_iff_of : named u sort name children = .ok n ↔
    ∃ c, made.find? (·.builds sort name children) = some c ∧ NodeValue.of u.id c children = .ok n := by
  rw [named_eq_ok hu, find?_called hu]
  refine exists_congr fun c => and_congr_right fun hc => ?_
  have hbuilds := List.find?_some hc
  rw [Ty.builds, Bool.and_eq_true, Bool.and_eq_true] at hbuilds
  have hconstructor := Ty.isConstructor_of_isConstructorOf hbuilds.1.1
  rw [of_eq_ok, checkChildren_iff_accepts hconstructor]
  exact (and_iff_right hbuilds.2).symm

/-- What is declared later comes behind. -/
lemma named_run (h : named u sort name children = .ok n) (later : List Universe.Request) :
    named (u.run later).2 sort name children = .ok n := by
  have hlater := (Universe.chronicle_run u later).lists hu
  obtain ⟨c, hc, hn⟩ := (named_eq_ok hu).mp h
  refine (named_eq_ok hlater).mpr ⟨c, ?_, hn⟩
  rw [find?_called hu] at hc
  rw [find?_called hlater, List.find?_append, hc, Option.some_or]

end Declared

end NodeValue

open NodeValue (named)

/-- In every universe that can be reached a node asked for by sort and name is built if and only if some
constructor of that sort and name accepts the children: as many as it declares, each with a type below the
declared one. It is the node that the constructor declared first among these builds. No later requests,
whether they are granted or refused, change it. -/
theorem overload_resolution (sort : Ty) (name : String) (children : List Value) :
    (∀ u : Universe, u.Reached ↔ ∃ id rs, u = ((Universe.empty id).run rs).2) ∧
    ∀ (id : UniverseId) (rs : List Universe.Request),
      let made := ((Universe.empty id).run rs).1
      let u := ((Universe.empty id).run rs).2
      ((∃ n, named u sort name children = .ok n) ↔
        ∃ c ∈ u.constructorsOf sort, c.name? = some name ∧ c.accepts children = true) ∧
      (∀ n, named u sort name children = .ok n ↔
        ∃ c, made.find? (·.builds sort name children) = some c ∧ NodeValue.of u.id c children = .ok n) ∧
      ∀ n, named u sort name children = .ok n →
        ∀ later, named (u.run later).2 sort name children = .ok n := by
  refine ⟨fun u => Universe.reached_iff_run, fun id rs => ?_⟩
  have hlists := Universe.lists_run id rs
  exact ⟨NodeValue.exists_named hlists, fun n => NodeValue.named_eq_ok_iff_of hlists,
    fun n hn => NodeValue.named_run hlists hn⟩

/-- A constructor that takes any value is declared first and also takes the integers of a later one. -/
example :
    let expr : Ty := .sort 0 "Expr"
    let u := ((Universe.empty 0).run [.call (.declareSort "Expr"),
      .call (.declareLabeledConstructor expr (some "Lit") [(.value, "it")]),
      .call (.declareLabeledConstructor expr (some "Lit") [(.int, "it")])]).2
    named u expr "Lit" [.int 1] =
      .ok ⟨.constructor 0 (some "Lit") "Expr" 0 [⟨.value, some "it"⟩], [.int 1], []⟩ := by
  rfl

end TypedValues
