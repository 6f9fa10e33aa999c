import TypedValues.Proofs.Value.Session
import TypedValues.Proofs.Value.Writer

/-!
# Runs of writers

Calls of writers come in any order: requests, granted or refused, and demands to finish. A request is taken
step by step, so that it might stop half way; it never does, because everything is checked before anything
is changed. The first demand to finish settles what all later ones hand out, also if it asked for a relation
that the collection is not.
-/

namespace TypedValues

variable {σ γ ρ ι φ : Type}

/-! ### Requests step by step -/

/-- A step of a request: a check, or a change of what has been gathered. -/
inductive WriteStep (γ : Type) where
  | check (outcome : Except Error Unit)
  | change (f : γ → γ)

namespace WriteStep

/-- Takes steps until one refuses. What has been changed by then stays changed. -/
def perform : List (WriteStep γ) → γ → Except Error Unit × γ
  | [], contents => (.ok (), contents)
  | .check (.ok ()) :: steps, contents => perform steps contents
  | .check (.error e) :: _, contents => (.error e, contents)
  | .change f :: steps, contents => perform steps (f contents)

variable {α : Type} {steps : List (WriteStep γ)} {contents : γ}

lemma perform_check (outcome : Except Error Unit) :
    perform (.check outcome :: steps) contents =
      match outcome with
      | .ok () => perform steps contents
      | .error e => (.error e, contents) := by
  cases outcome <;> rfl

/-- Checks in a row are one check. -/
lemma perform_checks (f : α → Except Error Unit) (xs : List α) :
    perform (xs.map (fun x => .check (f x)) ++ steps) contents =
      perform (.check (xs.forM f) :: steps) contents := by
  induction xs with
  | nil => rfl
  | cons x xs ih =>
    rw [List.map_cons, List.cons_append, perform_check, ih, List.forM_eq_forM, List.forM_cons]
    cases f x <;> rfl

lemma perform_changes (f : α → γ → γ) (xs : List α) :
    perform (xs.map fun x => .change (f x)) contents = (.ok (), xs.foldl (fun c x => f x c) contents) := by
  induction xs generalizing contents with
  | nil => rfl
  | cons x xs ih => exact ih

end WriteStep

/-! ### Writers of any kind -/

/-- The calls to a writer. -/
inductive Call (ι φ : Type) where
  | write (request : ι)
  | finish (form : φ)

namespace Call

def isWrite : Call ι φ → Bool
  | .write _ => true
  | .finish _ => false

/-- The calls before the first that finishes the writer. -/
def beforeFinish (calls : List (Call ι φ)) : List (Call ι φ) := calls.takeWhile isWrite

end Call

/-- The writers of one kind and declared type. They gather contents and build a collection of them, which they
hand out in one of several forms. -/
structure WriterKind (σ γ ρ ι φ : Type) where
  write : σ → ι → Except Error σ
  finish : σ → φ → Except Error ρ × σ
  /-- The writer in a phase of its life. -/
  atPhase : Phase γ ρ → σ
  phase : σ → Phase γ ρ
  /-- The contents of a writer that has just been opened. -/
  blank : γ
  operation : ι → String
  /-- The steps of a request in their order. -/
  steps : ι → List (WriteStep γ)
  /-- What a request is checked for as a whole, and what it does as a whole. -/
  check : ι → Except Error Unit
  change : ι → γ → γ
  build : γ → ρ
  form : φ → ρ → Except Error ρ
  contents : ρ → γ
  /-- What a request asks for, done to a collection instead. -/
  apply : ρ → ι → ρ
  phase_atPhase : ∀ p, phase (atPhase p) = p
  contents_build : ∀ c, contents (build c) = c
  contents_apply : ∀ l r, contents (apply l r) = change r (contents l)
  perform_steps : ∀ r c, WriteStep.perform (steps r) c =
    match check r with
    | .ok () => (.ok (), change r c)
    | .error e => (.error e, c)
  write_filling : ∀ c r, write (atPhase (.filling c)) r =
    (check r).map fun _ => atPhase (.filling (change r c))
  write_sealed : ∀ c r, write (atPhase (.sealed c)) r =
    .error ((Error.of (.illegalState "writer is already sealed")).inOperation (operation r))
  finish_atPhase : ∀ p f, finish (atPhase p) f =
    (form f (p.result build), atPhase (.sealed (p.result build)))

namespace WriterKind

variable (k : WriterKind σ γ ρ ι φ)

def opened : σ := k.atPhase (.filling k.blank)

/-- The writer after a call. A refused request leaves it as it was. -/
def after (w : σ) : Call ι φ → σ
  | .write r =>
    match k.write w r with
    | .ok x => x
    | .error _ => w
  | .finish f => (k.finish w f).2

def run (calls : List (Call ι φ)) : σ := calls.foldl k.after k.opened

/-- The requests that are granted along a run of calls. -/
def granted (w : σ) : List (Call ι φ) → List ι
  | [] => []
  | .write r :: calls =>
    match k.write w r with
    | .ok x => r :: granted x calls
    | .error _ => granted w calls
  | .finish f :: calls => granted (k.finish w f).2 calls

/-- The collection that the requests granted before the first demand to finish make of another, whose contents
the writer has gathered before. -/
def collectedFrom (l : ρ) (calls : List (Call ι φ)) : ρ :=
  (k.granted (k.atPhase (.filling (k.contents l))) (Call.beforeFinish calls)).foldl k.apply l

/-- The collection that they make of an empty one. -/
def collected (calls : List (Call ι φ)) : ρ := k.collectedFrom (k.build k.blank) calls

/-- Takes the steps of a request, unless the writer is sealed. -/
def perform (w : σ) (r : ι) : Except Error Unit × σ :=
  match (k.phase w).contents (k.operation r) with
  | .error e => (.error e, w)
  | .ok c => ((WriteStep.perform (k.steps r) c).1, k.atPhase (.filling (WriteStep.perform (k.steps r) c).2))

/-- How writers behave, whatever calls they have had. -/
structure Conduct : Prop where
  /-- The steps of a request amount to all that it asks for or, if it is refused, to nothing. -/
  atomic : ∀ calls r, k.perform (k.run calls) r =
    match k.write (k.run calls) r with
    | .ok x => (.ok (), x)
    | .error e => (.error e, k.run calls)
  refused : ∀ calls f r, .finish f ∈ calls → k.write (k.run calls) r =
    .error ((Error.of (.illegalState "writer is already sealed")).inOperation (k.operation r))
  /-- Whoever finishes a writer, first or later, gets what was made before the first did. -/
  handedOut : ∀ calls f, (k.finish (k.run calls) f).1 =
    k.form f (k.build (k.contents (k.collected calls)))

variable {k} {l : ρ} {r : ι} {w x : σ} {e : Error}

lemma after_of_write (h : k.write w r = .ok x) : k.after w (.write r) = x := by
  rw [after, h]

lemma after_of_refused (h : k.write w r = .error e) : k.after w (.write r) = w := by
  rw [after, h]

/-- Nothing leads out of a sealed writer. -/
lemma after_sealed (k : WriterKind σ γ ρ ι φ) (c : ρ) (call : Call ι φ) :
    k.after (k.atPhase (.sealed c)) call = k.atPhase (.sealed c) := by
  cases call with
  | write r => exact after_of_refused (k.write_sealed c r)
  | finish f => rw [after, k.finish_atPhase]; rfl

lemma collectedFrom_of_refused (h : k.check r = .error e) (calls : List (Call ι φ)) :
    k.collectedFrom l (.write r :: calls) = k.collectedFrom l calls := by
  have hbefore : Call.beforeFinish (.write r :: calls) = .write r :: Call.beforeFinish calls := rfl
  rw [collectedFrom, hbefore, granted, k.write_filling, h]
  rfl

lemma collectedFrom_of_granted (h : k.check r = .ok ()) (calls : List (Call ι φ)) :
    k.collectedFrom l (.write r :: calls) = k.collectedFrom (k.apply l r) calls := by
  have hbefore : Call.beforeFinish (.write r :: calls) = .write r :: Call.beforeFinish calls := rfl
  rw [collectedFrom, hbefore, granted, k.write_filling, h, ← k.contents_apply]
  rfl

/-- Calls go on collecting until the first of them that finishes the writer. -/
lemma foldl_after (calls : List (Call ι φ)) (l : ρ) :
    calls.foldl k.after (k.atPhase (.filling (k.contents l))) =
      k.atPhase (if calls.all Call.isWrite then .filling (k.contents (k.collectedFrom l calls))
        else .sealed (k.build (k.contents (k.collectedFrom l calls)))) := by
  induction calls generalizing l with
  | nil => rfl
  | cons call calls ih =>
    rw [List.foldl_cons]
    cases call with
    | finish f =>
      have hafter : k.after (k.atPhase (.filling (k.contents l))) (.finish f) =
          k.atPhase (.sealed (k.build (k.contents l))) := by
        rw [after, k.finish_atPhase]
        rfl
      -- what comes behind the first demand to finish does not matter
      rw [hafter, List.foldl_fixed' (k.after_sealed _)]
      rfl
    | write r =>
      have hwrite := k.write_filling (k.contents l) r
      rcases hcheck : k.check r with e | _
      · rw [hcheck] at hwrite
        rw [after_of_refused hwrite, ih l, collectedFrom_of_refused hcheck]
        rfl
      · rw [hcheck, ← k.contents_apply] at hwrite
        rw [after_of_write hwrite, ih (k.apply l r), collectedFrom_of_granted hcheck]
        rfl

/-- The phase that a run of calls leads to. -/
lemma run_eq (k : WriterKind σ γ ρ ι φ) (calls : List (Call ι φ)) :
    k.run calls = k.atPhase (if calls.all Call.isWrite then .filling (k.contents (k.collected calls))
      else .sealed (k.build (k.contents (k.collected calls)))) := by
  have hfold := k.foldl_after calls (k.build k.blank)
  rw [k.contents_build] at hfold
  exact hfold

/-- Every kind of writers behaves so. -/
theorem conduct (k : WriterKind σ γ ρ ι φ) : k.Conduct where
  atomic calls r := by
    rw [k.run_eq]
    split
    · rw [perform, k.phase_atPhase, k.write_filling]
      simp only [Phase.contents, k.perform_steps]
      cases k.check r <;> rfl
    · rw [perform, k.phase_atPhase, k.write_sealed]
      rfl
  refused calls f r hf := by
    have hsealed : calls.all Call.isWrite = false := by
      rw [List.all_eq_false]
      exact ⟨_, hf, Bool.false_ne_true⟩
    rw [k.run_eq, hsealed]
    exact k.write_sealed _ r
  handedOut calls f := by
    rw [k.run_eq, k.finish_atPhase]
    split <;> rfl

end WriterKind

/-! ### The three kinds -/

/-- Whether a finished collection is asked for as it is or as a relation. -/
inductive Form where
  | plain
  | relation

namespace ListWriter

inductive Request where
  | insert (v : Value)
  | append (v : Value)
  | insertAll (vs : List Value)

namespace Request

def operation : Request → String
  | .insert _ => "list_writer.insert"
  | .append _ => "list_writer.append"
  | .insertAll _ => "list_writer.insert_all"

/-- A block goes to the front from its last element on. -/
def steps (ty : Ty) (r : Request) : List (WriteStep (List Value)) :=
  let check := fun v : Value => .check (v.checkBound r.operation ty.elementType)
  match r with
  | .insert v => [check v, .change (v :: ·)]
  | .append v => [check v, .change (· ++ [v])]
  | .insertAll vs => vs.map check ++ vs.reverse.map fun v => .change (v :: ·)

def check (ty : Ty) (r : Request) : Except Error Unit :=
  match r with
  | .insert v | .append v => v.checkBound r.operation ty.elementType
  | .insertAll vs => vs.forM (Value.checkBound r.operation ty.elementType)

def change (contents : List Value) : Request → List Value
  | .insert v => v :: contents
  | .append v => contents ++ [v]
  | .insertAll vs => vs ++ contents

def apply (home : UniverseId) (l : ListValue) : Request → ListValue
  | .insert v => l.cons home v
  | .append v => l.concat home v
  | .insertAll vs => (ListValue.of home vs).append home l

end Request

def request (w : ListWriter) : Request → Except Error ListWriter
  | .insert v => w.insert v
  | .append v => w.append v
  | .insertAll vs => w.insertAll vs

def finishAs (w : ListWriter) : Form → Except Error ListValue × ListWriter
  | .plain => (.ok w.finish.1, w.finish.2)
  | .relation => (w.finishListRelation.1.map (·.toList), w.finishListRelation.2)

/-- Writers of lists of a type. -/
def kind (home : UniverseId) (ty : Ty) : WriterKind ListWriter (List Value) ListValue Request Form where
  write := request
  finish := finishAs
  atPhase p := ⟨ty, p⟩
  phase := phase
  blank := []
  operation := Request.operation
  steps := Request.steps ty
  check := Request.check ty
  change r contents := r.change contents
  build contents := ⟨ty, contents⟩
  form f l := match f with
    | .plain => .ok l
    | .relation => l.asListRelation.map (·.toList)
  contents := ListValue.elements
  apply := Request.apply home
  phase_atPhase _ := rfl
  contents_build _ := rfl
  contents_apply _ r := by cases r <;> rfl
  perform_steps r c := by
    cases r with
    | insert v | append v => exact WriteStep.perform_check _
    | insertAll vs =>
      have hblock : vs.foldr (fun v contents => v :: contents) c = vs ++ c := List.foldr_cons_eq_append'
      rw [Request.steps, WriteStep.perform_checks, WriteStep.perform_check, WriteStep.perform_changes,
        List.foldl_reverse, hblock]
      rfl
  write_filling c r := by cases r <;> rfl
  write_sealed c r := by cases r <;> rfl
  finish_atPhase p f := by cases f <;> rfl

end ListWriter

namespace SetWriter

inductive Request where
  | insert (v : Value)
  | insertAll (vs : List Value)

namespace Request

def operation : Request → String
  | .insert _ => "set_writer.insert"
  | .insertAll _ => "set_writer.insert_all"

/-- A block of elements takes the place of what was gathered in one step. -/
def steps (ty : Ty) (r : Request) : List (WriteStep (List Value)) :=
  let check := fun v : Value => .check (v.checkBound r.operation ty.elementType)
  match r with
  | .insert v => [check v, .change (Members.insert · v)]
  | .insertAll vs => vs.map check ++ [.change (Members.insertAll · vs)]

def check (ty : Ty) (r : Request) : Except Error Unit :=
  match r with
  | .insert v => v.checkBound r.operation ty.elementType
  | .insertAll vs => vs.forM (Value.checkBound r.operation ty.elementType)

def change (contents : List Value) : Request → List Value
  | .insert v => Members.insert contents v
  | .insertAll vs => Members.insertAll contents vs

def apply (home : UniverseId) (s : SetValue) : Request → SetValue
  | .insert v => s.insert home v
  | .insertAll vs => vs.foldl (SetValue.insert home) s

end Request

def request (w : SetWriter) : Request → Except Error SetWriter
  | .insert v => w.insert v
  | .insertAll vs => w.insertAll vs

def finishAs (w : SetWriter) : Form → Except Error SetValue × SetWriter
  | .plain => (.ok w.finish.1, w.finish.2)
  | .relation => (w.finishRelation.1.map (·.toSet), w.finishRelation.2)

lemma elements_foldl_insert (home : UniverseId) (vs : List Value) (s : SetValue) :
    (vs.foldl (SetValue.insert home) s).elements = Members.insertAll s.elements vs := by
  induction vs generalizing s with
  | nil => rfl
  | cons v vs ih => exact ih (s.insert home v)

/-- Writers of sets of a type. -/
def kind (home : UniverseId) (ty : Ty) : WriterKind SetWriter (List Value) SetValue Request Form where
  write := request
  finish := finishAs
  atPhase p := ⟨ty, p⟩
  phase := phase
  blank := []
  operation := Request.operation
  steps := Request.steps ty
  check := Request.check ty
  change r contents := r.change contents
  build contents := ⟨ty, contents⟩
  form f s := match f with
    | .plain => .ok s
    | .relation => s.asRelation.map (·.toSet)
  contents := SetValue.elements
  apply := Request.apply home
  phase_atPhase _ := rfl
  contents_build _ := rfl
  contents_apply s r := by
    cases r with
    | insert v => rfl
    | insertAll vs => exact elements_foldl_insert home vs s
  perform_steps r c := by
    cases r with
    | insert v => exact WriteStep.perform_check _
    | insertAll vs =>
      rw [Request.steps, WriteStep.perform_checks, WriteStep.perform_check]
      rfl
  write_filling c r := by cases r <;> rfl
  write_sealed c r := by cases r <;> rfl
  finish_atPhase p f := by cases f <;> rfl

end SetWriter

namespace MapWriter

inductive Request where
  | put (fresh : TableId) (key v : Value)
  | putAll (fresh : TableId) (entries : List (Value × Value))

namespace Request

def operation : Request → String
  | .put .. => "map_writer.put"
  | .putAll .. => "map_writer.put_all"

/-- Of an entry the key is checked before the value. -/
def steps (ty : Ty) (r : Request) : List (WriteStep Bindings) :=
  let check := fun e : Value × Value => .check (checkEntry r.operation ⟨ty, .filling .empty⟩ e.1 e.2)
  match r with
  | .put fresh key v => [check (key, v), .change (·.put fresh key v)]
  | .putAll fresh entries => entries.map check ++ [.change (·.putAll fresh entries)]

def check (ty : Ty) (r : Request) : Except Error Unit :=
  let check := fun e : Value × Value => checkEntry r.operation ⟨ty, .filling .empty⟩ e.1 e.2
  match r with
  | .put _ key v => check (key, v)
  | .putAll _ entries => entries.forM check

def change (contents : Bindings) : Request → Bindings
  | .put fresh key v => contents.put fresh key v
  | .putAll fresh entries => contents.putAll fresh entries

def apply (home : UniverseId) (m : MapValue) : Request → MapValue
  | .put fresh key v => m.put home fresh key v
  | .putAll fresh entries => entries.foldl (fun m e => m.put home fresh e.1 e.2) m

end Request

def request (w : MapWriter) : Request → Except Error MapWriter
  | .put fresh key v => w.put fresh key v
  | .putAll fresh entries => w.putAll fresh entries

lemma bindings_foldl_put (home : UniverseId) (fresh : TableId) (es : List (Value × Value)) (m : MapValue) :
    (es.foldl (fun m e => m.put home fresh e.1 e.2) m).bindings = m.bindings.putAll fresh es := by
  induction es generalizing m with
  | nil => rfl
  | cons e es ih => exact ih (m.put home fresh e.1 e.2)

/-- Writers of maps of a type. They have no other form to finish in. -/
def kind (home : UniverseId) (ty : Ty) : WriterKind MapWriter Bindings MapValue Request Unit where
  write := request
  finish w _ := (.ok w.finish.1, w.finish.2)
  atPhase p := ⟨ty, p⟩
  phase := phase
  blank := .empty
  operation := Request.operation
  steps := Request.steps ty
  check := Request.check ty
  change r contents := r.change contents
  build := MapValue.ofBindings ty
  form _ := .ok
  contents := MapValue.bindings
  apply := Request.apply home
  phase_atPhase _ := rfl
  contents_build _ := rfl
  contents_apply m r := by
    cases r with
    | put fresh key v => rfl
    | putAll fresh entries => exact bindings_foldl_put home fresh entries m
  perform_steps r c := by
    cases r with
    | put fresh key v => exact WriteStep.perform_check _
    | putAll fresh entries =>
      rw [Request.steps, WriteStep.perform_checks, WriteStep.perform_check]
      rfl
  write_filling c r := by cases r <;> rfl
  write_sealed c r := by cases r <;> rfl
  finish_atPhase _ _ := rfl

end MapWriter

/-- Writers are opened blank, and whatever calls they have had they are atomic and final: a request that is
refused has changed nothing, a finished writer takes nothing more, and all that finish it get the collection
that the requests granted before the first of them make of an empty one, in their order. -/
theorem writers_atomic_and_final (home : UniverseId) :
    (∀ w : Writer, w.Opened → ∃ ty, w = .list (ListWriter.kind home ty).opened ∨
      w = .set (SetWriter.kind home ty).opened ∨ w = .map (MapWriter.kind home ty).opened) ∧
    ∀ ty, (ListWriter.kind home ty).Conduct ∧ (SetWriter.kind home ty).Conduct ∧
      (MapWriter.kind home ty).Conduct := by
  refine ⟨fun w hw => ?_, fun ty => ⟨WriterKind.conduct _, WriterKind.conduct _, WriterKind.conduct _⟩⟩
  cases hw with
  | list => exact ⟨_, .inl rfl⟩
  | listRelation => exact ⟨_, .inl rfl⟩
  | set => exact ⟨_, .inr (.inl rfl)⟩
  | setOfType h =>
    obtain ⟨-, rfl⟩ := SetWriter.ofType_eq_ok.mp h
    exact ⟨_, .inr (.inl rfl)⟩
  | relation => exact ⟨_, .inr (.inl rfl)⟩
  | map => exact ⟨_, .inr (.inr rfl)⟩
  | mapOfType h =>
    obtain ⟨-, rfl⟩ := MapWriter.ofType_eq_ok.mp h
    exact ⟨_, .inr (.inr rfl)⟩

/-- A block refused for its last element, a demand for a relation that fails, and a request that comes too
late. -/
example :
    let w := (ListWriter.kind 0 (.list 0 .int)).run
      [.write (.append (.int 2)), .write (.insertAll [.int 1, .str "x"]), .finish .relation,
        .write (.append (.int 3))]
    w.finish.1.length = 1 ∧ w.isSealed = true := by
  decide +kernel

/-! ### What writers count -/

/-- What a phase counts is the size of what it results in as long as that has not been handed over, or if
there is nothing in it. -/
lemma Phase.tallies_iff (size : γ → ℕ) (blank : γ → Bool) (build : γ → ρ) (size' : ρ → ℕ)
    (blank' : ρ → Bool)
    (hsize : ∀ c, size' (build c) = size c) (hblank : ∀ c, blank' (build c) = blank c)
    (hzero : ∀ l, size' l = 0 ↔ blank' l = true) (p : Phase γ ρ) :
    p.count size = size' (p.result build) ∧ p.isEmpty blank = blank' (p.result build) ↔
      p.isSealed = false ∨ blank' (p.result build) = true := by
  cases p with
  | filling c => simp [count, isEmpty, isSealed, result, hsize, hblank]
  | sealed l =>
    have hsealed : (0 = size' l ∧ true = blank' l) ↔ blank' l = true := by
      rw [eq_comm, hzero, eq_comm, and_self]
    simpa [count, isEmpty, isSealed, result] using hsealed

lemma WriterKind.isSealed_run (k : WriterKind σ γ ρ ι φ) (calls : List (Call ι φ)) :
    (k.phase (k.run calls)).isSealed = false ↔ ∀ f, .finish f ∉ calls := by
  have hall : calls.all Call.isWrite = true ↔ ∀ f, .finish f ∉ calls := by
    rw [List.all_eq_true]
    constructor
    · intro h f hf
      exact Bool.false_ne_true (h _ hf)
    · intro h call hcall
      cases call with
      | write r => rfl
      | finish f => exact absurd hcall (h f)
  rw [k.run_eq, k.phase_atPhase, ← hall]
  cases calls.all Call.isWrite
  · exact ⟨fun h => absurd h.symm Bool.false_ne_true, fun h => absurd h Bool.false_ne_true⟩
  · exact ⟨fun _ => rfl, fun _ => rfl⟩

lemma length_eq_zero_iff_isEmpty {α : Type} (xs : List α) : xs.length = 0 ↔ xs.isEmpty = true :=
  List.length_eq_zero_iff.trans List.isEmpty_iff.symm

/-- The writer counts what it would hand out now. -/
def ListWriter.Tallies (w : ListWriter) : Prop :=
  w.length = w.finish.1.length ∧ w.isEmpty = w.finish.1.isEmpty

def SetWriter.Tallies (w : SetWriter) : Prop := w.size = w.finish.1.size ∧ w.isEmpty = w.finish.1.isEmpty

def MapWriter.Tallies (w : MapWriter) : Prop := w.size = w.finish.1.size ∧ w.isEmpty = w.finish.1.isEmpty

lemma ListWriter.tallies_iff (w : ListWriter) :
    w.Tallies ↔ w.isSealed = false ∨ w.finish.1.isEmpty = true :=
  Phase.tallies_iff List.length List.isEmpty (ListValue.mk w.ty) ListValue.length ListValue.isEmpty
    (fun _ => rfl) (fun _ => rfl) (fun l => length_eq_zero_iff_isEmpty l.elements) w.phase

lemma SetWriter.tallies_iff (w : SetWriter) :
    w.Tallies ↔ w.isSealed = false ∨ w.finish.1.isEmpty = true :=
  Phase.tallies_iff List.length List.isEmpty (SetValue.mk w.ty) SetValue.size SetValue.isEmpty
    (fun _ => rfl) (fun _ => rfl) (fun s => length_eq_zero_iff_isEmpty s.elements) w.phase

lemma MapWriter.tallies_iff (w : MapWriter) :
    w.Tallies ↔ w.isSealed = false ∨ w.finish.1.isEmpty = true :=
  Phase.tallies_iff (fun b : Bindings => b.entries.length) (fun b : Bindings => b.entries.isEmpty)
    (MapValue.ofBindings w.ty) MapValue.size MapValue.isEmpty
    (fun _ => rfl) (fun _ => rfl) (fun m => length_eq_zero_iff_isEmpty m.entries) w.phase

/-- A writer counts what it would hand out now exactly as long as nobody has finished it, or if it would hand
out nothing: once it has handed its contents over it has none. -/
theorem writers_tally_iff (home : UniverseId) (ty : Ty) :
    (∀ calls, let w := (ListWriter.kind home ty).run calls
      w.Tallies ↔ (∀ f, .finish f ∉ calls) ∨ w.finish.1.isEmpty = true) ∧
    (∀ calls, let w := (SetWriter.kind home ty).run calls
      w.Tallies ↔ (∀ f, .finish f ∉ calls) ∨ w.finish.1.isEmpty = true) ∧
    ∀ calls, let w := (MapWriter.kind home ty).run calls
      w.Tallies ↔ (∀ f, .finish f ∉ calls) ∨ w.finish.1.isEmpty = true := by
  refine ⟨fun calls => ?_, fun calls => ?_, fun calls => ?_⟩
  · rw [← (ListWriter.kind home ty).isSealed_run]
    exact ListWriter.tallies_iff _
  · rw [← (SetWriter.kind home ty).isSealed_run]
    exact SetWriter.tallies_iff _
  · rw [← (MapWriter.kind home ty).isSealed_run]
    exact MapWriter.tallies_iff _

/-- A list of one integer has been handed out, and its writer says that there is nothing. -/
theorem sealed_writer_forgets :
    let w := (ListWriter.kind 0 (.list 0 .int)).run [.write (.insert (.int 1)), .finish .plain]
    w.finish.1.length = 1 ∧ w.finish.1.isEmpty = false ∧ w.length = 0 ∧ w.isEmpty = true ∧
      ¬ w.Tallies := by
  intro w
  have hlength : w.finish.1.length = 1 := by decide +kernel
  have hcount : w.length = 0 := by decide +kernel
  refine ⟨hlength, by decide +kernel, hcount, by decide +kernel, fun htallies => ?_⟩
  have htotal := htallies.1
  rw [hlength, hcount] at htotal
  exact absurd htotal (by decide)

end TypedValues
