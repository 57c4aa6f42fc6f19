import JsonQuery.Handler
import JsonQuery.Proofs.Keyed
import JsonQuery.Session

/-!
What a name means to an evaluator. It is settled by what had been registered when the evaluator was built,
and no step that is taken later changes it. Histories list the last step first.
-/
namespace JsonQuery

namespace Registry

theorem register_ofList (entries : List (String × Handler)) (name : String) (handler : Handler) :
    (ofList entries).register name handler = ofList (entries ++ [(name, handler)]) := by
  simp [register, ofList, Keyed.ofList, Keyed.insertAll, List.foldl_append]

theorem get?_ofList (entries : List (String × Handler)) (name : String) :
    (ofList entries).get? name = (Keyed.under name entries).getLast? := by
  rw [get?, ofList, Keyed.ofList, Keyed.get?_eq_head?, Keyed.under_insertAll]
  cases (Keyed.under name entries).getLast? <;> rfl

end Registry

section Callees

inductive Callee where
  | custom (handler : Handler)
  | builtin (b : Builtin)
  | unknown

namespace Callee

/-- A custom function comes before the built-in one of the name. -/
def choose (custom? : Option Handler) (name : String) : Callee :=
  match custom? with
  | some handler => .custom handler
  | none =>
    match Builtin.ofName? name with
    | some b => .builtin b
    | none => .unknown

def run (ev : Evaluator) (evaluate : Function.Evaluate) (root : Value) (calls : Nat) (name : String)
    (args : List Value) : Callee → Eval Value
  | .custom handler =>
    match calls with
    | 0 => throw (.callLimit ev.maxCalls)
    | calls + 1 => (handler args root).run evaluate (Evaluator.callWithin ev evaluate root calls)
  | .builtin b => do
    let slots ← Eval.ofExcept (Parameter.resolve b.name b.parameters args)
    b.apply ev.sorter evaluate slots
  | .unknown => throw (.unknownFunction name)

end Callee

namespace Evaluator

variable (ev : Evaluator)

theorem callWithin_eq_run (evaluate : Function.Evaluate) (root : Value) (calls : Nat) (name : String)
    (args : List Value) : callWithin ev evaluate root calls name args =
      (Callee.choose (ev.registry.get? name) name).run ev evaluate root calls name args := by
  unfold callWithin Callee.choose
  cases ev.registry.get? name with
  | some handler => cases calls <;> rfl
  | none => cases Builtin.ofName? name <;> rfl

def callNode (callee : Callee) (root : Value) (levels : Nat) (name : String) (args : List Expr)
    (v : Value) : Eval Value :=
  Eval.nested ev.maxDepth do
    let values ← args.mapM fun arg => executeWithin ev root levels arg v
    callee.run ev (executeWithin ev root levels) root ev.maxCalls name values

/-- Whether all calls of a name are calls to one function: those from outside, those that a custom function
makes, and those of a node, whether it stands in the expression or in a reference that a custom function has
evaluated. -/
structure Calls (name : String) (callee : Callee) : Prop where
  direct (args : List Value) (root : Value) : ev.call name args root =
    callee.run ev (fun e v => ev.execute e v root) root ev.maxCalls name args
  executor (evaluate : Function.Evaluate) (root : Value) (calls : Nat) (args : List Value)
    (next : Except Fault Value → Routine Value) :
    (Routine.call name args next).run evaluate (callWithin ev evaluate root calls) = do
      let outcome ← Eval.attempt (callee.run ev evaluate root calls name args)
      (next outcome).run evaluate (callWithin ev evaluate root calls)
  expression (args : List Expr) (v root : Value) (levels : Nat) :
    executeWithin ev root (levels + 1) (.call name args) v = ev.callNode callee root levels name args v
  reference (identity : Identity) (args : List Expr) (item root : Value) (levels : Nat)
    (call : String → List Value → Eval Value) (next : Except Fault Value → Routine Value) :
    (Routine.execute (.reference identity (.call name args)) item next).run
        (executeWithin ev root (levels + 1)) call = do
      let outcome ← Eval.attempt (ev.callNode callee root levels name args item)
      (next outcome).run (executeWithin ev root (levels + 1)) call

theorem calls_choose (name : String) : ev.Calls name (.choose (ev.registry.get? name) name) := by
  have node (args : List Expr) (v root : Value) (levels : Nat) :
      executeWithin ev root (levels + 1) (.call name args) v =
        ev.callNode (.choose (ev.registry.get? name) name) root levels name args v := by
    rw [executeWithin, step, callNode]
    simp only [callWithin_eq_run]
  constructor
  · intro args root
    exact callWithin_eq_run ev _ root ev.maxCalls name args
  · intro evaluate root calls args next
    rw [Routine.run, callWithin_eq_run]
  · exact node
  · intro identity args item root levels call next
    rw [Routine.run, ← node]
    rfl

variable {ev} {name : String} {callee : Callee}

/-- A call from outside is answered by the function, in the state that the operations before have left. -/
theorem Calls.perform_call {i : Instance} (h : i.evaluator.Calls name callee) (args : List Value) (root : Value) :
    (i.perform (.call name args root)).1 =
      (callee.run i.evaluator (fun e v => i.evaluator.execute e v root) root i.evaluator.maxCalls name args
        { i.state with supply := (Operation.call name args root).identityBound }).1 :=
  congrArg (fun x : Eval Value => (x _).1) (h.direct args root)

end Evaluator

end Callees

section Histories

def registered? (source : Option String) : List Step → Option (List (String × Handler))
  | [] => if source = none then some [] else none
  | .defineRegistry id entries :: past =>
    if source = some id then some entries else registered? source past
  | .register id name handler :: past =>
    if source = some id then (registered? source past).map (· ++ [(name, handler)])
    else registered? source past
  | .registerShared name handler :: past =>
    if source = none then (registered? source past).map (· ++ [(name, handler)])
    else registered? source past
  | .build .. :: past | .perform .. :: past => registered? source past

/-- What an evaluator was built with. -/
structure Built where
  entries : List (String × Handler)
  resolver : Resolver
  maxDepth : Nat

def Built.evaluator (b : Built) : Evaluator :=
  { registry := .ofList b.entries, resolver := b.resolver, maxDepth := b.maxDepth }

def built? (id : String) : List Step → Option Built
  | [] => none
  | .build other source resolver maxDepth _ :: past =>
    if other = id then ((registered? source past).map (⟨·, resolver, maxDepth⟩)).or (built? id past)
    else built? id past
  | _ :: past => built? id past

end Histories

def Step.Builds (id : String) : Step → Prop
  | .build other .. => other = id
  | _ => False

namespace Session

variable (s : Session)

def evaluator? (id : String) : Option Evaluator := (Keyed.get? id s.evaluators).map Instance.evaluator

section Steps

theorem source?_defineRegistry (source : Option String) (id : String) (entries : List (String × Handler)) :
    (s.step (.defineRegistry id entries)).2.source? source =
      if source = some id then some (.ofList entries) else s.source? source := by
  cases source with
  | none => rfl
  | some other =>
    by_cases same : other = id
    · simp [step, source?, same]
    · simp [step, source?, Keyed.get?_insert_of_ne same, same]

theorem source?_register (source : Option String) (id name : String) (handler : Handler) :
    (s.step (.register id name handler)).2.source? source =
      if source = some id then (s.source? source).map (·.register name handler)
      else s.source? source := by
  cases there : Keyed.get? id s.registries with
  | none =>
    by_cases same : source = some id
    · simp [step, source?, there, same]
    · simp [step, there, same]
  | some r =>
    cases source with
    | none => simp [step, source?, there]
    | some other =>
      by_cases same : other = id
      · simp [step, source?, there, same]
      · simp [step, source?, there, Keyed.get?_insert_of_ne same, same]

theorem source?_registerShared (source : Option String) (name : String) (handler : Handler) :
    (s.step (.registerShared name handler)).2.source? source =
      if source = none then (s.source? source).map (·.register name handler) else s.source? source := by
  cases source <;> rfl

theorem source?_build (source : Option String) (id : String) (registry : Option String)
    (resolver : Resolver) (maxDepth : Nat) (generator : Generator) :
    (s.step (.build id registry resolver maxDepth generator)).2.source? source = s.source? source := by
  cases there : s.source? registry <;> cases source <;> simp only [step, there] <;> rfl

theorem source?_perform (source : Option String) (id : String) (op : Operation) :
    (s.step (.perform id op)).2.source? source = s.source? source := by
  cases there : Keyed.get? id s.evaluators <;> cases source <;> simp [step, source?, there]

theorem evaluator?_build (id other : String) (registry : Option String) (resolver : Resolver)
    (maxDepth : Nat) (generator : Generator) :
    (s.step (.build other registry resolver maxDepth generator)).2.evaluator? id =
      if other = id then
        ((s.source? registry).map ({ registry := ·, resolver, maxDepth })).or (s.evaluator? id)
      else s.evaluator? id := by
  cases there : s.source? registry with
  | none => simp [step, there]
  | some r =>
    by_cases same : other = id
    · simp [step, there, evaluator?, same, Instance.start]
    · simp [step, there, evaluator?, Keyed.get?_insert_of_ne (Ne.symm same), same]

/-- An operation changes the state of an evaluator and nothing else of it, and only a step that builds an
evaluator replaces one. -/
theorem evaluator?_step (id : String) (step : Step) (other : ¬ step.Builds id) :
    (s.step step).2.evaluator? id = s.evaluator? id := by
  cases step with
  | defineRegistry | registerShared => rfl
  | register registry => cases there : Keyed.get? registry s.registries <;> simp [step, evaluator?, there]
  | build => exact (evaluator?_build ..).trans (if_neg other)
  | perform performing op =>
    cases there : Keyed.get? performing s.evaluators with
    | none => simp [step, there]
    | some i =>
      have kept : (i.perform op).2.evaluator = i.evaluator := rfl
      by_cases same : id = performing
      · simp [step, evaluator?, there, same, kept]
      · simp [step, evaluator?, there, Keyed.get?_insert_of_ne same]

end Steps

/-- Whether the registries and the evaluators of a session are those that a history leads to. -/
structure Follows (past : List Step) : Prop where
  sources (source : Option String) : s.source? source = (registered? source past).map Registry.ofList
  evaluators (id : String) : s.evaluator? id = (built? id past).map Built.evaluator

theorem empty_follows : empty.Follows [] where
  sources source := by cases source <;> rfl
  evaluators _ := rfl

variable {s}

theorem Follows.step {past : List Step} (h : s.Follows past) (step : Step) :
    (s.step step).2.Follows (step :: past) := by
  obtain ⟨sources, evaluators⟩ := h
  cases step with
  | defineRegistry id entries =>
    refine ⟨fun source => ?_, evaluators⟩
    rw [source?_defineRegistry, registered?, sources]
    split <;> rfl
  | register id name handler =>
    refine ⟨fun source => ?_, fun other => ?_⟩
    · rw [source?_register, registered?, sources]
      split <;> simp [Function.comp_def, Registry.register_ofList]
    · exact (evaluator?_step s other (.register id name handler) not_false).trans (evaluators other)
  | registerShared name handler =>
    refine ⟨fun source => ?_, evaluators⟩
    rw [source?_registerShared, registered?, sources]
    split <;> simp [Function.comp_def, Registry.register_ofList]
  | build id source resolver maxDepth =>
    refine ⟨fun other => ?_, fun other => ?_⟩
    · rw [source?_build, registered?, sources]
    · rw [evaluator?_build, built?, sources, evaluators]
      split
      · cases registered? source past <;> rfl
      · rfl
  | perform id op =>
    refine ⟨fun source => ?_, fun other => ?_⟩
    · rw [source?_perform, registered?, sources]
    · exact (evaluator?_step s other (.perform id op) not_false).trans (evaluators other)

theorem Follows.run {past : List Step} (h : s.Follows past) (steps : List Step) :
    (s.run steps).2.Follows (steps.reverse ++ past) := by
  induction steps generalizing s past with
  | nil => exact h
  | cons step rest ih =>
    have more := ih (h.step step)
    simpa [Session.run] using more

/-- Steps that build no evaluator of a name leave the one that there is, whatever else they do. -/
theorem evaluator?_run {id : String} {steps : List Step} (others : ∀ step ∈ steps, ¬ step.Builds id) :
    (s.run steps).2.evaluator? id = s.evaluator? id := by
  induction steps generalizing s with
  | nil => rfl
  | cons step rest ih =>
    rw [List.forall_mem_cons] at others
    exact (ih others.2).trans (evaluator?_step s id step others.1)

theorem run_append (s : Session) (steps later : List Step) :
    (s.run (steps ++ later)).2 = ((s.run steps).2.run later).2 := by
  induction steps generalizing s with
  | nil => rfl
  | cons step rest ih => exact ih (s.step step).2

/-- What the evaluator of a name answers to a call. -/
theorem step_call {id name : String} {i : Instance} {callee : Callee} (there : Keyed.get? id s.evaluators = some i)
    (calls : i.evaluator.Calls name callee) (args : List Value) (root : Value) :
    (s.step (.perform id (.call name args root))).1 =
      .outcome (callee.run i.evaluator (fun e v => i.evaluator.execute e v root) root i.evaluator.maxCalls name args
        { i.state with supply := (Operation.call name args root).identityBound }).1 := by
  rw [step, there, ← calls.perform_call]

/-- An evaluator has its own snapshot of the custom functions. Whatever steps led to it, each name that
is called, in whichever way, stands for the last function that had been registered under it in the
registry of the evaluator before it was built; else for the built-in function, else for none. Steps that
come later do not change the evaluator, as long as they build no other in its place, and after them it
still answers each call from outside with that function. -/
theorem calls_snapshot (past : List Step) (id : String) :
    (match built? id past with
      | none => (empty.run past.reverse).2.evaluator? id = none
      | some built => ∃ ev, (empty.run past.reverse).2.evaluator? id = some ev ∧
          ∀ name, ev.Calls name (.choose (Keyed.under name built.entries).getLast? name)) ∧
    ∀ later, (∀ step ∈ later, ¬ step.Builds id) →
      (empty.run (past.reverse ++ later)).2.evaluator? id = (empty.run past.reverse).2.evaluator? id ∧
      ∀ built, built? id past = some built → ∃ i,
        Keyed.get? id (empty.run (past.reverse ++ later)).2.evaluators = some i ∧
        ∀ name args root, ((empty.run (past.reverse ++ later)).2.step (.perform id (.call name args root))).1 =
          .outcome ((Callee.choose (Keyed.under name built.entries).getLast? name).run i.evaluator
            (fun e v => i.evaluator.execute e v root) root i.evaluator.maxCalls name args
            { i.state with supply := (Operation.call name args root).identityBound }).1 := by
  have follows := empty_follows.run past.reverse
  rw [List.reverse_reverse, List.append_nil] at follows
  have snapshot (built : Built) (name : String) :
      built.evaluator.Calls name (.choose (Keyed.under name built.entries).getLast? name) := by
    rw [← Registry.get?_ofList]
    exact built.evaluator.calls_choose name
  constructor
  · rw [follows.evaluators]
    cases built? id past with
    | none => rfl
    | some built => exact ⟨built.evaluator, rfl, snapshot built⟩
  · intro later others
    have kept : (empty.run (past.reverse ++ later)).2.evaluator? id = (empty.run past.reverse).2.evaluator? id := by
      rw [run_append, evaluator?_run others]
    refine ⟨kept, fun built made => ?_⟩
    rw [follows.evaluators, made] at kept
    obtain ⟨i, there, same⟩ := Option.map_eq_some_iff.1 kept
    exact ⟨i, there, fun name args root => step_call there (same ▸ snapshot built name) args root⟩

/-- A name registered twice, an evaluator with what was registered until then, and no more. -/
theorem calls_shadowedLength : ∃ ev,
    (empty.run ([.registerShared "length" Handler.root, .registerShared "length" Handler.count,
        .build "e" none .byTag 512 (.mixing 0)] ++
      [.registerShared "length" Handler.arguments, .registerShared "f" Handler.count,
        .perform "e" (.call "f" [] .null)])).2.evaluator? "e" = some ev ∧
    ev.Calls "length" (.custom Handler.count) ∧ ev.Calls "abs" (.builtin .abs) ∧ ev.Calls "f" .unknown := by
  obtain ⟨snapshot, kept⟩ := calls_snapshot [.build "e" none .byTag 512 (.mixing 0),
    .registerShared "length" Handler.count, .registerShared "length" Handler.root] "e"
  obtain ⟨ev, there, calls⟩ := snapshot
  have others : ∀ step ∈ [Step.registerShared "length" Handler.arguments,
      .registerShared "f" Handler.count, .perform "e" (.call "f" [] .null)], ¬ step.Builds "e" := by
    simp [Step.Builds]
  exact ⟨ev, (kept _ others).1.trans there, calls "length", calls "abs", calls "f"⟩

end Session

end JsonQuery
