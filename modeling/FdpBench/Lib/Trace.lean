import Mathlib.Logic.Relation
import Mathlib.Data.List.Induction

/-!
# Runs of step functions and step relations

A component evolves by folding a step function over its inputs, or by a step relation whose
reflexive-transitive closure gives the reachable states.  The rules here turn a fact about one
step into a fact about every run; the history form lets an invariant speak about the inputs
consumed so far.
-/

namespace Trace

variable {State Input : Type*}

/-- The state reached after consuming the inputs in order. -/
def run (step : State → Input → State) (state : State) (inputs : List Input) : State :=
  inputs.foldl step state

section Run

variable (step : State → Input → State)

@[simp]
theorem run_nil (state : State) : run step state [] = state := rfl

@[simp]
theorem run_cons (state : State) (input : Input) (inputs : List Input) :
    run step state (input :: inputs) = run step (step state input) inputs := rfl

theorem run_append (state : State) (left right : List Input) :
    run step state (left ++ right) = run step (run step state left) right :=
  List.foldl_append

@[simp]
theorem run_concat (state : State) (inputs : List Input) (input : Input) :
    run step state (inputs ++ [input]) = step (run step state inputs) input := by
  rw [run_append]
  rfl

/-- An invariant indexed by the consumed inputs holds after every prefix of a run. -/
theorem run_history {holds : List Input → State → Prop} {state : State}
    (initial : holds [] state)
    (preserve : ∀ inputs current input,
      holds inputs current → holds (inputs ++ [input]) (step current input))
    (inputs : List Input) : holds inputs (run step state inputs) := by
  induction inputs using List.reverseRecOn with
  | nil => exact initial
  | append_singleton inputs input induction =>
      rw [run_concat]
      exact preserve inputs _ input induction

/-- A state invariant preserved by every step holds after every run. -/
theorem run_invariant {holds : State → Prop} {state : State} (initial : holds state)
    (preserve : ∀ current input, holds current → holds (step current input))
    (inputs : List Input) : holds (run step state inputs) :=
  @run_history State Input step (fun _ current => holds current) state initial
    (fun _ current input hold => preserve current input hold) inputs

/-- A state invariant preserved by every allowed step holds after every run of allowed inputs. -/
theorem run_invariant_of_allowed {holds : State → Prop} {allowed : Input → Prop}
    (preserve : ∀ current input, allowed input → holds current → holds (step current input))
    {inputs : List Input} (all_allowed : ∀ input ∈ inputs, allowed input) {state : State}
    (initial : holds state) : holds (run step state inputs) := by
  induction inputs generalizing state with
  | nil => exact initial
  | cons input inputs induction =>
      rw [run_cons]
      exact induction (fun later member => all_allowed later (List.mem_cons_of_mem input member))
        (preserve state input (all_allowed input List.mem_cons_self) initial)

/-- Simulation: a view of the state that follows a second step function on every consumed input
maps a run of `step` to the run of the second step function from the viewed start. -/
theorem view_run {View : Type*} (step' : View → Input → View) (view : State → View)
    {allowed : Input → Prop}
    (commute : ∀ state input, allowed input → view (step state input) = step' (view state) input)
    {inputs : List Input} (all_allowed : ∀ input ∈ inputs, allowed input) (state : State) :
    view (run step state inputs) = run step' (view state) inputs := by
  induction inputs generalizing state with
  | nil => rfl
  | cons input inputs induction =>
      have head_allowed := all_allowed input List.mem_cons_self
      rw [run_cons, run_cons, ← commute state input head_allowed]
      exact induction (fun later member => all_allowed later (List.mem_cons_of_mem input member)) _

end Run

/-- States reachable by a step relation from a state satisfying `initial`. -/
def Reachable (step : State → State → Prop) (initial : State → Prop) (state : State) : Prop :=
  ∃ start, initial start ∧ Relation.ReflTransGen step start state

section Reachable

variable {step : State → State → Prop} {initial : State → Prop}

theorem Reachable.of_initial {state : State} (start : initial state) :
    Reachable step initial state :=
  ⟨state, start, Relation.ReflTransGen.refl⟩

theorem Reachable.tail {state next : State} (reach : Reachable step initial state)
    (move : step state next) : Reachable step initial next := by
  obtain ⟨start, start_initial, path⟩ := reach
  exact ⟨start, start_initial, path.tail move⟩

/-- A property that every step preserves is preserved along every path. -/
theorem path_invariant {holds : State → Prop}
    (preserve : ∀ state next, holds state → step state next → holds next)
    {state next : State} (path : Relation.ReflTransGen step state next) (start : holds state) :
    holds next := by
  induction path with
  | refl => exact start
  | tail _ move induction => exact preserve _ _ induction move

/-- Induction over reachability: an inductive invariant holds in every reachable state. -/
theorem Reachable.invariant {holds : State → Prop}
    (initial_holds : ∀ state, initial state → holds state)
    (preserve : ∀ state next, holds state → step state next → holds next)
    {state : State} (reach : Reachable step initial state) : holds state := by
  obtain ⟨start, start_initial, path⟩ := reach
  exact path_invariant preserve path (initial_holds start start_initial)

end Reachable

end Trace
