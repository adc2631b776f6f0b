import Mathlib.Data.List.Basic
import Mathlib.Data.List.TakeDrop
import Mathlib.Data.Nat.Init
import Mathlib.Order.Nat

/-!
# Runs of a step function

A component that answers one call at a time is a step function on its state.
This file packages the induction over a run once: an invariant that one allowed
step preserves holds after every run whose steps are all allowed, and a
property lost between two moments of a run has a last moment.
-/

namespace EmvaultCore.Library.Runs

variable {State Input : Type*}

def run (step : State → Input → State) (start : State) (inputs : List Input) : State :=
  inputs.foldl step start

/-- Each input of the run meets `allowed` in the state it is given to. -/
def Along (step : State → Input → State) (allowed : State → Input → Prop) :
    State → List Input → Prop
  | _, [] => True
  | state, input :: rest => allowed state input ∧ Along step allowed (step state input) rest

/-- The state in which input number `moment` of the run is given. -/
def stateAt (step : State → Input → State) (start : State) (inputs : List Input)
    (moment : Nat) : State :=
  run step start (inputs.take moment)

@[simp] theorem run_nil (step : State → Input → State) (start : State) :
    run step start [] = start := rfl

@[simp] theorem run_cons (step : State → Input → State) (start : State) (input : Input)
    (rest : List Input) :
    run step start (input :: rest) = run step (step start input) rest := rfl

theorem run_append (step : State → Input → State) (start : State)
    (earlier later : List Input) :
    run step start (earlier ++ later) = run step (run step start earlier) later := by
  simp only [run, List.foldl_append]

theorem run_invariant {step : State → Input → State} {allowed : State → Input → Prop}
    {invariant : State → Prop}
    (preserved : ∀ state input, allowed state input → invariant state →
      invariant (step state input))
    {start : State} {inputs : List Input} (initially : invariant start)
    (along : Along step allowed start inputs) :
    invariant (run step start inputs) := by
  induction inputs generalizing start with
  | nil => exact initially
  | cons input rest ih =>
      exact ih (preserved start input along.1 initially) along.2

theorem run_preserved {step : State → Input → State} {invariant : State → Prop}
    (preserved : ∀ state input, invariant state → invariant (step state input))
    {start : State} (initially : invariant start) (inputs : List Input) :
    invariant (run step start inputs) := by
  induction inputs generalizing start with
  | nil => exact initially
  | cons input rest ih => exact ih (preserved start input initially)

theorem run_each {step : State → Input → State} {kind : Input → Prop} {invariant : State → Prop}
    (preserved : ∀ state input, kind input → invariant state → invariant (step state input))
    {start : State} {inputs : List Input} (initially : invariant start)
    (each : ∀ input ∈ inputs, kind input) :
    invariant (run step start inputs) := by
  induction inputs generalizing start with
  | nil => exact initially
  | cons input rest ih =>
      rw [List.forall_mem_cons] at each
      exact ih (preserved start input each.1 initially) each.2

theorem along_take {step : State → Input → State} {allowed : State → Input → Prop}
    {start : State} {inputs : List Input} (along : Along step allowed start inputs)
    (moment : Nat) : Along step allowed start (inputs.take moment) := by
  induction inputs generalizing start moment with
  | nil => simpa using along
  | cons input rest ih =>
      cases moment with
      | zero => trivial
      | succ moment => exact ⟨along.1, ih along.2 moment⟩

theorem along_and {step : State → Input → State} {allowed : State → Input → Prop}
    {extra : Input → Prop} {start : State} {inputs : List Input}
    (along : Along step allowed start inputs) (each : ∀ input ∈ inputs, extra input) :
    Along step (fun state input => allowed state input ∧ extra input) start inputs := by
  induction inputs generalizing start with
  | nil => trivial
  | cons input rest ih =>
      have later : ∀ other ∈ rest, extra other :=
        fun other member => each other (List.mem_cons_of_mem _ member)
      exact ⟨⟨along.1, each input List.mem_cons_self⟩, ih along.2 later⟩

theorem along_both {step : State → Input → State} {left right : State → Input → Prop}
    {start : State} {inputs : List Input} (first : Along step left start inputs)
    (second : Along step right start inputs) :
    Along step (fun state input => left state input ∧ right state input) start inputs := by
  induction inputs generalizing start with
  | nil => trivial
  | cons input rest ih => exact ⟨⟨first.1, second.1⟩, ih first.2 second.2⟩

theorem state_at_succ {step : State → Input → State} {start : State} {inputs : List Input}
    {moment : Nat} {input : Input} (given : inputs[moment]? = some input) :
    stateAt step start inputs (moment + 1) = step (stateAt step start inputs moment) input := by
  simp only [stateAt, List.take_add_one, given, Option.toList_some, run_append, run_cons,
    run_nil]

/-- The invariant holds at every moment of an allowed run, not only at its end. -/
theorem state_at_invariant {step : State → Input → State} {allowed : State → Input → Prop}
    {invariant : State → Prop}
    (preserved : ∀ state input, allowed state input → invariant state →
      invariant (step state input))
    {start : State} {inputs : List Input} (initially : invariant start)
    (along : Along step allowed start inputs) (moment : Nat) :
    invariant (stateAt step start inputs moment) :=
  run_invariant preserved initially (along_take along moment)

theorem along_at {step : State → Input → State} {allowed : State → Input → Prop}
    {start : State} {inputs : List Input} (along : Along step allowed start inputs)
    {moment : Nat} {input : Input} (given : inputs[moment]? = some input) :
    allowed (stateAt step start inputs moment) input := by
  induction inputs generalizing start moment with
  | nil => simp at given
  | cons first rest ih =>
      cases moment with
      | zero =>
          obtain rfl : first = input := by simpa using given
          exact along.1
      | succ moment => exact ih along.2 (by simpa using given)

theorem state_at_end {step : State → Input → State} {start : State} {inputs : List Input}
    {moment : Nat} (ended : inputs[moment]? = none) :
    stateAt step start inputs (moment + 1) = stateAt step start inputs moment := by
  simp only [stateAt, List.take_add_one, ended, Option.toList_none, List.append_nil]

/-- What every step relates to the state before it, a run relates to every state
before. -/
theorem state_at_related {step : State → Input → State} {relation : State → State → Prop}
    (refl : ∀ state, relation state state)
    (trans : ∀ {first middle last}, relation first middle → relation middle last →
      relation first last)
    (stepped : ∀ state input, relation state (step state input))
    (start : State) (inputs : List Input) {earlier later : Nat} (before : earlier ≤ later) :
    relation (stateAt step start inputs earlier) (stateAt step start inputs later) := by
  induction later, before using Nat.le_induction with
  | base => exact refl _
  | succ later lower ih =>
      cases given : inputs[later]? with
      | none =>
          rw [state_at_end given]
          exact ih
      | some input =>
          rw [state_at_succ given]
          exact trans ih (stepped _ input)

/-- A property that holds at one moment and fails at a later one has a last
moment at which it holds. -/
theorem last_held {holds : Nat → Prop} {earlier later : Nat} (before : earlier ≤ later)
    (had : holds earlier) (lost : ¬ holds later) :
    ∃ moment, earlier ≤ moment ∧ moment < later ∧ holds moment ∧
      ∀ after, moment < after → after ≤ later → ¬ holds after := by
  induction later, before using Nat.le_induction with
  | base => exact absurd had lost
  | succ later lower ih =>
      by_cases held : holds later
      · refine ⟨later, lower, Nat.lt_succ_self later, held, ?_⟩
        intro after above bound
        rw [Nat.le_antisymm bound above]
        exact lost
      · rcases ih held with ⟨moment, first, below, holding, none⟩
        refine ⟨moment, first, Nat.lt_succ_of_lt below, holding, ?_⟩
        intro after above bound
        rcases Nat.lt_or_eq_of_le bound with inside | rfl
        · exact none after above (Nat.le_of_lt_succ inside)
        · exact lost

end EmvaultCore.Library.Runs
