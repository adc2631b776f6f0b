import Mathlib.Tactic.TypeStar

/-!
# Journals of changes

A holder has a current state and the changes it staged since they were last
written out. If the state moves only by changes that are staged, then what was
written out together with what is staged replays to the state.
-/

namespace EmvaultCore.Library

/-- Changes that can be merged, and how a state moves by them. -/
structure Replay (Changes State : Type*) where
  empty : Changes
  merge : Changes → Changes → Changes
  start : State
  step : State → Changes → State

namespace Replay

variable {Changes State Holder : Type*} (replay : Replay Changes State)

/-- Merging is a monoid, and moving by merged changes is moving by one after the other. -/
structure Lawful (replay : Replay Changes State) : Prop where
  assoc : ∀ first second third,
    replay.merge (replay.merge first second) third = replay.merge first (replay.merge second third)
  emptyMerge : ∀ changes, replay.merge replay.empty changes = changes
  mergeEmpty : ∀ changes, replay.merge changes replay.empty = changes
  stepEmpty : ∀ state, replay.step state replay.empty = state
  stepMerge : ∀ state first second,
    replay.step state (replay.merge first second) = replay.step (replay.step state first) second

def of (changes : Changes) : State := replay.step replay.start changes

variable (staged : Holder → Changes) (state : Holder → State)

def Extends (before after : Holder) : Prop :=
  ∃ changes, staged after = replay.merge (staged before) changes ∧
    state after = replay.step (state before) changes

/-- What is written out and what is staged lead to the state of the holder. -/
def Coherent (written : Changes) (holder : Holder) : Prop :=
  replay.of (replay.merge written (staged holder)) = state holder

variable {replay staged state} {before middle after holder : Holder} {written : Changes}

theorem extends_refl (lawful : replay.Lawful) (holder : Holder) :
    replay.Extends staged state holder holder :=
  ⟨replay.empty, (lawful.mergeEmpty _).symm, (lawful.stepEmpty _).symm⟩

theorem extends_trans (lawful : replay.Lawful) (first : replay.Extends staged state before middle)
    (second : replay.Extends staged state middle after) :
    replay.Extends staged state before after := by
  rcases first with ⟨earlier, stagedFirst, stateFirst⟩
  rcases second with ⟨later, stagedSecond, stateSecond⟩
  refine ⟨replay.merge earlier later, ?_, ?_⟩
  · rw [stagedSecond, stagedFirst, lawful.assoc]
  · rw [stateSecond, stateFirst, lawful.stepMerge]

theorem coherent_of_extends (lawful : replay.Lawful)
    (coherent : replay.Coherent staged state written before)
    (moved : replay.Extends staged state before after) :
    replay.Coherent staged state written after := by
  rcases moved with ⟨changes, stagedAfter, stateAfter⟩
  unfold Coherent of at coherent ⊢
  rw [stagedAfter, ← lawful.assoc, lawful.stepMerge, coherent, stateAfter]

theorem coherent_of_written (lawful : replay.Lawful)
    (coherent : replay.Coherent staged state written before)
    (same : state after = state before) (cleared : staged after = replay.empty) :
    replay.Coherent staged state (replay.merge written (staged before)) after := by
  unfold Coherent at coherent ⊢
  rw [cleared, lawful.mergeEmpty, coherent, same]

end Replay

end EmvaultCore.Library
