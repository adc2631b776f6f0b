import Mathlib.Data.List.Basic
import Mathlib.Algebra.GroupWithZero.Nat
import Mathlib.Algebra.Order.Group.Nat
import Mathlib.Algebra.BigOperators.Group.List.Basic

/-!
# Relays

A token passes along a list of jobs. Each job takes the token it is handed,
does a piece of work and hands a token on; the work may depend on the place of
the job in the list. The token is whatever one job leaves for the next: a
balance, a cursor, a key.
-/

namespace EmvaultCore.Library

variable {Token Job Work : Type*}

inductive Relay (hand : Nat → Token → Job → Work → Token → Prop) :
    Nat → Token → List Job → List Work → Token → Prop
  | nil {index : Nat} {token : Token} : Relay hand index token [] [] token
  | cons {index : Nat} {token next last : Token} {job : Job} {work : Work} {jobs : List Job}
      {works : List Work} (handed : hand index token job work next)
      (rest : Relay hand (index + 1) next jobs works last) :
      Relay hand index token (job :: jobs) (work :: works) last

namespace Relay

variable {hand : Nat → Token → Job → Work → Token → Prop} {index : Nat} {token last : Token}
  {jobs : List Job} {works : List Work}

theorem length_eq (relay : Relay hand index token jobs works last) :
    works.length = jobs.length := by
  induction relay with
  | nil => rfl
  | cons handed rest ih => simp [ih]

theorem first_jobs (relay : Relay hand index token jobs works last) (count : Nat) :
    ∃ middle, Relay hand index token (jobs.take count) (works.take count) middle := by
  induction relay generalizing count with
  | nil => exact ⟨_, by rw [List.take_nil, List.take_nil]; exact .nil⟩
  | cons handed rest ih =>
      cases count with
      | zero => exact ⟨_, .nil⟩
      | succ count =>
          obtain ⟨middle, first⟩ := ih count
          exact ⟨middle, .cons handed first⟩

theorem of_job (relay : Relay hand index token jobs works last) {job : Job}
    (member : job ∈ jobs) :
    ∃ place before work after, work ∈ works ∧ hand place before job work after := by
  induction relay with
  | nil => simp at member
  | cons handed rest ih =>
      rcases List.mem_cons.mp member with rfl | later
      · exact ⟨_, _, _, _, List.mem_cons_self, handed⟩
      · rcases ih later with ⟨place, before, work, after, among, done⟩
        exact ⟨place, before, work, after, List.mem_cons_of_mem _ among, done⟩

/-- The tokens in the order in which they are handed on. -/
theorem tokens (relay : Relay hand index token jobs works last) :
    ∃ held : Nat → Token, held 0 = token ∧ held works.length = last ∧
      ∀ place work, works[place]? = some work →
        ∃ job ∈ jobs, hand (index + place) (held place) job work (held (place + 1)) := by
  induction relay with
  | nil => exact ⟨fun _ => _, rfl, rfl, by simp⟩
  | @cons index token next last job work jobs works handed rest ih =>
      rcases ih with ⟨held, first, final, each⟩
      refine ⟨fun place => place.casesOn token held, rfl, final, ?_⟩
      intro place other found
      cases place with
      | zero =>
          obtain rfl : work = other := by simpa using found
          refine ⟨job, List.mem_cons_self, ?_⟩
          change hand index token job work (held 0)
          rw [first]
          exact handed
      | succ place =>
          rcases each place other (by simpa using found) with ⟨job, member, done⟩
          refine ⟨job, List.mem_cons_of_mem _ member, ?_⟩
          rw [show index + (place + 1) = index + 1 + place by omega]
          exact done

/-- What each job takes from the token adds up to what the relay takes. -/
theorem spent (relay : Relay hand index token jobs works last) (value : Token → Nat)
    (cost : Job → Nat)
    (each : ∀ place before job work after, hand place before job work after →
      value before = value after + cost job) :
    value token = value last + (jobs.map cost).sum := by
  induction relay with
  | nil => simp
  | cons handed rest ih =>
      rw [each _ _ _ _ _ handed, ih, List.map_cons, List.sum_cons]
      omega

theorem map_eq {Value : Type*} (relay : Relay hand index token jobs works last)
    (ofWork : Work → Value) (ofJob : Job → Value)
    (each : ∀ place before job work after, hand place before job work after →
      ofWork work = ofJob job) :
    works.map ofWork = jobs.map ofJob := by
  induction relay with
  | nil => rfl
  | cons handed rest ih => rw [List.map_cons, List.map_cons, ih, each _ _ _ _ _ handed]

/-- A relay goes through when every job can be done with any token that is
enough for it and the jobs behind it, and leaves one that is enough for these. -/
theorem exists_of_enough {Enough : Token → List Job → Prop}
    (done : ∀ place before job rest, Enough before (job :: rest) →
      ∃ work after, hand place before job work after ∧ Enough after rest)
    (initially : Enough token jobs) : ∃ works last, Relay hand index token jobs works last := by
  induction jobs generalizing index token with
  | nil => exact ⟨[], token, .nil⟩
  | cons job jobs ih =>
      rcases done index token job jobs initially with ⟨work, after, handed, left⟩
      rcases @ih (index + 1) after left with ⟨works, last, relay⟩
      exact ⟨work :: works, last, .cons handed relay⟩

end Relay

end EmvaultCore.Library
