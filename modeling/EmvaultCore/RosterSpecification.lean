import EmvaultCore.Roster

/-!
# What a roster plan is

The specification of `compute_roster_plan` for lists with any repetitions: when a
delta is refused and with which rule, what is listed for the members of both
versions and in which order, and that the opposite delta leads back.
-/

namespace EmvaultCore.Roster

def Violated (current add remove : List Uuid) : RosterError → Prop
  | .addAndRemove user => user ∈ add ∧ user ∈ remove
  | .removeNotMember user => user ∈ remove ∧ user ∉ current
  | .addAlreadyMember user => user ∈ add ∧ user ∈ current
  | .emptyResult => ∀ user, ¬ ((user ∈ current ∧ user ∉ remove) ∨ user ∈ add)
  | .badThreshold _ _ => False

/-- The place of a rule in the order of the checks. -/
def rank : RosterError → Nat
  | .addAndRemove _ => 0
  | .removeNotMember _ => 1
  | .addAlreadyMember _ => 2
  | .emptyResult => 3
  | .badThreshold _ _ => 4

/-- Members in the order in which the lists first name them, with their actions. -/
structure ListsOnce (current add remove : List Uuid) (plan : RosterPlan) : Prop where
  changes : plan.changes =
    current.eraseDups.map (fun user => (user, if user ∈ remove then .remove else .keep)) ++
      add.eraseDups.map fun user => (user, .add)
  once : (plan.changes.map Prod.fst).Nodup
  everyone : ∀ user, user ∈ plan.changes.map Prod.fst ↔ user ∈ current ∨ user ∈ add
  nextMembers : plan.nextMembers =
    (plan.changes.filter fun change => change.2 ≠ .remove).map Prod.fst
  distinct : plan.nextMembers.Nodup

structure MeetsSpecification (order : HashOrder) (current add remove : List Uuid) : Prop where
  accepted : (∃ plan, computeRosterPlan order current add remove = .ok plan) ↔
    (∀ user ∈ add, user ∉ remove) ∧ (∀ user ∈ remove, user ∈ current) ∧
      (∀ user ∈ add, user ∉ current) ∧
      ∃ user, (user ∈ current ∧ user ∉ remove) ∨ user ∈ add
  lists : ∀ plan, computeRosterPlan order current add remove = .ok plan →
    ListsOnce current add remove plan
  /-- A refusal names the first rule that is broken. -/
  refused : ∀ cause, computeRosterPlan order current add remove = .error cause →
    Violated current add remove cause ∧
      ∀ other, Violated current add remove other → rank cause ≤ rank other
  /-- The opposite delta leads back, in whatever order the sets are iterated then. -/
  inverse : ∀ plan, computeRosterPlan order current add remove = .ok plan → current ≠ [] →
    ∀ later : HashOrder, ∃ back, computeRosterPlan later plan.nextMembers remove add = .ok back ∧
      back.nextMembers.toFinset = current.toFinset

variable {order : HashOrder} {current add remove : List Uuid} {plan : RosterPlan}

/-! ### First occurrences -/

theorem fresh_eq_erase_dups (seen : Finset Uuid) (users : List Uuid) :
    fresh seen users = (users.filter (· ∉ seen)).eraseDups := by
  induction users generalizing seen with
  | nil => rfl
  | cons user users ih =>
      rw [fresh]
      by_cases known : user ∈ seen
      · rw [if_pos known, ih, List.filter_cons_of_neg (by simpa using known)]
      · rw [if_neg known, ih, List.filter_cons_of_pos (by simpa using known), List.eraseDups_cons,
          List.filter_filter]
        congr 3
        funext other
        by_cases same : other = user
        · simp [same]
        · simp [same]

theorem fresh_start (users : List Uuid) : fresh ∅ users = users.eraseDups := by
  rw [fresh_eq_erase_dups, List.filter_eq_self.mpr (by simp)]

theorem fresh_strangers (strangers : ∀ user ∈ add, user ∉ current) :
    fresh current.toFinset add = add.eraseDups := by
  rw [fresh_eq_erase_dups, List.filter_eq_self.mpr]
  intro user member
  simpa using strangers user member

/-! ### Accepted deltas -/

theorem next_roster_empty_iff (strangers : ∀ user ∈ add, user ∉ current) :
    nextRoster current add remove ≠ [] ↔
      ∃ user, (user ∈ current ∧ user ∉ remove) ∨ user ∈ add := by
  have member : ∀ user, user ∈ nextRoster current add remove ↔
      (user ∈ current ∧ user ∉ remove) ∨ user ∈ add := by
    intro user
    rw [mem_next_roster, and_iff_left_of_imp (strangers user)]
  constructor
  · intro nonempty
    obtain ⟨user, next⟩ := List.exists_mem_of_ne_nil _ nonempty
    exact ⟨user, (member user).mp next⟩
  · intro someone
    obtain ⟨user, next⟩ := someone
    exact List.ne_nil_of_mem ((member user).mpr next)

theorem plan_accepted_iff :
    (∃ plan, computeRosterPlan order current add remove = .ok plan) ↔
      (∀ user ∈ add, user ∉ remove) ∧ (∀ user ∈ remove, user ∈ current) ∧
        (∀ user ∈ add, user ∉ current) ∧
        ∃ user, (user ∈ current ∧ user ∉ remove) ∨ user ∈ add := by
  constructor
  · intro planned
    obtain ⟨plan, planned⟩ := planned
    obtain ⟨apart, members, strangers, nonempty, _⟩ := compute_roster_plan_eq_ok.mp planned
    exact ⟨apart, members, strangers, (next_roster_empty_iff strangers).mp nonempty⟩
  · intro rules
    obtain ⟨apart, members, strangers, someone⟩ := rules
    exact ⟨_, compute_roster_plan_eq_ok.mpr
      ⟨apart, members, strangers, (next_roster_empty_iff strangers).mpr someone, rfl⟩⟩

theorem plan_lists_once (planned : computeRosterPlan order current add remove = .ok plan) :
    ListsOnce current add remove plan := by
  have distinct := nodup_next_members planned
  obtain ⟨_, _, strangers, _, rfl⟩ := compute_roster_plan_eq_ok.mp planned
  have listed : (rosterChanges current add remove).map Prod.fst =
      fresh ∅ current ++ fresh current.toFinset add := by
    simp [rosterChanges, Function.comp_def]
  constructor
  · dsimp only
    rw [rosterChanges, fresh_start, fresh_strangers strangers]
  · dsimp only
    rw [listed, List.nodup_append]
    refine ⟨nodup_fresh, nodup_fresh, ?_⟩
    intro user old other new same
    subst same
    exact (mem_fresh.mp new).2 (List.mem_toFinset.mpr (mem_fresh.mp old).1)
  · intro user
    dsimp only
    rw [listed, List.mem_append, mem_fresh, mem_fresh, List.mem_toFinset]
    constructor
    · intro either
      exact either.imp And.left And.left
    · intro either
      cases either with
      | inl old => exact .inl ⟨old, by simp⟩
      | inr new => exact .inr ⟨new, strangers user new⟩
  · dsimp only
    rw [nextRoster, rosterChanges, List.filter_append, List.map_append, List.filter_map,
      List.filter_map, List.map_map, List.map_map]
    congr 1
    · rw [show (Prod.fst ∘ fun user : Uuid =>
        (user, if user ∈ remove then RosterAction.remove else .keep)) = id from rfl, List.map_id]
      apply List.filter_congr
      intro user _
      by_cases leaves : user ∈ remove
      · simp [leaves]
      · simp [leaves]
    · rw [show (Prod.fst ∘ fun user : Uuid => (user, RosterAction.add)) = id from rfl, List.map_id,
        List.filter_eq_self.mpr (by simp)]
  · exact distinct

/-! ### Refusals -/

theorem plan_refused {cause : RosterError}
    (refused : computeRosterPlan order current add remove = .error cause) :
    Violated current add remove cause ∧
      ∀ other, Violated current add remove other → rank cause ≤ rank other := by
  have answered := compute_roster_plan_answered order current add remove
  rw [refused] at answered
  cases answered with
  | addAndRemove both => exact ⟨both, fun other _ => Nat.zero_le _⟩
  | removeNotMember apart stranger =>
      refine ⟨stranger, ?_⟩
      intro other violated
      cases other with
      | addAndRemove user => exact absurd violated.2 (apart user violated.1)
      | _ => simp [rank]
  | addAlreadyMember apart members member =>
      refine ⟨member, ?_⟩
      intro other violated
      cases other with
      | addAndRemove user => exact absurd violated.2 (apart user violated.1)
      | removeNotMember user => exact absurd (members user violated.1) violated.2
      | _ => simp [rank]
  | emptyResult apart members strangers empty =>
      constructor
      · intro user next
        exact (next_roster_empty_iff strangers).mpr ⟨user, next⟩ empty
      · intro other violated
        cases other with
        | addAndRemove user => exact absurd violated.2 (apart user violated.1)
        | removeNotMember user => exact absurd (members user violated.1) violated.2
        | addAlreadyMember user => exact absurd violated.2 (strangers user violated.1)
        | _ => simp [rank]

/-! ### The opposite delta -/

theorem plan_inverse (planned : computeRosterPlan order current add remove = .ok plan)
    (someone : current ≠ []) (later : HashOrder) :
    ∃ back, computeRosterPlan later plan.nextMembers remove add = .ok back ∧
      back.nextMembers.toFinset = current.toFinset := by
  obtain ⟨apart, members, strangers, _⟩ := plan_accepted_iff.mp ⟨plan, planned⟩
  have next := fun user => @mem_next_members order current add remove plan planned user
  -- A user of the old roster stayed or was removed, and no other user comes back.
  have returns : ∀ user, (user ∈ plan.nextMembers ∧ user ∉ add) ∨ user ∈ remove ↔
      user ∈ current := by
    intro user
    rw [next]
    constructor
    · intro either
      cases either with
      | inl stayed => exact (stayed.1.resolve_right stayed.2).1
      | inr removed => exact members user removed
    · intro old
      by_cases removed : user ∈ remove
      · exact .inr removed
      · exact .inl ⟨.inl ⟨old, removed⟩, fun added => strangers user added old⟩
  obtain ⟨first, member⟩ := List.exists_mem_of_ne_nil current someone
  have accepted := (@plan_accepted_iff later plan.nextMembers remove add).mpr
    ⟨fun user removed added => apart user added removed,
      fun user added => (next user).mpr (.inr added), fun user removed stayed => by
        cases (next user).mp stayed with
        | inl kept => exact kept.2 removed
        | inr added => exact apart user added removed,
      first, (returns first).mpr member⟩
  obtain ⟨back, answer⟩ := accepted
  refine ⟨back, answer, ?_⟩
  ext user
  rw [List.mem_toFinset, List.mem_toFinset, mem_next_members answer, returns]

/-- `compute_roster_plan` meets its specification for all inputs. -/
theorem compute_roster_plan_meets_specification :
    MeetsSpecification order current add remove := by
  constructor
  · exact plan_accepted_iff
  · intro plan planned
    exact plan_lists_once planned
  · intro cause refused
    exact plan_refused refused
  · intro plan planned someone later
    exact plan_inverse planned someone later

end EmvaultCore.Roster
