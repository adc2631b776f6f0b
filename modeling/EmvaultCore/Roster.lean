import EmvaultCore.MockSigner
import Mathlib.Data.Finset.Sort
import Mathlib.Data.Finset.Union

/-!
# Roster arithmetic of a federation migration

A migration names members to add and members to remove. The plan it computes
keeps each member once, in the order in which the lists first name it, and the
threshold of the next version is checked against the number of its members. The
rules of the roster and those of `Federation::new` are compared at the end: they
agree on every roster but those of one member.
-/

namespace EmvaultCore

instance uuidWidth : NeZero (2 ^ 128) := ⟨by decide⟩

abbrev Uuid := Fin (2 ^ 128)

namespace Roster

inductive RosterAction where
  | keep
  | add
  | remove
deriving DecidableEq, Repr

structure RosterPlan where
  nextMembers : List Uuid
  changes : List (Uuid × RosterAction)
deriving DecidableEq, Repr

inductive RosterError where
  | removeNotMember (user : Uuid)
  | addAlreadyMember (user : Uuid)
  | addAndRemove (user : Uuid)
  | emptyResult
  | badThreshold (m : UInt32) (n : Nat)
deriving DecidableEq, Repr

/-- The order in which a `HashSet` is iterated, which is any order at all. -/
structure HashOrder where
  iterate : Finset Uuid → List Uuid
  mem_iterate : ∀ set user, user ∈ iterate set ↔ user ∈ set
  nodup_iterate : ∀ set, (iterate set).Nodup

/-- `HashSet::intersection`, which walks the smaller of the two sets. -/
def HashOrder.intersection (order : HashOrder) (left right : Finset Uuid) : List Uuid :=
  if left.card ≤ right.card then (order.iterate left).filter (· ∈ right)
  else (order.iterate right).filter (· ∈ left)

/-- The variables of the two loops of `compute_roster_plan`. -/
structure Tally where
  nextMembers : List Uuid
  changes : List (Uuid × RosterAction)
  seen : Finset Uuid

def Tally.keepOrRemove (removeSet : Finset Uuid) (tally : Tally) (user : Uuid) : Tally :=
  if user ∈ tally.seen then tally
  else if user ∈ removeSet then
    { nextMembers := tally.nextMembers
      changes := tally.changes ++ [(user, .remove)]
      seen := insert user tally.seen }
  else
    { nextMembers := tally.nextMembers ++ [user]
      changes := tally.changes ++ [(user, .keep)]
      seen := insert user tally.seen }

def Tally.join (tally : Tally) (user : Uuid) : Tally :=
  if user ∈ tally.seen then tally
  else
    { nextMembers := tally.nextMembers ++ [user]
      changes := tally.changes ++ [(user, .add)]
      seen := insert user tally.seen }

def tally (current add : List Uuid) (removeSet : Finset Uuid) : Tally :=
  add.foldl Tally.join
    (current.foldl (Tally.keepOrRemove removeSet) { nextMembers := [], changes := [], seen := ∅ })

def computeRosterPlan (order : HashOrder) (current add remove : List Uuid) :
    Except RosterError RosterPlan :=
  let currentSet := current.toFinset
  let addSet := add.toFinset
  let removeSet := remove.toFinset
  match (order.intersection addSet removeSet).head? with
  | some user => .error (.addAndRemove user)
  | none =>
      match (order.iterate removeSet).find? (· ∉ currentSet) with
      | some user => .error (.removeNotMember user)
      | none =>
          match (order.iterate addSet).find? (· ∈ currentSet) with
          | some user => .error (.addAlreadyMember user)
          | none =>
              let result := tally current add removeSet
              if result.nextMembers.isEmpty then .error .emptyResult
              else .ok { nextMembers := result.nextMembers, changes := result.changes }

structure NonZeroU32 where
  value : UInt32
  nonzero : value ≠ 0
deriving DecidableEq, Repr

def validateThreshold (m : UInt32) (n : Nat) : Except RosterError NonZeroU32 :=
  if 2 ^ 32 ≤ n then .error (.badThreshold m n)
  else if h : m = 0 then .error (.badThreshold m n)
  else if n < m.toNat then .error (.badThreshold m n)
  else .ok { value := m, nonzero := h }

/-- The users of a list that were not seen before, each where it occurs first. -/
def fresh (seen : Finset Uuid) : List Uuid → List Uuid
  | [] => []
  | user :: users =>
      if user ∈ seen then fresh seen users else user :: fresh (insert user seen) users

@[simp] theorem mem_fresh {seen : Finset Uuid} {users : List Uuid} {user : Uuid} :
    user ∈ fresh seen users ↔ user ∈ users ∧ user ∉ seen := by
  induction users generalizing seen with
  | nil => simp [fresh]
  | cons first users ih =>
      rw [fresh]
      by_cases known : first ∈ seen
      · rw [if_pos known, ih, List.mem_cons]
        constructor
        · intro member
          exact ⟨.inr member.1, member.2⟩
        · intro member
          cases member.1 with
          | inl same => exact absurd (same ▸ known) member.2
          | inr later => exact ⟨later, member.2⟩
      · rw [if_neg known, List.mem_cons, ih, Finset.mem_insert, List.mem_cons]
        by_cases same : user = first
        · simp [same, known]
        · simp [same]

theorem nodup_fresh {seen : Finset Uuid} {users : List Uuid} : (fresh seen users).Nodup := by
  induction users generalizing seen with
  | nil => exact List.nodup_nil
  | cons first users ih =>
      rw [fresh]
      split
      · exact ih
      · rw [List.nodup_cons, mem_fresh]
        exact ⟨fun member => member.2 (Finset.mem_insert_self first seen), ih⟩

theorem fold_keep_or_remove {removeSet : Finset Uuid} {start : Tally} {current : List Uuid} :
    current.foldl (Tally.keepOrRemove removeSet) start =
      { nextMembers := start.nextMembers ++ (fresh start.seen current).filter (· ∉ removeSet)
        changes := start.changes ++ (fresh start.seen current).map fun user =>
          (user, if user ∈ removeSet then RosterAction.remove else .keep)
        seen := start.seen ∪ current.toFinset } := by
  induction current generalizing start with
  | nil => simp [fresh]
  | cons user current ih =>
      rw [List.foldl_cons, ih, fresh]
      by_cases known : user ∈ start.seen
      · simp [Tally.keepOrRemove, known]
      · by_cases leaves : user ∈ removeSet
        · simp [Tally.keepOrRemove, known, leaves]
        · simp [Tally.keepOrRemove, known, leaves]

theorem fold_join {start : Tally} {add : List Uuid} :
    add.foldl Tally.join start =
      { nextMembers := start.nextMembers ++ fresh start.seen add
        changes := start.changes ++ (fresh start.seen add).map fun user => (user, .add)
        seen := start.seen ∪ add.toFinset } := by
  induction add generalizing start with
  | nil => simp [fresh]
  | cons user add ih =>
      rw [List.foldl_cons, ih, fresh]
      by_cases known : user ∈ start.seen
      · simp [Tally.join, known]
      · simp [Tally.join, known]

def nextRoster (current add remove : List Uuid) : List Uuid :=
  (fresh ∅ current).filter (· ∉ remove) ++ fresh current.toFinset add

def rosterChanges (current add remove : List Uuid) : List (Uuid × RosterAction) :=
  (fresh ∅ current).map (fun user => (user, if user ∈ remove then .remove else .keep)) ++
    (fresh current.toFinset add).map fun user => (user, .add)

theorem tally_eq (current add remove : List Uuid) :
    tally current add remove.toFinset =
      { nextMembers := nextRoster current add remove
        changes := rosterChanges current add remove
        seen := current.toFinset ∪ add.toFinset } := by
  rw [tally, fold_join, fold_keep_or_remove]
  simp [nextRoster, rosterChanges]

theorem HashOrder.intersection_empty (order : HashOrder) {left right : Finset Uuid} :
    (order.intersection left right).head? = none ↔ ∀ user ∈ left, user ∉ right := by
  rw [List.head?_eq_none_iff, intersection]
  split
  · simp [order.mem_iterate]
  · simp only [List.filter_eq_nil_iff, order.mem_iterate, decide_eq_true_eq]
    exact ⟨fun apart user here there => apart user there here,
      fun apart user there here => apart user here there⟩

theorem HashOrder.find_eq_none (order : HashOrder) {set : Finset Uuid} {test : Uuid → Bool} :
    (order.iterate set).find? test = none ↔ ∀ user ∈ set, test user = false := by
  simp [order.mem_iterate]

theorem HashOrder.mem_of_intersection (order : HashOrder) {left right : Finset Uuid} {user : Uuid}
    (first : (order.intersection left right).head? = some user) : user ∈ left ∧ user ∈ right := by
  have member := List.mem_of_mem_head? first
  rw [intersection] at member
  split at member
  · have here := List.mem_filter.mp member
    exact ⟨(order.mem_iterate _ _).mp here.1, of_decide_eq_true here.2⟩
  · have here := List.mem_filter.mp member
    exact ⟨of_decide_eq_true here.2, (order.mem_iterate _ _).mp here.1⟩

theorem HashOrder.of_find (order : HashOrder) {set : Finset Uuid} {test : Uuid → Bool}
    {user : Uuid} (found : (order.iterate set).find? test = some user) :
    user ∈ set ∧ test user = true :=
  ⟨(order.mem_iterate _ _).mp (List.mem_of_find?_eq_some found), List.find?_some found⟩

/-- The answers of `compute_roster_plan`: the first rule that is broken, with the
rules before it, or the plan. -/
inductive Answered (current add remove : List Uuid) : Except RosterError RosterPlan → Prop where
  | addAndRemove {user : Uuid} (both : user ∈ add ∧ user ∈ remove) :
      Answered current add remove (.error (.addAndRemove user))
  | removeNotMember {user : Uuid} (apart : ∀ user ∈ add, user ∉ remove)
      (stranger : user ∈ remove ∧ user ∉ current) :
      Answered current add remove (.error (.removeNotMember user))
  | addAlreadyMember {user : Uuid} (apart : ∀ user ∈ add, user ∉ remove)
      (members : ∀ user ∈ remove, user ∈ current) (member : user ∈ add ∧ user ∈ current) :
      Answered current add remove (.error (.addAlreadyMember user))
  | emptyResult (apart : ∀ user ∈ add, user ∉ remove) (members : ∀ user ∈ remove, user ∈ current)
      (strangers : ∀ user ∈ add, user ∉ current) (empty : nextRoster current add remove = []) :
      Answered current add remove (.error .emptyResult)
  | planned (apart : ∀ user ∈ add, user ∉ remove) (members : ∀ user ∈ remove, user ∈ current)
      (strangers : ∀ user ∈ add, user ∉ current) (some : nextRoster current add remove ≠ []) :
      Answered current add remove (.ok {
        nextMembers := nextRoster current add remove
        changes := rosterChanges current add remove })

theorem compute_roster_plan_answered (order : HashOrder) (current add remove : List Uuid) :
    Answered current add remove (computeRosterPlan order current add remove) := by
  simp only [computeRosterPlan]
  cases both : (order.intersection add.toFinset remove.toFinset).head? with
  | some user =>
      have shared := order.mem_of_intersection both
      simp only [List.mem_toFinset] at shared
      exact .addAndRemove shared
  | none =>
      have apart := order.intersection_empty.mp both
      simp only [List.mem_toFinset] at apart
      cases stranger : (order.iterate remove.toFinset).find? (· ∉ current.toFinset) with
      | some user =>
          have unknown := order.of_find stranger
          simp only [List.mem_toFinset, decide_eq_true_eq] at unknown
          exact .removeNotMember apart unknown
      | none =>
          have members := order.find_eq_none.mp stranger
          simp only [List.mem_toFinset, decide_eq_false_iff_not, not_not] at members
          cases member : (order.iterate add.toFinset).find? (· ∈ current.toFinset) with
          | some user =>
              have known := order.of_find member
              simp only [List.mem_toFinset, decide_eq_true_eq] at known
              exact .addAlreadyMember apart members known
          | none =>
              have strangers := order.find_eq_none.mp member
              simp only [List.mem_toFinset, decide_eq_false_iff_not] at strangers
              simp only [tally_eq]
              split
              · rename_i empty
                exact .emptyResult apart members strangers (List.isEmpty_iff.mp empty)
              · rename_i some
                exact .planned apart members strangers fun empty => some (List.isEmpty_iff.mpr empty)

/-- A delta is applied exactly when it adds and removes different users, removes
only members, adds none and leaves someone. -/
theorem compute_roster_plan_eq_ok {order : HashOrder} {current add remove : List Uuid}
    {plan : RosterPlan} :
    computeRosterPlan order current add remove = .ok plan ↔
      (∀ user ∈ add, user ∉ remove) ∧ (∀ user ∈ remove, user ∈ current) ∧
        (∀ user ∈ add, user ∉ current) ∧ nextRoster current add remove ≠ [] ∧
        plan = {
          nextMembers := nextRoster current add remove
          changes := rosterChanges current add remove } := by
  have answered := compute_roster_plan_answered order current add remove
  constructor
  · intro planned
    rw [planned] at answered
    cases answered with
    | planned apart members strangers some => exact ⟨apart, members, strangers, some, rfl⟩
  · intro kept
    obtain ⟨apart, members, strangers, some, rfl⟩ := kept
    generalize computeRosterPlan order current add remove = answer at answered
    cases answered with
    | addAndRemove both => exact absurd both.2 (apart _ both.1)
    | removeNotMember _ stranger => exact absurd (members _ stranger.1) stranger.2
    | addAlreadyMember _ _ member => exact absurd member.2 (strangers _ member.1)
    | emptyResult _ _ _ empty => exact absurd empty some
    | planned => rfl

theorem mem_next_roster {current add remove : List Uuid} {user : Uuid} :
    user ∈ nextRoster current add remove ↔
      (user ∈ current ∧ user ∉ remove) ∨ (user ∈ add ∧ user ∉ current) := by
  simp [nextRoster]

theorem nodup_next_roster {current add remove : List Uuid} :
    (nextRoster current add remove).Nodup := by
  rw [nextRoster, List.nodup_append]
  refine ⟨nodup_fresh.filter _, nodup_fresh, ?_⟩
  intro kept isKept joined isJoined same
  have old : kept ∈ current := by simpa using (mem_fresh.mp (List.mem_of_mem_filter isKept)).1
  have new : joined ∉ current := by simpa using (mem_fresh.mp isJoined).2
  exact new (same ▸ old)

theorem validate_threshold_eq_ok {m : UInt32} {n : Nat} {threshold : NonZeroU32} :
    validateThreshold m n = .ok threshold ↔
      n < 2 ^ 32 ∧ m.toNat ≤ n ∧ threshold.value = m := by
  unfold validateThreshold
  split_ifs with huge zero exceeds
  · simp only [false_iff]
    omega
  · simp only [false_iff]
    intro passed
    exact threshold.nonzero (passed.2.2.trans zero)
  · simp only [false_iff]
    omega
  · cases threshold
    simp only [Except.ok.injEq, NonZeroU32.mk.injEq]
    constructor
    · intro same
      exact ⟨by omega, by omega, same.symm⟩
    · intro passed
      exact passed.2.2.symm

def HashOrder.ascending : HashOrder where
  iterate set := set.sort (· ≤ ·)
  mem_iterate _ _ := Finset.mem_sort _
  nodup_iterate set := Finset.sort_nodup set _

/-- No failure of `validate_inputs` over the threshold, the number of signers or
their ids. -/
def PassesCounts (outcome : Outcome FederationError Federation) : Prop :=
  outcome ≠ .error (.error .zeroThreshold) ∧
    (∀ count, outcome ≠ .error (.error (.insufficientSigners count))) ∧
    (∀ m count, outcome ≠ .error (.error (.thresholdExceedsSignerCount m count))) ∧
    ∀ id, outcome ≠ .error (.error (.duplicateSigner id))

theorem validate_distinct_signers {network : NetworkType} {seen : List SignerId}
    {signers : List Signer} (distinct : (signers.map Signer.id).Nodup)
    (unseen : ∀ signer ∈ signers, signer.id ∉ seen) :
    Federation.validateSigners network seen signers = .ok () ∨
      ∃ id, Federation.validateSigners network seen signers =
        .error (.error (.signerNetworkMismatch id network)) := by
  induction signers generalizing seen with
  | nil => exact .inl rfl
  | cons signer signers ih =>
      rw [List.map_cons, List.nodup_cons] at distinct
      rw [Federation.validateSigners, if_neg (unseen signer List.mem_cons_self)]
      by_cases supported : network ∈ signer.supportedNetworks
      · rw [if_neg (not_not_intro supported)]
        apply ih distinct.2
        intro other member known
        cases List.mem_cons.mp known with
        | inl same => exact distinct.1 (same ▸ List.mem_map_of_mem member)
        | inr old => exact unseen other (List.mem_cons_of_mem _ member) old
      · rw [if_pos supported]
        exact .inr ⟨signer.id, rfl⟩

variable {miniscript : Miniscript} {order : HashOrder} {current add remove : List Uuid}
  {plan : RosterPlan} {m : UInt32} {accepted : NonZeroU32} {signers : List Signer}
  {network : NetworkType}

theorem new_with_one_signer (positive : m ≠ 0) (one : signers.length = 1) :
    Federation.new miniscript m signers network = .error (.error (.insufficientSigners 1)) := by
  have invalid : Federation.validateInputs m signers network =
      .error (.error (.insufficientSigners 1)) := by
    rw [Federation.validateInputs, if_neg positive, if_neg (by omega), if_pos (by omega), one]
  rw [Federation.new, Federation.withKeyMode, Federation.withConfig, invalid]
  rfl

theorem new_passes_counts (positive : m ≠ 0) (bounded : m.toNat ≤ signers.length)
    (several : 2 ≤ signers.length) (counted : signers.length < 2 ^ 32)
    (distinct : (signers.map Signer.id).Nodup) :
    PassesCounts (Federation.new miniscript m signers network) := by
  have inputs : Federation.validateInputs m signers network =
      Federation.validateSigners network [] signers := by
    rw [Federation.validateInputs, if_neg positive, if_neg (by omega), if_neg (by omega),
      if_neg (by omega)]
  rw [Federation.new, Federation.withKeyMode, Federation.withConfig, inputs]
  have checked : Federation.validateSigners network [] signers = .ok () ∨
      ∃ id, Federation.validateSigners network [] signers =
        .error (.error (.signerNetworkMismatch id network)) :=
    validate_distinct_signers distinct (by simp)
  cases checked with
  | inl valid =>
      rw [valid, ok_bind, Federation.buildDescriptor]
      cases network.isBitcoin with
      | false => simp [PassesCounts, pure, Except.pure]
      | true =>
          cases DescriptorBuilder.buildFrom miniscript m network .fixed .wsh .rawNums signers with
          | error cause => simp [PassesCounts, Outcome.ofResult, bind, Except.bind]
          | ok descriptor =>
              simp [PassesCounts, Outcome.ofResult, bind, Except.bind, pure, Except.pure]
  | inr mismatch =>
      obtain ⟨id, failed⟩ := mismatch
      rw [failed]
      simp [PassesCounts, bind, Except.bind]

theorem mem_next_members (planned : computeRosterPlan order current add remove = .ok plan)
    {user : Uuid} :
    user ∈ plan.nextMembers ↔ (user ∈ current ∧ user ∉ remove) ∨ user ∈ add := by
  obtain ⟨-, -, strangers, -, rfl⟩ := compute_roster_plan_eq_ok.mp planned
  rw [mem_next_roster, and_iff_left_of_imp (strangers user)]

theorem nodup_next_members (planned : computeRosterPlan order current add remove = .ok plan) :
    plan.nextMembers.Nodup := by
  obtain ⟨-, -, -, -, rfl⟩ := compute_roster_plan_eq_ok.mp planned
  exact nodup_next_roster

theorem one_next_member (planned : computeRosterPlan order current add remove = .ok plan) :
    plan.nextMembers.length = 1 ↔
      ∃! user, (user ∈ current ∧ user ∉ remove) ∨ user ∈ add := by
  simp only [← mem_next_members planned]
  constructor
  · intro single
    obtain ⟨user, members⟩ := List.length_eq_one_iff.mp single
    exact ⟨user, by simp [members], by simp [members]⟩
  · intro single
    obtain ⟨user, member, only⟩ := single
    have same : plan.nextMembers.Perm [user] := by
      rw [List.perm_ext_iff_of_nodup (nodup_next_members planned) (List.nodup_singleton user)]
      intro other
      rw [List.mem_singleton]
      exact ⟨only other, fun equal => equal ▸ member⟩
    exact same.length_eq

/-- A roster whose threshold passes leads to a federation, as far as the threshold
and the signers' ids go, unless it has one member. -/
theorem planned_roster_accepted
    (planned : computeRosterPlan order current add remove = .ok plan)
    (valid : validateThreshold m plan.nextMembers.length = .ok accepted)
    (each : signers.length = plan.nextMembers.length)
    (distinct : (signers.map Signer.id).Nodup) :
    Federation.new miniscript m signers network ≠ .error (.error .zeroThreshold) ∧
      (∀ threshold count, Federation.new miniscript m signers network ≠
        .error (.error (.thresholdExceedsSignerCount threshold count))) ∧
      (∀ id, Federation.new miniscript m signers network ≠
        .error (.error (.duplicateSigner id))) ∧
      ∀ count, Federation.new miniscript m signers network =
          .error (.error (.insufficientSigners count)) ↔
        count = 1 ∧ ∃! user, (user ∈ current ∧ user ∉ remove) ∨ user ∈ add := by
  obtain ⟨counted, bounded, same⟩ := validate_threshold_eq_ok.mp valid
  have positive : m ≠ 0 := fun zero => accepted.nonzero (same.trans zero)
  have someone : plan.nextMembers ≠ [] := by
    obtain ⟨-, -, -, nonempty, rfl⟩ := compute_roster_plan_eq_ok.mp planned
    exact nonempty
  rw [← one_next_member planned, ← each]
  rw [← each] at counted bounded
  by_cases one : signers.length = 1
  · simp [new_with_one_signer positive one, one, eq_comm]
  · have several : 2 ≤ signers.length := by
      have nonzero : plan.nextMembers.length ≠ 0 := by simpa using someone
      omega
    have passes : PassesCounts (Federation.new miniscript m signers network) :=
      new_passes_counts positive bounded several counted distinct
    obtain ⟨zero, insufficient, exceeds, duplicate⟩ := passes
    exact ⟨zero, exceeds, duplicate, fun count =>
      ⟨fun failed => absurd failed (insufficient count), fun single => absurd single.2 one⟩⟩

theorem two_of_three_accepted :
    Federation.new MockSigner.miniscript 2 [MockSigner.first, MockSigner.second]
        (.bitcoin .testnet) ≠ .error (.error .zeroThreshold) ∧
      (∀ threshold count, Federation.new MockSigner.miniscript 2
          [MockSigner.first, MockSigner.second] (.bitcoin .testnet) ≠
        .error (.error (.thresholdExceedsSignerCount threshold count))) ∧
      (∀ id, Federation.new MockSigner.miniscript 2 [MockSigner.first, MockSigner.second]
          (.bitcoin .testnet) ≠ .error (.error (.duplicateSigner id))) ∧
      ∀ count, Federation.new MockSigner.miniscript 2 [MockSigner.first, MockSigner.second]
          (.bitcoin .testnet) = .error (.error (.insufficientSigners count)) ↔
        count = 1 ∧ ∃! user, (user ∈ [1, 2, 3] ∧ user ∉ [2]) ∨ user ∈ ([] : List Uuid) := by
  have planned : computeRosterPlan .ascending [1, 2, 3] [] [2] =
      .ok ⟨[1, 3], [(1, .keep), (2, .remove), (3, .keep)]⟩ := by
    decide +kernel
  have valid : validateThreshold 2 2 = .ok ⟨2, by decide⟩ := by decide
  exact planned_roster_accepted planned valid rfl (by decide)

/-- The last member left passes the threshold check, and `Federation::new` wants a
second signer. -/
theorem one_member_roster_refused :
    ¬ ∀ (order : HashOrder) (current add remove : List Uuid) (plan : RosterPlan) (m : UInt32)
        (accepted : NonZeroU32) (signers : List Signer) (network : NetworkType),
      computeRosterPlan order current add remove = .ok plan →
      validateThreshold m plan.nextMembers.length = .ok accepted →
      signers.length = plan.nextMembers.length → (signers.map Signer.id).Nodup →
      PassesCounts (Federation.new MockSigner.miniscript m signers network) := by
  intro always
  have planned : computeRosterPlan .ascending [1, 2] [] [2] =
      .ok ⟨[1], [(1, .keep), (2, .remove)]⟩ := by
    decide +kernel
  have valid : validateThreshold 1 1 = .ok ⟨1, by decide⟩ := by decide
  have passes := always .ascending [1, 2] [] [2] _ 1 _ [MockSigner.first] (.bitcoin .testnet)
    planned valid rfl (List.nodup_singleton _)
  exact passes.2.1 1 (new_with_one_signer (by decide) rfl)

end Roster

end EmvaultCore
