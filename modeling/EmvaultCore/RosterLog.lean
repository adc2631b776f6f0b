import EmvaultCore.Library.Runs
import EmvaultCore.RosterSpecification
import EmvaultCore.StrandedVersions

/-!
# The rows of roster migrations

The consumer persists a row for each affected member of a migration, its action as
a string. The rows of a migration name the rosters before and after it, so what is
persisted accounts for every roster that was ever in effect, and a version is newly
at risk only where a row removes one of its members.
-/

namespace EmvaultCore.Roster

open Library.Runs

abbrev Row := Uuid × String

def RosterAction.asStr : RosterAction → String
  | .keep => "keep"
  | .add => "add"
  | .remove => "remove"

def RosterPlan.rows (plan : RosterPlan) : List Row :=
  plan.changes.map fun change => (change.1, change.2.asStr)

/-- What the consumer keeps: the current roster and the rows of each migration. -/
structure Ledger where
  roster : List Uuid
  log : List (List Row)

structure Delta where
  order : HashOrder
  add : List Uuid
  remove : List Uuid

/-- A refused delta changes nothing. -/
def Ledger.migrate (ledger : Ledger) (delta : Delta) : Ledger :=
  match computeRosterPlan delta.order ledger.roster delta.add delta.remove with
  | .error _ => ledger
  | .ok plan => { roster := plan.nextMembers, log := ledger.log ++ [plan.rows] }

/-! ### Reading rows back -/

def membersBefore (rows : List Row) : List Uuid := (rows.filter (·.2 ≠ "add")).map Prod.fst

def membersAfter (rows : List Row) : List Uuid := (rows.filter (·.2 ≠ "remove")).map Prod.fst

/-- Only the rows that add or remove someone matter to a roster. -/
def replay (roster : List Uuid) (rows : List Row) : List Uuid :=
  roster.filter (fun user => (user, "remove") ∉ rows) ++
    (rows.filter (·.2 = "add")).map Prod.fst

structure Migrates (before : List Uuid) (rows : List Row) (after : List Uuid) : Prop where
  leads : membersAfter rows = after
  comes : membersBefore rows = before
  once : (rows.map Prod.fst).Nodup
  replayed : replay before rows = after

inductive Recorded : List Uuid → List (List Row) → List Uuid → Prop where
  | nothing (roster : List Uuid) : Recorded roster [] roster
  | migration {start middle roster : List Uuid} {rows : List Row} {log : List (List Row)}
      (first : Migrates start rows middle) (rest : Recorded middle log roster) :
      Recorded start (rows :: log) roster

variable {order : HashOrder} {current add remove before after middle start roster : List Uuid}
  {plan : RosterPlan} {rows : List Row} {log later : List (List Row)} {user : Uuid}

theorem erase_dups_distinct {users : List Uuid} (distinct : users.Nodup) :
    users.eraseDups = users := by
  induction users with
  | nil => rfl
  | cons user users ih =>
      rw [List.nodup_cons] at distinct
      have others : ∀ other ∈ users, (!other == user) = true := by
        intro other member
        simpa using fun same : other = user => distinct.1 (same ▸ member)
      rw [List.eraseDups_cons, List.filter_eq_self.mpr others, ih distinct.2]

theorem as_str_eq_remove {action : RosterAction} : action.asStr = "remove" ↔ action = .remove := by
  cases action <;> decide

theorem rows_eq (planned : computeRosterPlan order current add remove = .ok plan) :
    plan.rows =
      current.eraseDups.map (fun user => (user, if user ∈ remove then "remove" else "keep")) ++
        add.eraseDups.map fun user => (user, "add") := by
  rw [RosterPlan.rows, (plan_lists_once planned).changes, List.map_append, List.map_map,
    List.map_map]
  congr 1
  apply List.map_congr_left
  intro user _
  by_cases leaves : user ∈ remove <;> simp [leaves, RosterAction.asStr]

theorem plan_migrates (planned : computeRosterPlan order current add remove = .ok plan) :
    Migrates current.eraseDups plan.rows plan.nextMembers := by
  have lists := plan_lists_once planned
  have named : plan.rows.map Prod.fst = plan.changes.map Prod.fst := by
    simp [RosterPlan.rows]
  have members : plan.nextMembers =
      current.eraseDups.filter (· ∉ remove) ++ add.eraseDups := by
    obtain ⟨-, -, strangers, -, rfl⟩ := compute_roster_plan_eq_ok.mp planned
    rw [nextRoster, fresh_start, fresh_strangers strangers]
  have leavers : ∀ user ∈ current, (user, "remove") ∈ plan.rows ↔ user ∈ remove := by
    intro user member
    rw [rows_eq planned]
    by_cases leaves : user ∈ remove <;> simp [leaves, member]
  constructor
  · rw [lists.nextMembers, membersAfter, RosterPlan.rows, List.filter_map, List.map_map]
    simp only [Function.comp_def, ne_eq, as_str_eq_remove]
  · rw [membersBefore, rows_eq planned, List.filter_append, List.map_append]
    have kept : ∀ row ∈ current.eraseDups.map
        (fun user => (user, if user ∈ remove then "remove" else "keep")),
        decide (row.2 ≠ "add") = true := by
      intro row member
      obtain ⟨user, -, rfl⟩ := List.mem_map.mp member
      by_cases leaves : user ∈ remove <;> simp [leaves]
    rw [List.filter_eq_self.mpr kept]
    simp [Function.comp_def]
  · exact named ▸ lists.once
  · rw [replay, members]
    congr 1
    · apply List.filter_congr
      intro user member
      rw [decide_eq_decide, leavers user (List.mem_eraseDups.mp member)]
    · rw [rows_eq planned, List.filter_append, List.map_append]
      have joiners : ∀ row ∈ current.eraseDups.map
          (fun user => (user, if user ∈ remove then "remove" else "keep")),
          ¬ decide (row.2 = "add") = true := by
        intro row member
        obtain ⟨user, -, rfl⟩ := List.mem_map.mp member
        by_cases leaves : user ∈ remove <;> simp [leaves]
      rw [List.filter_eq_nil_iff.mpr joiners, List.filter_map, List.map_map]
      simp [Function.comp_def]

/-! ### The account of a user -/

def times (user : Uuid) (action : String) (log : List (List Row)) : Nat :=
  (log.map (List.count (user, action))).sum

def presence (user : Uuid) (roster : List Uuid) : Nat := (roster.contains user).toNat

theorem presence_eq (user : Uuid) (roster : List Uuid) :
    presence user roster = if user ∈ roster then 1 else 0 := by
  by_cases member : user ∈ roster <;> simp [presence, member]

theorem migrates_balance (migrates : Migrates before rows after) (user : Uuid) :
    rows.count (user, "add") + presence user before =
      rows.count (user, "remove") + presence user after := by
  have distinct : rows.Nodup := migrates.once.of_map
  have inBefore : user ∈ before ↔ ∃ action, (user, action) ∈ rows ∧ action ≠ "add" := by
    rw [← migrates.comes, membersBefore]
    simp
  have inAfter : user ∈ after ↔ ∃ action, (user, action) ∈ rows ∧ action ≠ "remove" := by
    rw [← migrates.leads, membersAfter]
    simp
  by_cases listed : ∃ action, (user, action) ∈ rows
  · obtain ⟨action, member⟩ := listed
    have only : ∀ other, (user, other) ∈ rows ↔ other = action := by
      intro other
      constructor
      · intro again
        have same := List.inj_on_of_nodup_map migrates.once again member rfl
        exact congrArg Prod.snd same
      · intro same
        exact same ▸ member
    simp only [only, exists_eq_left] at inBefore inAfter
    simp only [presence_eq, inBefore, inAfter, distinct.count, only]
    by_cases added : action = "add"
    · simp [added]
    · by_cases removed : action = "remove"
      · simp [removed]
      · simp [added, removed, eq_comm]
  · have absent : ∀ action, (user, action) ∉ rows := not_exists.mp listed
    simp only [absent, false_and, exists_false] at inBefore inAfter
    simp [presence_eq, inBefore, inAfter, List.count_eq_zero_of_not_mem, absent]

theorem recorded_balance (recorded : Recorded start log roster) (user : Uuid) :
    times user "add" log + presence user start =
      times user "remove" log + presence user roster := by
  induction recorded with
  | nothing roster => rfl
  | migration first rest ih =>
      have step := migrates_balance first user
      simp only [times, List.map_cons, List.sum_cons] at ih ⊢
      omega

theorem recorded_replays (recorded : Recorded start log roster) :
    log.foldl replay start = roster := by
  induction recorded with
  | nothing roster => rfl
  | migration first rest ih => rw [List.foldl_cons, first.replayed, ih]

theorem recorded_append (first : Recorded start log middle)
    (second : Recorded middle later roster) :
    Recorded start (log ++ later) roster := by
  induction first with
  | nothing roster => exact second
  | migration migrates rest ih => exact .migration migrates (ih second)

def Grew (ledger later : Ledger) : Prop :=
  ∃ log, later.log = ledger.log ++ log ∧
    Recorded ledger.roster.eraseDups log later.roster.eraseDups

theorem grew_refl (ledger : Ledger) : Grew ledger ledger :=
  ⟨[], (List.append_nil _).symm, .nothing _⟩

theorem grew_trans {first second third : Ledger} (early : Grew first second)
    (late : Grew second third) : Grew first third := by
  obtain ⟨log, logged, recorded⟩ := early
  obtain ⟨more, loggedMore, recordedMore⟩ := late
  refine ⟨log ++ more, ?_, recorded_append recorded recordedMore⟩
  rw [loggedMore, logged, List.append_assoc]

theorem grew_migrate (ledger : Ledger) (delta : Delta) : Grew ledger (ledger.migrate delta) := by
  unfold Ledger.migrate
  cases planned : computeRosterPlan delta.order ledger.roster delta.add delta.remove with
  | error cause => exact grew_refl ledger
  | ok plan =>
      refine ⟨[plan.rows], rfl, ?_⟩
      have once : plan.nextMembers.eraseDups = plan.nextMembers :=
        erase_dups_distinct (nodup_next_members planned)
      simp only [once]
      exact .migration (plan_migrates planned) (.nothing _)

/-- What a stretch of a run adds to the log accounts for what it does to the
roster: the rows of each migration name the rosters around it, replaying the rows
gives the later roster, and nobody is added or removed twice in a row. -/
theorem log_accounts_for_rosters (start : Ledger) (deltas : List Delta) (moment further : Nat) :
    ∃ log, (stateAt Ledger.migrate start deltas (moment + further)).log =
        (stateAt Ledger.migrate start deltas moment).log ++ log ∧
      Recorded (stateAt Ledger.migrate start deltas moment).roster.eraseDups log
        (stateAt Ledger.migrate start deltas (moment + further)).roster.eraseDups ∧
      log.foldl replay (stateAt Ledger.migrate start deltas moment).roster.eraseDups =
        (stateAt Ledger.migrate start deltas (moment + further)).roster.eraseDups ∧
      ∀ user, times user "add" log +
          presence user (stateAt Ledger.migrate start deltas moment).roster =
        times user "remove" log +
          presence user (stateAt Ledger.migrate start deltas (moment + further)).roster := by
  obtain ⟨log, logged, recorded⟩ : Grew (stateAt Ledger.migrate start deltas moment)
      (stateAt Ledger.migrate start deltas (moment + further)) :=
    state_at_related grew_refl grew_trans grew_migrate start deltas (Nat.le_add_right _ _)
  refine ⟨log, logged, recorded, recorded_replays recorded, ?_⟩
  intro user
  have balance := recorded_balance recorded user
  simpa only [presence_eq, List.mem_eraseDups] using balance

/-! ### Who puts a version at risk -/

theorem member_of_more {members : List Uuid}
    (more : members.countP (· ∈ after) < members.countP (· ∈ before)) :
    ∃ user ∈ members, user ∈ before ∧ user ∉ after := by
  by_contra none
  push Not at none
  apply absurd more
  rw [Nat.not_lt]
  apply List.countP_mono_left
  intro user member present
  rw [decide_eq_true_eq] at present ⊢
  exact none user member present

theorem row_of_change (recorded : Recorded start log roster) (user : Uuid) :
    (user ∈ start → user ∉ roster → ∃ rows ∈ log, (user, "remove") ∈ rows) ∧
      (user ∉ start → user ∈ roster → ∃ rows ∈ log, (user, "add") ∈ rows) := by
  have listed : ∀ action, 0 < times user action log → ∃ rows ∈ log, (user, action) ∈ rows := by
    intro action positive
    by_contra none
    push Not at none
    have zero : times user action log = 0 := by
      rw [times, List.sum_eq_zero]
      intro count member
      obtain ⟨rows, among, rfl⟩ := List.mem_map.mp member
      exact List.count_eq_zero_of_not_mem (none rows among)
    omega
  have balance := recorded_balance recorded user
  constructor
  · intro was gone
    simp only [presence_eq, was, gone, if_true, if_false] at balance
    exact listed "remove" (by omega)
  · intro wasNot joined
    simp only [presence_eq, wasNot, joined, if_true, if_false] at balance
    exact listed "add" (by omega)

/-- A version is newly at risk only if its members lost someone whom a row of the
migrations since then removes, and it is out of risk again only if they gained
someone whom a row adds. -/
theorem risk_changes_are_logged (start : Ledger) (deltas : List Delta) (moment further : Nat)
    {historic : List HistoricVersion} {index : Nat} {version : HistoricVersion}
    (found : historic[index]? = some version)
    (changed : ¬ (index ∈ historicVersionsAtRisk historic
        (stateAt Ledger.migrate start deltas moment).roster ↔
      index ∈ historicVersionsAtRisk historic
        (stateAt Ledger.migrate start deltas (moment + further)).roster)) :
    ∃ log, (stateAt Ledger.migrate start deltas (moment + further)).log =
        (stateAt Ledger.migrate start deltas moment).log ++ log ∧
      ∃ user ∈ version.members,
        (index ∈ historicVersionsAtRisk historic
            (stateAt Ledger.migrate start deltas (moment + further)).roster ∧
          user ∉ (stateAt Ledger.migrate start deltas (moment + further)).roster ∧
          ∃ rows ∈ log, (user, "remove") ∈ rows) ∨
        (index ∈ historicVersionsAtRisk historic
            (stateAt Ledger.migrate start deltas moment).roster ∧
          user ∈ (stateAt Ledger.migrate start deltas (moment + further)).roster ∧
          ∃ rows ∈ log, (user, "add") ∈ rows) := by
  obtain ⟨log, logged, recorded⟩ : Grew (stateAt Ledger.migrate start deltas moment)
      (stateAt Ledger.migrate start deltas (moment + further)) :=
    state_at_related grew_refl grew_trans grew_migrate start deltas (Nat.le_add_right _ _)
  refine ⟨log, logged, ?_⟩
  have few : ∀ roster, index ∈ historicVersionsAtRisk historic roster ↔
      version.members.countP (· ∈ roster) < version.threshold.toNat := by
    intro roster
    rw [mem_at_risk, At, found]
    simp
  have rowOf := row_of_change recorded
  simp only [List.mem_eraseDups] at rowOf
  by_cases risky : index ∈ historicVersionsAtRisk historic
      (stateAt Ledger.migrate start deltas moment).roster
  · have safe : index ∉ historicVersionsAtRisk historic
        (stateAt Ledger.migrate start deltas (moment + further)).roster :=
      fun still => changed (iff_of_true risky still)
    have short := (few _).mp risky
    rw [few, Nat.not_lt] at safe
    obtain ⟨user, member, joined, wasNot⟩ := member_of_more (Nat.lt_of_lt_of_le short safe)
    exact ⟨user, member, .inr ⟨risky, joined, (rowOf user).2 wasNot joined⟩⟩
  · have newly : index ∈ historicVersionsAtRisk historic
        (stateAt Ledger.migrate start deltas (moment + further)).roster := by
      by_contra safe
      exact changed (iff_of_false risky safe)
    have short := (few _).mp newly
    have enough := risky
    rw [few, Nat.not_lt] at enough
    obtain ⟨user, member, was, gone⟩ := member_of_more (Nat.lt_of_lt_of_le short enough)
    exact ⟨user, member, .inl ⟨newly, gone, (rowOf user).1 was gone⟩⟩

/-- One of three members is replaced, nobody is added twice, and another leaves. -/
def mockLedger (moment : Nat) : Ledger :=
  stateAt Ledger.migrate ⟨[1, 2, 3], []⟩
    [⟨.ascending, [4], [2]⟩, ⟨.ascending, [4], []⟩, ⟨.ascending, [], [3]⟩] moment

def twoOfThree : HistoricVersion := ⟨[1, 2, 3], 2⟩

theorem third_member_leaves_risk :
    ∃ log, (mockLedger 3).log = (mockLedger 1).log ++ log ∧
      ∃ user ∈ twoOfThree.members,
        (0 ∈ historicVersionsAtRisk [twoOfThree] (mockLedger 3).roster ∧
          user ∉ (mockLedger 3).roster ∧ ∃ rows ∈ log, (user, "remove") ∈ rows) ∨
        (0 ∈ historicVersionsAtRisk [twoOfThree] (mockLedger 1).roster ∧
          user ∈ (mockLedger 3).roster ∧ ∃ rows ∈ log, (user, "add") ∈ rows) :=
  have changed : ¬ (0 ∈ historicVersionsAtRisk [twoOfThree] (mockLedger 1).roster ↔
      0 ∈ historicVersionsAtRisk [twoOfThree] (mockLedger 3).roster) := by decide +kernel
  risk_changes_are_logged _ _ 1 2 rfl changed

end EmvaultCore.Roster
