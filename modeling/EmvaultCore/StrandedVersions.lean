import EmvaultCore.Roster

/-!
# Historic versions at risk

A roster change strands a historic version when fewer people than its threshold
remain of it. `historic_versions_at_risk` counts the entries of the version's
member list that name someone of the next roster, so an entry that repeats a
person counts again. The warning is complete where no version makes up with
repeated entries for the people it lacks, which holds of every member list that a
roster plan computed.
-/

namespace EmvaultCore.Roster

structure HistoricVersion where
  members : List Uuid
  threshold : UInt32
deriving DecidableEq, Repr

def historicVersionsAtRisk (historic : List HistoricVersion) (nextCurrent : List Uuid) :
    List Nat :=
  let active := nextCurrent.toFinset
  historic.zipIdx.filterMap fun (version, index) =>
    let overlap := (version.members.filter (· ∈ active)).length
    -- A `usize` holds every `u32`.
    let need := version.threshold.toNat
    if overlap < need then some index else none

/-! ### Who remains of a version -/

namespace HistoricVersion

def remaining (version : HistoricVersion) (next : List Uuid) : Finset Uuid :=
  version.members.toFinset ∩ next.toFinset

def Stranded (version : HistoricVersion) (next : List Uuid) : Prop :=
  (version.remaining next).card < version.threshold.toNat

def missing (version : HistoricVersion) (next : List Uuid) : Nat :=
  version.threshold.toNat - (version.remaining next).card

def repeated (version : HistoricVersion) (next : List Uuid) : Nat :=
  version.members.countP (· ∈ next.toFinset) - (version.remaining next).card

/-- Someone is missing, and repeated entries make up for everyone who is. -/
def Padded (version : HistoricVersion) (next : List Uuid) : Prop :=
  0 < version.missing next ∧ version.missing next ≤ version.repeated next

def SamePeople (version other : HistoricVersion) : Prop :=
  version.threshold = other.threshold ∧ version.members.toFinset = other.members.toFinset

variable {version other : HistoricVersion} {next larger : List Uuid}

theorem remaining_eq (version : HistoricVersion) (next : List Uuid) :
    version.remaining next = (version.members.filter (· ∈ next)).toFinset := by
  ext user
  simp [remaining]

theorem remaining_le_count (version : HistoricVersion) (next : List Uuid) :
    (version.remaining next).card ≤ version.members.countP (· ∈ next) := by
  rw [remaining_eq, List.countP_eq_length_filter]
  exact List.toFinset_card_le _

theorem count_eq (version : HistoricVersion) (next : List Uuid) :
    version.members.countP (· ∈ next) =
      (version.remaining next).card + version.repeated next := by
  have least : (version.remaining next).card ≤ version.members.countP (· ∈ next) :=
    version.remaining_le_count next
  simp only [repeated, List.mem_toFinset]
  omega

theorem stranded_iff_missing : version.Stranded next ↔ 0 < version.missing next := by
  rw [Stranded, missing]
  omega

/-- Too few entries are counted exactly for the stranded versions that are not padded. -/
theorem count_lt_iff :
    version.members.countP (· ∈ next) < version.threshold.toNat ↔
      version.Stranded next ∧ ¬ version.Padded next := by
  rw [count_eq, Padded, stranded_iff_missing, missing]
  omega

theorem padded_stranded (padded : version.Padded next) : version.Stranded next :=
  stranded_iff_missing.mpr padded.1

theorem distinct_unpadded (distinct : version.members.Nodup) : ¬ version.Padded next := by
  have once : (version.remaining next).card = version.members.countP (· ∈ next) := by
    rw [remaining_eq, List.countP_eq_length_filter]
    exact List.toFinset_card_of_nodup (distinct.filter _)
  intro padded
  obtain ⟨lacking, enough⟩ := padded
  simp only [repeated, List.mem_toFinset, once, Nat.sub_self] at enough
  omega

theorem stranded_congr (same : version.SamePeople other)
    (roster : next.toFinset = larger.toFinset) :
    version.Stranded next ↔ other.Stranded larger := by
  rw [Stranded, Stranded, remaining, remaining, same.1, same.2, roster]

end HistoricVersion

/-! ### The answer -/

section Answer

open HistoricVersion

variable {historic others : List HistoricVersion} {next larger otherNext : List Uuid}

def At (historic : List HistoricVersion) (property : HistoricVersion → Prop) (index : Nat) :
    Prop :=
  ∃ version, historic[index]? = some version ∧ property version

theorem mem_at_risk {index : Nat} :
    index ∈ historicVersionsAtRisk historic next ↔
      At historic (fun version => version.members.countP (· ∈ next) < version.threshold.toNat)
        index := by
  simp only [historicVersionsAtRisk, List.mem_filterMap, Prod.exists, List.mem_toFinset,
    ← List.countP_eq_length_filter, List.mk_mem_zipIdx_iff_getElem?, At]
  constructor
  · intro listed
    obtain ⟨version, place, found, kept⟩ := listed
    split at kept
    · rename_i few
      cases kept
      exact ⟨version, found, few⟩
    · cases kept
  · intro short
    obtain ⟨version, found, few⟩ := short
    exact ⟨version, index, found, if_pos few⟩

theorem mem_at_risk_iff {index : Nat} :
    index ∈ historicVersionsAtRisk historic next ↔
      At historic (·.Stranded next) index ∧ ¬ At historic (·.Padded next) index := by
  rw [mem_at_risk]
  constructor
  · intro short
    obtain ⟨version, found, few⟩ := short
    obtain ⟨stranded, unpadded⟩ := count_lt_iff.mp few
    refine ⟨⟨version, found, stranded⟩, ?_⟩
    intro covered
    obtain ⟨same, place, padded⟩ := covered
    rw [found, Option.some.injEq] at place
    exact unpadded (place ▸ padded)
  · intro warned
    obtain ⟨⟨version, found, stranded⟩, uncovered⟩ := warned
    exact ⟨version, found, count_lt_iff.mpr
      ⟨stranded, fun padded => uncovered ⟨version, found, padded⟩⟩⟩

theorem at_risk_increasing (historic : List HistoricVersion) (next : List Uuid) :
    (historicVersionsAtRisk historic next).SortedLT := by
  have places : historicVersionsAtRisk historic next =
      (historic.zipIdx.filter fun entry =>
        (entry.1.members.filter (· ∈ next.toFinset)).length < entry.1.threshold.toNat).map
          Prod.snd := by
    rw [historicVersionsAtRisk, ← List.filterMap_eq_map, List.filterMap_filter]
    congr 1
    funext entry
    simp
  have within : (historicVersionsAtRisk historic next).Sublist
      (List.range' 0 historic.length) := by
    rw [places, ← List.zipIdx_map_snd 0 historic]
    exact List.filter_sublist.map Prod.snd
  exact (List.Pairwise.sublist within List.pairwise_lt_range').sortedLT

theorem at_congr {index : Nat} {property otherProperty : HistoricVersion → Prop}
    (same : List.Forall₂ SamePeople historic others)
    (alike : ∀ version other, SamePeople version other →
      (property version ↔ otherProperty other)) :
    At historic property index ↔ At others otherProperty index := by
  induction same generalizing index with
  | nil => simp [At]
  | cons first rest ih =>
      cases index with
      | zero => simpa [At] using alike _ _ first
      | succ index => simpa [At] using ih

structure WarnsExactly (historic : List HistoricVersion) (next : List Uuid) : Prop where
  increasing : (historicVersionsAtRisk historic next).Pairwise (· < ·)
  stranded : ∀ index, index ∈ historicVersionsAtRisk historic next ↔
    ∃ version, historic[index]? = some version ∧
      (version.members.toFinset ∩ next.toFinset).card < version.threshold.toNat

/-- What the warning promises, also of a larger roster and of lists of the same
people in another order or with other repetitions. -/
structure WarnsOfStranded (historic others : List HistoricVersion)
    (next otherNext larger : List Uuid) : Prop extends WarnsExactly historic next where
  enlarged : next ⊆ larger →
    historicVersionsAtRisk historic larger ⊆ historicVersionsAtRisk historic next
  unordered : List.Forall₂ SamePeople historic others → next.toFinset = otherNext.toFinset →
    historicVersionsAtRisk historic next = historicVersionsAtRisk others otherNext

theorem warns_exactly_iff :
    WarnsExactly historic next ↔ ∀ version ∈ historic, ¬ version.Padded next := by
  constructor
  · intro exactly version member padded
    obtain ⟨index, found⟩ := List.mem_iff_getElem?.mp member
    have listed := (exactly.stranded index).mpr ⟨version, found, padded_stranded padded⟩
    exact (mem_at_risk_iff.mp listed).2 ⟨version, found, padded⟩
  · intro unpadded
    constructor
    · exact (at_risk_increasing historic next).pairwise
    · intro index
      rw [mem_at_risk_iff]
      apply and_iff_left
      intro covered
      obtain ⟨version, found, padded⟩ := covered
      exact unpadded version (List.mem_of_getElem? found) padded

theorem at_risk_anti (enlarged : next ⊆ larger) :
    historicVersionsAtRisk historic larger ⊆ historicVersionsAtRisk historic next := by
  intro index listed
  obtain ⟨version, found, few⟩ := mem_at_risk.mp listed
  refine mem_at_risk.mpr ⟨version, found, lt_of_le_of_lt ?_ few⟩
  apply List.countP_mono_left
  intro user _ present
  rw [decide_eq_true_eq] at present ⊢
  exact enlarged present

/-- Histories and rosters of the same people are answered alike exactly when they
are padded at the same places. -/
theorem at_risk_congr (same : List.Forall₂ SamePeople historic others)
    (roster : next.toFinset = otherNext.toFinset) :
    historicVersionsAtRisk historic next = historicVersionsAtRisk others otherNext ↔
      ∀ index, At historic (·.Padded next) index ↔ At others (·.Padded otherNext) index := by
  have stranded : ∀ index, At historic (·.Stranded next) index ↔
      At others (·.Stranded otherNext) index := fun index =>
    at_congr same fun version other people => stranded_congr people roster
  have covers : ∀ {history : List HistoricVersion} {roster : List Uuid} {index : Nat},
      At history (·.Padded roster) index → At history (·.Stranded roster) index := by
    intro history roster index covered
    obtain ⟨version, found, padded⟩ := covered
    exact ⟨version, found, padded_stranded padded⟩
  constructor
  · intro equal index
    have listed : At historic (·.Stranded next) index ∧ ¬ At historic (·.Padded next) index ↔
        At others (·.Stranded otherNext) index ∧ ¬ At others (·.Padded otherNext) index := by
      rw [← mem_at_risk_iff, ← mem_at_risk_iff, equal]
    constructor
    · intro covered
      by_contra uncovered
      exact (listed.mpr ⟨(stranded index).mp (covers covered), uncovered⟩).2 covered
    · intro covered
      by_contra uncovered
      exact (listed.mp ⟨(stranded index).mpr (covers covered), uncovered⟩).2 covered
  · intro places
    apply (at_risk_increasing historic next).eq_of_mem_iff (at_risk_increasing others otherNext)
    intro index
    rw [mem_at_risk_iff, mem_at_risk_iff, stranded, places]

/-- The warning keeps its promises exactly for the histories that are not padded. -/
theorem warns_of_stranded_iff :
    WarnsOfStranded historic others next otherNext larger ↔
      (∀ version ∈ historic, ¬ version.Padded next) ∧
        (List.Forall₂ SamePeople historic others → next.toFinset = otherNext.toFinset →
          ∀ version ∈ others, ¬ version.Padded otherNext) := by
  constructor
  · intro warns
    have unpadded := warns_exactly_iff.mp warns.toWarnsExactly
    refine ⟨unpadded, ?_⟩
    intro same roster version member padded
    obtain ⟨index, found⟩ := List.mem_iff_getElem?.mp member
    have places := (at_risk_congr same roster).mp (warns.unordered same roster) index
    obtain ⟨covered, place, pads⟩ := places.mpr ⟨version, found, padded⟩
    exact unpadded covered (List.mem_of_getElem? place) pads
  · intro unpadded
    refine ⟨warns_exactly_iff.mpr unpadded.1, at_risk_anti, ?_⟩
    intro same roster
    apply (at_risk_congr same roster).mpr
    intro index
    constructor
    · intro covered
      obtain ⟨version, found, padded⟩ := covered
      exact absurd padded (unpadded.1 version (List.mem_of_getElem? found))
    · intro covered
      obtain ⟨version, found, padded⟩ := covered
      exact absurd padded (unpadded.2 same roster version (List.mem_of_getElem? found))

/-- A version of threshold two that names its one remaining member twice is not
warned about. -/
theorem repeated_member_unwarned :
    ¬ ∀ (historic others : List HistoricVersion) (next otherNext larger : List Uuid),
      WarnsOfStranded historic others next otherNext larger := by
  intro always
  have silent : historicVersionsAtRisk [⟨[1, 1], 2⟩] [1] = [] := by decide
  have warned : 0 ∈ historicVersionsAtRisk [⟨[1, 1], 2⟩] [1] :=
    ((always [⟨[1, 1], 2⟩] [] [1] [] []).stranded 0).mpr ⟨⟨[1, 1], 2⟩, rfl, by decide⟩
  rw [silent] at warned
  exact absurd warned List.not_mem_nil

/-- Of versions whose members a roster plan computed, every stranded one is warned
about, whatever the next roster is. -/
theorem planned_history_warns_exactly
    (planned : ∀ version ∈ historic, ∃ (order : HashOrder) (current add remove : List Uuid)
      (plan : RosterPlan), computeRosterPlan order current add remove = .ok plan ∧
        version.members = plan.nextMembers) :
    WarnsExactly historic next := by
  apply warns_exactly_iff.mpr
  intro version member
  obtain ⟨order, current, add, remove, plan, computed, members⟩ := planned version member
  apply distinct_unpadded
  rw [members]
  exact nodup_next_members computed

end Answer

end EmvaultCore.Roster
