import EmvaultCore.DescriptorHistory
import EmvaultCore.FederatedWallet
import Mathlib.Data.Finset.Dedup

/-!
# Members through the versions of a federation

The stack answers who signs now and in which versions someone signed. The answers
agree with each other at every moment, and what was answered about older versions
stays true. Where each version is a mutation of the one before, someone can leave
the newest version only in a mutation that names them.
-/

namespace EmvaultCore

namespace BtcFederatedWallet

open Library.Runs

variable {Wallet : Type}

section Lookups

variable (stack : BtcFederatedWallet Wallet)

/-- The panic of a stack without a version. -/
def current {Error : Type} : Outcome Error (FederationWallet Wallet) :=
  match stack.federationWallets.getLast? with
  | none => .error (.panic "BtcFederatedWallet always has at least one federation")
  | some newest => .ok newest

/-- `at`, which is a keyword here. -/
def versionAt (index : Nat) : Option (FederationWallet Wallet) := stack.federationWallets[index]?

def threshold {Error : Type} : Outcome Error UInt32 := do
  let newest ← stack.current
  return newest.federation.threshold

def findBySigner (id : SignerId) : List (FederationWallet Wallet) :=
  stack.federationWallets.filter fun entry => entry.federation.contains id

def signerIsCurrent {Error : Type} (id : SignerId) : Outcome Error Bool := do
  let newest ← stack.current
  return newest.federation.contains id

def allSignerIds : Finset SignerId :=
  (stack.federationWallets.flatMap fun entry => entry.federation.signers.map Signer.id).toFinset

def currentSignerIds {Error : Type} : Outcome Error (Finset SignerId) := do
  let newest ← stack.current
  return (newest.federation.signers.map Signer.id).toFinset

def walletAt (index : Nat) : Option Wallet :=
  (stack.federationWallets[index]?).map FederationWallet.wallet

def wallets : List Wallet := stack.federationWallets.map FederationWallet.wallet

end Lookups

def signsAt (stack : BtcFederatedWallet Wallet) (id : SignerId) (index : Nat) : Bool :=
  (stack.versionAt index).any fun entry => entry.federation.contains id

/-- What the stack answers about a signer, in terms of the versions' positions. -/
structure Remembers (stack : BtcFederatedWallet Wallet) (id : SignerId) : Prop where
  found : (stack.findBySigner id).map FederationWallet.index =
    (List.range stack.federationCount).filter (stack.signsAt id)
  listed : ∀ entry ∈ stack.findBySigner id, stack.versionAt entry.index = some entry ∧
    stack.walletAt entry.index = some entry.wallet
  ever : id ∈ stack.allSignerIds ↔ ∃ index, stack.signsAt id index = true
  now : (stack.signerIsCurrent id : Outcome Empty Bool) =
    .ok (stack.signsAt id (stack.federationCount - 1))
  ids : ∃ ids, (stack.currentSignerIds : Outcome Empty (Finset SignerId)) = .ok ids ∧
    (id ∈ ids ↔ stack.signsAt id (stack.federationCount - 1) = true)

variable {stack start next : BtcFederatedWallet Wallet} {id : SignerId}

theorem Stacked.current_eq (stacked : Stacked stack) (Error : Type) :
    ∃ newest, (stack.current : Outcome Error _) = .ok newest ∧
      stack.versionAt (stack.federationCount - 1) = some newest := by
  cases last : stack.federationWallets.getLast? with
  | none => exact absurd (List.getLast?_eq_none_iff.mp last) stacked.nonempty
  | some newest =>
      refine ⟨newest, ?_, ?_⟩
      · rw [current, last]
      · rw [← last, List.getLast?_eq_getElem?]
        rfl

theorem signs_at_eq {index : Nat} {entry : FederationWallet Wallet}
    (given : stack.versionAt index = some entry) :
    stack.signsAt id index = entry.federation.contains id := by
  rw [signsAt, given, Option.any_some]

theorem signs_at_iff {index : Nat} :
    stack.signsAt id index = true ↔
      ∃ entry, stack.versionAt index = some entry ∧ entry.federation.contains id = true := by
  rw [signsAt, Option.any_eq_true]

theorem mem_all_signer_ids :
    id ∈ stack.allSignerIds ↔ ∃ index, stack.signsAt id index = true := by
  rw [allSignerIds, List.mem_toFinset, List.mem_flatMap]
  constructor
  · intro listed
    obtain ⟨entry, member, among⟩ := listed
    obtain ⟨signer, held, same⟩ := List.mem_map.mp among
    obtain ⟨index, given⟩ := List.mem_iff_getElem?.mp member
    exact ⟨index, signs_at_iff.mpr ⟨entry, given, Federation.contains_iff.mpr ⟨signer, held, same⟩⟩⟩
  · intro signed
    obtain ⟨index, held⟩ := signed
    obtain ⟨entry, given, contained⟩ := signs_at_iff.mp held
    obtain ⟨signer, member, same⟩ := Federation.contains_iff.mp contained
    exact ⟨entry, List.mem_of_getElem? given, List.mem_map.mpr ⟨signer, member, same⟩⟩

theorem Stacked.found_indices (stacked : Stacked stack) (id : SignerId) :
    (stack.findBySigner id).map FederationWallet.index =
      (List.range stack.federationCount).filter (stack.signsAt id) := by
  rw [← stacked.indices, List.filter_map, findBySigner]
  congr 1
  apply List.filter_congr
  intro entry member
  exact (signs_at_eq (stacked.get_index member)).symm

theorem Stacked.remembers (stacked : Stacked stack) (id : SignerId) : stack.Remembers id := by
  obtain ⟨newest, answered, last⟩ := stacked.current_eq Empty
  have signs : stack.signsAt id (stack.federationCount - 1) = newest.federation.contains id :=
    signs_at_eq last
  constructor
  · exact stacked.found_indices id
  · intro entry found
    have member := (List.mem_filter.mp found).1
    have given := stacked.get_index member
    exact ⟨given, by rw [walletAt, given, Option.map_some]⟩
  · exact mem_all_signer_ids
  · rw [signs, signerIsCurrent, answered]
    rfl
  · refine ⟨_, by rw [currentSignerIds, answered]; rfl, ?_⟩
    rw [signs, Federation.contains_iff, List.mem_toFinset, List.mem_map]

def Within (earlier later : BtcFederatedWallet Wallet) : Prop :=
  earlier.federationWallets <+: later.federationWallets

theorem within_pushed {federation : Federation} {wallet : Wallet}
    (pushed : stack.withFederation federation wallet = .ok next) :
    Within stack next ∧ next.federationCount = stack.federationCount + 1 ∧
      next.versionAt stack.federationCount =
        some ⟨federation, wallet, stack.federationCount⟩ := by
  obtain ⟨-, -, rfl⟩ := with_federation_eq_ok.mp pushed
  refine ⟨List.prefix_append _ _, List.length_append, ?_⟩
  rw [versionAt, federationCount, List.getElem?_concat_length]

theorem within_attempt (stack : BtcFederatedWallet Wallet) (call : Federation × Wallet) :
    Within stack (stack.attempt call) := by
  unfold attempt
  cases added : stack.withFederation call.1 call.2 with
  | error cause => exact List.prefix_refl _
  | ok next => exact (within_pushed added).1

theorem within_later (start : BtcFederatedWallet Wallet) (calls : List (Federation × Wallet))
    {moment later : Nat} (before : moment ≤ later) :
    Within (stateAt attempt start calls moment) (stateAt attempt start calls later) :=
  have refl (stack : BtcFederatedWallet Wallet) : Within stack stack := List.prefix_refl _
  have trans {first middle last : BtcFederatedWallet Wallet} (older : Within first middle)
      (newer : Within middle last) : Within first last := older.trans newer
  state_at_related refl trans within_attempt start calls before

theorem Within.version_at_eq {earlier later : BtcFederatedWallet Wallet}
    (within : Within earlier later) {index : Nat} (inside : index < earlier.federationCount) :
    later.versionAt index = earlier.versionAt index := by
  obtain ⟨newer, appended⟩ := within
  rw [versionAt, ← appended, List.getElem?_append_left inside]
  rfl

theorem version_at_inside {index : Nat} {entry : FederationWallet Wallet}
    (given : stack.versionAt index = some entry) : index < stack.federationCount :=
  (List.getElem?_eq_some_iff.mp given).1

/-- At every moment of a run of `with_federation` calls the answers agree, and
later calls only add versions to them. -/
theorem versions_remember_signers {federation : Federation} {wallet : Wallet}
    (created : new federation wallet = .ok start) (calls : List (Federation × Wallet))
    {moment later : Nat} (before : moment ≤ later) (id : SignerId) :
    Remembers (stateAt attempt start calls moment) id ∧
      (stateAt attempt start calls moment).findBySigner id <+:
        (stateAt attempt start calls later).findBySigner id ∧
      (∀ entry ∈ (stateAt attempt start calls later).findBySigner id,
        entry.index < (stateAt attempt start calls moment).federationCount →
          entry ∈ (stateAt attempt start calls moment).findBySigner id) ∧
      (stateAt attempt start calls moment).allSignerIds ⊆
        (stateAt attempt start calls later).allSignerIds := by
  have within := within_later start calls before
  have stacked := stacked_at created calls later
  refine ⟨(stacked_at created calls moment).remembers id, within.filter _, ?_, ?_⟩
  · intro entry found below
    obtain ⟨member, held⟩ := List.mem_filter.mp found
    have given := stacked.get_index member
    have given : versionAt _ entry.index = some entry := given
    rw [within.version_at_eq below] at given
    exact List.mem_filter.mpr ⟨List.mem_of_getElem? given, held⟩
  · intro other held
    rw [mem_all_signer_ids] at held ⊢
    obtain ⟨index, signed⟩ := held
    obtain ⟨entry, given, contained⟩ := signs_at_iff.mp signed
    rw [← within.version_at_eq (version_at_inside given)] at given
    exact ⟨index, signs_at_iff.mpr ⟨entry, given, contained⟩⟩

/-! ### Versions that are mutations of each other -/

/-- The caller mutates the newest federation and pushes the result. -/
def succeed (miniscript : Miniscript) (stack : BtcFederatedWallet Wallet)
    (change : Mutation × Wallet) : BtcFederatedWallet Wallet :=
  match stack.current >>= fun newest => change.1.apply miniscript newest.federation with
  | .error _ => stack
  | .ok next => stack.attempt (next, change.2)

/-- Every version is the mutation of the one before. -/
structure Lineage (miniscript : Miniscript) (origin : Federation)
    (stack : BtcFederatedWallet Wallet) : Prop where
  stacked : Stacked stack
  reached : ∀ entry ∈ stack.federationWallets,
    Federation.Reachable miniscript origin entry.federation
  linked : ∀ index older newer, stack.versionAt index = some older →
    stack.versionAt (index + 1) = some newer →
      ∃ mutation : Mutation, mutation.apply miniscript older.federation = .ok newer.federation

variable {miniscript : Miniscript} {origin federation successor : Federation}

theorem Lineage.takes_mutation (lineage : Lineage miniscript origin stack)
    {newest : FederationWallet Wallet} (member : newest ∈ stack.federationWallets)
    {mutation : Mutation} (applied : mutation.apply miniscript newest.federation = .ok successor)
    (wallet : Wallet) :
    stack.withFederation successor wallet = .ok {
      federationWallets := stack.federationWallets ++
        [⟨successor, wallet, stack.federationCount⟩]
      network := stack.network } := by
  obtain ⟨-, -, network, -, -⟩ :=
    Federation.with_config_fields (Federation.apply_eq_ok.mp applied).2
  have same : successor.network = stack.network :=
    network.trans (lineage.stacked.network newest member)
  exact with_federation_eq_ok.mpr ⟨same ▸ lineage.stacked.isBitcoin, same, rfl⟩

theorem lineage_new {wallet : Wallet}
    (reached : Federation.Reachable miniscript federation federation)
    (created : new federation wallet = .ok start) : Lineage miniscript federation start := by
  refine ⟨stacked_new created, ?_, ?_⟩
  · intro entry member
    obtain ⟨-, rfl⟩ := new_eq_ok.mp created
    rw [List.mem_singleton.mp member]
    exact reached
  · intro index older newer _ given
    obtain ⟨-, rfl⟩ := new_eq_ok.mp created
    cases given

theorem lineage_pushed (lineage : Lineage miniscript origin stack)
    {newest : FederationWallet Wallet}
    (last : stack.versionAt (stack.federationCount - 1) = some newest) {mutation : Mutation}
    (applied : mutation.apply miniscript newest.federation = .ok successor) {wallet : Wallet}
    (pushed : stack.withFederation successor wallet = .ok next) :
    Lineage miniscript origin next := by
  obtain ⟨within, counted, top⟩ := within_pushed pushed
  have nonempty := version_at_inside last
  refine ⟨stacked_with_federation lineage.stacked pushed, ?_, ?_⟩
  · obtain ⟨-, -, rfl⟩ := with_federation_eq_ok.mp pushed
    intro entry member
    cases List.mem_append.mp member with
    | inl older => exact lineage.reached entry older
    | inr pushedNow =>
        rw [List.mem_singleton.mp pushedNow]
        exact .mutated mutation (lineage.reached newest (List.mem_of_getElem? last)) applied
  · intro index older newer first second
    have inside := version_at_inside second
    rw [within.version_at_eq (by omega)] at first
    by_cases before : index + 1 < stack.federationCount
    · rw [within.version_at_eq before] at second
      exact lineage.linked index older newer first second
    · obtain rfl : index = stack.federationCount - 1 := by omega
      have position : stack.federationCount - 1 + 1 = stack.federationCount := by omega
      rw [position, top] at second
      rw [Option.some.inj (first.symm.trans last), ← Option.some.inj second]
      exact ⟨mutation, applied⟩

theorem lineage_succeed (stack : BtcFederatedWallet Wallet) (change : Mutation × Wallet)
    (lineage : Lineage miniscript origin stack) :
    Lineage miniscript origin (stack.succeed miniscript change) := by
  obtain ⟨newest, answered, last⟩ := lineage.stacked.current_eq FederationError
  unfold succeed
  rw [answered, ok_bind]
  cases applied : change.1.apply miniscript newest.federation with
  | error cause => exact lineage
  | ok successor =>
      have pushed := lineage.takes_mutation (List.mem_of_getElem? last) applied change.2
      simp only [attempt, pushed]
      exact lineage_pushed lineage last applied pushed

theorem lineage_at {wallet : Wallet}
    (reached : Federation.Reachable miniscript federation federation)
    (created : new federation wallet = .ok start) (changes : List (Mutation × Wallet))
    (moment : Nat) :
    Lineage miniscript federation (stateAt (succeed miniscript) start changes moment) :=
  run_preserved lineage_succeed (lineage_new reached created) _

def AddsOne (miniscript : Miniscript) (stack : BtcFederatedWallet Wallet)
    (change : Mutation × Wallet) : Prop :=
  ∃ newest, (stack.current : Outcome Empty _) = .ok newest ∧
    ((∃ cause, change.1.apply miniscript newest.federation = .error cause ∧
        stack.succeed miniscript change = stack) ∨
      ∃ successor, change.1.apply miniscript newest.federation = .ok successor ∧
        stack.withFederation successor change.2 = .ok (stack.succeed miniscript change) ∧
        (stack.succeed miniscript change).versionAt stack.federationCount =
          some ⟨successor, change.2, stack.federationCount⟩)

theorem Lineage.adds_one (lineage : Lineage miniscript origin stack)
    (change : Mutation × Wallet) : AddsOne miniscript stack change := by
  obtain ⟨newest, answered, last⟩ := lineage.stacked.current_eq Empty
  obtain ⟨again, sameAnswer, sameLast⟩ := lineage.stacked.current_eq FederationError
  obtain rfl : again = newest := Option.some.inj (sameLast.symm.trans last)
  refine ⟨again, answered, ?_⟩
  unfold succeed
  rw [sameAnswer, ok_bind]
  cases applied : change.1.apply miniscript again.federation with
  | error cause => exact .inl ⟨cause, rfl, rfl⟩
  | ok successor =>
      have pushed := lineage.takes_mutation (List.mem_of_getElem? last) applied change.2
      refine .inr ⟨successor, rfl, ?_⟩
      simp only [attempt, pushed]
      exact ⟨trivial, (within_pushed pushed).2.2⟩

/-- In every run of changes each version is a valid federation of the kind of the
first and a mutation of the one before, and the stack refuses no mutated federation. -/
theorem versions_are_mutations {wallet : Wallet}
    (reached : Federation.Reachable miniscript federation federation)
    (created : new federation wallet = .ok start) (changes : List (Mutation × Wallet))
    (moment : Nat) :
    (∀ entry ∈ (stateAt (succeed miniscript) start changes moment).federationWallets,
      Federation.Sound entry.federation.threshold entry.federation.signers
        entry.federation.network ∧ entry.federation.Described miniscript ∧
      entry.federation.network = federation.network ∧
      entry.federation.keyMode = federation.keyMode ∧
      entry.federation.scriptType = federation.scriptType) ∧
    (∀ index older newer,
      (stateAt (succeed miniscript) start changes moment).versionAt index = some older →
      (stateAt (succeed miniscript) start changes moment).versionAt (index + 1) = some newer →
        ∃ mutation : Mutation,
          mutation.apply miniscript older.federation = .ok newer.federation) ∧
    ∀ change, AddsOne miniscript (stateAt (succeed miniscript) start changes moment) change := by
  have lineage := lineage_at reached created changes moment
  refine ⟨?_, lineage.linked, lineage.adds_one⟩
  intro entry member
  have version := lineage.reached entry member
  obtain ⟨sound, described⟩ :=
    Federation.sound_of_with_config (Federation.with_config_of_reachable version)
  exact ⟨sound, described, Federation.kind_of_reachable version⟩

theorem member_lost {mutation : Mutation}
    (applied : mutation.apply miniscript federation = .ok successor) {id : SignerId}
    (had : federation.contains id = true) (lost : successor.contains id = false) :
    mutation = .remove id ∨ ∃ new, mutation = .rotate id new ∧ new.id ≠ id := by
  obtain ⟨-, listed, -⟩ := Federation.with_config_fields (Federation.apply_eq_ok.mp applied).2
  have gone : ∀ signer ∈ successor.signers, signer.id ≠ id := by
    intro signer member same
    rw [Federation.contains_iff.mpr ⟨signer, member, same⟩] at lost
    cases lost
  rw [listed] at gone
  obtain ⟨signer, member, same⟩ := Federation.contains_iff.mp had
  cases mutation with
  | add new => exact absurd same (gone signer (List.mem_append_left _ member))
  | changeThreshold newThreshold => exact absurd same (gone signer member)
  | remove removed =>
      left
      by_cases named : signer.id = removed
      · rw [← same, named]
      · exact absurd same (gone signer (List.mem_filter.mpr ⟨member, decide_eq_true named⟩))
  | rotate old new =>
      right
      have image := gone _ (List.mem_map_of_mem member)
      by_cases named : signer.id = old
      · rw [if_pos named] at image
        exact ⟨new, by rw [← named, same], image⟩
      · rw [if_neg named] at image
        exact absurd same image

/-- Someone who signed once and signs no more left in the mutation after the last
version they are in, and that mutation removed them or rotated them out. -/
theorem former_signer_was_named {wallet : Wallet}
    (reached : Federation.Reachable miniscript federation federation)
    (created : new federation wallet = .ok start) (changes : List (Mutation × Wallet))
    (moment : Nat) {id : SignerId}
    (former : id ∈ (stateAt (succeed miniscript) start changes moment).allSignerIds)
    (gone : ((stateAt (succeed miniscript) start changes moment).signerIsCurrent id :
      Outcome Empty Bool) = .ok false) :
    ∃ index older newer, ∃ mutation : Mutation,
      (stateAt (succeed miniscript) start changes moment).versionAt index = some older ∧
      (stateAt (succeed miniscript) start changes moment).versionAt (index + 1) = some newer ∧
      older.federation.contains id = true ∧
      (∀ after, index < after →
        (stateAt (succeed miniscript) start changes moment).signsAt id after = false) ∧
      mutation.apply miniscript older.federation = .ok newer.federation ∧
      (mutation = .remove id ∨ ∃ new, mutation = .rotate id new ∧ new.id ≠ id) := by
  have lineage := lineage_at reached created changes moment
  revert former gone lineage
  generalize stateAt (succeed miniscript) start changes moment = stack
  intro former gone lineage
  have lost : stack.signsAt id (stack.federationCount - 1) = false := by
    rw [(lineage.stacked.remembers id).now] at gone
    exact Except.ok.inj gone
  obtain ⟨first, signed⟩ := mem_all_signer_ids.mp former
  obtain ⟨entry, given, -⟩ := signs_at_iff.mp signed
  have inside := version_at_inside given
  let signs (index : Nat) : Prop := stack.signsAt id index = true
  have ended : ¬ signs (stack.federationCount - 1) := by simp [signs, lost]
  have started : signs first := signed
  obtain ⟨index, -, below, held, later⟩ := last_held (Nat.le_sub_one_of_lt inside) started ended
  obtain ⟨older, olderGiven, contained⟩ := signs_at_iff.mp held
  have bound : index + 1 < stack.federationCount := by omega
  have newerGiven : stack.versionAt (index + 1) =
      some (stack.federationWallets.get ⟨index + 1, bound⟩) := List.getElem?_eq_getElem bound
  have absent : ∀ after, index < after → stack.signsAt id after = false := by
    intro after above
    by_cases last : after ≤ stack.federationCount - 1
    · exact Bool.eq_false_iff.mpr (later after above last)
    · rw [Bool.eq_false_iff]
      intro signs
      obtain ⟨_, present, -⟩ := signs_at_iff.mp signs
      have := version_at_inside present
      omega
  obtain ⟨mutation, applied⟩ := lineage.linked index older _ olderGiven newerGiven
  have newerLost := absent (index + 1) (Nat.lt_succ_self index)
  rw [signs_at_eq newerGiven] at newerLost
  exact ⟨index, older, _, mutation, olderGiven, newerGiven, contained, absent, applied,
    member_lost applied contained newerLost⟩

/-! ### A third signer joins and the first leaves -/

def mockStart : BtcFederatedWallet Unit where
  network := .bitcoin .testnet
  federationWallets := [⟨MockSigner.federation .wsh, (), 0⟩]

def mockChanges : List (Mutation × Unit) :=
  [(.add MockSigner.third, ()), (.remove MockSigner.third.id, ()), (.add MockSigner.third, ()),
    (.changeThreshold 7, ()), (.remove MockSigner.first.id, ())]

theorem mock_start_created : new (MockSigner.federation .wsh) () = .ok mockStart :=
  new_eq_ok.mpr ⟨rfl, rfl⟩

def mockStack : BtcFederatedWallet Unit :=
  stateAt (succeed MockSigner.miniscript) mockStart mockChanges 5

theorem versions_are_mutations_mock :
    (∀ entry ∈ mockStack.federationWallets,
      Federation.Sound entry.federation.threshold entry.federation.signers
        entry.federation.network ∧ entry.federation.Described MockSigner.miniscript ∧
      entry.federation.network = (MockSigner.federation .wsh).network ∧
      entry.federation.keyMode = (MockSigner.federation .wsh).keyMode ∧
      entry.federation.scriptType = (MockSigner.federation .wsh).scriptType) ∧
    (∀ index older newer, mockStack.versionAt index = some older →
      mockStack.versionAt (index + 1) = some newer →
        ∃ mutation : Mutation,
          mutation.apply MockSigner.miniscript older.federation = .ok newer.federation) ∧
    ∀ change, AddsOne MockSigner.miniscript mockStack change :=
  versions_are_mutations Federation.mock_federation_reachable mock_start_created mockChanges 5

theorem former_signer_was_named_mock :
    ∃ index older newer, ∃ mutation : Mutation,
      mockStack.versionAt index = some older ∧ mockStack.versionAt (index + 1) = some newer ∧
      older.federation.contains MockSigner.first.id = true ∧
      (∀ after, index < after → mockStack.signsAt MockSigner.first.id after = false) ∧
      mutation.apply MockSigner.miniscript older.federation = .ok newer.federation ∧
      (mutation = .remove MockSigner.first.id ∨
        ∃ new, mutation = .rotate MockSigner.first.id new ∧ new.id ≠ MockSigner.first.id) :=
  former_signer_was_named Federation.mock_federation_reachable mock_start_created mockChanges 5
    (by decide +kernel) (by decide +kernel)

def mockCalls : List (Federation × Unit) :=
  [({ MockSigner.federation .wsh with network := .elements .liquid }, ()),
    (MockSigner.federation .tr, ())]

theorem versions_remember_signers_mock :
    Remembers (stateAt attempt mockStart mockCalls 1) MockSigner.second.id ∧
      (stateAt attempt mockStart mockCalls 1).findBySigner MockSigner.second.id <+:
        (stateAt attempt mockStart mockCalls 2).findBySigner MockSigner.second.id ∧
      (∀ entry ∈ (stateAt attempt mockStart mockCalls 2).findBySigner MockSigner.second.id,
        entry.index < (stateAt attempt mockStart mockCalls 1).federationCount →
          entry ∈ (stateAt attempt mockStart mockCalls 1).findBySigner MockSigner.second.id) ∧
      (stateAt attempt mockStart mockCalls 1).allSignerIds ⊆
        (stateAt attempt mockStart mockCalls 2).allSignerIds :=
  versions_remember_signers mock_start_created mockCalls (Nat.le_succ 1) MockSigner.second.id

end BtcFederatedWallet

end EmvaultCore
