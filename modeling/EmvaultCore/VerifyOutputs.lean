import EmvaultCore.Library.GreedyMatching
import EmvaultCore.Psbt

/-!
# A PSBT pays exactly what was approved

`verify_psbt_outputs` walks the outputs once, keeping one flag for each approved
output. Here the flags are read as the multiset of claims still outstanding, and
the walk as the generic one-pass matching, which depends on multisets only.
-/

namespace EmvaultCore.VerifyOutputs

open EmvaultCore.Library.GreedyMatching

/-- A single output the proposal approved: pay `amount` to `scriptPubkey`. -/
structure ExpectedOutput where
  scriptPubkey : ScriptBuf
  amount : Amount
deriving DecidableEq

abbrev Payment := ScriptBuf × Amount

def ExpectedOutput.payment (expected : ExpectedOutput) : Payment :=
  (expected.scriptPubkey, expected.amount)

def txOutPayment (txout : TxOut) : Payment := (txout.scriptPubkey, txout.value)

structure Printing where
  script : ScriptBuf → String
  amount : Amount → String

variable (printing : Printing)

/-- The first approved output that is unmatched and equal to `txout`. -/
def exactMatch (approved : List ExpectedOutput) (matched : List Bool) (txout : TxOut) :
    Option Nat :=
  (approved.zip matched).findIdx? fun entry =>
    !entry.2 && entry.1.scriptPubkey == txout.scriptPubkey && entry.1.amount == txout.value

/-- The body of the loop over the outputs, with the flags it leaves behind. -/
def matchOutputs (approved : List ExpectedOutput) (isOwnedChange : ScriptBuf → Bool) :
    List TxOut → List Bool → Except PsbtError (List Bool)
  | [], matched => .ok matched
  | txout :: rest, matched =>
      match exactMatch approved matched txout with
      | some index => matchOutputs approved isOwnedChange rest (matched.set index true)
      | none =>
          if isOwnedChange txout.scriptPubkey then
            matchOutputs approved isOwnedChange rest matched
          else
            -- the script of an unmatched approved output means a tampered amount
            match (approved.zip matched).find? fun entry =>
                !entry.2 && entry.1.scriptPubkey == txout.scriptPubkey with
            | some (expected, _) => .error (.outputMismatch
                s!"amount to {printing.script txout.scriptPubkey} was changed: approved {printing.amount expected.amount}, PSBT has {printing.amount txout.value}")
            | none => .error (.outputMismatch
                s!"unexpected output not in proposal and not owned change: {printing.amount txout.value} to {printing.script txout.scriptPubkey}")

def verifyPsbtOutputs (psbt : Psbt) (approved : List ExpectedOutput)
    (isOwnedChange : ScriptBuf → Bool) : Except PsbtError Unit := do
  let matched ← matchOutputs printing approved isOwnedChange psbt.unsignedTx.output
    (List.replicate approved.length false)
  match (approved.zip matched).find? fun entry => !entry.2 with
  | some (expected, _) => .error (.outputMismatch
      s!"approved output missing from PSBT: {printing.amount expected.amount} to {printing.script expected.scriptPubkey}")
  | none => .ok ()

def outstanding (approved : List ExpectedOutput) (matched : List Bool) : Multiset Payment :=
  ((approved.zip matched).filter fun entry => !entry.2).map fun entry => entry.1.payment

@[simp] theorem outstanding_nil (matched : List Bool) : outstanding [] matched = 0 := rfl

@[simp] theorem outstanding_cons_true (expected : ExpectedOutput)
    (approved : List ExpectedOutput) (matched : List Bool) :
    outstanding (expected :: approved) (true :: matched) = outstanding approved matched := rfl

@[simp] theorem outstanding_cons_false (expected : ExpectedOutput)
    (approved : List ExpectedOutput) (matched : List Bool) :
    outstanding (expected :: approved) (false :: matched) =
      expected.payment ::ₘ outstanding approved matched := rfl

theorem outstanding_initial (approved : List ExpectedOutput) :
    outstanding approved (List.replicate approved.length false) =
      (approved.map ExpectedOutput.payment : Multiset Payment) := by
  induction approved with
  | nil => rfl
  | cons expected approved ih =>
      rw [List.length_cons, List.replicate_succ, outstanding_cons_false, ih]
      rfl

theorem equal_payment_iff (expected : ExpectedOutput) (txout : TxOut) :
    (expected.scriptPubkey == txout.scriptPubkey && expected.amount == txout.value) = true ↔
      expected.payment = txOutPayment txout := by
  simp [ExpectedOutput.payment, txOutPayment]

theorem outstanding_of_match {approved : List ExpectedOutput} {matched : List Bool}
    {txout : TxOut} {index : Nat} (found : exactMatch approved matched txout = some index) :
    outstanding approved matched =
      txOutPayment txout ::ₘ outstanding approved (matched.set index true) := by
  induction approved generalizing matched index with
  | nil => simp [exactMatch] at found
  | cons expected approved ih =>
      cases matched with
      | nil => simp [exactMatch] at found
      | cons flag matched =>
          simp only [exactMatch, List.zip_cons_cons, List.findIdx?_cons, Bool.and_assoc] at found
          split at found
          · next here =>
              obtain rfl : 0 = index := by simpa using found
              rw [Bool.and_eq_true, equal_payment_iff] at here
              obtain rfl : flag = false := by simpa using here.1
              rw [outstanding_cons_false, here.2, List.set_cons_zero, outstanding_cons_true]
          · obtain ⟨later, foundLater, rfl⟩ := Option.map_eq_some_iff.mp found
            have foundRest : exactMatch approved matched txout = some later := by
              simpa only [exactMatch, Bool.and_assoc] using foundLater
            have rest := ih foundRest
            rw [List.set_cons_succ]
            cases flag with
            | true => rw [outstanding_cons_true, outstanding_cons_true, rest]
            | false =>
                rw [outstanding_cons_false, outstanding_cons_false, rest, Multiset.cons_swap]

theorem exact_match_none_iff (approved : List ExpectedOutput) (matched : List Bool)
    (txout : TxOut) :
    exactMatch approved matched txout = none ↔
      txOutPayment txout ∉ outstanding approved matched := by
  simp only [exactMatch, List.findIdx?_eq_none_iff, Bool.and_assoc, outstanding,
    Multiset.mem_coe, List.mem_map, List.mem_filter, not_exists, not_and]
  constructor
  · intro absent entry ⟨member, free⟩ same
    have unequal := absent entry member
    rw [free, Bool.true_and, ← Bool.not_eq_true, equal_payment_iff] at unequal
    exact unequal same
  · intro absent entry member
    by_contra equal
    rw [Bool.not_eq_false, Bool.and_eq_true, equal_payment_iff] at equal
    exact absent entry ⟨member, equal.1⟩ equal.2

/-- The walk over the outputs is the generic pass over their payments. -/
theorem match_outputs_settles (approved : List ExpectedOutput)
    (isOwnedChange : ScriptBuf → Bool) (outputs : List TxOut) (matched : List Bool) :
    settle (fun payment => isOwnedChange payment.1) (outputs.map txOutPayment)
        (outstanding approved matched) =
      ((matchOutputs printing approved isOwnedChange outputs matched).toOption).map
        (outstanding approved) := by
  induction outputs generalizing matched with
  | nil => rfl
  | cons txout rest ih =>
      rw [List.map_cons, settle, matchOutputs]
      cases found : exactMatch approved matched txout with
      | some index =>
          have claim := outstanding_of_match found
          have member : txOutPayment txout ∈ outstanding approved matched := by
            rw [claim]
            exact Multiset.mem_cons_self _ _
          rw [if_pos member, claim, Multiset.erase_cons_head]
          exact ih _
      | none =>
          rw [if_neg ((exact_match_none_iff approved matched txout).mp found)]
          by_cases owned : isOwnedChange txout.scriptPubkey = true
          · simp only [txOutPayment, owned, if_true]
            exact ih matched
          · simp only [txOutPayment, owned, Bool.false_eq_true, if_false]
            split <;> rfl

theorem verify_ok_iff_settles (psbt : Psbt) (approved : List ExpectedOutput)
    (isOwnedChange : ScriptBuf → Bool) :
    verifyPsbtOutputs printing psbt approved isOwnedChange = .ok () ↔
      settle (fun payment => isOwnedChange payment.1)
        (psbt.unsignedTx.output.map txOutPayment)
        (approved.map ExpectedOutput.payment : Multiset Payment) = some 0 := by
  rw [← outstanding_initial, match_outputs_settles printing, verifyPsbtOutputs]
  cases matchOutputs printing approved isOwnedChange psbt.unsignedTx.output
      (List.replicate approved.length false) with
  | error cause => simp [bind, Except.bind, Except.toOption]
  | ok matched =>
      have noneLeft : outstanding approved matched = 0 ↔
          ((approved.zip matched).find? fun entry => !entry.2) = none := by
        simp only [outstanding, Multiset.coe_eq_zero, List.map_eq_nil_iff,
          List.filter_eq_nil_iff, List.find?_eq_none]
      simp only [bind, Except.bind, Except.toOption, Option.map_some, Option.some.injEq,
        noneLeft]
      cases (approved.zip matched).find? fun entry => !entry.2 <;> simp

/-- The verdict is containment of multisets of payments: the approved list in the
outputs of the unsigned transaction, with only owned change left over. Orders do
not matter, duplicates count one by one, and an approved payment is never met by
an output that was passed over as change. -/
theorem verify_psbt_outputs_exact (psbt : Psbt) (approved : List ExpectedOutput)
    (isOwnedChange : ScriptBuf → Bool) :
    (verifyPsbtOutputs printing psbt approved isOwnedChange = .ok () ↔
      (approved.map ExpectedOutput.payment : Multiset Payment) ≤
          (psbt.unsignedTx.output.map txOutPayment : Multiset Payment) ∧
        ∀ payment ∈ (psbt.unsignedTx.output.map txOutPayment : Multiset Payment) -
            (approved.map ExpectedOutput.payment : Multiset Payment),
          isOwnedChange payment.1 = true) ∧
    (∀ (reorderedPsbt : Psbt) (reordered : List ExpectedOutput),
      psbt.unsignedTx.output.Perm reorderedPsbt.unsignedTx.output → approved.Perm reordered →
      (verifyPsbtOutputs printing psbt approved isOwnedChange = .ok () ↔
        verifyPsbtOutputs printing reorderedPsbt reordered isOwnedChange = .ok ())) ∧
    (verifyPsbtOutputs printing psbt approved isOwnedChange = .ok () →
      ∀ expected ∈ approved,
        Multiset.count expected.payment (approved.map ExpectedOutput.payment) ≤
          Multiset.count expected.payment (psbt.unsignedTx.output.map txOutPayment)) := by
  have exact (psbt : Psbt) (approved : List ExpectedOutput) :=
    (verify_ok_iff_settles printing psbt approved isOwnedChange).trans
      (settle_eq_zero_iff _ _ _)
  refine ⟨exact psbt approved, ?_, ?_⟩
  · intro reorderedPsbt reordered outputs claims
    have sameClaims : (approved.map ExpectedOutput.payment : Multiset Payment) =
        (reordered.map ExpectedOutput.payment : Multiset Payment) :=
      Multiset.coe_eq_coe.mpr (claims.map _)
    rw [exact, exact, sameClaims, settled_perm (outputs.map txOutPayment)]
  · intro accepted expected _
    have contained := ((exact psbt approved).mp accepted).1
    exact Multiset.count_le_of_le expected.payment contained

end EmvaultCore.VerifyOutputs
