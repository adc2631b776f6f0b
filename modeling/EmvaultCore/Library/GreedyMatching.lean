import Mathlib.Data.Multiset.AddSub
import Mathlib.Data.Multiset.Count

/-!
# One-pass matching of a list against a multiset of claims

A pass over a list hands each value to an outstanding claim for that very value
when there is one, and otherwise asks whether the value may be left over. Equal
values are interchangeable, so the greedy choice never has to be revised: the
pass succeeds exactly when the claims are contained in the list, as multisets,
and everything left over is permitted.
-/

namespace EmvaultCore.Library.GreedyMatching

variable {Value : Type*} [DecidableEq Value]

/-- The claims still outstanding after the pass, or `none` at the first value
that answers no claim and may not be left over. -/
def settle (permitted : Value → Bool) : List Value → Multiset Value → Option (Multiset Value)
  | [], outstanding => some outstanding
  | value :: rest, outstanding =>
      if value ∈ outstanding then settle permitted rest (outstanding.erase value)
      else if permitted value then settle permitted rest outstanding
      else none

/-- Every claim is answered and every value left over is permitted. -/
def Settled (permitted : Value → Bool) (values : List Value) (claims : Multiset Value) : Prop :=
  claims ≤ values ∧ ∀ value ∈ (values : Multiset Value) - claims, permitted value = true

theorem settled_claimed {permitted : Value → Bool} {value : Value} {rest : List Value}
    {claims : Multiset Value} (claimed : value ∈ claims) :
    Settled permitted (value :: rest) claims ↔ Settled permitted rest (claims.erase value) := by
  obtain ⟨others, rfl⟩ := Multiset.exists_cons_of_mem claimed
  simp only [Settled, ← Multiset.cons_coe, Multiset.erase_cons_head,
    Multiset.cons_le_cons_iff, Multiset.sub_cons]

theorem settled_unclaimed {permitted : Value → Bool} {value : Value} {rest : List Value}
    {claims : Multiset Value} (unclaimed : value ∉ claims) :
    Settled permitted (value :: rest) claims ↔
      permitted value = true ∧ Settled permitted rest claims := by
  simp only [Settled, ← Multiset.cons_coe, Multiset.le_cons_of_notMem unclaimed]
  constructor
  · rintro ⟨contained, leftover⟩
    rw [Multiset.cons_sub_of_le value contained] at leftover
    have parts := Multiset.forall_mem_cons.mp leftover
    exact ⟨parts.1, contained, parts.2⟩
  · rintro ⟨leave, contained, leftover⟩
    rw [Multiset.cons_sub_of_le value contained]
    exact ⟨contained, Multiset.forall_mem_cons.mpr ⟨leave, leftover⟩⟩

theorem settle_eq_zero_iff (permitted : Value → Bool) (values : List Value)
    (claims : Multiset Value) :
    settle permitted values claims = some 0 ↔ Settled permitted values claims := by
  induction values generalizing claims with
  | nil =>
      simp only [settle, Settled, Option.some.injEq, Multiset.coe_nil, Multiset.zero_sub,
        Multiset.notMem_zero, false_implies, implies_true, and_true]
      exact Multiset.le_zero.symm
  | cons value rest ih =>
      by_cases claimed : value ∈ claims
      · rw [settle, if_pos claimed, ih, settled_claimed claimed]
      · rw [settle, if_neg claimed, settled_unclaimed claimed]
        by_cases leave : permitted value = true
        · rw [if_pos leave, ih]
          exact (and_iff_right leave).symm
        · simp [leave]

/-- Only the multisets count: reordering the values or the claims changes nothing. -/
theorem settled_perm {permitted : Value → Bool} {values reordered : List Value}
    {claims : Multiset Value} (same : values.Perm reordered) :
    Settled permitted values claims ↔ Settled permitted reordered claims := by
  simp only [Settled, Multiset.coe_eq_coe.mpr same]

end EmvaultCore.Library.GreedyMatching
