import Mathlib.Algebra.GroupWithZero.Nat
import Mathlib.Algebra.Order.Group.Nat
import Mathlib.Algebra.BigOperators.Group.List.Basic
import Mathlib.Data.List.Nodup
import Mathlib.Data.List.Perm.Basic

/-!
# Coins taken out by name

A holding lists coins, each with a name and a worth. Several coins are taken out
by their names, all of them or none. Where the names are distinct, what is taken
and what is left depend on the holding and not on the order in which it lists its
coins.
-/

namespace EmvaultCore.Library.Coins

variable {Name : Type*} [DecidableEq Name]

def worth {Name : Type*} (coins : List (Name × Nat)) : Nat := (coins.map Prod.snd).sum

def takeOne (name : Name) : List (Name × Nat) → Option (Nat × List (Name × Nat))
  | [] => none
  | coin :: coins =>
      if coin.1 = name then some (coin.2, coins)
      else (takeOne name coins).map fun taken => (taken.1, coin :: taken.2)

/-- Takes the coins of these names out, one after the other, with what they are
worth together. -/
def take : List Name → List (Name × Nat) → Option (Nat × List (Name × Nat))
  | [], coins => some (0, coins)
  | name :: names, coins =>
      (takeOne name coins).bind fun taken =>
        (take names taken.2).map fun others => (taken.1 + others.1, others.2)

variable {name : Name} {names : List Name} {value : Nat}
  {coins left others spent : List (Name × Nat)}

omit [DecidableEq Name] in
theorem worth_cons (coin : Name × Nat) (coins : List (Name × Nat)) :
    worth (coin :: coins) = coin.2 + worth coins := by
  rw [worth, List.map_cons, List.sum_cons]
  rfl

omit [DecidableEq Name] in
theorem worth_append (first second : List (Name × Nat)) :
    worth (first ++ second) = worth first + worth second := by
  rw [worth, List.map_append, List.sum_append]
  rfl

omit [DecidableEq Name] in
theorem worth_perm (same : coins.Perm others) : worth coins = worth others :=
  (same.map Prod.snd).sum_eq

theorem perm_of_take_one (taken : takeOne name coins = some (value, left)) :
    coins.Perm ((name, value) :: left) := by
  induction coins generalizing left with
  | nil => simp [takeOne] at taken
  | cons coin coins ih =>
      rw [takeOne] at taken
      by_cases named : coin.1 = name
      · rw [if_pos named] at taken
        obtain ⟨rfl, rfl⟩ := Prod.mk.inj (Option.some.inj taken)
        rw [← named]
      · rw [if_neg named, Option.map_eq_some_iff] at taken
        obtain ⟨further, found, same⟩ := taken
        obtain ⟨rfl, rfl⟩ := Prod.mk.inj same
        exact ((ih found).cons coin).trans (.swap _ _ _)

theorem take_one_of_mem (member : name ∈ coins.map Prod.fst) :
    ∃ value left, takeOne name coins = some (value, left) := by
  induction coins with
  | nil => simp at member
  | cons coin coins ih =>
      by_cases named : coin.1 = name
      · exact ⟨coin.2, coins, if_pos named⟩
      · rw [List.map_cons, List.mem_cons] at member
        obtain ⟨value, left, found⟩ := ih (member.resolve_left (Ne.symm named))
        refine ⟨value, coin :: left, ?_⟩
        rw [takeOne, if_neg named, found, Option.map_some]

theorem take_one_of_perm (held : coins.Perm ((name, value) :: others))
    (distinct : (coins.map Prod.fst).Nodup) :
    ∃ left, takeOne name coins = some (value, left) ∧ left.Perm others := by
  have listed : (name, value) ∈ coins := held.mem_iff.mpr List.mem_cons_self
  obtain ⟨found, left, taken⟩ := take_one_of_mem (List.mem_map_of_mem (f := Prod.fst) listed)
  have split := perm_of_take_one taken
  have among : (name, found) ∈ coins := split.mem_iff.mpr List.mem_cons_self
  obtain rfl : found = value :=
    congrArg Prod.snd (List.inj_on_of_nodup_map distinct among listed rfl)
  exact ⟨left, taken, (List.perm_cons _).mp (split.symm.trans held)⟩

/-- Coins that are there are taken out, whatever else there is. -/
theorem take_of_perm (held : coins.Perm (spent ++ others))
    (distinct : (coins.map Prod.fst).Nodup) :
    ∃ left, take (spent.map Prod.fst) coins = some (worth spent, left) ∧ left.Perm others := by
  induction spent generalizing coins with
  | nil => exact ⟨coins, rfl, held⟩
  | cons coin spent ih =>
      obtain ⟨further, first, rest⟩ := take_one_of_perm held distinct
      have fewer : (further.map Prod.fst).Nodup := by
        have all := ((perm_of_take_one first).map Prod.fst).nodup_iff.mp distinct
        exact (List.nodup_cons.mp all).2
      obtain ⟨left, taken, kept⟩ := ih rest fewer
      refine ⟨left, ?_, kept⟩
      rw [List.map_cons, take, first, Option.bind_some, taken, Option.map_some, worth_cons]

theorem worth_of_take (taken : take names coins = some (value, left)) :
    worth coins = value + worth left := by
  induction names generalizing coins value with
  | nil =>
      obtain ⟨rfl, rfl⟩ := Prod.mk.inj (Option.some.inj taken)
      exact (Nat.zero_add _).symm
  | cons name names ih =>
      rw [take, Option.bind_eq_some_iff] at taken
      obtain ⟨⟨first, further⟩, found, rest⟩ := taken
      obtain ⟨⟨value, kept⟩, later, same⟩ := Option.map_eq_some_iff.mp rest
      obtain ⟨rfl, rfl⟩ := Prod.mk.inj same
      rw [worth_perm (perm_of_take_one found), worth_cons, Nat.add_assoc]
      exact congrArg (first + ·) (ih later)

end EmvaultCore.Library.Coins
