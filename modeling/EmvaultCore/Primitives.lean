import Mathlib.Algebra.GroupWithZero.Nat
import Mathlib.Data.Prod.Lex
import Mathlib.Order.Fin.Basic
import Mathlib.Order.Compare
import Mathlib.Order.BooleanAlgebra.Basic
import Std.Data.ExtTreeMap

/-!
# Values shared by every subsystem

Amounts are satoshi counts that fit an unsigned 64-bit word and whose operators
panic outside it. A call that may panic answers an `Outcome`: a value, an error
the caller can handle, or a panic, which is what the library promises not to do.
-/

namespace EmvaultCore

/-- How a call ends without a value. -/
inductive Stop (Error : Type) where
  | panic (message : String)
  | error (cause : Error)
deriving DecidableEq, Repr

abbrev Outcome (Error Value : Type) := Except (Stop Error) Value

theorem bind_eq_ok {Error Value Other : Type} {first : Except Error Value}
    {next : Value → Except Error Other} {result : Other} :
    (first >>= next) = .ok result ↔ ∃ value, first = .ok value ∧ next value = .ok result := by
  cases first with
  | error cause => simp [bind, Except.bind]
  | ok value => simp [bind, Except.bind]

theorem ok_bind {Error Value Other : Type} {value : Value}
    {next : Value → Except Error Other} : (.ok value >>= next) = next value := rfl

theorem check_bind_eq_ok {Error Value : Type} {check : Except Error Unit}
    {next : Unit → Except Error Value} {result : Value} :
    (check >>= next) = .ok result ↔ check = .ok () ∧ next () = .ok result := by
  rw [bind_eq_ok]
  constructor
  · rintro ⟨⟨⟩, passed, rest⟩
    exact ⟨passed, rest⟩
  · rintro ⟨passed, rest⟩
    exact ⟨(), passed, rest⟩

theorem map_error_eq_ok {Error Other Value : Type} {wrap : Error → Other}
    {outcome : Except Error Value} {value : Value} :
    outcome.mapError wrap = .ok value ↔ outcome = .ok value := by
  cases outcome <;> simp [Except.mapError]

namespace Outcome

variable {Error Value : Type}

def Returns (outcome : Outcome Error Value) : Prop :=
  ∀ message, outcome ≠ .error (.panic message)

/-- `?` on a `Result` whose error is converted; a panic is not caught. -/
def mapCause {Other : Type} (convert : Error → Other) :
    Outcome Error Value → Outcome Other Value
  | .ok value => .ok value
  | .error (.error cause) => .error (.error (convert cause))
  | .error (.panic message) => .error (.panic message)

/-- `?` on a `Result` that no panic replaces. -/
def ofResult {Other : Type} (convert : Error → Other) :
    Except Error Value → Outcome Other Value
  | .ok value => .ok value
  | .error cause => .error (.error (convert cause))

/-- A call without an error of its own, inside one that has errors. -/
def lift (outcome : Outcome Empty Value) : Outcome Error Value := outcome.mapCause Empty.elim

theorem of_result_eq_ok {Other : Type} {convert : Error → Other}
    {result : Except Error Value} {value : Value} :
    ofResult convert result = .ok value ↔ result = .ok value := by
  cases result <;> simp [ofResult]

theorem map_cause_eq_ok {Other : Type} {convert : Error → Other}
    {outcome : Outcome Error Value} {value : Value} :
    outcome.mapCause convert = .ok value ↔ outcome = .ok value := by
  rcases outcome with (_ | _) | _ <;> simp [mapCause]

theorem lift_eq_ok {outcome : Outcome Empty Value} {value : Value} :
    (outcome.lift : Outcome Error Value) = .ok value ↔ outcome = .ok value :=
  map_cause_eq_ok

theorem lift_ok {value : Value} :
    (lift (.ok value) : Outcome Error Value) = .ok value := rfl

theorem lift_bind {Next : Type} {outcome : Outcome Empty Value}
    {next : Value → Outcome Empty Next} :
    (lift (outcome >>= next) : Outcome Error Next) = outcome.lift >>= fun value =>
      (next value).lift := by
  cases outcome with
  | error stop =>
      cases stop with
      | panic message => rfl
      | error cause => cases cause
  | ok value => rfl

theorem lift_ne_error {outcome : Outcome Empty Value} {cause : Error} :
    outcome.lift ≠ .error (.error cause) := by
  cases outcome with
  | error stop =>
      cases stop with
      | panic message => simp [lift, mapCause]
      | error cause => cases cause
  | ok value => simp [lift, mapCause]

theorem returns_lift {outcome : Outcome Empty Value} :
    (outcome.lift : Outcome Error Value).Returns ↔ ∃ value, outcome = .ok value := by
  rcases outcome with (_ | ⟨⟨⟩⟩) | value
  · simp [Returns, lift, mapCause]
  · simp [Returns, lift, mapCause]

theorem returns_lift_bind {Next : Type} {outcome : Outcome Empty Value}
    {next : Value → Outcome Error Next} :
    (outcome.lift >>= next).Returns ↔ ∃ value, outcome = .ok value ∧ (next value).Returns := by
  rcases outcome with (_ | ⟨⟨⟩⟩) | value
  · simp [Returns, lift, mapCause, bind, Except.bind]
  · simp [Returns, lift, mapCause, bind, Except.bind]

end Outcome

/-! The fixed widths of the words below. -/

instance byteWidth : NeZero 256 := ⟨by decide⟩

instance childWidth : NeZero (2 ^ 31) := ⟨by decide⟩

instance wordWidth : NeZero (2 ^ 32) := ⟨by decide⟩

instance longWidth : NeZero (2 ^ 64) := ⟨by decide⟩

instance hashWidth : NeZero (2 ^ 256) := ⟨by decide⟩

instance lawfulEqOrd {Key : Type} [LinearOrder Key] : Std.LawfulEqOrd Key where
  eq_of_compare equal := compare_eq_iff_eq.mp equal

abbrev BTreeMap (Key Value : Type) [Ord Key] := Std.ExtTreeMap Key Value compare

namespace BTreeMap

variable {Key Value : Type} [Ord Key] [Std.TransOrd Key]

def valuesInOrder (map : BTreeMap Key Value) : List Value := map.toList.map Prod.snd

theorem mem_values_in_order [Std.LawfulEqOrd Key] {map : BTreeMap Key Value} {value : Value} :
    value ∈ map.valuesInOrder ↔ ∃ key : Key, map[key]? = some value := by
  rw [valuesInOrder, List.mem_map]
  constructor
  · rintro ⟨⟨key, found⟩, member, rfl⟩
    exact ⟨key, Std.ExtTreeMap.mem_toList_iff_getElem?_eq_some.mp member⟩
  · rintro ⟨key, found⟩
    exact ⟨(key, value), Std.ExtTreeMap.mem_toList_iff_getElem?_eq_some.mpr found, rfl⟩

end BTreeMap

/-- `bitcoin::Amount`, a number of satoshi in an unsigned 64-bit word. -/
structure Amount where
  sat : Nat
  fits : sat < 2 ^ 64
deriving DecidableEq

namespace Amount

def zero : Amount := ⟨0, by decide⟩

def fromSat (sat : UInt64) : Amount := ⟨sat.toNat, sat.toNat_lt⟩

@[ext] theorem ext {left right : Amount} (same : left.sat = right.sat) : left = right := by
  cases left
  cases right
  cases same
  rfl

@[simp] theorem zero_sat : zero.sat = 0 := rfl

/-- `+` on amounts, which panics on overflow. -/
def add {Error : Type} (left right : Amount) : Outcome Error Amount :=
  if fits : left.sat + right.sat < 2 ^ 64 then .ok ⟨left.sat + right.sat, fits⟩
  else .error (.panic "Amount addition error")

/-- `-` on amounts, which panics on underflow. -/
def sub {Error : Type} (left right : Amount) : Outcome Error Amount :=
  if right.sat ≤ left.sat then
    .ok ⟨left.sat - right.sat, Nat.lt_of_le_of_lt (Nat.sub_le _ _) left.fits⟩
  else .error (.panic "Amount subtraction error")

theorem add_eq_ok {Error : Type} {left right total : Amount} :
    (add left right : Outcome Error Amount) = .ok total ↔ left.sat + right.sat = total.sat := by
  unfold add
  split
  · rw [Except.ok.injEq, Amount.ext_iff]
  · have bounded := total.fits
    simp only [reduceCtorEq, false_iff]
    omega

theorem fold_add_eq_ok {Error : Type} {amounts : List Amount} {start total : Amount} :
    (amounts.foldlM add start : Outcome Error Amount) = .ok total ↔
      start.sat + (amounts.map sat).sum = total.sat := by
  induction amounts generalizing start with
  | nil => simp [pure, Except.pure, Amount.ext_iff]
  | cons amount amounts ih =>
      rw [List.foldlM_cons, bind_eq_ok, List.map_cons, List.sum_cons]
      constructor
      · intro folded
        obtain ⟨next, added, rest⟩ := folded
        have here := add_eq_ok.mp added
        have later := ih.mp rest
        omega
      · intro sum
        have fits := total.fits
        refine ⟨⟨start.sat + amount.sat, by omega⟩, add_eq_ok.mpr rfl, ih.mpr ?_⟩
        dsimp only
        omega

theorem sub_eq_ok {Error : Type} {left right rest : Amount} :
    (sub left right : Outcome Error Amount) = .ok rest ↔ left.sat = rest.sat + right.sat := by
  unfold sub
  split
  · rw [Except.ok.injEq, Amount.ext_iff]
    dsimp only
    omega
  · simp only [reduceCtorEq, false_iff]
    omega

end Amount

abbrev Txid := Fin (2 ^ 256)

instance txidOrdered : Std.TransOrd Txid := Fin.instTransOrd (2 ^ 256)

structure OutPoint where
  txid : Txid
  vout : Fin (2 ^ 32)
deriving DecidableEq, Repr

abbrev ScriptBuf := List UInt8

structure TxOut where
  value : Amount
  scriptPubkey : ScriptBuf
deriving DecidableEq

inductive Network where
  | bitcoin
  | testnet
  | testnet4
  | signet
  | regtest
deriving DecidableEq, Repr

inductive ElementsNetworkId where
  | liquid
  | liquidTestnet
  | elementsRegtest
deriving DecidableEq, Repr

inductive NetworkType where
  | bitcoin (network : Network)
  | elements (id : ElementsNetworkId)
deriving DecidableEq, Repr

namespace NetworkType

/-- The Bitcoin network underneath, if this is one. -/
def bitcoin? : NetworkType → Option Network
  | .bitcoin network => some network
  | .elements _ => none

def isBitcoin : NetworkType → Bool
  | .bitcoin _ => true
  | .elements _ => false

theorem is_bitcoin_iff (network : NetworkType) :
    network.isBitcoin = true ↔ ∃ inner, network.bitcoin? = some inner := by
  cases network <;> simp [isBitcoin, bitcoin?]

end NetworkType

end EmvaultCore
