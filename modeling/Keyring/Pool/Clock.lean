import Keyring.Config.Basic
import Keyring.Pool.Unit

/-!
# The end of the clock

A deadline is an instant of a clock that counts whole seconds in a signed 64-bit number.  An
operation that would set a deadline beyond the last of these instants crashes, and its caller
gets no answer.  A keychain that was being loaded is lost, since the unit is given it only after
the deadline is set; a keychain that was loaded before stays, with what it has derived.
-/

namespace Keyring

/-- The milliseconds after which an idle wallet is unloaded. -/
def PoolConfig.unloadInterval (c : PoolConfig) : Nat :=
  c.unloadIntervalSecs.toNat * 1000

namespace PoolUnit

/-- The first millisecond that the clock cannot tell. -/
def clockEnd : Nat :=
  UInt64.size / 2 * 1000

/-- Whether the clock can tell the deadline of a unit. -/
def isTold (u : PoolUnit) : Bool :=
  u.deadline.all (· < clockEnd)

/-- What an operation that crashed leaves, where `later` is what it would have left. -/
def interrupted (u later : PoolUnit) : PoolUnit :=
  { later with
    keychain := if u.isLoaded then later.keychain else none
    deadline := u.deadline }

/-- Does what the unit is asked to do; there is no answer if that crashes. -/
def attempt (u : PoolUnit) (ctx : PoolContext) (source : RecordSource) (now : Nat)
    (op : Keychain.Operation) : Option (Except WalletError Keychain.Answer) × PoolUnit :=
  let (answer, later) := u.operate ctx source now op
  if later.isTold then (some answer, later) else (none, u.interrupted later)

end PoolUnit

end Keyring
