import Keyring.Pool.Host

/-!
# Callers at the same time

A unit serves one caller at a time.  Callers that start together are served in the order
in which they start; a caller that comes back to a busy unit queues up behind the others.
Derivation and signing keep a unit busy while other callers start.

A caller asks for a row of steps.  As long as its unit is free it takes them all at once.
Once the unit is busy, it takes one step each time its turn comes.  A caller whose step crashes
takes no more of them.
-/

namespace Keyring

/-- What a caller does while it has a unit for itself. -/
inductive UnitStep
  | operate (op : Keychain.Operation)
  | unload
  | shutdown
  | readLoaded
  | readClosed
  | readCached

/-- What comes of it. -/
inductive UnitReply
  | answer (result : Except WalletError Keychain.Answer)
  | done
  | flag (b : Bool)
  | count (n : Nat)

/-- A caller of a unit: the steps it still has to take and the replies it has got, the
last one first. -/
structure Caller where
  unit : Nat
  pending : List UnitStep
  replies : List UnitReply := []
  hasCrashed : Bool := false

namespace Host

/-- Takes one step on a unit; there is no reply if that crashes. -/
def step (h : Host) (id : Nat) : UnitStep → Option UnitReply × Host
  | .operate op =>
    let (answer, h) := h.operate id op
    (answer.map .answer, h)
  | .unload =>
    let (b, h) := h.unload id
    (some (.flag b), h)
  | .shutdown => (some .done, h.shutdownUnit id)
  | .readLoaded => (some (.flag (h.units[id]?.any (·.isLoaded))), h)
  | .readClosed => (some (.flag (h.units[id]?.any (·.isClosed))), h)
  | .readCached => (some (.count ((h.units[id]?.map (·.cachedAddresses)).getD 0)), h)

/-- Whether a step keeps its unit busy: it gets as far as key stretching or derivation. -/
def keepsBusy (h : Host) (id : Nat) : UnitStep → Bool
  | .operate _ =>
    match h.units[id]? with
    | some u =>
      !u.isClosed
        && (u.isLoaded
          || ((u.findRecord h.source).bind fun record =>
            (u.openRecord h.context record).1).toBool)
    | none => false
  | _ => false

end Host

namespace Caller

/-- Takes the next step. -/
def advance (c : Caller) (h : Host) : Caller × Host :=
  match c.pending with
  | [] => (c, h)
  | s :: rest =>
    match h.step c.unit s with
    | (some reply, h) => ({ c with pending := rest, replies := reply :: c.replies }, h)
    | (none, h) => ({ c with pending := [], hasCrashed := true }, h)

/-- Takes steps until the unit is busy; answers whether it is then. -/
def start (c : Caller) (h : Host) : (steps : Nat) → Caller × Host × Bool
  | 0 => (c, h, false)
  | n + 1 =>
    match c.pending with
    | [] => (c, h, false)
    | s :: _ =>
      let busy := h.keepsBusy c.unit s
      let (c, h) := c.advance h
      if busy then (c, h, true) else c.start h n

end Caller

namespace Host

/-- Starts callers one after another; `busy` are the units that are busy by then. -/
def startAll (h : Host) (busy : List Nat) : List Caller → List Caller × Host
  | [] => ([], h)
  | c :: rest =>
    if c.unit ∈ busy then
      let (rest, h) := h.startAll busy rest
      (c :: rest, h)
    else
      let (c, h, b) := c.start h c.pending.length
      let (rest, h) := h.startAll (if b then c.unit :: busy else busy) rest
      (c :: rest, h)

/-- Gives every caller its turn once. -/
def turn (h : Host) : List Caller → List Caller × Host
  | [] => ([], h)
  | c :: rest =>
    let (c, h) := c.advance h
    let (rest, h) := h.turn rest
    (c :: rest, h)

/-- Gives every caller its turn a number of times. -/
def turns (h : Host) (callers : List Caller) : (rounds : Nat) → List Caller × Host
  | 0 => (callers, h)
  | n + 1 =>
    let (callers, h) := h.turn callers
    h.turns callers n

/-- Serves callers that start at the same time, until none has a step to take. -/
def serve (h : Host) (callers : List Caller) : List Caller × Host :=
  let rounds := (callers.map (·.pending.length)).foldl max 0
  let (callers, h) := h.startAll [] callers
  h.turns callers rounds

end Host

end Keyring
