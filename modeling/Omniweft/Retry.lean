import Omniweft.Transactions

/-!
# The retry window

`retry::Window` admits sequence numbers in order, runs the callback of each
admitted one at most once, and keeps the last four payloads with their receipts
for two seconds.
-/

namespace Omniweft.Retry

open Transactions

def windowSize : Nat := 4

def payloadLimit : Nat := 16384

def receiptFieldLimit : Nat := 8192

/-- Two seconds, in the nanoseconds of the steady clock. -/
def receiptLifetime : Nat := 2000 * 1000000

/-- The receipts a window may keep. -/
def bounded (receipt : Receipt) : Bool :=
  decide (receipt.transactionId.length ≤ 36) && decide (receipt.status.length ≤ 16) &&
    receipt.durability == ascii "volatile" &&
    decide (receipt.created.length ≤ 4) && decide (receipt.errors.length ≤ 4) &&
    (receipt.created.all fun binding =>
      decide (binding.temporaryId.length ≤ 64) && decide (binding.worldId.length ≤ 64) &&
        binding.entityUuid.length == 36) &&
    (receipt.errors.all fun error =>
      decide (error.code.length ≤ 64) && decide (error.path.length ≤ 256) &&
        decide (error.message.length ≤ 512)) &&
    decide
      (receipt.transactionId.length + receipt.status.length + receipt.durability.length +
          (receipt.created.map fun binding =>
            binding.temporaryId.length + binding.worldId.length +
              binding.entityUuid.length).sum +
          (receipt.errors.map fun error =>
            error.code.length + error.path.length + error.message.length).sum ≤
        receiptFieldLimit)

structure Result where
  receipt : Option Receipt
  code : Text
  replayed : Bool
  deriving DecidableEq, Repr

/-- A slot of the window; sequence zero marks an empty one. -/
structure Entry where
  sequence : UInt64
  payload : Text
  receipt : Option Receipt
  deadline : Nat
  deriving DecidableEq, Repr

def Entry.empty : Entry := ⟨0, [], none, 0⟩

structure Window where
  entries : Vector Entry windowSize
  next : UInt64
  exhausted : Bool

def reset (_ : Window) : Window where
  entries := Vector.replicate windowSize Entry.empty
  next := 1
  exhausted := false

/-- The entries whose deadline has come are emptied. -/
def expire (now : Nat) (window : Window) : Window :=
  { window with
    entries := window.entries.map fun entry =>
      if entry.sequence != 0 && decide (entry.deadline ≤ now) then Entry.empty else entry }

/-- The answer to a sequence number that was consumed before. -/
def replay (window : Window) (sequence : UInt64) (canonical : Text) : Result :=
  match window.entries.toList.find? fun entry => entry.sequence == sequence with
  | none => ⟨none, ascii "REQUIRES_RESYNC", false⟩
  | some entry =>
      if entry.payload != canonical then ⟨none, ascii "IDEMPOTENCY_MISMATCH", false⟩
      else
        match entry.receipt with
        | none => ⟨none, ascii "REQUIRES_RESYNC", false⟩
        | some receipt => ⟨some receipt, [], true⟩

def slot (sequence : UInt64) : Fin windowSize :=
  ⟨(sequence - 1).toNat % windowSize, Nat.mod_lt _ (by decide)⟩

def store (window : Window) (entry : Entry) : Window :=
  { window with
    entries := window.entries.set (slot entry.sequence) entry (slot entry.sequence).isLt }

def consume (window : Window) : Window :=
  if window.next == maximum64 then { window with exhausted := true }
  else { window with next := window.next + 1 }

/-- What a call leaves behind. `ran` is what the callback did, if it ran. -/
structure Executed (σ : Type) where
  result : Result
  window : Window
  state : σ
  ran : Option (Except Thrown Receipt)

/-- The last part of `Window::execute`: the number is consumed before the
callback runs, whatever the callback then does. -/
def perform {σ : Type} (now : Nat) (sequence : UInt64) (canonical : Text)
    (apply : EStateM Thrown σ Receipt) (window : Window) (state : σ) : Executed σ :=
  let reserved : Entry := ⟨sequence, canonical, none, now + receiptLifetime⟩
  let consumed := consume (store window reserved)
  match apply state with
  | .error thrown after =>
      ⟨⟨none, ascii "REQUIRES_RESYNC", false⟩, consumed, after, some (.error thrown)⟩
  | .ok receipt after =>
      if bounded receipt then
        ⟨⟨some receipt, [], false⟩,
          store consumed { reserved with receipt := some receipt },
          after, some (.ok receipt)⟩
      else
        -- A broken callback stays consumed, with no receipt to hand out.
        ⟨⟨none, ascii "REQUIRES_RESYNC", false⟩, consumed, after, some (.ok receipt)⟩

/-- `Window::execute`. The callback may change the state it runs on, return a
receipt or throw; `none` is the empty function. -/
def execute {σ : Type} (now : Nat) (sequence : UInt64) (canonical : Text)
    (apply : Option (EStateM Thrown σ Receipt)) (before : Window) (state : σ) :
    Executed σ :=
  let window := expire now before
  if sequence == 0 || (!window.exhausted && decide (window.next < sequence)) then
    ⟨⟨none, ascii "REQUIRES_RESYNC", false⟩, window, state, none⟩
  else if decide (sequence < window.next) || window.exhausted then
    ⟨replay window sequence canonical, window, state, none⟩
  else if canonical.isEmpty || decide (payloadLimit < canonical.length) then
    ⟨⟨none, ascii "BUDGET_EXCEEDED", false⟩, window, state, none⟩
  else
    match apply with
    | none => ⟨⟨none, ascii "BUDGET_EXCEEDED", false⟩, window, state, none⟩
    | some callback => perform now sequence canonical callback window state

end Omniweft.Retry
