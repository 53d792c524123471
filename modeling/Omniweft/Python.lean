import Omniweft.Scalar
import Omniweft.Text
import Omniweft.Library.Outcome

/-!
# Python values

What the SDK sees of a JSON document, and the checks its models are made of. A
`str` is kept as its UTF-8 bytes. The interpreter's own `json` module and the exact
comparison of its numbers are a parameter.
-/

namespace Omniweft.Python

open Outcome

/-- A value of `json.loads`. Dictionaries keep the order of their text. -/
inductive Value (α : Type) where
  | none
  | boolean (value : Bool)
  | integer (value : Int)
  | float (value : α)
  | str (value : Text)
  | list (items : List (Value α))
  | dict (entries : List (Text × Value α))

/-- The exceptions of the SDK: `ProtocolError`, `ApiError` and `OutcomeUnknown`. -/
inductive Raised where
  | protocol
  | api (code : Text) (status : Nat)
  | unknown
  deriving DecidableEq, Repr

/-- What the SDK takes from the interpreter. `loads` is `json.loads` with the hooks
that refuse repeated keys and constants, `dumps` the compact `json.dumps` without
NaN, both over UTF-8; `toFloat` is `float` of an `int`, which can overflow. -/
structure Interpreter (α : Type) where
  loads : Text → Option (Value α)
  dumps : Value α → Option Text
  toFloat : Int → Option α
  equalsInt : Int → α → Bool

def uint64Max : Int := 18446744073709551615

section Checks

variable {α : Type}

abbrev Entries (α : Type) := List (Text × Value α)

/-- The value of a key that `fields` has found. -/
def get (entries : Entries α) (name : String) : Value α :=
  (entries.lookup (ascii name)).getD .none

/-- `fields`: a dictionary with exactly the named keys. -/
def fields (value : Value α) (names : List String) : Except Raised (Entries α) :=
  match value with
  | .dict entries =>
      let keys := entries.map Prod.fst
      if (keys.all fun key => (names.map ascii).contains key) &&
          (names.all fun name => keys.contains (ascii name)) then
        .ok entries
      else .error .protocol
  | _ => .error .protocol

def integer (value : Value α) (minimum maximum : Int) : Except Raised Int :=
  match value with
  | .integer number =>
      if minimum ≤ number ∧ number ≤ maximum then .ok number else .error .protocol
  | _ => .error .protocol

/-- The code points of a UTF-8 text: its bytes that continue nothing. -/
def characters (text : Text) : Nat :=
  text.countP fun byte => byte &&& 192 != 128

def text (value : Value α) (maximum : Nat) : Except Raised Text :=
  match value with
  | .str text =>
      if text = [] ∨ maximum < characters text then .error .protocol else .ok text
  | _ => .error .protocol

def hexadecimal (character : UInt8) : Bool :=
  (48 ≤ character && character ≤ 57) || (97 ≤ character && character ≤ 102)

/-- The pattern `UUID`. -/
def uuidPattern (text : Text) : Bool :=
  decide (text.length = 36) &&
    text.zipIdx.all fun entry =>
      if entry.2 = 8 ∨ entry.2 = 13 ∨ entry.2 = 18 ∨ entry.2 = 23 then entry.1 == 45
      else hexadecimal entry.1

def uuid (value : Value α) : Except Raised Text :=
  match value with
  | .str text => if uuidPattern text then .ok text else .error .protocol
  | _ => .error .protocol

/-- The pattern `HEX64`. -/
def hex64Pattern (text : Text) : Bool :=
  decide (text.length = 64) && text.all hexadecimal

def epoch (value : Value α) : Except Raised Text :=
  match value with
  | .str text => if hex64Pattern text then .ok text else .error .protocol
  | _ => .error .protocol

/-- `value == "literal"`. -/
def isLiteral (value : Value α) (literal : String) : Bool :=
  match value with
  | .str text => text == ascii literal
  | _ => false

variable [Scalar α]

mutual

/-- The walk of `decode`: containers to a depth of 32, and finite numbers. -/
def walk : Nat → Value α → Bool
  | _, .float value => Scalar.isFinite value
  | depth, .list items => walkItems depth items
  | depth, .dict entries => walkEntries depth entries
  | _, _ => true

def walkItems : Nat → List (Value α) → Bool
  | _, [] => true
  | depth, item :: rest => decide (depth < 32) && walk (depth + 1) item && walkItems depth rest

def walkEntries : Nat → List (Text × Value α) → Bool
  | _, [] => true
  | depth, (_, item) :: rest =>
      decide (depth < 32) && walk (depth + 1) item && walkEntries depth rest

end

def decode (python : Interpreter α) (data : Text) (limit : Nat) : Except Raised (Value α) :=
  if limit < data.length then .error .protocol
  else
    match python.loads data with
    | some value => if walk 0 value then .ok value else .error .protocol
    | none => .error .protocol

/-- An `int` or a `float` as the finite `float` that `vector` makes of it. -/
def number (python : Interpreter α) (value : Value α) : Except Raised α :=
  match value with
  | .integer value =>
      match python.toFloat value with
      | some converted =>
          if Scalar.isFinite converted then .ok converted else .error .protocol
      | none => .error .protocol
  | .float value => if Scalar.isFinite value then .ok value else .error .protocol
  | _ => .error .protocol

end Checks

variable {α : Type}

theorem integer_eq_ok {value : Value α} {minimum maximum number : Int} :
    integer value minimum maximum = .ok number ↔
      value = .integer number ∧ minimum ≤ number ∧ number ≤ maximum := by
  constructor
  · intro read
    unfold integer at read
    split at read
    · rename_i held
      split at read
      · rename_i within
        rw [Except.ok.injEq] at read
        rw [← read]
        exact ⟨rfl, within⟩
      · exact absurd read (by simp)
    · exact absurd read (by simp)
  · intro both
    obtain ⟨rfl, within⟩ := both
    exact if_pos within

theorem fields_dict {value : Value α} {names : List String} {entries : Entries α}
    (read : fields value names = .ok entries) : value = .dict entries := by
  unfold fields at read
  split at read
  · dsimp only at read
    split at read
    · rw [Except.ok.injEq] at read
      rw [read]
    · exact absurd read (by simp)
  · exact absurd read (by simp)

end Omniweft.Python
