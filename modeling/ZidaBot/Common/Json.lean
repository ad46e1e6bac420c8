/-
Module: ZidaBot.Common.Json
Purpose: The JSON values that travel between PoP and brain, and the accessors of the JSON library that the
  parsers use: `at` (here `atKey`), `value` with a default, and `get` at the types `int`, `int64_t`, `uint64_t` and
  `std::string`.  Signed and unsigned integers of the library are one constructor; a double is the rational
  it denotes.  An object is an association list in which the first entry of a key counts.
Trusted boundary: human-reviewed model
Main exports: wrap32, wrap64, Json, JsonError, Json.atKey, Json.value, getInt, getInt64, getUInt64, getString,
  bind_ok_iff, pure_ok_iff
-/
import Mathlib.Algebra.Group.Int.Defs
import Mathlib.Algebra.Group.Nat.Defs
import Mathlib.Data.Rat.Defs

namespace ZidaBot

/-!
### Fixed-width integers
-/

/-- Conversion to a two's-complement 32-bit integer. -/
def wrap32 (n : Int) : Int := Int.bmod n (2 ^ 32)

/-- Conversion to a two's-complement 64-bit integer; also the result of a 64-bit sum or difference. -/
def wrap64 (n : Int) : Int := Int.bmod n (2 ^ 64)

/-- The range of `int64_t`. -/
def InInt64 (n : Int) : Prop := -2 ^ 63 ≤ n ∧ n < 2 ^ 63

instance (n : Int) : Decidable (InInt64 n) := inferInstanceAs (Decidable (_ ∧ _))

theorem wrap64_of_inInt64 {n : Int} (range : InInt64 n) : wrap64 n = n :=
  Int.bmod_eq_of_le_mul_two (by have := range.1; omega) (by have := range.2; omega)

theorem inInt64_wrap64 (n : Int) : InInt64 (wrap64 n) := by
  have hlow : -(2 ^ 64 / 2 : Int) ≤ wrap64 n := Int.le_bmod (by decide)
  have hhigh : wrap64 n < (2 ^ 64 + 1) / 2 := Int.bmod_lt (by decide)
  exact ⟨by omega, by omega⟩

/-- Conversion of a double to an integer drops the fraction. -/
def truncate (q : ℚ) : Int := q.num.tdiv q.den

/-!
### Values
-/

/-- A JSON value. -/
inductive Json where
  | null
  | bool (b : Bool)
  | int (n : Int)
  | float (q : ℚ)
  | string (s : String)
  | array (items : List Json)
  | object (fields : List (String × Json))

/-- What an accessor or a parser throws: the library's type error and missing key, and the
    `std::runtime_error` of a parser with its text. -/
inductive JsonError where
  | typeError
  | outOfRange
  | runtime (what : String)
deriving DecidableEq, Repr

/-- A sequence of two readers succeeds exactly if both do. -/
theorem bind_ok_iff {ε α β : Type} {x : Except ε α} {f : α → Except ε β} {r : β} :
    (x >>= f) = .ok r ↔ ∃ a, x = .ok a ∧ f a = .ok r := by
  cases x with
  | error e => simp [bind, Except.bind]
  | ok a => simp [bind, Except.bind]

theorem pure_ok_iff {ε α : Type} {a b : α} : (pure a : Except ε α) = .ok b ↔ a = b := by
  simp [pure, Except.pure]

namespace Json

/-- `at(key)`. -/
def atKey (j : Json) (key : String) : Except JsonError Json :=
  match j with
  | .object fields =>
      match fields.lookup key with
      | some v => .ok v
      | none => .error .outOfRange
  | _ => .error .typeError

/-- `value(key, default)`: the default only stands in for a missing key, never for a wrong type. -/
def value {α : Type} (get : Json → Except JsonError α) (j : Json) (key : String) (default : α) :
    Except JsonError α :=
  match j with
  | .object fields =>
      match fields.lookup key with
      | some v => get v
      | none => .ok default
  | _ => .error .typeError

/-- `get<int>`, which also takes a boolean. -/
def getInt : Json → Except JsonError Int
  | .int n => .ok (wrap32 n)
  | .float q => .ok (wrap32 (truncate q))
  | .bool b => .ok (if b then 1 else 0)
  | _ => .error .typeError

/-- `get<std::int64_t>`. -/
def getInt64 : Json → Except JsonError Int
  | .int n => .ok (wrap64 n)
  | .float q => .ok (wrap64 (truncate q))
  | _ => .error .typeError

/-- `get<std::uint64_t>`. -/
def getUInt64 : Json → Except JsonError UInt64
  | .int n => .ok (UInt64.ofInt n)
  | .float q => .ok (UInt64.ofInt (truncate q))
  | _ => .error .typeError

/-- `get<std::string>`. -/
def getString : Json → Except JsonError String
  | .string s => .ok s
  | _ => .error .typeError

section Lookup

variable {α : Type} {get : Json → Except JsonError α} {fields : List (String × Json)} {key : String}
  {default : α}

@[simp] theorem value_object :
    value get (.object fields) key default = (fields.lookup key).elim (.ok default) get := by
  rw [value]
  cases fields.lookup key <;> rfl

@[simp] theorem atKey_object :
    (Json.object fields).atKey key = (fields.lookup key).elim (.error .outOfRange) .ok := by
  rw [Json.atKey]
  cases fields.lookup key <;> rfl

end Lookup

end Json

end ZidaBot
