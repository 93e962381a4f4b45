/-
TailwindUpgrade/Literal/Value.lean

The values that configuration data is made of: those of JSON, with integers of any size beside
floating-point numbers, and expressions, which are kept as the source text they were written in
because they are no plain literal. Two values are the same if they are of one kind and have the same
parts in the same order (`same_iff`), and that can be decided.

The keys of an object are texts. Data that is handed over by a program, rather than written, could
have other keys, or hold integers that are too long to be written or read at all; both are left out.
-/
import TailwindUpgrade.Literal.Record
import TailwindUpgrade.Number.Binary64

namespace TailwindUpgrade

/-- A value of configuration data. -/
inductive Value where
  | null
  | bool (b : Bool)
  | int (n : Int)
  | float (x : Binary64)
  | str (text : Text)
  | expr (source : Text)
  | array (items : List Value)
  | object (fields : List (Text × Value))
  deriving Inhabited

namespace Value

/-- A field of an object; other values have none. -/
def field? (name : Text) : Value → Option Value
  | .object fields => Record.get? name fields
  | _ => none

/-- The fields of an object. -/
def fields? : Value → Option (Record Value)
  | .object fields => some fields
  | _ => none

/-- Whether a value counts as present where one is optional: all but null, false, zero, the empty
string and the empty containers do. -/
def isTruthy : Value → Bool
  | .null => false
  | .bool b => b
  | .int n => n ≠ 0
  | .float (.finite _ mantissa _) => mantissa ≠ 0
  | .float (.infinite _) => true
  | .str text => !text.isEmpty
  | .expr _ => true
  | .array items => !items.isEmpty
  | .object fields => !fields.isEmpty

/-! ### Equality -/

mutual

/-- Whether two values are the same. -/
def same : Value → Value → Bool
  | null, null => true
  | bool a, bool b => a = b
  | int m, int n => m = n
  | float x, float y => x = y
  | str s, str t => s = t
  | expr s, expr t => s = t
  | array as, array bs => sameItems as bs
  | object as, object bs => sameFields as bs
  | _, _ => false

/-- Whether two lists hold the same items. -/
def sameItems : List Value → List Value → Bool
  | [], [] => true
  | a :: as, b :: bs => same a b && sameItems as bs
  | _, _ => false

/-- Whether two lists hold the same fields. -/
def sameFields : List (Text × Value) → List (Text × Value) → Bool
  | [], [] => true
  | (m, a) :: as, (n, b) :: bs => m = n && same a b && sameFields as bs
  | _, _ => false

end

mutual

theorem same_iff : ∀ a b : Value, same a b = true ↔ a = b
  | null, b => by cases b <;> simp [same]
  | bool _, b => by cases b <;> simp [same]
  | int _, b => by cases b <;> simp [same]
  | float _, b => by cases b <;> simp [same]
  | str _, b => by cases b <;> simp [same]
  | expr _, b => by cases b <;> simp [same]
  | array as, b => by cases b <;> simp [same, sameItems_iff as]
  | object as, b => by cases b <;> simp [same, sameFields_iff as]

theorem sameItems_iff : ∀ as bs : List Value, sameItems as bs = true ↔ as = bs
  | [], bs => by cases bs <;> simp [sameItems]
  | a :: as, bs => by cases bs <;> simp [sameItems, same_iff a, sameItems_iff as]

theorem sameFields_iff : ∀ as bs : List (Text × Value), sameFields as bs = true ↔ as = bs
  | [], bs => by cases bs <;> simp [sameFields]
  | (m, a) :: as, bs => by
    cases bs with
    | nil => simp [sameFields]
    | cons field bs => simp [sameFields, same_iff a, sameFields_iff as, Prod.ext_iff]

end

instance : DecidableEq Value := fun a b => decidable_of_iff _ (same_iff a b)

end Value

end TailwindUpgrade
