/-! Script documents: the JSON values that scripts and answers are written in. A number written
as a plain numeral that fits a 64-bit integer type is an integer; every other number is read as
floating point and kept as written, since no script needs its value. `null` members count as
absent, except where a step asks for a member as written (`member?`). -/
namespace ThreadKit.Script

/-- A JSON value. -/
inductive Value where
  /-- The literal `null`. -/
  | null
  /-- `true` or `false`. -/
  | bool (b : Bool)
  /-- A plain numeral in the range of a 64-bit integer type: below `2 ^ 64`, and at least
  `-2 ^ 63` when negative. -/
  | int (n : Int)
  /-- Any other number, as written: one with a fraction or an exponent, negative zero, or a
  numeral out of the 64-bit range. -/
  | float (literal : String)
  /-- A string. -/
  | str (s : String)
  /-- An array. -/
  | arr (items : List Value)
  /-- An object, as its members in order. -/
  | obj (members : List (String × Value))
  deriving Inhabited

namespace Value

/-- The member `key` of an object. A member whose value is `null` is absent. -/
def get? : Value → String → Option Value
  | .obj members, key =>
    match members.lookup key with
    | some .null => none
    | found => found
  | _, _ => none

/-- The member `key` of an object as written, `null` included. -/
def member? : Value → String → Option Value
  | .obj members, key => members.lookup key
  | _, _ => none

/-- The text of a string value. -/
def string? : Value → Option String
  | .str s => some s
  | _ => none

/-- The integer a value denotes; floating-point numbers and other values have none. -/
def integer? : Value → Option Int
  | .int n => some n
  | _ => none

/-- The items of an array value. -/
def items? : Value → Option (List Value)
  | .arr items => some items
  | _ => none

/-- Whether the value is the literal `true`; every other value counts as false. -/
def isTrue : Value → Bool
  | .bool true => true
  | _ => false

/-- The most a single numeral counts towards the weight of a value. -/
def numeralWeightCap : Nat := 200000

mutual

/-- A size of a value in which a numeral counts its magnitude, up to `numeralWeightCap`: the work
a script asks for is bounded by a function of its weight. -/
def weight : Value → Nat
  | .int n => 1 + min n.natAbs numeralWeightCap
  | .arr items => 1 + weightAll items
  | .obj members => 1 + weightMembers members
  | _ => 1

/-- The total weight of a list of values. -/
def weightAll : List Value → Nat
  | [] => 0
  | v :: vs => v.weight + weightAll vs

/-- The total weight of the values of an object's members. -/
def weightMembers : List (String × Value) → Nat
  | [] => 0
  | (_, v) :: ms => v.weight + weightMembers ms

end

@[simp] theorem get?_obj_nil (key : String) : (Value.obj []).get? key = none := rfl

@[simp] theorem integer?_int (n : Int) : (int n).integer? = some n := rfl

@[simp] theorem string?_str (s : String) : (Value.str s).string? = some s := rfl

end Value

end ThreadKit.Script
