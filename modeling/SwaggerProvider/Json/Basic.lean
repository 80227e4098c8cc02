import SwaggerProvider.Table
import SwaggerProvider.Decimal.Double

/-!
JSON values. Objects keep the order of their members. Two values are the same when they agree up
to the order of members; numbers agree only within their kind, so `1` and `1.0` differ.
-/

set_option autoImplicit false

namespace SwaggerProvider

/-- Whole numbers from -2⁶³ to 2⁶⁴ - 1 stay exact, all others are doubles. -/
inductive Number where
  | int (value : Int)
  | double (value : Double)
  deriving DecidableEq

def Number.same : Number → Number → Bool
  | .int a, .int b => a = b
  | .double a, .double b => a.same b
  | _, _ => false

inductive Json where
  | null
  | bool (value : Bool)
  | number (value : Number)
  | string (value : String)
  | array (items : List Json)
  | object (members : List (String × Json))

abbrev Members := Table Json

namespace Json

mutual

/-- The same value, whatever the order of the members of objects. -/
def same : Json → Json → Bool
  | .null, .null => true
  | .bool a, .bool b => a == b
  | .number a, .number b => a.same b
  | .string a, .string b => a == b
  | .array a, .array b => sameItems a b
  | .object a, .object b => a.length == b.length && sameMembers a b
  | _, _ => false

def sameItems : List Json → List Json → Bool
  | [], [] => true
  | a :: as, b :: bs => same a b && sameItems as bs
  | _, _ => false

/-- Every member of the first object stands in the second one too. -/
def sameMembers : List (String × Json) → List (String × Json) → Bool
  | [], _ => true
  | (name, value) :: rest, other =>
    (match Table.get? other name with
      | some found => same value found
      | none => false) && sameMembers rest other

end

mutual

def identical : Json → Json → Bool
  | .null, .null => true
  | .bool a, .bool b => a == b
  | .number a, .number b => a == b
  | .string a, .string b => a == b
  | .array a, .array b => identicalItems a b
  | .object a, .object b => identicalMembers a b
  | _, _ => false

def identicalItems : List Json → List Json → Bool
  | [], [] => true
  | a :: as, b :: bs => identical a b && identicalItems as bs
  | _, _ => false

def identicalMembers : List (String × Json) → List (String × Json) → Bool
  | [], [] => true
  | (m, a) :: as, (n, b) :: bs => m == n && identical a b && identicalMembers as bs
  | _, _ => false

end

mutual

@[simp] theorem identical_iff (a b : Json) : identical a b = true ↔ a = b := by
  cases a with
  | array items => cases b <;> simp [identical, identicalItems_iff items]
  | object members => cases b <;> simp [identical, identicalMembers_iff members]
  | _ => cases b <;> simp [identical]

@[simp] theorem identicalItems_iff (as bs : List Json) : identicalItems as bs = true ↔ as = bs := by
  match as, bs with
  | [], [] => simp [identicalItems]
  | [], _ :: _ => simp [identicalItems]
  | _ :: _, [] => simp [identicalItems]
  | a :: as, b :: bs => simp [identicalItems, identical_iff a b, identicalItems_iff as bs]

@[simp] theorem identicalMembers_iff (as bs : List (String × Json)) :
    identicalMembers as bs = true ↔ as = bs := by
  match as, bs with
  | [], [] => simp [identicalMembers]
  | [], _ :: _ => simp [identicalMembers]
  | _ :: _, [] => simp [identicalMembers]
  | (m, a) :: as, (n, b) :: bs =>
    simp [identicalMembers, identical_iff a b, identicalMembers_iff as bs]

end

instance : DecidableEq Json := fun a b => decidable_of_iff _ (identical_iff a b)

def isNull : Json → Bool
  | .null => true
  | _ => false

def string? : Json → Option String
  | .string s => some s
  | _ => none

def items? : Json → Option (List Json)
  | .array items => some items
  | _ => none

def members? : Json → Option Members
  | .object members => some members
  | _ => none

def member? (value : Json) (name : String) : Option Json :=
  value.members?.bind fun members => members.get? name

def isObject (value : Json) : Bool := value.members?.isSome

def ofInt (n : Int) : Json := .number (.int n)

def ofNat (n : Nat) : Json := .number (.int n)

end Json

end SwaggerProvider
