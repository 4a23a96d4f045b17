import VisualNovel.Binary64.Decimal

/-!
This module contains the values that scripts compute with, and the ordered maps from names to values.
-/

namespace VisualNovel

/--
A number is a whole number, or a finite double of a sign and a number of units. A whole number and a double
are different numbers, even if they have the same value.
-/
inductive Number where
  | int (i : Int)
  | float (negative : Bool) (units : Nat)
  deriving DecidableEq, Repr, Inhabited

namespace Number

def toBinary64 : Number → Binary64
  | .int i => .ofInt i
  | .float s u => .finite s u

/--
The number for a finite double: a whole number if the double has no fraction and every whole number up to
it has a double of its own.
-/
def ofBinary64? : Binary64 → Option Number
  | .finite s u =>
    match (Binary64.finite s u).toInt? with
    | some i => some (if i.natAbs < Nat.pow 2 53 then .int i else .float s u)
    | none => some (.float s u)
  | _ => none

/--
Numbers are written without an exponent from `1e-5` to below `1e16`.
-/
def layout : Binary64.Layout :=
  { tie := .even, minPlain := -5, maxPlain := 15, plus := true }

def display : Number → String
  | .int i => toString i
  | .float s u => (Binary64.finite s u).render layout

/--
Do two numbers have the same representation? The two zeros of the doubles count as one.
-/
def same : Number → Number → Bool
  | .int i, .int j => i == j
  | .float s u, .float t v => u == v && (s == t || u == 0)
  | _, _ => false

/--
The number as a whole number from zero on, `none` for a negative number or a double.
-/
def toNat? : Number → Option Nat
  | .int (.ofNat n) => some n
  | _ => none

end Number

inductive Value where
  | null
  | bool (b : Bool)
  | number (n : Number)
  | string (s : String)
  | array (items : List Value)
  | object (fields : List (String × Value))
  deriving Repr, Inhabited

/--
Named values, in ascending order of their names.
-/
abbrev Fields := List (String × Value)

namespace Fields

def find? (key : String) : Fields → Option Value
  | [] => none
  | (k, v) :: rest => if key = k then some v else find? key rest

def contains (key : String) (fields : Fields) : Bool :=
  (find? key fields).isSome

/--
Sets the value of a name, in place if the name is there already.
-/
def insert (key : String) (value : Value) : Fields → Fields
  | [] => [(key, value)]
  | (k, v) :: rest =>
    if key = k then (key, value) :: rest
    else if key < k then (key, value) :: (k, v) :: rest
    else (k, v) :: insert key value rest

/--
The map of a list of entries; of several entries for a name the last one counts.
-/
def ofList (entries : List (String × Value)) : Fields :=
  entries.foldl (fun fields (k, v) => insert k v fields) []

@[simp]
theorem find?_insert_self (key : String) (value : Value) (fields : Fields)
    : find? key (insert key value fields) = some value := by
  induction fields with
  | nil => simp [insert, find?]
  | cons entry rest ih =>
    by_cases h : key = entry.1
    . simp [insert, find?, h]
    . by_cases hlt : key < entry.1 <;> simp [insert, find?, h, hlt, ih]

theorem find?_insert_of_ne {key other : String} (value : Value) (fields : Fields)
    (h : other ≠ key) : find? other (insert key value fields) = find? other fields := by
  induction fields with
  | nil => simp [insert, find?, h]
  | cons entry rest ih =>
    by_cases hk : key = entry.1
    . subst hk
      simp [insert, find?, h]
    . by_cases hlt : key < entry.1 <;> simp [insert, find?, h, hk, hlt, ih]

@[simp]
theorem insert_insert (key : String) (old new : Value) (fields : Fields)
    : insert key new (insert key old fields) = insert key new fields := by
  induction fields with
  | nil => simp [insert]
  | cons entry rest ih =>
    by_cases hk : key = entry.1
    . subst hk
      simp [insert]
    . by_cases hlt : key < entry.1 <;> simp [insert, hk, hlt, ih]

end Fields

namespace Value

mutual

/--
Are two values alike? Numbers are compared by their representation.
-/
def same : Value → Value → Bool
  | .null, .null => true
  | .bool a, .bool b => a == b
  | .number a, .number b => a.same b
  | .string a, .string b => a == b
  | .array as, .array bs => sameItems as bs
  | .object as, .object bs => sameFields as bs
  | _, _ => false

def sameItems : List Value → List Value → Bool
  | [], [] => true
  | a :: as, b :: bs => a.same b && sameItems as bs
  | _, _ => false

def sameFields : List (String × Value) → List (String × Value) → Bool
  | [], [] => true
  | (j, a) :: as, (k, b) :: bs => j == k && a.same b && sameFields as bs
  | _, _ => false

end

def ofNat (n : Nat) : Value :=
  .number (.int n)

def string? : Value → Option String
  | .string s => some s
  | _ => none

/--
The word that error messages use for the kind of a value.
-/
def kind : Value → String
  | .null => "null"
  | .bool _ => "boolean"
  | .number _ => "number"
  | .string _ => "string"
  | .array _ => "array"
  | .object _ => "object"

end Value
end VisualNovel
