import VisualNovel.Text.Numeral
import VisualNovel.Value.Basic

/-!
This module contains reading and writing inside of values: the property of a value under a key, and the
value with a property replaced that a path of keys leads to.
-/

namespace VisualNovel
namespace Value

/--
The position that a key names in an array.
-/
def index? (key : String) : Option Nat :=
  Text.readNat64? key.toList

/--
The property under a key, null where there is none. Arrays and texts have a length.
-/
def property (key : String) : Value → Value
  | .object fields => (Fields.find? key fields).getD .null
  | .array items =>
    if key = "length" then .ofNat items.length else ((index? key).bind (items[·]?)).getD .null
  | .string s => if key = "length" then .ofNat s.length else .null
  | _ => .null

/--
Why a property cannot be set. The key is always the last one of the path.
-/
inductive WriteFault where
  | undefinedParent (key : String)
  | badIndex (key : String)
  | outOfRange (index : Nat)
  | notAContainer (key : String) (value : Value)
  deriving Repr

/--
Sets the property under a key. An array may grow by one item at its end.
-/
def setProperty (key : String) (value : Value) : Value → Except WriteFault Value
  | .object fields => .ok (.object (Fields.insert key value fields))
  | .array items =>
    match index? key with
    | none => .error (.badIndex key)
    | some i =>
      if i = items.length then .ok (.array (items ++ [value]))
      else if i < items.length then .ok (.array (items.set i value))
      else .error (.outOfRange i)
  | other => .error (.notAContainer key other)

/--
Sets the property under the key `last` of what the keys before it lead to. These parents must exist.
-/
def setPath (last : String) (value : Value) : List String → Value → Except WriteFault Value
  | [], container => setProperty last value container
  | key :: keys, .object fields =>
    match Fields.find? key fields with
    | none => .error (.undefinedParent last)
    | some inner => do
      let changed ← setPath last value keys inner
      return .object (Fields.insert key changed fields)
  | key :: keys, .array items =>
    match (index? key).bind fun i => items[i]?.map (i, ·) with
    | none => .error (.undefinedParent last)
    | some (i, inner) => do
      let changed ← setPath last value keys inner
      return .array (items.set i changed)
  | _ :: _, _ => .error (.undefinedParent last)

end Value
end VisualNovel
