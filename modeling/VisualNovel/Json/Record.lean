import VisualNovel.Json.Basic

/-!
This module contains records written as JSON: an object with a member for each field, or an array of the
fields in their order. A field occurs at most once. Members of other names are ignored.
-/

namespace VisualNovel
namespace Json

/--
The fields of an object. A field that is left out has no value.
-/
def readMembers (names : List String) (found : List (String × Json))
    : List (List Piece × Json) → Option (List (Option Json))
  | [] => some (names.map fun name => found.lookup name)
  | (pieces, member) :: members => do
    let name ← text? pieces
    if !names.contains name then
      readMembers names found members
    else if (found.lookup name).isSome then
      none
    else
      readMembers names ((name, member) :: found) members

/--
The fields of a record, in the order of the names.
-/
def record? (names : List String) : Json → Option (List (Option Json))
  | .object members => readMembers names [] members
  | .array items =>
    if names.length < items.length then
      none
    else
      some (items.map some ++ List.replicate (names.length - items.length) none)
  | _ => none

/-! ### The values of fields -/

def string? : Json → Option String
  | .string pieces => text? pieces
  | _ => none

def strings? : Json → Option (List String)
  | .array items => items.mapM string?
  | _ => none

/--
A whole number from zero on that fits in 64 bits.
-/
def nat? : Json → Option Nat
  | .number n => n.toNumber?.bind Number.toNat?
  | _ => none

/--
An object of values, inside of a record.
-/
def fields? (json : Json) : Option Fields :=
  match json.toValue? (maxDepth - 1) with
  | some (.object fields) => some fields
  | _ => none

end Json
end VisualNovel
