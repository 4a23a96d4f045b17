import VisualNovel.Json.Record

/-!
This module contains settings: what a configuration file says, whichever format it is written in.
-/

namespace VisualNovel

inductive Setting where
  | nothing
  | flag (b : Bool)
  | whole (i : Int)
  | text (s : String)
  | list (items : List Setting)
  | table (members : List (String × Setting))
  /-- A value that no field of a record takes, such as a number with a fraction or a date. -/
  | other
  deriving Repr, Inhabited

/--
The formats of configuration files.
-/
inductive Setting.Format where
  | json
  | toml
  deriving DecidableEq, Repr

namespace Setting

mutual

/--
The settings of a JSON document.
-/
def ofJson? : Json → Option Setting
  | .null => some .nothing
  | .bool b => some (.flag b)
  | .number n =>
    n.toNumber?.map fun
      | .int i => .whole i
      | _ => .other
  | .string pieces => (Json.text? pieces).map .text
  | .array items => (ofItems? items).map .list
  | .object members => (ofMembers? members).map .table

def ofItems? : List Json → Option (List Setting)
  | [] => some []
  | item :: items => do return (← ofJson? item) :: (← ofItems? items)

def ofMembers? : List (List Json.Piece × Json) → Option (List (String × Setting))
  | [] => some []
  | (name, member) :: members => do
    return (← Json.text? name, ← ofJson? member) :: (← ofMembers? members)

end

/--
The fields of a record, in the order of the names: a table of no other members, each at most once, or a list
of the fields in their order. Only JSON minds a list that is too long.
-/
def fields? (format : Format) (names : List String) : Setting → Option (List (Option Setting))
  | .table members =>
    let keys := members.map (·.1)
    if keys.all names.contains && keys.eraseDups.length = keys.length then
      some (names.map fun name => members.lookup name)
    else
      none
  | .list items =>
    if format = .json && names.length < items.length then
      none
    else
      some ((items.take names.length).map some ++ List.replicate (names.length - items.length) none)
  | _ => none

/--
A field that is left out has its default.
-/
def orDefault {α : Type} (default : α) (read : Setting → Option α) : Option Setting → Option α
  | none => some default
  | some setting => read setting

def text? : Setting → Option String
  | .text s => some s
  | _ => none

def flag? : Setting → Option Bool
  | .flag b => some b
  | _ => none

/--
A whole number from zero on that fits in 64 bits.
-/
def nat? : Setting → Option Nat
  | .whole (.ofNat n) => if n < Nat.pow 2 64 then some n else none
  | _ => none

/--
A text that may be missing.
-/
def optionalText? : Setting → Option (Option String)
  | .nothing => some none
  | .text s => some (some s)
  | _ => none

/--
The name of a choice: a text, or a table of one member that holds nothing.
-/
def choice? (format : Format) : Setting → Option String
  | .text s => some s
  | .table [(name, payload)] =>
    match format, payload with
    | .json, .nothing | .toml, .list [] | .toml, .table [] => some name
    | _, _ => none
  | _ => none

end Setting
end VisualNovel
