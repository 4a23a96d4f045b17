import VisualNovel.Setting

/-!
This module contains the tables of a TOML document while it is read. How a table has come about decides what
may be added to it.
-/

namespace VisualNovel
namespace Toml

/--
A table comes about by the header of its own, by the header of a table in it, or by a dotted key.
-/
inductive Origin where
  | header
  | inner
  | dotted
  deriving DecidableEq, Repr

inductive Node where
  | leaf (setting : Setting)
  | table (origin : Origin) (members : List (String × Node))
  deriving Inhabited

namespace Node

def root : Node := .table .header []

mutual

def toSetting : Node → Setting
  | .leaf setting => setting
  | .table _ members => .table (toMembers members)

def toMembers : List (String × Node) → List (String × Setting)
  | [] => []
  | (key, node) :: members => (key, toSetting node) :: toMembers members

end

/--
Replaces the member of a table, or adds it at the end.
-/
def insert (key : String) (node : Node) : List (String × Node) → List (String × Node)
  | [] => [(key, node)]
  | (k, n) :: members => if k = key then (key, node) :: members else (k, n) :: insert key node members

/--
Changes the table that a path leads to. Tables on the way that are missing come about by `origin`; a dotted
key does not lead through a table that has a header.
-/
def alter (origin : Origin) (f : Origin → List (String × Node) → Option Node)
    : List String → Node → Option Node
  | _, .leaf _ => none
  | [], .table o members => f o members
  | key :: path, .table o members =>
    match members.lookup key with
    | none => do
      return .table o (insert key (← alter origin f path (.table origin [])) members)
    | some child =>
      match origin, child with
      | .dotted, .table .header _ => none
      | _, _ => do return .table o (insert key (← alter origin f path child) members)

/--
Splits a path into the way to a member and the member's key.
-/
def splitPath? (path : List String) : Option (List String × String) :=
  path.getLast?.map (path.dropLast, ·)

/--
Adds the value of a key to the table of a section. The tables on the way to the key belong to dotted keys
alone.
-/
def addPair (table : Node) (section_ path : List String) (setting : Setting) : Option Node := do
  let (way, key) ← splitPath? path
  let add (o : Origin) (members : List (String × Node)) : Option Node :=
    if (o = .dotted) = way.isEmpty || (members.lookup key).isSome then
      none
    else
      some (.table o (insert key (.leaf setting) members))
  table.alter .inner (fun o members => alter .dotted add way (.table o members)) section_

/--
Adds the table of a header. It may have come about by the header of a table in it, but not otherwise.
-/
def addHeader (table : Node) (path : List String) : Option Node := do
  let (way, key) ← splitPath? path
  table.alter .inner (fun o members =>
    match members.lookup key with
    | none => some (.table o (insert key (.table .header []) members))
    | some (.table .inner inside) => some (.table o (insert key (.table .header inside) members))
    | some _ => none) way

end Node
end Toml
end VisualNovel
