/-!
This module contains the text form of file paths: names separated by slashes. Repeated slashes and single
points between them add nothing to a path.
-/

namespace VisualNovel
namespace Path

/--
Splits a text at every occurrence of a character.
-/
def splitAt (separator : Char) : List Char → List (List Char)
  | [] => [[]]
  | c :: cs =>
    if c = separator then
      [] :: splitAt separator cs
    else
      match splitAt separator cs with
      | [] => [[c]]
      | part :: parts => (c :: part) :: parts

inductive Component where
  | root
  | current
  | up
  | named (name : String)
  deriving DecidableEq, Repr

def isAbsolute (path : String) : Bool :=
  path.toList.head? == some '/'

/--
The components of a path. A single point counts only at the start of a relative path.
-/
def components (path : String) : List Component :=
  let parts := (splitAt '/' path.toList).map String.ofList
  let leading :=
    if isAbsolute path then [.root] else if parts.head? = some "." then [.current] else []
  leading ++ parts.filterMap fun part =>
    if part = "" || part = "." then none
    else if part = ".." then some .up
    else some (.named part)

/--
The last component, if it is a name.
-/
def fileName? (path : String) : Option String :=
  match (components path).getLast? with
  | some (.named name) => some name
  | _ => none

/--
What follows the last point of the file name. A point at the start of the name does not count.
-/
def extension? (path : String) : Option String :=
  (fileName? path).bind fun name =>
    let (reversed, rest) := name.toList.reverse.span (· != '.')
    match rest with
    | _ :: _ :: _ => some (String.ofList reversed.reverse)
    | _ => none

/--
Does a part between slashes add nothing to a path?
-/
def isBlankPart (part : String) : Bool :=
  part = "" || part = "."

/--
Drops the blank parts from the front of the reversed parts of a path, but never the first part of the path.
-/
def dropBlankParts : List String → List String
  | [] => []
  | [first] => [first]
  | part :: before => if isBlankPart part then dropBlankParts before else part :: before

/--
The path of reversed parts, of which an absolute path has an empty one before its first slash.
-/
def ofReversedParts : List String → String
  | [""] => "/"
  | parts => String.intercalate "/" parts.reverse

/--
The paths around a path, the nearest one first. Each is the text before a component, without the slashes and
single points at its end.
-/
def parents (path : String) : List String :=
  go ((splitAt '/' path.toList).map String.ofList).reverse
where
  go : List String → List String
    | [] => []
    | [first] => if first = "" then [] else [""]
    | part :: before =>
      if isBlankPart part then go before else ofReversedParts (dropBlankParts before) :: go before

/--
The path without its last component, none for the root and the empty path.
-/
def parent? (path : String) : Option String :=
  (parents path).head?

/--
The path itself and all its parents, the path first.
-/
def ancestors (path : String) : List String :=
  path :: parents path

/--
The path of something inside of a directory. An absolute path stays as it is.
-/
def join (base path : String) : String :=
  if isAbsolute path || base.isEmpty then path
  else if base.toList.getLast? == some '/' then base ++ path
  else base ++ "/" ++ path

end Path
end VisualNovel
