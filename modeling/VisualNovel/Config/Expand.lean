import VisualNovel.Path
import VisualNovel.Text.Letter

/-!
This module contains the templates of paths, in which a tilde stands for the home directory and names behind
a dollar sign stand for environment variables.
-/

namespace VisualNovel

/--
The variables of the environment that a program runs in.
-/
abbrev Environment := List (String × String)

namespace Environment

def home? (env : Environment) : Option String :=
  (env.lookup "HOME").filter (· != "")

/--
The directory in which programs keep their caches.
-/
def cacheHome? (env : Environment) : Option String :=
  ((env.lookup "XDG_CACHE_HOME").filter Path.isAbsolute).or
    (env.home?.map fun home => Path.join home ".cache")

end Environment

namespace Template

def isNameChar (c : Char) : Bool :=
  Text.isAlphanumeric c || c == '_'

/--
Splits off the default that may follow the name of a variable in braces. A variable without a name has
none.
-/
def splitDefault (cs : List Char) : List Char × Option (List Char) :=
  go [] cs
where
  go (name : List Char) : List Char → List Char × Option (List Char)
    | ':' :: '-' :: cs =>
      if name.isEmpty then (':' :: '-' :: cs, none) else (name.reverse, some cs)
    | c :: cs => go (c :: name) cs
    | [] => (name.reverse, none)

/--
Replaces the variables in a text. The error is the name of a variable that is not set.
-/
def expandVariables (env : Environment) (cs : List Char) : Except String (List Char) :=
  match cs with
  | [] => .ok []
  | '$' :: '$' :: rest => do return '$' :: (← expandVariables env rest)
  | '$' :: '\x7b' :: rest =>
    match _h : rest.dropWhile (· != '\x7d') with
    | [] => do return '$' :: '\x7b' :: (← expandVariables env rest)
    | _ :: after => do
      let (name, default?) := splitDefault (rest.takeWhile (· != '\x7d'))
      let name := String.ofList name
      match (env.lookup name).map String.toList |>.or default? with
      | none => throw name
      | some value => return value ++ (← expandVariables env after)
  | '$' :: rest =>
    let name := rest.takeWhile isNameChar
    if _h : name.isEmpty then do
      return '$' :: (← expandVariables env rest)
    else
      match env.lookup (String.ofList name) with
      | none => throw (String.ofList name)
      | some value => do return value.toList ++ (← expandVariables env (rest.dropWhile isNameChar))
  | c :: rest => do return c :: (← expandVariables env rest)
termination_by cs.length
decreasing_by
  all_goals
    simp
    try omega
  . have := (List.dropWhile_sublist (· != '\x7d') (l := rest)).length_le
    rw [_h] at this
    simp at this
    omega
  . have := (List.dropWhile_sublist isNameChar (l := rest)).length_le
    omega

/--
Replaces a tilde at the start, if it is the whole text or a slash follows.
-/
def expandHome (env : Environment) (cs : List Char) : List Char :=
  match cs with
  | '~' :: rest =>
    if rest.isEmpty || rest.head? = some '/' then
      match env.home? with
      | some home => home.toList ++ rest
      | none => cs
    else
      cs
  | cs => cs

/--
The text of a template. A tilde that comes from a variable is kept. The error is the name of a variable that
is not set.
-/
def expand (env : Environment) (template : String) : Except String String := do
  let expanded ← expandVariables env template.toList
  if expanded.head? = some '~' && template.toList.head? != some '~' then
    return String.ofList expanded
  else
    return String.ofList (expandHome env expanded)

end Template
end VisualNovel
