/-!
This module contains the arguments of commands: operands, and switches by name, of which some take a value.
-/

namespace VisualNovel

structure Switch where
  name : String
  /-- The letter that stands for the name. -/
  letter : Option Char := none
  takesValue : Bool := true
  deriving DecidableEq, Repr

structure Arguments where
  operands : List String := []
  /-- The switches that are given, with their values. One that takes no value has the empty one. -/
  values : List (String × String) := []
  deriving DecidableEq, Repr

namespace Arguments

/--
The word behind which there are only operands.
-/
def terminator : String := "--"

/--
A single dash is an operand.
-/
def looksLikeSwitch (word : String) : Bool :=
  match word.toList with
  | '-' :: _ :: _ => true
  | _ => false

def value? (a : Arguments) (name : String) : Option String :=
  a.values.lookup name

def has (a : Arguments) (name : String) : Bool :=
  (a.value? name).isSome

/--
A switch can be given only once.
-/
def give? (a : Arguments) (name value : String) : Option Arguments :=
  if a.has name then none else some { a with values := (name, value) :: a.values }

/--
The switch of a word, and the value that is attached to it.
-/
def switchOf? (switches : List Switch) (word : String) : Option (Switch × Option String) :=
  match word.toList with
  | '-' :: '-' :: cs =>
    let (name, attached) := cs.span (· != '=')
    (switches.find? (·.name == String.ofList name)).map fun switch =>
      (switch, attached.tail?.map String.ofList)
  | '-' :: letter :: cs =>
    let attached :=
      match cs with
      | [] => none
      | '=' :: cs => some (String.ofList cs)
      | cs => some (String.ofList cs)
    (switches.find? (·.letter == some letter)).map (·, attached)
  | _ => none

/--
Reads words. `expected` is the switch whose value comes next. If `stop` is set, the first operand ends the
reading; it comes back with the words behind it.
-/
def scan (switches : List Switch) (stop : Bool) (expected : Option String) (a : Arguments)
    : List String → Option (Arguments × List String)
  | [] => if expected.isNone then some (a, []) else none
  | word :: words =>
    match expected with
    | some name =>
      if looksLikeSwitch word then
        none
      else
        (a.give? name word).bind fun a => scan switches stop none a words
    | none =>
      if stop && (word = terminator || !looksLikeSwitch word) then
        some (a, word :: words)
      else if word = terminator then
        some ({ a with operands := a.operands ++ words }, [])
      else if looksLikeSwitch word then
        match switchOf? switches word with
        | none => none
        | some (switch, attached) =>
          match switch.takesValue, attached with
          | true, none => scan switches stop (some switch.name) a words
          | true, some value =>
            (a.give? switch.name value).bind fun a => scan switches stop none a words
          | false, none => (a.give? switch.name "").bind fun a => scan switches stop none a words
          | false, some _ => none
      else
        scan switches stop none { a with operands := a.operands ++ [word] } words

/--
The arguments that words stand for.
-/
def read? (switches : List Switch) (words : List String) : Option Arguments :=
  (scan switches false none {} words).map fun (a, _) => a

/--
The switches before the first operand, that operand, and the words behind it.
-/
def readAction? (switches : List Switch) (words : List String)
    : Option (Arguments × String × List String) :=
  match scan switches true none {} words with
  | some (a, action :: words) => some (a, action, words)
  | _ => none

end Arguments
end VisualNovel
