import VisualNovel.Conductor.Error
import VisualNovel.Save
import VisualNovel.Variables

/-!
This module contains conductors. A conductor plays scripts on a host: it obeys the directives of a script
itself, and for every other tag it calls an action that the host has registered.
-/

namespace VisualNovel

/--
What an action sees and changes.
-/
structure Stage (H : Type) where
  host : H
  vars : Variables
  reactor : Reactor Cursor

/--
How a script goes on after an action: at once, when the host says so, or when a promise is kept.
-/
inductive Response where
  | proceed
  | pause
  | wait (promise : Nat)
  deriving DecidableEq, Repr

/--
An action takes a tag and its checked values. It may fail with a message.
-/
structure Action (H : Type) where
  parameters : List Parameter := []
  run : Tag → Fields → ExceptT String (StateM (Stage H)) Response

inductive Status where
  | running
  | stopped
  | asleep
  deriving DecidableEq, Repr

/--
Where a script is entered.
-/
inductive Target where
  | start
  | label (name : String)
  | saveMark (name : String)
  deriving DecidableEq, Repr

/--
A jump leaves the running script, a call comes back to it.
-/
inductive EntryMode where
  | jump
  | call
  deriving DecidableEq, Repr

/--
What a conductor that is asleep waits for: a promise that an action has made, or a script. With a save that is
restored come the game variables.
-/
inductive Pending where
  | wait (promise : Nat) (tag : String) (line : Nat)
  | load (promise : Nat) (file : String) (target : Target) (mode : EntryMode) (game : Option Fields)
  deriving Repr

structure Conductor (H : Type) where
  host : H
  actions : List (String × Action H) := []
  library : Library
  vars : Variables := {}
  reactor : Reactor Cursor := {}
  cursor : Option Cursor := none
  /-- The cursors to which calls come back, the last call first. -/
  callers : List Cursor := []
  /-- The tags of printed text that are played before the script goes on. -/
  printed : List Tag := []
  status : Status := .stopped
  pending : Option Pending := none
  /-- The save mark that has been passed last, with its file. -/
  latestMark : Option (String × String) := none

namespace Conductor

variable {H : Type}

def hasAction (c : Conductor H) (name : String) : Bool :=
  (c.actions.lookup name).isSome

/--
Registers an action under some names, in place of any other actions.
-/
def register (c : Conductor H) (names : List String) (action : Action H) : Conductor H :=
  let others := c.actions.filter fun (name, _) => !names.contains name
  { c with actions := names.eraseDups.map (·, action) ++ others }

def modifyReactor (c : Conductor H) (f : Reactor Cursor → Reactor Cursor) : Conductor H :=
  { c with reactor := f c.reactor }

/--
The point at which the game can go on later: the save mark that has been passed last.
-/
def snapshot (c : Conductor H) : Option Save :=
  c.latestMark.map fun (file, mark) => { file, mark, game := c.vars.game }

end Conductor

/--
The computations of a conductor. One that fails leaves what it has changed before.
-/
abbrev Conducting (H : Type) := ExceptT ConductorError (StateM (Conductor H))

end VisualNovel
