import VisualNovel.Conductor.Run

/-!
This module contains the host that plays scripts on a terminal: it writes their text, and waits for the reader
or for a time. Times are in nanoseconds.
-/

namespace VisualNovel

structure Terminal where
  /-- The text that has been written since it was shown last. -/
  written : String := ""
  /-- The promise that the reader keeps by going on. -/
  awaiting : Option Nat := none
  now : Nat := 0
  deriving Repr, Inhabited

namespace Terminal

def write (t : Terminal) (text : String) : Terminal :=
  { t with written := t.written ++ text }

/--
The sign that the reader is waited for.
-/
def marker : String := " <"

/--
The nanoseconds of a time in milliseconds, rounded to nearest and half to even. Negative times count as
none, and so do those of `2 ^ 64` seconds and more.
-/
def nanoseconds (time : Number) : Nat :=
  match time.toBinary64.div (.ofNat 1000) with
  | .finite false units =>
    if Nat.pow 2 64 * Binary64.one ≤ units then
      0
    else
      Binary64.roundDiv (units * 1000000000) Binary64.one
  | _ => 0

def printText (values : Fields) : ExceptT String (StateM (Stage Terminal)) Response := do
  let text := ((Fields.find? "text" values).bind Value.string?).getD ""
  modify fun s => { s with host := s.host.write text }
  return .proceed

def breakLine : ExceptT String (StateM (Stage Terminal)) Response := do
  modify fun s => { s with host := s.host.write "\n" }
  return .proceed

/--
Waits for the reader. `after` is written at once.
-/
def awaitReader (after : String) : ExceptT String (StateM (Stage Terminal)) Response := do
  let s ← get
  let (promise, reactor) := s.reactor.create
  set { s with host := { s.host.write (marker ++ after) with awaiting := some promise }, reactor }
  return .wait promise

def awaitTime (values : Fields) : ExceptT String (StateM (Stage Terminal)) Response := do
  let delay :=
    match Fields.find? "time" values with
    | some (.number time) => nanoseconds time
    | _ => 0
  let s ← get
  let (promise, reactor) := s.reactor.sleep (s.host.now + delay)
  set { s with reactor }
  return .wait promise

def actions : List (String × Action Terminal) := [
  (Directive.char.name, {
    parameters := [{ name := "text", kind := .string, presence := .required }]
    run := fun _ values => printText values
  }),
  (Directive.lineBreak.name, { run := fun _ _ => breakLine }),
  ("l", { run := fun _ _ => awaitReader "" }),
  ("p", { run := fun _ _ => awaitReader "\n" }),
  ("wait", {
    parameters := [{ name := "time", kind := .number, presence := .required }]
    run := fun _ values => awaitTime values
  })
]

end Terminal

namespace Conductor

/--
A conductor that plays on a terminal.
-/
def onTerminal (library : Library) : Conductor Terminal :=
  { host := {}, library, actions := Terminal.actions }

/--
The reader goes on. Returns whether this was waited for.
-/
def press (c : Conductor Terminal) : Bool × Conductor Terminal :=
  match c.host.awaiting with
  | none => (false, c)
  | some promise =>
    let (settled, reactor) := c.reactor.resolve promise (.done none)
    (settled, { c with host := { c.host with awaiting := none }, reactor })

end Conductor
end VisualNovel
