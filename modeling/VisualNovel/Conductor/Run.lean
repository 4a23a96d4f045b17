import VisualNovel.Conductor.Dispatch

/-!
This module contains the life of a conductor: it is started with a script, plays tags until it stops or falls
asleep, and wakes up when what it waits for has come.
-/

namespace VisualNovel
namespace Conducting

variable {H : Type}

/--
The tag that is played next: printed text comes before the script.
-/
def nextTag : Conducting H (Option Tag) := do
  let c ← get
  match c.printed, c.cursor with
  | tag :: printed, _ =>
    set { c with printed }
    return some tag
  | [], none => return none
  | [], some cursor =>
    let (result, cursor, vars) := cursor.next c.library.macros Tag.resolve c.vars
    set { c with cursor := some cursor, vars }
    match result with
    | .ok tag => return tag
    | .error e => throw (.script e)

/--
Plays one tag. At the end of the script the conductor stops.
-/
def step : Conducting H Unit := do
  match ← nextTag with
  | some tag => dispatch tag
  | none => modify fun c => { c with status := .stopped }

/--
Wakes up if what the conductor waits for has come. If it has failed, the conductor no longer waits for it.
-/
def wake : Conducting H Unit := do
  let c ← get
  match c.pending with
  | none => set { c with status := .running }
  | some (.wait promise tag line) =>
    match c.reactor.outcome? promise with
    | none => pure ()
    | some (.done _) => set { c with pending := none, status := .running }
    | some (.failed fault) =>
      set { c with pending := none }
      throw (.action tag line fault.message)
  | some (.load promise file target mode game) =>
    match c.reactor.outcome? promise with
    | none => pure ()
    | some (.failed fault) =>
      set { c with pending := none }
      throw (.load file fault)
    | some (.done cursor) =>
      set { c with pending := none }
      match cursor with
      | some cursor => enter cursor target mode
      | none => pure ()
      match game with
      | some game =>
        modify fun c => { c with
          vars := c.vars.clearTemporary.replaceGame game
          callers := []
          printed := [] }
      | none => pure ()
      modify fun c => { c with status := .running }

/--
Runs a computation whose failure stops the conductor.
-/
def orStop (x : Conducting H Unit) : Conducting H Unit :=
  tryCatch x fun e => do
    modify fun c => { c with status := .stopped }
    throw e

/--
Plays up to `limit` tags, as long as the conductor runs.
-/
def playOn : Nat → Conducting H Unit
  | 0 => pure ()
  | limit + 1 => do
    if (← get).status = .running then
      orStop step
      playOn limit

/--
Wakes up if it is time to, and plays tags until the conductor stops or falls asleep. Returns the status of the
conductor, which is still running if `limit` tags have not been enough.
-/
def conduct (limit : Nat) : Conducting H Status := do
  if (← get).status = .asleep then
    orStop wake
  playOn limit
  return (← get).status

/--
Starts a script at a label or at its start. If this fails, the conductor goes on as before.
-/
def startScript (file : String) (label : Option String) : Conducting H Unit := do
  let c ← get
  let (result, library) := c.library.load file
  set { c with library }
  match result with
  | .error e => throw (.library e)
  | .ok cursor =>
    let found : Except CursorError Cursor :=
      match label with
      | some name => cursor.goToLabel name
      | none => .ok cursor
    match found with
    | .error e => throw (.script e)
    | .ok cursor =>
      modify fun c => { c with
        cursor := some cursor, callers := [], printed := [], pending := none, status := .running }

end Conducting

namespace Conductor

variable {H : Type}

/--
Goes on after a stop. Without a script, or while the conductor is asleep, this does nothing.
-/
def resume (c : Conductor H) : Conductor H :=
  if c.status = .stopped && c.cursor.isSome then { c with status := .running } else c

/--
Stops, and gives up what the conductor waits for.
-/
def stop (c : Conductor H) : Conductor H :=
  { c with pending := none, status := .stopped }

/--
Falls asleep until the script of a save is loaded. Only then the game variables are replaced, and the
temporary variables and the calls are dropped.
-/
def restore (c : Conductor H) (save : Save) : Conductor H :=
  let asleep : Conducting H Unit :=
    Conducting.awaitScript save.file (.saveMark save.mark) .jump (some save.game)
  (asleep.run.run c).2

def conduct (limit : Nat) (c : Conductor H) : Except ConductorError Status × Conductor H :=
  (Conducting.conduct limit).run.run c

def startScript (file : String) (label : Option String) (c : Conductor H)
    : Except ConductorError Unit × Conductor H :=
  (Conducting.startScript file label).run.run c

end Conductor
end VisualNovel
