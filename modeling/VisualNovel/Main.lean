import VisualNovel.Command.Outlook

/-!
This module contains the program. It takes over the part of the real disk that an invocation looks at, runs
the invocation on it, and writes back what has changed.
-/

namespace VisualNovel
namespace Program

def pathOf (place : Disk.Place) : String :=
  "/" ++ String.intercalate "/" place

/--
The places that a path leads through.
-/
def placesThrough (current : Disk.Place) (path : String) : List Disk.Place :=
  go current (Path.components path)
where
  go (place : Disk.Place) : List Path.Component → List Disk.Place
    | [] => [place]
    | c :: cs =>
      let next :=
        match c with
        | .root => []
        | .current => place
        | .up => place.dropLast
        | .named name => place ++ [name]
      place :: go next cs

/--
What there is at a place of the real disk. With `deep`, this includes what is below.
-/
partial def survey (deep : Bool) (place : Disk.Place) : IO (List (Disk.Place × Disk.Entry)) := do
  match ← (IO.FS.realPath (pathOf place)).toBaseIO with
  | .error _ => return []
  | .ok found =>
    if ← found.isDir then
      let inside ← if deep then found.readDir else pure #[]
      let below ← inside.toList.mapM fun item => survey deep (place ++ [item.fileName])
      return (place, .directory) :: below.flatten
    else
      return [(place, .file (← IO.FS.readBinFile (pathOf place)))]

/--
Takes over what is at a path, and on the way to it.
-/
def takeOver (disk : Disk) (path : String) : IO Disk := do
  let places := placesThrough disk.current path
  let way ← (places.dropLast.filter (!·.isEmpty)).mapM (survey false)
  let goal ← (places.getLast?.filter (!·.isEmpty)).toList.mapM (survey true)
  return (way ++ goal).flatten.foldl (fun disk (place, entry) => disk.insert place entry) disk

/--
Writes back what has changed between two states of a disk.
-/
def writeBack (before after : Disk) : IO Unit := do
  for (place, entry) in after.entries.reverse do
    match entry, before.get? place with
    | .directory, none => IO.FS.createDir (pathOf place)
    | .file bytes, some (.file old) =>
      if bytes.data != old.data then
        IO.FS.writeBinFile (pathOf place) bytes
    | .file bytes, _ => IO.FS.writeBinFile (pathOf place) bytes
    | .directory, some _ => pure ()
  for (place, entry) in before.entries do
    match entry, after.get? place with
    | .file _, none => IO.FS.removeFile (pathOf place)
    | _, _ => pure ()

/--
Adds to the console what an invocation looks at, as far as it can be told from what is there already.
-/
def lookAround (words : List String) (console : Console) : IO Console := do
  let disk ← (Command.outlook console words).foldlM takeOver console.disk
  let console := { console with disk }
  let environment ← (Command.variableNames console words).eraseDups.filterMapM fun name => do
    return (← IO.getEnv name).map (name, ·)
  return { console with environment }

/--
Shows what has been printed.
-/
def flush (console : Console) : IO Console := do
  let output ← IO.getStdout
  output.putStr console.printed
  output.flush
  return { console with printed := "" }

/--
More tags than are played without a look at the outside.
-/
def limit : Nat := 1000000

/--
Plays a session that began at a time.
-/
partial def play (began : Nat) (console : Console) (session : Session)
    : IO (Session.Ending × Console × Session) := do
  let elapsed := (← IO.monoNanosNow) - began
  let (result, session) := (session.pass elapsed).advance limit
  let (shown, console) := console.perform (Command.showSession session)
  let session := shown.toOption.getD session
  let console ← flush console
  match result with
  | .error ending => return (ending, console, session)
  | .ok .nothing => play began console session
  | .ok (.time due) =>
    IO.sleep ((due - elapsed + 999999) / 1000000).toUInt32
    play began console session
  | .ok .line =>
    if (← (← IO.getStdin).getLine).isEmpty then
      return (.over, console, session)
    else
      play began console session.press

/--
Plays a session to its end.
-/
def finish (console : Console) (session : Session) : IO (Except CommandError Unit × Console) := do
  let (ending, console, session) ← play (← IO.monoNanosNow) console session
  return console.perform (Command.closeSession ending session)

def isColoured : IO Bool := do
  return Style.isWanted (← IO.getEnv "CLICOLOR_FORCE") (← IO.getEnv "NO_COLOR") (← IO.getEnv "CLICOLOR")
    (← (← IO.getStdout).isTty)

def run (words : List String) : IO UInt32 := do
  let current := (placesThrough [] (← IO.currentDir).toString).getLastD []
  let coloured ← isColoured
  let console : Console := { disk := { current }, coloured }
  let before ← lookAround words (← lookAround words console)
  let (result, console) := before.perform (Command.start words)
  let console ← flush console
  let (result, console) ←
    match result with
    | .error e => pure (.error e, console)
    | .ok none => pure (.ok (), console)
    | .ok (some session) => finish console session
  let console ← flush console
  writeBack before.disk console.disk
  match result with
  | .ok () => return 0
  | .error e =>
    IO.eprint (console.report e)
    return e.code.toUInt32

end Program
end VisualNovel

def main (words : List String) : IO UInt32 :=
  VisualNovel.Program.run words
