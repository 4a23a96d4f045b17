import VisualNovel.Command.Listing
import VisualNovel.Command.Upkeep
import VisualNovel.Session

/-!
This module contains the commands of the program by their names. The one that plays a script opens a session,
which is played before the command is finished.
-/

namespace VisualNovel
namespace Command

def playName : String := "run"

def sessionSwitches : List Switch :=
  [{ name := "label", letter := some 'l' }, configSwitch]

/--
Opens the session of a script.
-/
def openSession (words : List String) : Command Session := do
  let a ← readArguments playName sessionSwitches words
  let file ← operand? playName a
  let project ← project (a.value? configSwitch.name)
  let console ← get
  let vars ← require .storage (Variables.load {} console.disk project.systemFile)
  let conductor := { Conductor.onTerminal (project.library console.disk) with vars }
  let (result, conductor) :=
    conductor.startScript (file.getD project.firstScript) (a.value? "label")
  set { console with disk := conductor.library.disk }
  require .conductor result
  return { conductor, systemFile := project.systemFile }

/--
Prints what a session has written.
-/
def showSession (session : Session) : Command Session := do
  let conductor := session.conductor
  print conductor.host.written
  modify fun console => { console with disk := conductor.library.disk }
  return { session with conductor := { conductor with host := { conductor.host with written := "" } } }

/--
Ends a session. If the script is over, the system variables are saved.
-/
def closeSession (ending : Session.Ending) (session : Session) : Command Unit := do
  match ending with
  | .failed e => throw (.conductor e)
  | .stalled => throw .stalled
  | .over =>
    change .unsaved (session.conductor.vars.save session.systemFile)
    print ("\n" ++ (← paint .dim "[end of script]") ++ "\n")

/--
A command of the program. It may leave a session that is to be played.
-/
structure Entry where
  name : String
  aliases : List String := []
  summary : String
  start : List String → Command (Option Session)

/--
A command that leaves no session.
-/
def withoutSession (x : Command Unit) : Command (Option Session) := do
  x
  return none

def entries : List Entry := [
  { name := listingName
    aliases := ["p"]
    summary := "Print the tag stream of a script file"
    start := fun words => withoutSession (listTags words) },
  { name := checkName
    summary := "Parse every script under a directory and report errors"
    start := fun words => withoutSession (checkScripts words) },
  { name := playName
    aliases := ["play"]
    summary := "Play a script in the terminal"
    start := fun words => some <$> openSession words },
  { name := cacheName
    summary := "Show or clear the compiled tag cache"
    start := fun words => withoutSession (manageCache words) }
]

def find? (name : String) : Option Entry :=
  entries.find? fun entry => entry.name == name || entry.aliases.contains name

def programName : String := "novelscript"

def printUsage : Command Unit := do
  print ((← paint .boldYellow ("Usage: " ++ programName ++ " <command> [args...]")) ++ "\n\n")
  for entry in entries do
    print ("  " ++ (← paint .cyan (Listing.padRight 8 entry.name)) ++ " " ++ entry.summary ++ "\n")
  print ("\nRun `" ++ programName ++ " <command> --help` for the options of a command.\n")

def version : String := "0.4.0"

/--
What an invocation of the program asks for.
-/
inductive Invocation where
  | usage
  | version
  | run (name : String) (words : List String)
  deriving DecidableEq, Repr

/--
What a switch of the program itself asks for. The first of several letters decides.
-/
def Invocation.ofSwitch? (word : String) : Option Invocation :=
  match word.toList with
  | '-' :: '-' :: name =>
    if name = "help".toList then some .usage
    else if name = "version".toList then some .version
    else none
  | '-' :: letter :: _ =>
    if letter = 'h' then some .usage else if letter = 'V' then some .version else none
  | _ => none

/--
Whether the word behind the name of a command is a switch of the program itself.
-/
def isOwnSwitch (word : String) : Bool :=
  match word.toList with
  | '-' :: '-' :: cs =>
    let name := cs.takeWhile (· != '=')
    name == "help".toList || name == "version".toList
  | '-' :: letter :: letters => (letter :: letters).all fun c => c == 'h' || c == 'V'
  | _ => false

/--
Reads an invocation. A terminator right before or behind the name of the command is dropped.
-/
def readInvocation? : List String → Option Invocation
  | [] => some .usage
  | first :: words =>
    if first = Arguments.terminator then
      match words with
      | [] => some .usage
      | name :: words => some (.run name words)
    else if Arguments.looksLikeSwitch first then
      Invocation.ofSwitch? first
    else
      match words with
      | [] => some (.run first [])
      | second :: rest =>
        if second = Arguments.terminator then some (.run first rest)
        else if isOwnSwitch second then Invocation.ofSwitch? second
        else some (.run first words)

/--
Starts what an invocation asks for.
-/
def start (words : List String) : Command (Option Session) := do
  match readInvocation? words with
  | none => throw .badInvocation
  | some .usage => withoutSession printUsage
  | some .version => withoutSession (print (programName ++ " " ++ version ++ "\n"))
  | some (.run name words) =>
    match find? name with
    | some entry => entry.start words
    | none =>
      printUsage
      throw (.unknownCommand name)

/--
Runs an invocation to its end. A session is advanced up to `turns` times, by up to `limit` tags each time.
-/
def invoke (limit turns : Nat) (words : List String) : Command Unit := do
  match ← start words with
  | none => pure ()
  | some session =>
    let (ending, session) := session.play limit turns (← get).lines
    let session ← showSession session
    match ending with
    | some ending => closeSession ending session
    | none => pure ()

end Command
end VisualNovel
