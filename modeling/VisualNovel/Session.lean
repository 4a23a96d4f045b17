import VisualNovel.Terminal

/-!
This module contains sessions: scripts that are played on a terminal. A session goes on until it needs
something from outside: a line from the reader, or that time passes.
-/

namespace VisualNovel

structure Session where
  conductor : Conductor Terminal
  /-- The file of the system variables. -/
  systemFile : String

namespace Session

/--
What a session needs in order to go on.
-/
inductive Demand where
  | nothing
  | line
  | time (due : Nat)
  deriving DecidableEq, Repr

/--
How a session comes to its end: the script is over, it fails, or it waits for something that never comes.
-/
inductive Ending where
  | over
  | failed (error : ConductorError)
  | stalled
  deriving Repr

/--
Does what is due at a time.
-/
def tickAt (s : Session) (now : Nat) : Session :=
  let (_, reactor) := s.conductor.reactor.tick now
  { s with conductor := { s.conductor with host := { s.conductor.host with now }, reactor } }

def tick (s : Session) : Session :=
  s.tickAt s.conductor.host.now

/--
Plays up to `limit` tags.
-/
def advance (limit : Nat) (s : Session) : Except Ending Demand × Session :=
  let (result, conductor) := s.conductor.conduct limit
  let s := { s with conductor }
  match result with
  | .error e => (.error (.failed e), s)
  | .ok .stopped => (.error .over, s)
  | .ok .running => (.ok .nothing, s)
  | .ok .asleep =>
    if conductor.reactor.hasQueuedJobs then
      (.ok .nothing, s.tick)
    else if conductor.host.awaiting.isSome then
      (.ok .line, s)
    else
      match conductor.reactor.nextDeadline? with
      | some due => (.ok (.time due), s)
      | none => (.error .stalled, s)

/--
The reader has entered a line.
-/
def press (s : Session) : Session :=
  tick { s with conductor := s.conductor.press.2 }

/--
Time has passed.
-/
def pass (due : Nat) (s : Session) : Session :=
  s.tickAt (max s.conductor.host.now due)

/--
Advances up to `turns` times. The lines are those that the reader enters; when there is no further one, the
session is over. Time passes as fast as it can. A session that has not come to its end has no ending.
-/
def play (limit : Nat) : Nat → List String → Session → Option Ending × Session
  | 0, _, s => (none, s)
  | turns + 1, lines, s =>
    match s.advance limit with
    | (.error ending, s) => (some ending, s)
    | (.ok .nothing, s) => play limit turns lines s
    | (.ok (.time due), s) => play limit turns lines (s.pass due)
    | (.ok .line, s) =>
      match lines with
      | [] => (some .over, s)
      | _ :: lines => play limit turns lines s.press

end Session
end VisualNovel
