import VisualNovel.Proofs.Playing.Calls

/-!
This module contains the course of a script that nothing suspends: one moment follows from another, whatever
the actions answer, whenever promises are kept, and as soon as a script has been asked for it is there.
-/

namespace VisualNovel

variable {H K : Type}

/--
What an action does to the host and to the variables.
-/
structure Deed (H : Type) where
  parameters : List Parameter
  run : Tag → Fields → H → Variables → H × Variables

/--
An action does a deed to what is seen of its host. It may answer what it likes and use the reactor, where it
refers to promises that have been made.
-/
structure Action.Does (view : K → H) (deed : Deed H) (action : Action K) : Prop where
  parameters : action.parameters = deed.parameters
  effect : ∀ tag values (stage : Stage K),
    let after := ((action.run tag values).run.run stage).2
    (view after.host, after.vars) = deed.run tag values (view stage.host) stage.vars
  closed : ∀ tag values (stage : Stage K), stage.reactor.Closed →
    ((action.run tag values).run.run stage).2.reactor.Closed
  waits : ∀ tag values (stage : Stage K) promise,
    ((action.run tag values).run.run stage).1 = .ok (.wait promise) →
    promise < ((action.run tag values).run.run stage).2.reactor.promises.length

def Realizes (view : K → H) (deeds : String → Option (Deed H)) (actions : List (String × Action K)) : Prop :=
  ∀ name,
    match deeds name, actions.lookup name with
    | some deed, some action => action.Does view deed
    | none, none => True
    | _, _ => False

def Library.outcomeOf : Except LibraryError Cursor → Outcome Cursor
  | .ok cursor => .done (some cursor)
  | .error e => .failed (.failed e.message)

theorem Library.loadLater_eq (lib : Library) (file : String) (reactor : Reactor Cursor)
    : lib.loadLater file reactor
        =
      (reactor.promises.length, (lib.load file).2,
        reactor.create.2.enqueue (.settle reactor.promises.length (outcomeOf (lib.load file).1))) := by
  unfold loadLater Reactor.create
  cases lib.load file with
  | mk result lib => cases result <;> rfl

namespace Conductor

/--
What is seen of a conductor when it is about to play on, without its actions, its reactor and its status.
-/
def moment (view : K → H) (c : Conductor K) : Conductor H :=
  c.within { host := view c.host, actions := [], reactor := {}, status := .running, pending := none }

def arrive (outcome : Outcome Cursor) (target : Target) (mode : EntryMode) (c : Conductor H) : Conductor H :=
  match outcome with
  | .done (some cursor) => ((Conducting.enter cursor target mode).run.run c).2
  | _ => c

def nextCall (deeds : String → Option (Deed H)) (tag : Tag) (c : Conductor H)
    : Option Happening × Conductor H :=
  match deeds tag.name with
  | none => (some (.fault (.unknownTag tag.name tag.line)), c)
  | some deed =>
    match (Conducting.resolve tag).run.run c with
    | (.error e, c) => (some (.fault e), c)
    | (.ok values, c) =>
      match Parameter.validate deed.parameters values with
      | .error e => (some (.fault (.parameter tag.name tag.line e)), c)
      | .ok values =>
        let call : Call := {
          tag, values, vars := c.vars, cursor := c.cursor, callers := c.callers, printed := c.printed
        }
        let (host, vars) := deed.run tag values c.host c.vars
        (some (.call call), { c with host, vars })

/--
What the next tag comes to, and the moment after it.
-/
def next (deeds : String → Option (Deed H)) (c : Conductor H) : Option Happening × Conductor H :=
  match Conducting.decide.run.run c with
  | (.error e, c) => (some (.fault e), c)
  | (.ok .goOn, c) | (.ok .stop, c) => (none, c)
  | (.ok (.load file target mode), c) =>
    let (result, library) := c.library.load file
    (none, arrive (Library.outcomeOf result) target mode { c with library })
  | (.ok (.play tag), c) => c.nextCall deeds tag

def happenings (deeds : String → Option (Deed H)) : Nat → Conductor H → List Happening
  | 0, _ => []
  | n + 1, c => (c.next deeds).1.toList ++ happenings deeds n (c.next deeds).2

def after (deeds : String → Option (Deed H)) : Nat → Conductor H → Conductor H
  | 0, c => c
  | n + 1, c => after deeds n (c.next deeds).2

theorem happenings_add (deeds : String → Option (Deed H)) (m n : Nat) (c : Conductor H)
    : c.happenings deeds (m + n) = c.happenings deeds m ++ (c.after deeds m).happenings deeds n := by
  induction m generalizing c with
  | zero => simp [happenings, after]
  | succ m ih =>
    rw [Nat.add_right_comm, happenings, happenings, after, ih, List.append_assoc]

theorem happenings_mono (deeds : String → Option (Deed H)) {m n : Nat} (h : m ≤ n) (c : Conductor H)
    : c.happenings deeds m <+: c.happenings deeds n := by
  obtain ⟨k, rfl⟩ := Nat.exists_eq_add_of_le h
  rw [happenings_add]
  exact List.prefix_append _ _

theorem after_add (deeds : String → Option (Deed H)) (m n : Nat) (c : Conductor H)
    : c.after deeds (m + n) = (c.after deeds m).after deeds n := by
  induction m generalizing c with
  | zero => simp [after]
  | succ m ih => rw [Nat.add_right_comm, after, after, ih]

end Conductor

namespace Conducting

variable {α : Type}

theorem Detached.surroundings {x : Conducting K α} (h : Detached x x) (c : Conductor K)
    : (x.run.run c).2.surroundings = c.surroundings := by
  have hself := congrArg Prod.snd (h.same c c.surroundings)
  rw [Conductor.within_surroundings] at hself
  rw [hself]
  rfl

theorem Detached.moment {x : Conducting K α} {y : Conducting H α} (h : Detached x y) (hself : Detached x x)
    (view : K → H) (c : Conductor K)
    : y.run.run (c.moment view) = ((x.run.run c).1, (x.run.run c).2.moment view) := by
  have hhost : (x.run.run c).2.host = c.host := congrArg Surroundings.host (hself.surroundings c)
  unfold Conductor.moment
  rw [h.same c, hhost]

theorem run_orStop (x : Conducting H Unit) (c : Conductor H)
    : (orStop x).run.run c
        =
      match x.run.run c with
      | (.ok _, d) => (.ok (), d)
      | (.error e, d) => (.error e, { d with status := .stopped }) := by
  unfold orStop
  rw [run_tryCatch]
  cases x.run.run c with
  | mk result d => cases result <;> rfl

end Conducting
end VisualNovel
