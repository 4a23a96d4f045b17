import VisualNovel.Proofs.Playing.Moment

/-!
This module contains all that can become of a conductor. Its host and its reactor take turns in any order, and
to conduct is to wake up and to play tags.
-/

namespace VisualNovel

variable {H : Type}

def Pending.promise : Pending → Nat
  | .wait promise .. => promise
  | .load promise .. => promise

/--
The conductor once it has asked for a script.
-/
def Conductor.awaiting (c : Conductor H) (file : String) (target : Target) (mode : EntryMode)
    (game : Option Fields) : Conductor H :=
  { c with
    library := (c.library.load file).2
    reactor := c.reactor.create.2.enqueue
      (.settle c.reactor.promises.length (Library.outcomeOf (c.library.load file).1))
    pending := some (.load c.reactor.promises.length file target mode game)
    status := .asleep }

theorem Conducting.run_awaitScript (file : String) (target : Target) (mode : EntryMode) (game : Option Fields)
    (c : Conductor H)
    : (awaitScript file target mode game).run.run c = (.ok (), c.awaiting file target mode game) := by
  change ((Except.ok (), _) : Except ConductorError Unit × Conductor H) = _
  dsimp only
  rw [Library.loadLater_eq]
  rfl

theorem Conductor.restore_eq (c : Conductor H) (save : Save)
    : c.restore save = c.awaiting save.file (.saveMark save.mark) .jump (some save.game) := by
  unfold restore
  dsimp only
  rw [Conducting.run_awaitScript]

/-! ### Turns -/

/--
A turn of a conductor, of its reactor or of its host, which may put anything in the place of its own state, the
variables and the library.
-/
inductive Turn (H : Type) where
  | wake
  | play
  | startScript (file : String) (label : Option String)
  | resume
  | stop
  | restore (save : Save)
  | tick (now : Nat)
  | settle (promise : Nat) (outcome : Outcome Cursor)
  | arrange (host : H) (vars : Variables) (library : Library)

namespace Conductor

/--
Wakes up if it is time to, and otherwise stays asleep.
-/
def wake (c : Conductor H) : Except ConductorError Unit × Conductor H :=
  (Conducting.orStop Conducting.wake).run.run c

def play (c : Conductor H) : Except ConductorError Unit × Conductor H :=
  (Conducting.orStop Conducting.step).run.run c

def turn (c : Conductor H) : Turn H → Conductor H
  | .wake => if c.status = .asleep then c.wake.2 else c
  | .play => if c.status = .running then c.play.2 else c
  | .startScript file label => (c.startScript file label).2
  | .resume => c.resume
  | .stop => c.stop
  | .restore save => c.restore save
  | .tick now => c.modifyReactor fun r => (r.tick now).2
  | .settle promise outcome => c.modifyReactor fun r => (r.resolve promise outcome).2
  | .arrange host vars library => { c with host, vars, library }

theorem turn_wake (c : Conductor H) : c.turn .wake = if c.status = .asleep then c.wake.2 else c :=
  rfl

theorem turn_play (c : Conductor H) : c.turn .play = if c.status = .running then c.play.2 else c :=
  rfl

def turns (c : Conductor H) (ts : List (Turn H)) : Conductor H :=
  ts.foldl turn c

@[simp]
theorem turns_nil (c : Conductor H) : c.turns [] = c :=
  rfl

@[simp]
theorem turns_cons (c : Conductor H) (t : Turn H) (ts : List (Turn H)) : c.turns (t :: ts) = (c.turn t).turns ts :=
  rfl

end Conductor

/--
Only the reactor settles the promise of a script that is being loaded, which nobody else has been given.
-/
def Turn.Fair (c : Conductor H) : Turn H → Prop
  | .settle promise _ =>
    ∀ p file target mode game, c.pending = some (.load p file target mode game) → promise ≠ p
  | _ => True

namespace Conductor

/--
A new conductor with actions of some kind, and what becomes of it in any turns.
-/
inductive Reachable (kind : Action H → Prop) : Conductor H → Prop where
  | new (host : H) (actions : List (String × Action H)) (library : Library)
    (hactions : ∀ entry ∈ actions, kind entry.2) : Reachable kind { host, actions, library }
  | turn {c : Conductor H} (h : Reachable kind c) (t : Turn H) (hfair : t.Fair c) : Reachable kind (c.turn t)

/-! ### Conducting without a limit -/

/--
Tags are played until the conductor stops, falls asleep or fails.
-/
inductive Plays : Conductor H → Except ConductorError Status → Conductor H → Prop where
  | rest {c : Conductor H} (hrest : c.status ≠ .running) : Plays c (.ok c.status) c
  | fault {c d : Conductor H} {e : ConductorError} (hrunning : c.status = .running)
    (hplay : c.play = (.error e, d)) : Plays c (.error e) d
  | tag {c d e : Conductor H} {result : Except ConductorError Status} (hrunning : c.status = .running)
    (hplay : c.play = (.ok (), d)) (later : Plays d result e) : Plays c result e

/--
What `conduct` comes to if it may play as many tags as it takes.
-/
inductive Conducts : Conductor H → Except ConductorError Status → Conductor H → Prop where
  | awake {c d : Conductor H} {result : Except ConductorError Status} (hawake : c.status ≠ .asleep)
    (later : Plays c result d) : Conducts c result d
  | fault {c d : Conductor H} {e : ConductorError} (hasleep : c.status = .asleep)
    (hwake : c.wake = (.error e, d)) : Conducts c (.error e) d
  | woken {c d e : Conductor H} {result : Except ConductorError Status} (hasleep : c.status = .asleep)
    (hwake : c.wake = (.ok (), d)) (later : Plays d result e) : Conducts c result e

/--
Plays up to `limit` tags.
-/
def playOn (limit : Nat) (c : Conductor H) : Except ConductorError Status × Conductor H :=
  match (Conducting.playOn limit).run.run c with
  | (.ok _, d) => (.ok d.status, d)
  | (.error e, d) => (.error e, d)

theorem playOn_zero (c : Conductor H) : c.playOn 0 = (.ok c.status, c) :=
  rfl

theorem run_playOn_succ (limit : Nat) (c : Conductor H)
    : (Conducting.playOn (limit + 1)).run.run c
        =
      if c.status = .running then
        match (Conducting.orStop Conducting.step).run.run c with
        | (.ok _, d) => (Conducting.playOn limit).run.run d
        | (.error e, d) => (.error e, d)
      else
        (.ok (), c) := by
  rw [Conducting.playOn, run_get_bind]
  split
  . rw [run_bind]
    generalize (Conducting.orStop Conducting.step).run.run c = answer
    obtain ⟨result, d⟩ := answer
    cases result <;> rfl
  . rfl

theorem playOn_succ (limit : Nat) (c : Conductor H)
    : c.playOn (limit + 1)
        =
      if c.status = .running then
        match c.play with
        | (.ok _, d) => d.playOn limit
        | (.error e, d) => (.error e, d)
      else
        (.ok c.status, c) := by
  unfold playOn play
  rw [run_playOn_succ]
  by_cases hrunning : c.status = .running
  . rw [if_pos hrunning, if_pos hrunning]
    generalize (Conducting.orStop Conducting.step).run.run c = answer
    obtain ⟨result, d⟩ := answer
    cases result <;> rfl
  . rw [if_neg hrunning, if_neg hrunning]

theorem playOn_of_rest {c : Conductor H} (hrest : c.status ≠ .running) (limit : Nat) : c.playOn limit = (.ok c.status, c) := by
  cases limit with
  | zero => exact playOn_zero c
  | succ limit => rw [playOn_succ, if_neg hrest]

theorem conduct_eq (limit : Nat) (c : Conductor H)
    : c.conduct limit
        =
      if c.status = .asleep then
        match c.wake with
        | (.ok _, d) => d.playOn limit
        | (.error e, d) => (.error e, d)
      else
        c.playOn limit := by
  have hplay (d : Conductor H)
      : (do Conducting.playOn limit; return (← get).status : Conducting H Status).run.run d = d.playOn limit := by
    unfold playOn
    rw [run_bind]
    cases (Conducting.playOn limit).run.run d with
    | mk result d => cases result <;> rfl
  unfold conduct Conducting.conduct wake
  rw [run_get_bind]
  split
  . rw [run_bind]
    cases (Conducting.orStop Conducting.wake).run.run c with
    | mk result d =>
      cases result with
      | error e => rfl
      | ok => exact hplay d
  . exact hplay c

theorem plays_iff {c d : Conductor H} {result : Except ConductorError Status}
    : Plays c result d ↔ ∃ limit, c.playOn limit = (result, d) ∧ result ≠ .ok .running := by
  constructor
  . intro h
    induction h with
    | rest hrest => exact ⟨0, playOn_zero _, fun heq => hrest (Except.ok.inj heq)⟩
    | fault hrunning hplay =>
      refine ⟨1, ?_, nofun⟩
      rw [playOn_succ, if_pos hrunning, hplay]
    | tag hrunning hplay _ ih =>
      obtain ⟨limit, hlimit, hresult⟩ := ih
      refine ⟨limit + 1, ?_, hresult⟩
      rw [playOn_succ, if_pos hrunning, hplay]
      exact hlimit
  . intro ⟨limit, hlimit, hresult⟩
    induction limit generalizing c with
    | zero =>
      rw [playOn_zero] at hlimit
      cases hlimit
      exact Plays.rest fun heq => hresult (congrArg Except.ok heq)
    | succ limit ih =>
      rw [playOn_succ] at hlimit
      split at hlimit
      . next hrunning =>
        cases hplay : c.play with
        | mk answer e =>
          rw [hplay] at hlimit
          cases answer with
          | error fault =>
            cases hlimit
            exact Plays.fault hrunning hplay
          | ok => exact Plays.tag hrunning hplay (ih hlimit)
      . next hrest =>
        cases hlimit
        exact Plays.rest hrest

/--
A limit under which the conductor comes to rest is as good as none.
-/
theorem conducts_iff {c d : Conductor H} {result : Except ConductorError Status}
    : Conducts c result d ↔ ∃ limit, c.conduct limit = (result, d) ∧ result ≠ .ok .running := by
  constructor
  . intro h
    cases h with
    | awake hawake later =>
      obtain ⟨limit, hlimit, hresult⟩ := plays_iff.1 later
      refine ⟨limit, ?_, hresult⟩
      rw [conduct_eq, if_neg hawake]
      exact hlimit
    | fault hasleep hwake =>
      refine ⟨0, ?_, nofun⟩
      rw [conduct_eq, if_pos hasleep, hwake]
    | woken hasleep hwake later =>
      obtain ⟨limit, hlimit, hresult⟩ := plays_iff.1 later
      refine ⟨limit, ?_, hresult⟩
      rw [conduct_eq, if_pos hasleep, hwake]
      exact hlimit
  . intro ⟨limit, hlimit, hresult⟩
    rw [conduct_eq] at hlimit
    split at hlimit
    . next hasleep =>
      cases hwake : c.wake with
      | mk answer e =>
        rw [hwake] at hlimit
        cases answer with
        | error fault =>
          cases hlimit
          exact Conducts.fault hasleep hwake
        | ok => exact Conducts.woken hasleep hwake (plays_iff.2 ⟨limit, hlimit, hresult⟩)
    . next hawake => exact Conducts.awake hawake (plays_iff.2 ⟨limit, hlimit, hresult⟩)

/-! ### Conducting as turns -/

theorem exists_turns_playOn (limit : Nat) (c : Conductor H)
    : ∃ ts : List (Turn H), (∀ t ∈ ts, t = .play) ∧ (c.playOn limit).2 = c.turns ts := by
  induction limit generalizing c with
  | zero => exact ⟨[], by simp, rfl⟩
  | succ limit ih =>
    rw [playOn_succ]
    split
    . next hrunning =>
      have hturn : c.turn .play = c.play.2 := by rw [turn_play, if_pos hrunning]
      cases hplay : c.play with
      | mk answer d =>
        rw [hplay] at hturn
        cases answer with
        | error e => exact ⟨[.play], by simp, by simp [hturn]⟩
        | ok =>
          obtain ⟨ts, hts, heq⟩ := ih d
          exact ⟨.play :: ts, by simpa using hts, by simpa [hturn] using heq⟩
    . exact ⟨[], by simp, rfl⟩

theorem exists_turns_conduct (limit : Nat) (c : Conductor H)
    : ∃ ts : List (Turn H), (∀ t ∈ ts, t = .wake ∨ t = .play) ∧ (c.conduct limit).2 = c.turns ts := by
  rw [conduct_eq]
  split
  . next hasleep =>
    have hturn : c.turn .wake = c.wake.2 := by rw [turn_wake, if_pos hasleep]
    cases hwake : c.wake with
    | mk answer d =>
      rw [hwake] at hturn
      cases answer with
      | error e => exact ⟨[.wake], by simp, by simp [hturn]⟩
      | ok =>
        obtain ⟨ts, hts, heq⟩ := exists_turns_playOn limit d
        refine ⟨.wake :: ts, ?_, by simpa [hturn] using heq⟩
        simpa using fun t ht => Or.inr (hts t ht)
  . obtain ⟨ts, hts, heq⟩ := exists_turns_playOn limit c
    exact ⟨ts, fun t ht => Or.inr (hts t ht), heq⟩

theorem Reachable.conduct {kind : Action H → Prop} {c : Conductor H} (h : Reachable kind c) (limit : Nat)
    : Reachable kind (c.conduct limit).2 := by
  obtain ⟨ts, hts, heq⟩ := exists_turns_conduct limit c
  rw [heq]
  clear heq
  induction ts generalizing c with
  | nil => exact h
  | cons t ts ih =>
    apply ih
    . apply h.turn
      obtain rfl | rfl := hts t List.mem_cons_self <;> trivial
    . intro t' ht'
      exact hts t' (List.mem_cons_of_mem t ht')

/--
A new conductor with some scripts, on which an action prints the text.
-/
def newcomer (action : Action Nat) (scripts : List (String × List Tag)) : Conductor Nat where
  host := 0
  actions := [("ch", action)]
  library := { directory := "", grammar := .line, maxDepth := 64, cache := none, disk := {}, scripts }

theorem reachable_newcomer {kind : Action Nat → Prop} {action : Action Nat} (haction : kind action)
    (scripts : List (String × List Tag)) : Reachable kind (newcomer action scripts) := by
  apply Reachable.new
  simpa using haction

end Conductor
end VisualNovel
