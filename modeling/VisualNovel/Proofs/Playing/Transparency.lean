import VisualNovel.Proofs.Playing.Suspension

/-!
This module contains the proof that it does not matter where the actions of a host suspend a script. A host can
always have the next tag played, and then it comes to what it would have come to in any other run.
-/

namespace VisualNovel

variable {H K L : Type}

def Happening.calls (happenings : List Happening) : List Call :=
  happenings.filterMap Happening.call?

namespace Conductor

variable {view : K → H} {deeds : String → Option (Deed H)} {c : Conductor K} {m : Conductor H}

/--
A conductor in the middle of a script that waits for nothing, with actions that do the given deeds.
-/
structure Ready (view : K → H) (deeds : String → Option (Deed H)) (c : Conductor K) : Prop where
  realizes : Realizes view deeds c.actions
  closed : c.reactor.Closed
  script : c.cursor ≠ none
  pending : c.pending = none

theorem Ready.sound (h : Ready view deeds c) : Sound view deeds c where
  realizes := h.realizes
  closed := h.closed
  asleep := fun hpending => absurd h.pending hpending
  script := h.script
  waits := by
    intro p tag line hwait
    rw [h.pending] at hwait
    cases hwait

/-! ### Progress -/

theorem awake_wake
    (hsettled : ∀ pending, c.pending = some pending → c.reactor.outcome? pending.promise ≠ none)
    : ((Conducting.orStop Conducting.wake).run.run c).2.status ≠ .asleep := by
  have hwakes := wakes_wake c
  change c.wake.2.status ≠ .asleep
  generalize c.wake = answer at hwakes ⊢
  cases hwakes with
  | unsettled hpending hunsettled => exact absurd hunsettled (hsettled _ hpending)
  | _ => simp

theorem run_conduct_zero (hasleep : c.status = .asleep) {happenings : List Happening} {d : Conductor K}
    (later : Run ((Conducting.orStop Conducting.wake).run.run c).2 happenings d) : Run c happenings d := by
  have hstate : (c.conduct 0).2 = ((Conducting.orStop Conducting.wake).run.run c).2 := by
    rw [run_conduct, if_pos hasleep]
    cases (Conducting.orStop Conducting.wake).run.run c with
    | mk result d => cases result <;> rfl
  have hnothing : c.conductHappenings 0 = [] := by
    rw [conductHappenings, if_pos hasleep]
    cases (Conducting.orStop Conducting.wake).run.run c with
    | mk result d => cases result <;> rfl
  have h := Run.conduct 0 (c := c) (by rw [hstate]; exact later)
  rw [hnothing] at h
  exact h

theorem exists_running_of_awake (hsound : Sound view deeds c) (hat : At view c m) (hawake : c.status ≠ .asleep)
    : ∃ d, Run c [] d ∧ Sound view deeds d ∧ At view d m ∧ d.status = .running := by
  cases hstatus : c.status with
  | running => exact ⟨c, Run.nothing c, hsound, hat, hstatus⟩
  | asleep => exact absurd hstatus hawake
  | stopped =>
    obtain ⟨hsound', hat'⟩ := at_resume hsound hat
    refine ⟨c.resume, Run.resume (Run.nothing _), hsound', hat', ?_⟩
    have hscript : c.cursor.isSome := Option.isSome_iff_ne_none.2 hsound.script
    simp [resume, hstatus, hscript]

theorem exists_running_of_settled (hsound : Sound view deeds c) (hat : At view c m) (hasleep : c.status = .asleep)
    (hsettled : ∀ pending, c.pending = some pending → c.reactor.outcome? pending.promise ≠ none)
    : ∃ d, Run c [] d ∧ Sound view deeds d ∧ At view d m ∧ d.status = .running := by
  obtain ⟨hsound', hat'⟩ := Conducting.at_wake hsound hat
  obtain ⟨d, hrun, h⟩ := exists_running_of_awake hsound' hat' (awake_wake hsettled)
  exact ⟨d, run_conduct_zero hasleep hrun, h⟩

theorem exists_running (hsound : Sound view deeds c) (hat : At view c m)
    : ∃ d, Run c [] d ∧ Sound view deeds d ∧ At view d m ∧ d.status = .running := by
  by_cases hasleep : c.status = .asleep
  . cases hpending : c.pending with
    | none =>
      apply exists_running_of_settled hsound hat hasleep
      intro pending h
      rw [hpending] at h
      cases h
    | some pending =>
      cases pending with
      | wait p tag line =>
        -- any outcome will do
        have hother : ∀ q file target mode game, c.pending = some (.load q file target mode game) → p ≠ q := by
          intro q file target mode game h
          rw [hpending] at h
          cases h
        obtain ⟨hsound', hat'⟩ := at_settle p (.done none) hother hsound hat
        obtain ⟨d, hrun, h⟩ := exists_running_of_settled hsound' hat' hasleep (by
          intro pending h
          cases hpending.symm.trans h
          exact Reactor.resolve_settles (hsound.waits p tag line hpending) _)
        exact ⟨d, Run.settle p (.done none) hother hrun, h⟩
      | load p file target mode game =>
        -- the script is in the queue, and all that is queued gets its turn in a tick
        obtain ⟨hsound', hat'⟩ := at_tick 0 hsound hat
        obtain ⟨d, hrun, h⟩ := exists_running_of_settled hsound' hat' hasleep (by
          intro pending h
          cases hpending.symm.trans h
          cases hat with
          | here hload => exact absurd hpending (hload p file target mode game)
          | loading hload hp hkeeps hdue =>
            cases hpending.symm.trans hload
            exact Reactor.tick_settles hp hdue 0)
        exact ⟨d, Run.tick 0 hrun, h⟩
  . exact exists_running_of_awake hsound hat hasleep

theorem exists_next (hsound : Sound view deeds c) (hat : At view c m)
    : ∃ d, Run c (m.next deeds).1.toList d ∧ Sound view deeds d ∧ At view d (m.next deeds).2 := by
  obtain ⟨d, hrun, hsound, hat, hrunning⟩ := exists_running hsound hat
  have hpending := hsound.pending_eq_none (by simp [hrunning])
  have hfollows := Conducting.follows_step hsound hpending
  rw [← hat.eq_moment hpending] at hfollows
  have hstate : (d.conduct 1).2 = ((Conducting.orStop Conducting.step).run.run d).2 := by
    rw [run_conduct, if_neg (by simp [hrunning]), run_playOn_succ, if_pos hrunning]
    cases (Conducting.orStop Conducting.step).run.run d with
    | mk result d => cases result <;> rfl
  have hhappening : d.conductHappenings 1 = (m.next deeds).1.toList := by
    rw [conductHappenings, if_neg (by simp [hrunning]), playHappenings, if_pos hrunning, hfollows.happening]
    cases (Conducting.orStop Conducting.step).run.run d with
    | mk result d => cases result <;> simp [playHappenings]
  have hplay := Run.conduct 1 (Run.nothing (d.conduct 1).2)
  rw [List.append_nil, hhappening] at hplay
  refine ⟨_, hrun.trans hplay, ?_⟩
  rw [hstate]
  exact ⟨hfollows.sound, hfollows.at_next⟩

theorem exists_happenings (n : Nat) (hsound : Sound view deeds c) (hat : At view c m)
    : ∃ d, Run c (m.happenings deeds n) d ∧ Sound view deeds d ∧ At view d (m.after deeds n) := by
  induction n generalizing c m with
  | zero => exact ⟨c, Run.nothing c, hsound, hat⟩
  | succ n ih =>
    obtain ⟨d, hrun, hsound, hat⟩ := exists_next hsound hat
    obtain ⟨e, hrun', hsound, hat⟩ := ih hsound hat
    exact ⟨e, hrun.trans hrun', hsound, hat⟩

/-! ### Two runs -/

theorem Run.calls_course {happenings : List Happening} {d : Conductor K} (h : Run c happenings d)
    (hready : Ready view deeds c)
    : ∃ n, ∀ n', Happening.calls happenings <+: Happening.calls ((c.moment view).happenings deeds (n + n')) ∧
        ∃ later e, Run d later e ∧
          Happening.calls (happenings ++ later) = Happening.calls ((c.moment view).happenings deeds (n + n')) := by
  obtain ⟨n, heq, hsound, hat⟩ := h.reaches hready.sound (At.of_pending_none hready.pending)
  refine ⟨n, fun n' => ?_⟩
  obtain ⟨e, hlater, _⟩ := exists_happenings n' hsound hat
  rw [happenings_add, ← heq]
  refine ⟨?_, _, e, hlater, rfl⟩
  unfold Happening.calls
  rw [List.filterMap_append]
  exact List.prefix_append _ _

/--
Two hosts with actions that do the same deeds have a script played from the same moment, and one of them, the
other or both let their actions suspend it wherever they like. The actions are called in the same order with the
same values, variables and positions, and none of the hosts can get stuck behind the other.
-/
theorem run_transparent {viewL : L → H} {a a' : Conductor K} {b b' : Conductor L}
    {happenings happenings' : List Happening} (ha : Ready view deeds a) (hb : Ready viewL deeds b)
    (hsame : a.moment view = b.moment viewL) (h : Run a happenings a') (h' : Run b happenings' b')
    : (∀ k, k ≤ (Happening.calls happenings).length → k ≤ (Happening.calls happenings').length →
        (Happening.calls happenings).take k = (Happening.calls happenings').take k) ∧
      ∃ later b'', Run b' later b'' ∧
        Happening.calls happenings <+: Happening.calls (happenings' ++ later) := by
  -- both runs are cut out of one course, and the second one is continued by the length of the first
  obtain ⟨n, hcourse⟩ := h.calls_course ha
  obtain ⟨n', hcourse'⟩ := h'.calls_course hb
  have hprefix := (hcourse n').1
  obtain ⟨hprefix', later, b'', hlater, heq⟩ := hcourse' n
  rw [Nat.add_comm n', ← hsame] at hprefix' heq
  constructor
  . intro k hk hk'
    obtain ⟨rest, heq⟩ := hprefix
    obtain ⟨rest', heq'⟩ := hprefix'
    rw [← List.take_append_of_le_length hk, heq, ← heq', List.take_append_of_le_length hk']
  . exact ⟨later, b'', hlater, heq ▸ hprefix⟩

section Sample

def sampleParameter : Parameter := { name := "text", kind := .string, presence := .required }

def sampleDeed : Deed Nat where
  parameters := [sampleParameter]
  run _ _ shown vars := (shown + 1, vars)

def promptAction : Action Nat where
  parameters := [sampleParameter]
  run _ _ := do
    modify fun stage => { stage with host := stage.host + 1 }
    return .proceed

def slowAction : Action Nat where
  parameters := [sampleParameter]
  run _ _ := do
    let stage ← get
    set { stage with host := stage.host + 1, reactor := stage.reactor.create.2 }
    return .wait stage.reactor.promises.length

def sampleDeeds (name : String) : Option (Deed Nat) :=
  if name = "ch" then some sampleDeed else none

def sample (action : Action Nat) : Conductor Nat where
  host := 0
  actions := [("ch", action)]
  library := { directory := "", grammar := .line, maxDepth := 64, cache := none, disk := {} }
  cursor := some { file := "", tags := [], maxDepth := 64 }
  printed := [Tag.ofChar 'o' 1, Tag.ofChar 'n' 1]
  status := .running

theorem promptAction_does : promptAction.Does id sampleDeed where
  parameters := rfl
  effect _ _ _ := rfl
  closed _ _ _ h := h
  waits _ _ _ _ h := by cases h

theorem slowAction_does : slowAction.Does id sampleDeed where
  parameters := rfl
  effect _ _ _ := rfl
  closed _ _ _ h := h.create
  waits := by
    intro tag values stage p h
    cases h
    change stage.reactor.promises.length < stage.reactor.create.2.promises.length
    simp [Reactor.create]

theorem sample_ready {action : Action Nat} (h : action.Does id sampleDeed)
    : Ready id sampleDeeds (sample action) where
  realizes := by
    intro name
    by_cases hname : name = "ch"
    . simpa [hname, sample, sampleDeeds] using h
    . have hother : (name == "ch") = false := by simpa using hname
      simp [hname, hother, sample, sampleDeeds, List.lookup_cons]
  closed := Reactor.closed_empty
  script := by simp [sample]
  pending := rfl

theorem sample_transparent
    : let a := sample promptAction
      let b := sample slowAction
      let late := (b.conduct 2).2.modifyReactor fun r => (r.resolve 0 (.done none)).2
      let calls := Happening.calls (a.conductHappenings 2)
      let calls' := Happening.calls (b.conductHappenings 2)
      calls.map (·.printed.length) = [1, 0] ∧ calls'.map (·.printed.length) = [1] ∧
        (∀ k, k ≤ calls.length → k ≤ calls'.length → calls.take k = calls'.take k) ∧
        ∃ later b'', Run late later b'' ∧ calls <+: Happening.calls (b.conductHappenings 2 ++ later) := by
  intro a b late calls calls'
  have hplay : Run a (a.conductHappenings 2) (a.conduct 2).2 := by
    simpa using Run.conduct 2 (Run.nothing (a.conduct 2).2)
  have hwait : Run b (b.conductHappenings 2) late := by
    simpa using Run.conduct 2 (Run.settle 0 (.done none) (by intro p file target mode game h; cases h)
      (Run.nothing late))
  exact ⟨by rfl, by rfl,
    run_transparent (sample_ready promptAction_does) (sample_ready slowAction_does) rfl hplay hwait⟩

end Sample

end Conductor
end VisualNovel
