import VisualNovel.Proofs.Playing.Keeping

/-!
This module contains that a save leads back to where it was made. The save mark that had been passed last is found at
any later time, and all that belongs to a game becomes what the save says.
-/

namespace VisualNovel

variable {H : Type}

theorem Target.find_saveMark {cursor : Cursor} {name : String} {i : Nat}
    (h : cursor.tags.findIdx? (Cursor.isSaveMark name) = some i)
    : (saveMark name).find cursor = .ok { cursor.restart with point := i + 1 } := by
  obtain ⟨hlt, _, _⟩ := List.findIdx?_eq_some_iff_getElem.1 h
  rw [find, Cursor.goToSaveMark, h]
  dsimp only
  rw [Cursor.goTo, Nat.min_eq_left hlt]

namespace Conductor

variable {c d : Conductor H}

/--
The conductor that goes on behind the save mark at index `i` of a script, with the game of a save.
-/
def resumed (c : Conductor H) (save : Save) (tags : List Tag) (i : Nat) : Conductor H :=
  { c with
    vars := { c.vars with temporary := [], game := save.game }
    cursor := some {
      file := save.file
      tags
      maxDepth := c.library.maxDepth
      point := i + 1
      macros := []
      ifDepth := 0
      loops := []
    }
    callers := []
    printed := []
    latestMark := some (save.file, save.mark)
    status := .running
    pending := none }

theorem snapshot_resumed (c : Conductor H) (save : Save) (tags : List Tag) (i : Nat)
    : (c.resumed save tags i).snapshot = some save :=
  rfl

theorem latestMark_of_snapshot {save : Save} (h : c.snapshot = some save)
    : c.latestMark = some (save.file, save.mark) := by
  unfold snapshot at h
  obtain ⟨⟨file, mark⟩, hlatest, rfl⟩ := Option.map_eq_some_iff.1 h
  exact hlatest

/--
A script that is in memory is there after one tick, and if it has the save mark then the game goes on there.
-/
theorem wake_restore (h : Trusted c) {save : Save} {tags : List Tag} {i : Nat}
    (hlookup : c.library.scripts.lookup save.file = some tags)
    (hmark : tags.findIdx? (Cursor.isSaveMark save.mark) = some i) (now : Nat)
    : let d := (c.restore save).turn (.tick now)
      d.status = .asleep ∧ d.wake = (.ok (), { c with reactor := d.reactor }.resumed save tags i) := by
  have hload := Library.load_of_lookup hlookup
  have hexpects := h.closed.expects (Library.outcomeOf (c.library.load save.file).1)
  have houtcome := hexpects.outcome?_tick now
  have hfind : (Target.saveMark save.mark).find (c.library.cursor save.file tags) = .ok _ := Target.find_saveMark hmark
  rw [hload] at houtcome
  rw [restore_eq, awaiting, hload]
  intro d
  have hwake : d.wake = _ := (Wakes.found rfl houtcome hfind).wake_eq
  exact ⟨rfl, hwake⟩

/--
Whatever has become of a conductor since a save was made, the save can be restored. One tick later, when conducting
goes on, the game goes on behind the first save mark of that name, with the variables of the save and as if it had
never left the script, and the same save could be made again. The variables of the player and the save marks that have
been passed are as they were.
-/
theorem restore_snapshot {host : H} {actions : List (String × Action H)} {library : Library} {save : Save}
    (hactions : ∀ entry ∈ actions, entry.2.Honest) (hmacros : library.macros.Unmarked)
    (hc : Later { host, actions, library } c) (hsave : c.snapshot = some save) (hd : Later c d)
    (hnamed : d.library.Named) (now : Nat)
    : let awaiting := (d.restore save).turn (.tick now)
      ∃ tags i,
        c.library.scripts.lookup save.file = some tags ∧ d.library.scripts.lookup save.file = some tags ∧
          tags.findIdx? (Cursor.isSaveMark save.mark) = some i ∧
          let e := { d with reactor := awaiting.reactor }.resumed save tags i
          awaiting.wake = (.ok (), e) ∧ e.snapshot = some save ∧ ∀ limit, awaiting.conduct limit = e.playOn limit := by
  intro awaiting
  -- from the save on, the scripts that were in memory then are there
  have hsteady := ((Steady.new hactions hmacros host).later hc).since
  have hlater := hsteady.later hd
  have hmarked := hsteady.kept.latest save.file save.mark (latestMark_of_snapshot hsave)
  obtain ⟨tags, hlookup, i, hmark⟩ := (hmarked.grows hlater.kept.grown).exists_isSaveMark hnamed
  obtain ⟨before, hbefore, _⟩ := hmarked
  cases (hlater.kept.grown.scripts _ _ hbefore).symm.trans hlookup
  obtain ⟨hasleep, hwake⟩ := wake_restore hlater.trusted hlookup hmark now
  refine ⟨tags, i, hbefore, hlookup, hmark, hwake, snapshot_resumed .., ?_⟩
  intro limit
  rw [conduct_eq, if_pos hasleep, hwake]

section Sample

def markedTags : List Tag :=
  [.saveMark "m" "" "" 1, .stop 2]

def marking : Conductor Nat :=
  (newcomer promptAction [("a", markedTags)]).turn (.startScript "a" none)

/--
The save mark has been passed.
-/
def passed : Conductor Nat :=
  { marking with
    vars := { readMarks := [Variables.markKey "a" "m"] }
    cursor := some {
      file := "a"
      tags := markedTags
      maxDepth := 64
      point := 1
      latest := some (.saveMark "m" "" "" 1)
    }
    latestMark := some ("a", "m") }

/--
A variable of the game has been set.
-/
def saved : Conductor Nat :=
  passed.turn (.arrange 0 { passed.vars with game := [("x", .bool true)] } passed.library)

/--
All variables are gone.
-/
def lost : Conductor Nat :=
  saved.turn (.arrange 0 {} saved.library)

theorem marking_conduct : (marking.conduct 1).2 = passed := by
  have hnext : Conducting.nextTag.run.run marking
      = (.ok (some (.saveMark "m" "" "" 1)), { marking with cursor := passed.cursor }) := by
    rw [Conducting.run_nextTag_some rfl rfl, Cursor.next_of_tag rfl rfl]
    rfl
  have hplay : marking.play = (.ok (), passed) := by
    rw [play_of_tag hnext]
    rfl
  have hrunning : marking.status = .running := rfl
  rw [conduct_eq, if_neg (by simp [hrunning]), playOn_succ, if_pos hrunning, hplay]
  rfl

theorem restored_lost
    : let save : Save := { file := "a", mark := "m", game := [("x", .bool true)] }
      let awaiting := (lost.restore save).turn (.tick 0)
      saved.snapshot = some save ∧ awaiting.wake.1 = .ok () ∧ awaiting.wake.2.vars.game = save.game := by
  intro save awaiting
  have hactions : ∀ entry ∈ (newcomer promptAction []).actions, entry.2.Honest := by
    intro entry hentry _ _ _ hclosed
    cases List.mem_singleton.1 hentry
    exact hclosed
  have hmacros : (newcomer promptAction [("a", markedTags)]).library.macros.Unmarked := nofun
  have hnamed : lost.library.Named := by
    intro file tags hlookup
    change List.lookup file [("a", markedTags)] = some tags at hlookup
    rw [List.lookup_cons] at hlookup
    split at hlookup <;> cases hlookup
    decide
  have hmarking : Later (newcomer promptAction [("a", markedTags)]) marking := .turn .now _ trivial trivial
  have hpassed := hmarking.conduct 1
  rw [marking_conduct] at hpassed
  have hsaved : Later _ saved := hpassed.turn (.arrange ..) trivial (.refl _)
  have hlost : Later saved lost := .turn .now _ trivial (.refl _)
  have hsave : saved.snapshot = some save := rfl
  obtain ⟨_, _, _, _, _, hwake, _⟩ := restore_snapshot hactions hmacros hsaved hsave hlost hnamed 0
  have hresult : awaiting.wake = _ := hwake
  rw [hresult]
  exact ⟨hsave, rfl, rfl⟩

end Sample
end Conductor
end VisualNovel
