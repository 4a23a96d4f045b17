import VisualNovel.Proofs.Caching.Growth
import VisualNovel.Proofs.Storing.Documents
import VisualNovel.Variables.Storage

/-!
This module contains that passed save marks are tracked through every use of the variables and through the file that keeps
them. A save mark counts as read exactly if one has been passed that is alike: file and mark are kept in one text, so a colon
of the file can as well be one of the mark.
-/

namespace VisualNovel

/-! ### The list of the save marks in a document -/

namespace Json

theorem AreItems.strings {marks : List String} {items : List Json} (h : AreItems (marks.map .string) items)
    : items.mapM string? = some marks := by
  induction marks generalizing items with
  | nil =>
    cases h
    rfl
  | cons mark marks ih =>
    cases h with
    | cons hmark hmarks =>
      cases hmark with
      | string htext =>
        rw [List.mapM_cons, ih hmarks, string?, htext]
        rfl

end Json

namespace Variables

theorem mem_foldl_insertMark (key : String) (marks found : List String)
    : key ∈ marks.foldl (fun marks key => insertMark key marks) found ↔ key ∈ marks ∨ key ∈ found := by
  induction marks generalizing found with
  | nil => simp
  | cons mark marks ih =>
    rw [List.foldl_cons, ih, mem_insertMark, List.mem_cons]
    tauto

/-! ### The file of the player -/

variable {vars other later : Variables} {disk after : Disk} {path : String}

/--
Whatever becomes of the system variables, the save marks that are taken from a text are those that have been written.
-/
theorem mem_readMarks_withSystemText? (h : other.withSystemText? vars.systemText = some later) (key : String)
    : key ∈ later.readMarks ↔ key ∈ vars.readMarks := by
  obtain ⟨json, hread, hdocument⟩ := Json.read?_pretty (.object [
    ("vars", .object vars.system),
    ("read_marks", .array (vars.readMarks.map .string))
  ]) 0
  have hrecord : ∃ system items, json.record? ["vars", "read_marks"] = some [some system, some (.array items)] ∧
      items.mapM Json.string? = some vars.readMarks := by
    cases hdocument with
    | object hmembers =>
      cases hmembers with
      | @cons _ _ first system _ _ hfirst _ hmembers =>
        cases hmembers with
        | @cons _ _ second _ _ _ hsecond hmarks hmembers =>
          cases hmembers
          cases hmarks with
          | @array _ items hitems =>
            refine ⟨system, items, ?_, hitems.strings⟩
            simp [Json.record?, Json.readMembers, hfirst, hsecond, List.lookup_cons]
  obtain ⟨system, items, hrecord, hmarks⟩ := hrecord
  have htext : Json.read? vars.systemText = some json := hread
  unfold withSystemText? at h
  rw [htext] at h
  dsimp only [bind, Option.bind] at h
  rw [hrecord] at h
  dsimp only [Option.map, Option.getD, Json.strings?] at h
  rw [hmarks] at h
  cases hsystem : system.fields? with
  | none =>
    rw [hsystem] at h
    cases h
  | some fields =>
    rw [hsystem] at h
    cases h
    dsimp only
    rw [mem_foldl_insertMark]
    simp

theorem exists_of_save (h : (vars.save path).run.run disk = (.ok (), after))
    : ∃ before : Disk, before.writeText path vars.systemText = .ok after := by
  have hchange {before : Disk}
      (h : (Disk.change (StorageError.io path) (·.writeText path vars.systemText)).run.run before = (.ok (), after))
      : before.writeText path vars.systemText = .ok after := by
    rw [Disk.run_change] at h
    cases hwrite : before.writeText path vars.systemText with
    | error fault =>
      rw [hwrite] at h
      cases h
    | ok written =>
      rw [hwrite] at h
      cases h
      rfl
  unfold save at h
  split at h
  . obtain ⟨_, before, _, h⟩ := run_bind_ok h
    exact ⟨before, hchange h⟩
  . exact ⟨disk, hchange h⟩

theorem mem_readMarks_load (hsave : (vars.save path).run.run disk = (.ok (), after))
    (hload : other.load after path = .ok later) (key : String) : key ∈ later.readMarks ↔ key ∈ vars.readMarks := by
  obtain ⟨before, hwrite⟩ := exists_of_save hsave
  unfold load at hload
  rw [Disk.readText_of_writeText hwrite] at hload
  dsimp only at hload
  cases htext : other.withSystemText? vars.systemText with
  | none =>
    rw [htext] at hload
    cases hload
  | some taken =>
    rw [htext] at hload
    cases hload
    exact mem_readMarks_withSystemText? htext key

/--
Saves the file of the player and loads it again. A file that has not been saved is not loaded, and one that cannot be loaded
changes nothing.
-/
def exchange (vars : Variables) (path : String) (disk : Disk) : Variables × Disk :=
  match (vars.save path).run.run disk with
  | (.ok _, disk) => ((vars.load disk path).toOption.getD vars, disk)
  | (.error _, disk) => (vars, disk)

theorem mem_readMarks_exchange (vars : Variables) (path : String) (disk : Disk) (key : String)
    : key ∈ (vars.exchange path disk).1.readMarks ↔ key ∈ vars.readMarks := by
  unfold exchange
  cases hsave : (vars.save path).run.run disk with
  | mk result after =>
    cases result with
    | error e => rfl
    | ok _ =>
      dsimp only
      cases hload : vars.load after path with
      | error e => rfl
      | ok later => exact mem_readMarks_load hsave hload key

/-! ### Uses of the variables -/

/--
What can happen to the variables: a save mark is passed, a space is written in any way, or the file of the player is saved and
loaded again.
-/
inductive Usage where
  | pass (file mark : String)
  | write (space : Space) (change : Fields → Fields)
  | clearTemporary
  | replaceGame (game : Fields)
  | exchange (path : String)

namespace Usage

def apply : Usage → Variables × Disk → Variables × Disk
  | .pass file mark, (vars, disk) => ((vars.pass file mark).2, disk)
  | .write space change, (vars, disk) => (vars.setFields (change (vars.fields space)) space, disk)
  | .clearTemporary, (vars, disk) => (vars.clearTemporary, disk)
  | .replaceGame game, (vars, disk) => (vars.replaceGame game, disk)
  | .exchange path, (vars, disk) => vars.exchange path disk

def applyAll (usages : List Usage) (state : Variables × Disk) : Variables × Disk :=
  usages.foldl (fun state usage => usage.apply state) state

/--
The file and the name of a save mark that is passed.
-/
def passed? : Usage → Option (String × String)
  | .pass file mark => some (file, mark)
  | _ => none

/--
A use adds the save mark that it passes, and nothing else adds or removes one.
-/
theorem mem_readMarks_apply (usage : Usage) (state : Variables × Disk) (key : String)
    : key ∈ (usage.apply state).1.readMarks
        ↔
      key ∈ state.1.readMarks ∨ ∃ mark ∈ usage.passed?, key = markKey mark.1 mark.2 := by
  obtain ⟨vars, disk⟩ := state
  cases usage with
  | pass file mark =>
    simp only [apply, Variables.pass, markRead, mem_insertMark, passed?, Option.mem_some_iff, exists_eq_left']
    exact or_comm
  | write space change =>
    have hmarks (fields : Fields) : (vars.setFields fields space).readMarks = vars.readMarks := by
      cases space <;> rfl
    simp [apply, passed?, hmarks]
  | clearTemporary => simp [apply, passed?, Variables.clearTemporary]
  | replaceGame game => simp [apply, passed?, Variables.replaceGame]
  | exchange path => simp [apply, passed?, mem_readMarks_exchange]

theorem mem_readMarks_applyAll (usages : List Usage) (state : Variables × Disk) (key : String)
    : key ∈ (applyAll usages state).1.readMarks
        ↔
      key ∈ state.1.readMarks ∨ ∃ mark ∈ usages.filterMap passed?, key = markKey mark.1 mark.2 := by
  induction usages generalizing state with
  | nil => simp [applyAll]
  | cons usage usages ih =>
    have hrun : applyAll (usage :: usages) state = applyAll usages (usage.apply state) := rfl
    rw [hrun, ih, mem_readMarks_apply, or_assoc]
    cases hpassed : usage.passed? with
    | none => simp [hpassed]
    | some mark => simp [hpassed]

end Usage

/-! ### Tracking -/

/--
Is one save mark the other with a colon that changes over between the file and the mark, or are they the same?
-/
inductive Alike : String × String → String × String → Prop where
  | same (mark : String × String) : Alike mark mark
  | longer (file between mark : String) : Alike (file, between ++ ":" ++ mark) (file ++ ":" ++ between, mark)
  | shorter (file between mark : String) : Alike (file ++ ":" ++ between, mark) (file, between ++ ":" ++ mark)

theorem Alike.symm {passed asked : String × String} (h : Alike passed asked) : Alike asked passed := by
  cases h with
  | same => exact .same _
  | longer file between mark => exact .shorter file between mark
  | shorter file between mark => exact .longer file between mark

theorem alike_of_append {file mark file' mark' : String} {more : List Char} (hfile : file'.toList = file.toList ++ more)
    (hmark : ':' :: mark.toList = more ++ ':' :: mark'.toList) : Alike (file, mark) (file', mark') := by
  cases more with
  | nil =>
    have hfile : file' = file := String.toList_inj.1 (by rw [hfile, List.append_nil])
    have hmark : mark = mark' := String.toList_inj.1 (List.cons.inj hmark).2
    rw [hfile, hmark]
    exact .same _
  | cons c between =>
    obtain ⟨rfl, hrest⟩ := List.cons.inj hmark
    have hrest : mark.toList = between ++ ':' :: mark'.toList := hrest
    have hfile : file' = file ++ ":" ++ String.ofList between := by
      apply String.toList_inj.1
      simp [hfile]
    have hmark : mark = String.ofList between ++ ":" ++ mark' := by
      apply String.toList_inj.1
      simp [hrest]
    rw [hfile, hmark]
    exact .longer ..

theorem markKey_eq_iff (passed asked : String × String)
    : markKey passed.1 passed.2 = markKey asked.1 asked.2 ↔ Alike passed asked := by
  constructor
  . obtain ⟨file, mark⟩ := passed
    obtain ⟨file', mark'⟩ := asked
    intro h
    have hlist := congrArg String.toList h
    simp only [markKey, String.toList_append, List.append_assoc] at hlist
    rcases List.append_eq_append_iff.1 hlist with ⟨more, hfile, hmark⟩ | ⟨more, hfile, hmark⟩
    . exact alike_of_append hfile hmark
    . exact (alike_of_append hfile hmark).symm
  . intro h
    cases h with
    | same => rfl
    | longer file between mark => simp [markKey, String.append_assoc]
    | shorter file between mark => simp [markKey, String.append_assoc]

theorem Alike.eq {passed asked : String × String} (h : Alike passed asked) (hpassed : ':' ∉ passed.1.toList)
    (hasked : ':' ∉ asked.1.toList) : passed = asked := by
  cases h with
  | same => rfl
  | longer => simp at hasked
  | shorter => simp at hpassed

/--
After any use of fresh variables a save mark counts as read exactly if one that is alike has been passed, and to pass it is
told to be the first time exactly if none has been. If no file has a colon in its path, it has been passed itself.
-/
theorem isRead_iff_passed (usages : List Usage) (disk : Disk) (file mark : String)
    : let vars := (Usage.applyAll usages ({}, disk)).1
      let marks := usages.filterMap Usage.passed?
      (vars.isRead file mark = true ↔ ∃ passed ∈ marks, Alike passed (file, mark)) ∧
        ((vars.pass file mark).1 = true ↔ ∀ passed ∈ marks, ¬Alike passed (file, mark)) ∧
        (':' ∉ file.toList → (∀ passed ∈ marks, ':' ∉ passed.1.toList) →
          (vars.isRead file mark = true ↔ (file, mark) ∈ marks) ∧
            ((vars.pass file mark).1 = true ↔ (file, mark) ∉ marks)) := by
  intro vars marks
  have hread : vars.isRead file mark = true ↔ ∃ passed ∈ marks, Alike passed (file, mark) := by
    rw [isRead, List.contains_iff_mem, Usage.mem_readMarks_applyAll]
    simp only [List.not_mem_nil, false_or]
    refine exists_congr fun passed => and_congr_right fun _ => ?_
    rw [← markKey_eq_iff]
    exact eq_comm
  have hpass : (vars.pass file mark).1 = true ↔ ∀ passed ∈ marks, ¬Alike passed (file, mark) := by
    rw [pass, Bool.not_eq_true', ← Bool.not_eq_true, hread]
    simp only [not_exists, not_and]
  refine ⟨hread, hpass, fun hfile hmarks => ?_⟩
  have halike : (∃ passed ∈ marks, Alike passed (file, mark)) ↔ (file, mark) ∈ marks := by
    constructor
    . rintro ⟨passed, hmem, h⟩
      exact h.eq (hmarks passed hmem) hfile ▸ hmem
    . exact fun hmem => ⟨_, hmem, .same _⟩
  refine ⟨hread.trans halike, ?_⟩
  rw [hpass, ← halike]
  simp only [not_exists, not_and]

section Sample

/--
A save mark is passed in a file whose path has no colon, and kept in the file of the player.
-/
def sampleUsages : List Usage :=
  [.pass "night" "2:intro", .write .system (Fields.insert "seen" (.bool true)), .exchange "player.json", .clearTemporary]

theorem isRead_sample
    : let vars := (Usage.applyAll sampleUsages ({}, {})).1
      vars.isRead "night" "2:intro" = true ∧ vars.isRead "night:2" "intro" = true ∧ vars.isRead "night" "intro" = false ∧
        (vars.pass "night" "intro").1 = true := by
  have hmarks : sampleUsages.filterMap Usage.passed? = [("night", "2:intro")] := rfl
  have hsame := isRead_iff_passed sampleUsages {} "night" "2:intro"
  have hlonger := isRead_iff_passed sampleUsages {} "night:2" "intro"
  have hother := isRead_iff_passed sampleUsages {} "night" "intro"
  rw [hmarks] at hsame hlonger hother
  have htracked := hother.2.2 (by decide) (by simp)
  refine ⟨hsame.1.2 ⟨_, List.mem_singleton_self _, .same _⟩, ?_, ?_, ?_⟩
  . exact hlonger.1.2 ⟨_, List.mem_singleton_self _, .longer "night" "2" "intro"⟩
  . rw [← Bool.not_eq_true, htracked.1]
    decide
  . rw [htracked.2]
    decide

end Sample

end Variables
end VisualNovel
