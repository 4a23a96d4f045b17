import VisualNovel.Proofs.Caching.Bytes
import VisualNovel.Proofs.Caching.Places

/-!
This module contains how a disk grows: directories are made where nothing has been, and files are written at some places.
What a path has led to before it still leads to, unless one of these places is at its end.
-/

namespace VisualNovel
namespace Disk

/--
Can a disk come of another one by new directories, and by files that are written at these places?
-/
inductive Grows (Writable : Place → Prop) (disk : Disk) : Disk → Prop where
  | refl : Grows Writable disk disk
  | directory {after : Disk} {place : Place} (h : Grows Writable disk after) (hne : place ≠ [])
    (hfree : after.get? place = none) : Grows Writable disk (after.insert place .directory)
  | file {after : Disk} {place : Place} {bytes : ByteArray} (h : Grows Writable disk after) (hne : place ≠ [])
    (hwritable : Writable place) (hplace : after.get? place ≠ some .directory)
    : Grows Writable disk (after.insert place (.file bytes))

variable {Writable : Place → Prop} {disk after : Disk}

theorem Grows.trans {last : Disk} (h : Grows Writable disk after) (h' : Grows Writable after last)
    : Grows Writable disk last := by
  induction h' with
  | refl => exact h
  | directory _ hne hfree ih => exact .directory ih hne hfree
  | file _ hne hwritable hplace ih => exact .file ih hne hwritable hplace

theorem Grows.mono {Allowed : Place → Prop} (h : Grows Writable disk after)
    (hallowed : ∀ place, Writable place → Allowed place) : Grows Allowed disk after := by
  induction h with
  | refl => exact .refl
  | directory _ hne hfree ih => exact .directory ih hne hfree
  | file _ hne hwritable hplace ih => exact .file ih hne (hallowed _ hwritable) hplace

/-! ### What stays -/

theorem Grows.current (h : Grows Writable disk after) : after.current = disk.current := by
  induction h with
  | refl => rfl
  | directory _ _ _ ih => exact ih
  | file _ _ _ _ ih => exact ih

theorem Grows.directory_stays (h : Grows Writable disk after) {place : Place} (hplace : disk.get? place = some .directory)
    : after.get? place = some .directory := by
  induction h with
  | refl => exact hplace
  | @directory after other _ hne _ ih =>
    by_cases hother : place = other
    . rw [hother, get?_insert_self _ _ hne]
    . rw [get?_insert_of_ne _ _ hother, ih]
  | @file after other bytes _ _ _ hdirectory ih =>
    have hother : place ≠ other := by
      rintro rfl
      exact hdirectory ih
    rw [get?_insert_of_ne _ _ hother, ih]

/--
A file stays a file, and it stays as it is unless it is written.
-/
theorem Grows.file_stays (h : Grows Writable disk after) {place : Place} {bytes : ByteArray}
    (hplace : disk.get? place = some (.file bytes))
    : ∃ bytes', after.get? place = some (.file bytes') ∧ (¬Writable place → bytes' = bytes) := by
  induction h with
  | refl => exact ⟨bytes, hplace, fun _ => rfl⟩
  | @directory after other _ hne hfree ih =>
    obtain ⟨bytes', hfile, hsame⟩ := ih
    have hother : place ≠ other := by
      rintro rfl
      rw [hfree] at hfile
      cases hfile
    exact ⟨bytes', by rw [get?_insert_of_ne _ _ hother, hfile], hsame⟩
  | @file after other written _ hne hwritable _ ih =>
    obtain ⟨bytes', hfile, hsame⟩ := ih
    by_cases hother : place = other
    . subst hother
      exact ⟨written, get?_insert_self _ _ hne, fun hnot => absurd hwritable hnot⟩
    . exact ⟨bytes', by rw [get?_insert_of_ne _ _ hother, hfile], hsame⟩

/--
There are no new files but those that are written.
-/
theorem Grows.file_before (h : Grows Writable disk after) {place : Place} {bytes : ByteArray} (hplace : ¬Writable place)
    (hfile : after.get? place = some (.file bytes)) : disk.get? place = some (.file bytes) := by
  induction h with
  | refl => exact hfile
  | @directory after other _ hne _ ih =>
    by_cases hother : place = other
    . rw [hother, get?_insert_self _ _ hne] at hfile
      cases hfile
    . rw [get?_insert_of_ne _ _ hother] at hfile
      exact ih hfile
  | @file after other written _ _ hwritable _ ih =>
    have hother : place ≠ other := by
      rintro rfl
      exact hplace hwritable
    rw [get?_insert_of_ne _ _ hother] at hfile
    exact ih hfile

/-! ### Paths -/

theorem ne_notFound_of_ok {α : Type} {x : Except DiskFault α} {a : α} (h : x = .ok a) : x ≠ .error .notFound := by
  intro hnot
  rw [h] at hnot
  cases hnot

theorem Grows.requireDirectory_stays (h : Grows Writable disk after) {place : Place}
    (hfound : disk.requireDirectory place ≠ .error .notFound)
    : after.requireDirectory place = disk.requireDirectory place := by
  unfold requireDirectory at hfound ⊢
  cases hplace : disk.get? place with
  | none =>
    rw [hplace] at hfound
    exact absurd rfl hfound
  | some entry =>
    cases entry with
    | directory => rw [h.directory_stays hplace]
    | file bytes =>
      obtain ⟨bytes', hfile, _⟩ := h.file_stays hplace
      rw [hfile]

theorem Grows.follow_stays (h : Grows Writable disk after) {place : Place} {parts : List String}
    (hfound : disk.follow place parts ≠ .error .notFound) : after.follow place parts = disk.follow place parts := by
  induction parts generalizing place with
  | nil => rfl
  | cons part parts ih =>
    rw [follow] at hfound ⊢
    rw [follow]
    cases hdirectory : disk.requireDirectory place with
    | error fault =>
      rw [hdirectory] at hfound
      rw [h.requireDirectory_stays fun heq => hfound (by rw [← hdirectory, heq]; rfl), hdirectory]
      rfl
    | ok _ =>
      rw [hdirectory] at hfound
      rw [h.requireDirectory_stays (ne_notFound_of_ok hdirectory), hdirectory]
      change (if part = "" || part = "." then _ else _) = (if part = "" || part = "." then _ else _)
      change (if part = "" || part = "." then _ else _) ≠ _ at hfound
      split
      . next hblank =>
        rw [if_pos hblank] at hfound
        exact ih hfound
      . next hblank =>
        rw [if_neg hblank] at hfound
        split
        . next hup =>
          rw [if_pos hup] at hfound
          exact ih hfound
        . next hup =>
          rw [if_neg hup] at hfound
          split
          . rfl
          . next hlong =>
            rw [if_neg hlong] at hfound
            exact ih hfound

theorem start_eq (h : after.current = disk.current) (path : String) : after.start path = disk.start path := by
  rw [start, start, h]

/--
What a path has led to it still leads to, unless it is written.
-/
theorem Grows.find_stays (h : Grows Writable disk after) {path : String} (hfound : disk.find path ≠ .error .notFound)
    (hplace : ¬Writable (disk.placeOf path)) : after.find path = disk.find path := by
  unfold find at hfound ⊢
  rw [start_eq h.current]
  cases hstart : disk.start path with
  | error fault => rfl
  | ok answer =>
    obtain ⟨place, parts⟩ := answer
    obtain ⟨rfl, rfl⟩ := start_eq_ok hstart
    rw [hstart] at hfound
    dsimp only [bind, Except.bind] at hfound ⊢
    cases hfollow : disk.follow (disk.origin path) (pathParts path) with
    | error fault =>
      rw [hfollow] at hfound
      rw [h.follow_stays fun heq => hfound (by rw [← hfollow, heq]), hfollow]
    | ok target =>
      rw [hfollow] at hfound
      rw [h.follow_stays (ne_notFound_of_ok hfollow), hfollow]
      have htarget : target = disk.placeOf path := follow_eq_ok hfollow
      rw [htarget] at hfound ⊢
      dsimp only at hfound ⊢
      cases hget : disk.get? (disk.placeOf path) with
      | none =>
        rw [hget] at hfound
        exact absurd rfl hfound
      | some entry =>
        cases entry with
        | directory => rw [h.directory_stays hget]
        | file bytes =>
          obtain ⟨bytes', hfile, hsame⟩ := h.file_stays hget
          rw [hfile, hsame hplace]

theorem Grows.readBytes_stays (h : Grows Writable disk after) {path : String} (hfound : disk.find path ≠ .error .notFound)
    (hplace : ¬Writable (disk.placeOf path)) : after.readBytes path = disk.readBytes path := by
  rw [readBytes, h.find_stays hfound hplace, readBytes]

theorem Grows.readText_stays (h : Grows Writable disk after) {path : String} (hfound : disk.find path ≠ .error .notFound)
    (hplace : ¬Writable (disk.placeOf path)) : after.readText path = disk.readText path := by
  rw [readText, h.readBytes_stays hfound hplace, readText]

/-! ### Changes -/

theorem grows_createDirectory {path : String} (h : disk.createDirectory path = .ok after) : Grows Writable disk after := by
  unfold createDirectory at h
  cases hfind : disk.findTarget path with
  | error fault =>
    rw [hfind] at h
    cases h
  | ok answer =>
    obtain ⟨directory, target⟩ := answer
    rw [hfind] at h
    dsimp only [bind, Except.bind] at h
    by_cases hname : (!target.isName) = true
    . rw [if_pos hname] at h
      cases h
    . rw [if_neg hname] at h
      cases hin : target.placeIn directory with
      | error fault =>
        rw [hin] at h
        cases h
      | ok place =>
        rw [hin] at h
        cases placeIn_eq_ok hin
        dsimp only [bind, Except.bind] at h
        cases hget : disk.get? (directory ++ [target.name]) with
        | some entry =>
          rw [hget] at h
          cases h
        | none =>
          rw [hget] at h
          cases h
          exact .directory .refl (by simp) hget

theorem grows_ensureDirectory {path : String} (h : disk.ensureDirectory path = .ok after) : Grows Writable disk after := by
  unfold ensureDirectory at h
  split at h
  . split at h
    . cases h
      exact .refl
    . cases h
  . exact grows_createDirectory h

/--
A change that fails changes nothing.
-/
theorem run_change {ε : Type} (report : DiskFault → ε) (f : Disk → Except DiskFault Disk) (disk : Disk)
    : (change report f).run.run disk
        =
      match f disk with
      | .ok after => (.ok (), after)
      | .error fault => (.error (report fault), disk) := by
  unfold change
  rw [run_get_bind]
  cases f disk <;> rfl

theorem grows_change {ε : Type} (report : DiskFault → ε) (path : String) (disk : Disk)
    : Grows Writable disk ((change report (·.ensureDirectory path)).run.run disk).2 := by
  rw [run_change]
  cases hensure : disk.ensureDirectory path with
  | error fault => exact .refl
  | ok after => exact grows_ensureDirectory hensure

theorem grows_ensureNested (paths : List String) (disk : Disk)
    : Grows Writable disk ((ensureNested paths).run.run disk).2 := by
  induction paths generalizing disk with
  | nil => exact .refl
  | cons path parents ih =>
    unfold ensureNested
    by_cases hempty : path.isEmpty
    . rw [if_pos hempty]
      exact .refl
    . rw [if_neg hempty]
      rw [run_get_bind]
      cases hensure : disk.ensureDirectory path with
      | ok after => exact grows_ensureDirectory hensure
      | error fault =>
        cases fault with
        | notFound =>
          dsimp only
          rw [run_bind]
          have hparents := ih disk
          cases hnested : (ensureNested parents).run.run disk with
          | mk answer around =>
            rw [hnested] at hparents
            cases answer with
            | error fault => exact hparents
            | ok _ => exact hparents.trans (grows_change id path around)
        | _ => exact .refl

theorem grows_ensureDirectories {ε : Type} (report : DiskFault → ε) (path : String) (disk : Disk)
    : Grows Writable disk ((ensureDirectories report path).run.run disk).2 := by
  have hnested : Grows Writable disk ((ensureNested (Path.ancestors path)).run.run disk).2 :=
    grows_ensureNested (Path.ancestors path) disk
  have hrun : ((ensureDirectories report path).run.run disk).2
      = ((ensureNested (Path.ancestors path)).run.run disk).2 := by
    unfold ensureDirectories
    rfl
  rw [hrun]
  exact hnested

/-! ### What is written is read back -/

theorem follow_append (disk : Disk) (place : Place) (parts more : List String)
    : disk.follow place (parts ++ more) = (disk.follow place parts).bind fun place => disk.follow place more := by
  induction parts generalizing place with
  | nil => rfl
  | cons part parts ih =>
    rw [List.cons_append, follow, follow]
    cases disk.requireDirectory place with
    | error fault => rfl
    | ok _ =>
      dsimp only [bind, Except.bind]
      split
      . exact ih place
      . split
        . exact ih place.dropLast
        . split
          . rfl
          . exact ih (place ++ [part])

theorem follow_name_eq {directory : Place} {name : String} (hname : IsName name)
    (hdirectory : disk.requireDirectory directory = .ok ())
    : disk.follow directory [name]
        = if 255 < name.utf8ByteSize then .error .nameTooLong else .ok (directory ++ [name]) := by
  have hblank : ¬(name = "" || name = ".") = true := by
    simp [hname.ne_blank, hname.ne_point]
  rw [follow, hdirectory]
  dsimp only [bind, Except.bind]
  rw [if_neg hblank, if_neg hname.ne_points, follow]
  rfl

theorem follow_name {directory : Place} {name : String} (hname : IsName name) (hshort : ¬255 < name.utf8ByteSize)
    (hdirectory : disk.requireDirectory directory = .ok ()) : disk.follow directory [name] = .ok (directory ++ [name]) := by
  rw [follow_name_eq hname hdirectory, if_neg hshort]

theorem LeadsInto.find_eq {path name : String} {before : List String} (h : LeadsInto disk path before name)
    : disk.find path
        =
      match disk.get? (disk.placeOf path) with
      | some entry => .ok (disk.placeOf path, entry)
      | none => .error .notFound := by
  unfold find
  rw [h.starts]
  dsimp only [bind, Except.bind]
  rw [follow_append, h.follows]
  dsimp only [Except.bind]
  rw [follow_name h.isName h.short h.isDirectory, ← h.placeOf_eq]
  rfl

theorem LeadsInto.grows {path name : String} {before : List String} (h : LeadsInto disk path before name)
    (hgrows : Grows Writable disk after) : LeadsInto after path before name := by
  have horigin : after.origin path = disk.origin path := by
    rw [origin, origin, hgrows.current]
  refine ⟨?_, h.isName, h.short, ?_, ?_⟩
  . rw [start_eq hgrows.current, horigin, h.starts]
  . rw [horigin, hgrows.follow_stays (ne_notFound_of_ok h.follows), h.follows]
  . rw [horigin, hgrows.requireDirectory_stays (ne_notFound_of_ok h.isDirectory), h.isDirectory]

theorem grows_writeBytes {path : String} {bytes : ByteArray} (h : disk.writeBytes path bytes = .ok after)
    : Grows (· = disk.placeOf path) disk after := by
  obtain ⟨⟨before, name, hleads⟩, hplace, rfl⟩ := writeBytes_eq_ok h
  exact .file .refl hleads.placeOf_ne rfl hplace

theorem readBytes_of_writeBytes {path : String} {bytes : ByteArray} (h : disk.writeBytes path bytes = .ok after)
    : after.readBytes path = .ok bytes := by
  have hgrows := grows_writeBytes h
  obtain ⟨⟨before, name, hleads⟩, hplace, rfl⟩ := writeBytes_eq_ok h
  rw [readBytes, (hleads.grows hgrows).find_eq, placeOf_eq hgrows.current, get?_insert_self disk _ hleads.placeOf_ne]
  rfl

theorem readText_of_writeText {path text : String} (h : disk.writeText path text = .ok after)
    : after.readText path = .ok text := by
  rw [readText, readBytes_of_writeBytes h]
  dsimp only [bind, Except.bind]
  rw [fromUTF8?_toUTF8]
  rfl

end Disk
end VisualNovel
