import VisualNovel.Cache.Basic
import VisualNovel.Proofs.Computation
import VisualNovel.Proofs.Parsing.Lines

/-!
This module contains where accesses to a disk go: a path that leads somewhere leads to the place that its text tells, and
what is made or written changes no file but the one that is written.
-/

namespace VisualNovel
namespace Disk

/-! ### The place of a path -/

/--
Where the parts of a path lead to from a place, whatever is there.
-/
def walk (place : Place) : List String → Place
  | [] => place
  | part :: parts =>
    if part = "" || part = "." then walk place parts
    else if part = ".." then walk place.dropLast parts
    else walk (place ++ [part]) parts

def pathParts (path : String) : List String :=
  (Path.splitAt '/' path.toList).map String.ofList

def origin (disk : Disk) (path : String) : Place :=
  if Path.isAbsolute path then [] else disk.current

def placeOf (disk : Disk) (path : String) : Place :=
  walk (disk.origin path) (pathParts path)

/--
The place of a path depends on the working directory of the disk alone.
-/
theorem placeOf_eq {disk other : Disk} (h : other.current = disk.current) (path : String)
    : other.placeOf path = disk.placeOf path := by
  rw [placeOf, placeOf, origin, origin, h]

theorem walk_append (place : Place) (parts more : List String)
    : walk place (parts ++ more) = walk (walk place parts) more := by
  fun_induction walk place parts with
  | case1 place => rfl
  | case2 place part parts hblank ih => rw [List.cons_append, walk, if_pos hblank, ih]
  | case3 place parts hblank ih => rw [List.cons_append, walk, if_neg hblank, if_pos rfl, ih]
  | case4 place part parts hblank hup ih => rw [List.cons_append, walk, if_neg hblank, if_neg hup, ih]

/--
Does a part of a path lead to something inside of a directory?
-/
structure IsName (part : String) : Prop where
  ne_blank : part ≠ ""
  ne_point : part ≠ "."
  ne_points : part ≠ ".."

theorem walk_name {part : String} (h : IsName part) (place : Place) : walk place [part] = place ++ [part] := by
  have hblank : ¬(part = "" || part = ".") = true := by
    simp [h.ne_blank, h.ne_point]
  rw [walk, if_neg hblank, if_neg h.ne_points, walk]

theorem follow_cons {disk : Disk} {place target : Place} {part : String} {parts : List String}
    (h : disk.follow place (part :: parts) = .ok target) : disk.follow (walk place [part]) parts = .ok target := by
  rw [follow] at h
  cases hdirectory : disk.requireDirectory place with
  | error fault =>
    rw [hdirectory] at h
    cases h
  | ok _ =>
    rw [hdirectory] at h
    change (if part = "" || part = "." then _ else _) = _ at h
    unfold walk
    split at h
    . next hblank =>
      rw [if_pos hblank]
      exact h
    . next hblank =>
      rw [if_neg hblank]
      split at h
      . next hup =>
        rw [if_pos hup]
        exact h
      . next hup =>
        rw [if_neg hup]
        split at h
        . cases h
        . exact h

theorem follow_eq_ok {disk : Disk} {place target : Place} {parts : List String}
    (h : disk.follow place parts = .ok target) : target = walk place parts := by
  induction parts generalizing place with
  | nil =>
    cases h
    rfl
  | cons part parts ih => rw [ih (follow_cons h), ← walk_append, List.singleton_append]

theorem start_eq_ok {disk : Disk} {path : String} {place : Place} {parts : List String}
    (h : disk.start path = .ok (place, parts)) : place = disk.origin path ∧ parts = pathParts path := by
  unfold start at h
  dsimp only at h
  by_cases hzero : path.toList.contains '\x00'
  . rw [if_pos hzero] at h
    cases h
  . rw [if_neg hzero] at h
    by_cases hempty : path.isEmpty
    . rw [if_pos hempty] at h
      cases h
    . rw [if_neg hempty] at h
      by_cases hlong : 4095 < path.utf8ByteSize
      . rw [if_pos hlong] at h
        cases h
      . rw [if_neg hlong] at h
        cases h
        exact ⟨rfl, rfl⟩

theorem follow_of_find {disk : Disk} {path : String} {place : Place} {entry : Entry}
    (h : disk.find path = .ok (place, entry))
    : disk.start path = .ok (disk.origin path, pathParts path) ∧
        disk.follow (disk.origin path) (pathParts path) = .ok place ∧ disk.get? place = some entry := by
  unfold find at h
  cases hstart : disk.start path with
  | error fault =>
    rw [hstart] at h
    cases h
  | ok answer =>
    obtain ⟨first, parts⟩ := answer
    obtain ⟨rfl, rfl⟩ := start_eq_ok hstart
    rw [hstart] at h
    change (do let place ← disk.follow (disk.origin path) (pathParts path); _) = _ at h
    cases hfollow : disk.follow (disk.origin path) (pathParts path) with
    | error fault =>
      rw [hfollow] at h
      cases h
    | ok target =>
      rw [hfollow] at h
      change (Except.ok target >>= _) = _ at h
      dsimp only [bind, Except.bind] at h
      cases hget : disk.get? target with
      | none =>
        rw [hget] at h
        cases h
      | some found =>
        rw [hget] at h
        cases h
        exact ⟨rfl, rfl, hget⟩

/--
What a path leads to is at the place of the path.
-/
theorem find_eq_ok {disk : Disk} {path : String} {place : Place} {entry : Entry}
    (h : disk.find path = .ok (place, entry)) : place = disk.placeOf path ∧ disk.get? place = some entry := by
  obtain ⟨_, hfollow, hget⟩ := follow_of_find h
  exact ⟨follow_eq_ok hfollow, hget⟩

theorem get?_of_readBytes {disk : Disk} {path : String} {bytes : ByteArray} (h : disk.readBytes path = .ok bytes)
    : disk.get? (disk.placeOf path) = some (.file bytes) := by
  unfold readBytes at h
  cases hfind : disk.find path with
  | error fault =>
    rw [hfind] at h
    cases h
  | ok answer =>
    obtain ⟨place, entry⟩ := answer
    obtain ⟨rfl, hget⟩ := find_eq_ok hfind
    rw [hfind] at h
    cases entry with
    | directory => cases h
    | file found =>
      cases h
      exact hget

/-! ### Changes -/

theorem ofParts_before {parts : List String} (hslashed : (Target.ofParts parts).slashed = false)
    : parts = (Target.ofParts parts).before ++ [(Target.ofParts parts).name] := by
  obtain ⟨reversed, rfl⟩ : ∃ reversed : List String, parts = reversed.reverse := ⟨parts.reverse, by simp⟩
  unfold Target.ofParts at hslashed ⊢
  rw [List.reverse_reverse, List.getLast?_reverse] at *
  cases reversed with
  | nil => cases hslashed
  | cons last before =>
    by_cases hlast : last = ""
    . subst hlast
      split at hslashed
      . cases hslashed
      . cases hslashed
    . rw [List.dropWhile_cons_of_neg (by simpa using hlast)]
      simp

theorem findTarget_eq_ok {disk : Disk} {path : String} {directory : Place} {target : Target}
    (h : disk.findTarget path = .ok (directory, target))
    : disk.start path = .ok (disk.origin path, pathParts path) ∧ target = Target.ofParts (pathParts path) ∧
        disk.follow (disk.origin path) target.before = .ok directory ∧ disk.requireDirectory directory = .ok () := by
  unfold findTarget at h
  cases hstart : disk.start path with
  | error fault =>
    rw [hstart] at h
    cases h
  | ok answer =>
    obtain ⟨first, parts⟩ := answer
    obtain ⟨rfl, rfl⟩ := start_eq_ok hstart
    rw [hstart] at h
    change (do let directory ← disk.follow (disk.origin path) (Target.ofParts (pathParts path)).before; _) = _ at h
    cases hfollow : disk.follow (disk.origin path) (Target.ofParts (pathParts path)).before with
    | error fault =>
      rw [hfollow] at h
      cases h
    | ok found =>
      rw [hfollow] at h
      change (do disk.requireDirectory found; _) = _ at h
      cases hdirectory : disk.requireDirectory found with
      | error fault =>
        rw [hdirectory] at h
        cases h
      | ok _ =>
        rw [hdirectory] at h
        cases h
        exact ⟨rfl, rfl, hfollow, hdirectory⟩

theorem isName_of_isName {target : Target} (h : target.isName = true) : IsName target.name := by
  simp only [Target.isName, Bool.and_eq_true, bne_iff_ne, ne_eq] at h
  exact ⟨h.1.1, h.1.2, h.2⟩

theorem placeIn_eq_ok {target : Target} {directory place : Place} (h : target.placeIn directory = .ok place)
    : place = directory ++ [target.name] := by
  unfold Target.placeIn at h
  split at h
  . cases h
  . cases h
    rfl

/--
The path leads to a name in a directory that is there.
-/
structure LeadsInto (disk : Disk) (path : String) (before : List String) (name : String) : Prop where
  starts : disk.start path = .ok (disk.origin path, before ++ [name])
  isName : IsName name
  short : ¬255 < name.utf8ByteSize
  follows : disk.follow (disk.origin path) before = .ok (walk (disk.origin path) before)
  isDirectory : disk.requireDirectory (walk (disk.origin path) before) = .ok ()

theorem LeadsInto.placeOf_eq {disk : Disk} {path name : String} {before : List String} (h : LeadsInto disk path before name)
    : disk.placeOf path = walk (disk.origin path) before ++ [name] := by
  rw [placeOf, ← (start_eq_ok h.starts).2, walk_append, walk_name h.isName]

/--
What is written is at the place of the path, and the rest of the disk stays as it is.
-/
theorem writeBytes_eq_ok {disk after : Disk} {path : String} {bytes : ByteArray}
    (h : disk.writeBytes path bytes = .ok after)
    : (∃ before name, LeadsInto disk path before name) ∧ disk.get? (disk.placeOf path) ≠ some .directory ∧
        after = disk.insert (disk.placeOf path) (.file bytes) := by
  unfold writeBytes at h
  cases hfind : disk.findTarget path with
  | error fault =>
    rw [hfind] at h
    cases h
  | ok answer =>
    obtain ⟨directory, target⟩ := answer
    obtain ⟨hstart, htarget, hfollow, hdirectory⟩ := findTarget_eq_ok hfind
    cases follow_eq_ok hfollow
    rw [hfind] at h
    dsimp only [bind, Except.bind] at h
    by_cases hunfit : (!target.isName || target.slashed) = true
    . rw [if_pos hunfit] at h
      cases h
    . rw [if_neg hunfit] at h
      simp only [Bool.or_eq_true, not_or, Bool.not_eq_true, Bool.not_eq_false'] at hunfit
      obtain ⟨hname, hslashed⟩ := hunfit
      have hparts : pathParts path = target.before ++ [target.name] := by
        subst htarget
        exact ofParts_before hslashed
      cases hin : target.placeIn (walk (disk.origin path) target.before) with
      | error fault =>
        rw [hin] at h
        cases h
      | ok place =>
        have hshort : ¬255 < target.name.utf8ByteSize := by
          intro hlong
          rw [Target.placeIn, if_pos hlong] at hin
          cases hin
        have hleads : LeadsInto disk path target.before target.name :=
          ⟨hparts ▸ hstart, isName_of_isName hname, hshort, hfollow, hdirectory⟩
        rw [hin, placeIn_eq_ok hin, ← hleads.placeOf_eq] at h
        refine ⟨⟨_, _, hleads⟩, ?_⟩
        dsimp only [bind, Except.bind] at h
        split at h
        . cases h
        . next hplace =>
          cases h
          exact ⟨hplace, rfl⟩

theorem LeadsInto.placeOf_ne {disk : Disk} {path name : String} {before : List String} (h : LeadsInto disk path before name)
    : disk.placeOf path ≠ [] := by
  rw [h.placeOf_eq]
  simp

/-! ### Paths inside of a directory -/

theorem isAbsolute_append {path : String} (hpath : path ≠ "") (more : String)
    : Path.isAbsolute (path ++ more) = Path.isAbsolute path := by
  have hlist : path.toList ≠ [] := fun hnil => hpath (String.toList_eq_nil_iff.1 hnil)
  obtain ⟨c, cs, hcons⟩ := List.exists_cons_of_ne_nil hlist
  rw [Path.isAbsolute, Path.isAbsolute, String.toList_append, hcons, List.cons_append, List.head?_cons, List.head?_cons]

theorem pathParts_append (path more : String) : pathParts (path ++ "/" ++ more) = pathParts path ++ pathParts more := by
  have hlist : (path ++ "/" ++ more).toList = path.toList ++ '/' :: more.toList := by simp
  rw [pathParts, hlist, Path.splitAt_append, List.map_append]
  rfl

theorem pathParts_name {name : String} (h : '/' ∉ name.toList) : pathParts name = [name] := by
  rw [pathParts, Path.splitAt_of_not_mem '/' h, List.map_singleton, String.ofList_toList]

theorem isAbsolute_of_name {name : String} (h : '/' ∉ name.toList) : Path.isAbsolute name = false := by
  rw [Path.isAbsolute, beq_eq_false_iff_ne]
  exact fun hhead => h (List.mem_of_mem_head? hhead)

/--
The parts of a path inside of a directory follow those of the directory, without the empty one after its last slash.
-/
theorem pathParts_join {directory more : String} (hdirectory : directory ≠ "") (hmore : Path.isAbsolute more = false)
    : ∃ before, pathParts (Path.join directory more) = before ++ pathParts more ∧
        (pathParts directory = before ∨ pathParts directory = before ++ [""]) := by
  unfold Path.join
  rw [if_neg (by simp [hmore, hdirectory])]
  split
  . next hslashed =>
    rw [beq_iff_eq] at hslashed
    obtain ⟨before, hbefore⟩ := List.getLast?_eq_some_iff.1 hslashed
    have heq : directory = String.ofList before ++ "/" := by
      rw [← String.ofList_toList (s := directory), hbefore, String.ofList_append]
    refine ⟨pathParts (String.ofList before), ?_, .inr ?_⟩
    . rw [heq, pathParts_append]
    . rw [heq, ← String.append_empty (s := String.ofList before ++ "/"), pathParts_append]
      rfl
  . exact ⟨pathParts directory, pathParts_append directory more, .inl rfl⟩

theorem origin_join (disk : Disk) {directory more : String} (hmore : Path.isAbsolute more = false)
    : disk.origin (Path.join directory more) = disk.origin directory := by
  unfold Path.join
  by_cases hempty : directory = ""
  . subst hempty
    rw [if_pos (by simp), origin, hmore]
    rfl
  . rw [if_neg (by simp [hmore, hempty])]
    split
    . rw [origin, isAbsolute_append hempty, origin]
    . rw [String.append_assoc, origin, isAbsolute_append hempty, origin]

/--
A path inside of a directory goes on from the place of the directory.
-/
theorem placeOf_join_path (disk : Disk) (directory : String) {more : String} (hmore : Path.isAbsolute more = false)
    : disk.placeOf (Path.join directory more) = walk (disk.placeOf directory) (pathParts more) := by
  have horigin : disk.origin (Path.join directory more) = disk.origin directory := origin_join disk hmore
  by_cases hempty : directory = ""
  . subst hempty
    have hjoin : Path.join "" more = more := if_pos (by simp)
    rw [hjoin] at horigin ⊢
    rw [placeOf, horigin]
    rfl
  . obtain ⟨before, hparts, hdirectory | hdirectory⟩ := pathParts_join hempty hmore
    . rw [placeOf, horigin, hparts, walk_append, placeOf, hdirectory]
    . rw [placeOf, horigin, hparts, walk_append, placeOf, hdirectory, walk_append]
      rfl

/--
An entry of a directory is at its name in the place of the directory.
-/
theorem placeOf_join (disk : Disk) (directory : String) {name : String} (hslash : '/' ∉ name.toList) (h : IsName name)
    : disk.placeOf (Path.join directory name) = disk.placeOf directory ++ [name] := by
  rw [placeOf_join_path disk directory (isAbsolute_of_name hslash), pathParts_name hslash, walk_name h]

end Disk
end VisualNovel
