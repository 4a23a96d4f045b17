import Mathlib.Data.List.Induction
import VisualNovel.Library.Preload
import VisualNovel.Proofs.Caching.Keys

/-!
This module contains what the listing of a directory tells of its scripts: each of them is found, none of them is an entry
of a cache, and the listing stays as it is while entries are written.
-/

namespace VisualNovel

/-! ### File names -/

namespace Path

/--
What a part of a path is among its components. A blank part is none of them.
-/
def component? (part : String) : Option Component :=
  if part = "" || part = "." then none else if part = ".." then some .up else some (.named part)

theorem component?_name {name : String} (h : Disk.IsName name) : component? name = some (.named name) := by
  have hblank : ¬(name = "" || name = ".") = true := by
    simp [h.ne_blank, h.ne_point]
  rw [component?, if_neg hblank, if_neg h.ne_points]

theorem components_eq (path : String)
    : ∃ leading, (∀ name, leading.getLast? ≠ some (.named name)) ∧
        components path = leading ++ (Disk.pathParts path).filterMap component? := by
  refine ⟨_, ?_, rfl⟩
  intro name
  split
  . exact nofun
  . split <;> exact nofun

theorem fileName?_of_parts {path name : String} {before : List String} (hparts : Disk.pathParts path = before ++ [name])
    (h : Disk.IsName name) : fileName? path = some name := by
  obtain ⟨leading, _, hcomponents⟩ := components_eq path
  unfold fileName?
  rw [hcomponents, hparts, List.filterMap_append, List.filterMap_cons, component?_name h, ← List.append_assoc]
  dsimp only [List.filterMap_nil]
  rw [List.getLast?_concat]

end Path

namespace Disk

theorem exists_walk_of_getLast? {parts : List String} {name : String} (place : Place)
    (h : (parts.filterMap Path.component?).getLast? = some (.named name))
    : ∃ before, walk place parts = before ++ [name] := by
  induction parts using List.reverseRecOn with
  | nil => cases h
  | append_singleton parts part ih =>
    rw [List.filterMap_append, List.filterMap_cons, List.filterMap_nil] at h
    rw [walk_append, walk]
    unfold Path.component? at h
    split
    . next hblank =>
      rw [if_pos hblank] at h
      rw [List.append_nil] at h
      exact ih h
    . next hblank =>
      rw [if_neg hblank] at h
      split
      . next hup =>
        rw [if_pos hup] at h
        dsimp only at h
        rw [List.getLast?_concat] at h
        cases h
      . next hup =>
        rw [if_neg hup] at h
        dsimp only at h
        rw [List.getLast?_concat] at h
        cases h
        exact ⟨_, rfl⟩

/--
A path that ends with a file name leads to that name.
-/
theorem placeOf_of_fileName? (disk : Disk) {path name : String} (h : Path.fileName? path = some name)
    : ∃ before, disk.placeOf path = before ++ [name] := by
  apply exists_walk_of_getLast?
  obtain ⟨leading, hleading, hcomponents⟩ := Path.components_eq path
  unfold Path.fileName? at h
  rw [hcomponents, List.getLast?_append] at h
  split at h
  . next hlast =>
    cases h
    cases hparts : ((pathParts path).filterMap Path.component?).getLast? with
    | none =>
      rw [hparts] at hlast
      exact absurd hlast (hleading _)
    | some component =>
      rw [hparts] at hlast
      exact hlast
  . cases h

end Disk

theorem toLower_eq {s t : String} (h : s.toList.map Char.toLower = t.toList) : s.toLower = t := by
  apply String.toList_injective
  change (String.map Char.toLower s).toList = _
  rw [String.toList_map, h]

/--
A script is not named like an entry.
-/
theorem Library.isScript_of_entryName {path source : String} {grammar : Grammar}
    (h : Path.fileName? path = some (Cache.entryName source grammar)) : isScript path = false := by
  have hreversed : (Cache.entryName source grammar).toList.reverse
      = 'n' :: 'i' :: 'b' :: '.' :: 's' :: 'g' :: 'a' :: 't' :: '.' :: (Cache.key source grammar).toList.reverse := by
    rw [Cache.entryName, String.toList_append, List.reverse_append]
    rfl
  have hlower : (String.ofList ['b', 'i', 'n']).toLower = "bin" := toLower_eq (by decide)
  unfold isScript Path.extension?
  rw [h]
  dsimp only [Option.bind]
  rw [hreversed]
  change extensions.contains (String.ofList ['b', 'i', 'n']).toLower = false
  rw [hlower]
  decide

namespace Disk

/-! ### Trees -/

/--
Is all that there is on a disk under a name of its own, inside of a directory that is there as well?
-/
structure IsTree (disk : Disk) : Prop where
  found : ∀ e ∈ disk.entries, disk.get? e.1 = some e.2
  inside : ∀ e ∈ disk.entries, ∃ directory name, e.1 = directory ++ [name] ∧ (IsName name ∧ '/' ∉ name.toList) ∧
    disk.get? directory = some .directory

variable {disk : Disk} {place : Place} {entry : Entry} {below : List String}

theorem IsTree.directory (h : disk.IsTree) {name : String} (hplace : disk.get? (place ++ [name]) = some entry)
    : (IsName name ∧ '/' ∉ name.toList) ∧ disk.get? place = some .directory := by
  rw [get?, if_neg (by simp), List.lookup_eq_some_iff] at hplace
  obtain ⟨before, behind, hentries, -⟩ := hplace
  obtain ⟨directory, last, heq, hinside⟩ := h.inside (place ++ [name], entry) (by simp [hentries])
  obtain ⟨rfl, hlast⟩ := List.append_inj' heq rfl
  cases List.singleton_inj.1 hlast
  exact hinside

theorem IsTree.around (h : disk.IsTree) {name : String} (hplace : disk.get? (place ++ name :: below) = some entry)
    : (IsName name ∧ '/' ∉ name.toList) ∧ disk.get? place = some .directory := by
  induction below using List.reverseRecOn generalizing entry with
  | nil => exact h.directory hplace
  | append_singleton below last ih =>
    rw [← List.cons_append, ← List.append_assoc] at hplace
    exact ih (h.directory hplace).2

theorem IsTree.isName_of_mem (h : disk.IsTree) (hplace : disk.get? (place ++ below) = some entry)
    : ∀ name ∈ below, IsName name ∧ '/' ∉ name.toList := by
  induction below generalizing place with
  | nil => exact nofun
  | cons name below ih =>
    have hname := (h.around hplace).1
    rw [List.append_cons] at hplace
    exact List.forall_mem_cons.2 ⟨hname, ih hplace⟩

/--
The names that lead to an entry of a tree are followed, unless one of them is too long.
-/
theorem IsTree.follow_names (h : disk.IsTree) (hplace : disk.get? (place ++ below) = some entry)
    : disk.follow place below = .ok (place ++ below) ∨ disk.follow place below = .error .nameTooLong := by
  induction below generalizing place with
  | nil =>
    rw [List.append_nil]
    exact .inl rfl
  | cons name below ih =>
    obtain ⟨⟨hname, _⟩, hdirectory⟩ := h.around hplace
    have hblank : ¬(name = "" || name = ".") = true := by
      simp [hname.ne_blank, hname.ne_point]
    rw [List.append_cons] at hplace ⊢
    rw [follow, requireDirectory, hdirectory]
    dsimp only [bind, Except.bind]
    rw [if_neg hblank, if_neg hname.ne_points]
    split
    . exact .inr rfl
    . exact ih hplace

theorem walk_names (hnames : ∀ name ∈ below, IsName name) (place : Place) : walk place below = place ++ below := by
  induction below generalizing place with
  | nil =>
    rw [List.append_nil]
    rfl
  | cons name below ih =>
    obtain ⟨hname, hnames⟩ := List.forall_mem_cons.1 hnames
    rw [← List.singleton_append, walk_append, walk_name hname, ih hnames, List.append_assoc]

theorem pathParts_intercalate {names : List String} (hne : names ≠ [])
    : pathParts (String.intercalate "/" names) = names.flatMap pathParts := by
  induction names with
  | nil => exact absurd rfl hne
  | cons name names ih =>
    cases names with
    | nil => rw [String.intercalate_singleton, List.flatMap_singleton]
    | cons other names =>
      rw [String.intercalate_cons_cons, pathParts_append, ih (by simp)]
      rfl

theorem flatMap_pathParts {names : List String} (hnames : ∀ name ∈ names, '/' ∉ name.toList)
    : names.flatMap pathParts = names := by
  induction names with
  | nil => rfl
  | cons name names ih =>
    obtain ⟨hname, hnames⟩ := List.forall_mem_cons.1 hnames
    rw [List.flatMap_cons, pathParts_name hname, ih hnames, List.singleton_append]

theorem isAbsolute_of_pathParts {path name : String} {names : List String} (hparts : pathParts path = name :: names)
    (h : IsName name) : Path.isAbsolute path = false := by
  rw [Path.isAbsolute, beq_eq_false_iff_ne]
  intro hhead
  obtain ⟨cs, hcs⟩ := List.head?_eq_some_iff.1 hhead
  rw [pathParts, hcs, Path.splitAt, if_pos rfl, List.map_cons] at hparts
  exact h.ne_blank (List.cons.inj hparts).1.symm

/-! ### Paths inside of a directory that is there -/

theorem ne_notFound_of_start {path : String} {fault : DiskFault} (hpath : path ≠ "") (h : disk.start path = .error fault)
    : fault ≠ .notFound := by
  unfold start at h
  dsimp only at h
  rintro rfl
  split at h
  . cases h
  . rw [if_neg (by simpa using hpath)] at h
    change (if 4095 < path.utf8ByteSize then _ else _) = _ at h
    split at h <;> cases h

/--
A path inside of a directory leads to what the rest of the path leads to from the directory.
-/
theorem find_join {directory more : String} (hfind : disk.find directory = .ok (place, entry))
    (hmore : Path.isAbsolute more = false)
    : disk.find (Path.join directory more) = (do
        let _ ← disk.start (Path.join directory more)
        let target ← disk.follow place (pathParts more)
        match disk.get? target with
        | some entry => return (target, entry)
        | none => throw .notFound) := by
  obtain ⟨hstart, hfollow, _⟩ := follow_of_find hfind
  have hdirectory : directory ≠ "" := by
    rintro rfl
    cases hstart
  obtain ⟨before, hparts, hbefore⟩ := pathParts_join hdirectory hmore
  have hplace : disk.follow (disk.origin directory) before = .ok place := by
    obtain rfl | hslashed := hbefore
    . exact hfollow
    . rw [hslashed, follow_append] at hfollow
      cases hfirst : disk.follow (disk.origin directory) before with
      | error fault =>
        rw [hfirst] at hfollow
        cases hfollow
      | ok target =>
        rw [hfirst] at hfollow
        exact congrArg Except.ok (follow_eq_ok hfollow).symm
  unfold find
  cases hjoined : disk.start (Path.join directory more) with
  | error fault => rfl
  | ok answer =>
    obtain ⟨first, parts⟩ := answer
    obtain ⟨rfl, rfl⟩ := start_eq_ok hjoined
    dsimp only [bind, Except.bind]
    rw [origin_join disk hmore, hparts, follow_append, hplace]
    rfl

theorem join_ne_empty {directory more : String} (hfind : disk.find directory = .ok (place, entry))
    : Path.join directory more ≠ "" := by
  have hdirectory : directory ≠ "" := by
    rintro rfl
    cases (follow_of_find hfind).1
  unfold Path.join
  split
  . next hmore =>
    rintro rfl
    simp [Path.isAbsolute, hdirectory] at hmore
  . split <;> simp [hdirectory]

/--
A path inside of a directory is found, or it is refused for what it is, if that holds of the rest of the path.
-/
theorem find_join_ne {directory more : String} (hfind : disk.find directory = .ok (place, entry))
    (hmore : Path.isAbsolute more = false)
    (hfollow : disk.follow place (pathParts more) ≠ .error .notFound ∧
      ∀ target, disk.follow place (pathParts more) = .ok target → (disk.get? target).isSome)
    : disk.find (Path.join directory more) ≠ .error .notFound := by
  rw [find_join hfind hmore]
  cases hstart : disk.start (Path.join directory more) with
  | error fault => exact fun heq => ne_notFound_of_start (join_ne_empty hfind) hstart (Except.error.inj heq)
  | ok _ =>
    dsimp only [bind, Except.bind]
    obtain ⟨hfound, hthere⟩ := hfollow
    cases htarget : disk.follow place (pathParts more) with
    | error fault => exact fun heq => hfound (by rw [htarget, Except.error.inj heq])
    | ok target =>
      obtain ⟨entry, hentry⟩ := Option.isSome_iff_exists.1 (hthere target htarget)
      dsimp only
      rw [hentry]
      exact ne_notFound_of_ok rfl

end Disk

namespace Library

/-! ### Listings -/

/--
The name under which a directory lists an entry, if it is a script. A script may also be all that is there.
-/
def scriptName? (directory : String) (place : Disk.Place) : Disk.Place × Disk.Entry → Option String
  | (other, .file _) =>
    if place.isPrefixOf other then
      let below := other.drop place.length
      if isScript (if below.isEmpty then directory else String.intercalate "/" below) then
        some (String.intercalate "/" below)
      else
        none
    else
      none
  | (_, .directory) => none

theorem scriptFiles_eq (lib : Library)
    : lib.scriptFiles
        =
      match lib.disk.find lib.directory with
      | .ok (place, _) => .ok ((lib.disk.entries.filterMap (scriptName? lib.directory place)).mergeSort (· ≤ ·))
      | .error fault => .error (.scan lib.directory fault) := by
  unfold scriptFiles Disk.filesBelow
  cases lib.disk.find lib.directory with
  | error fault => rfl
  | ok answer =>
    obtain ⟨place, entry⟩ := answer
    change Except.ok ((List.filterMap _ (List.filterMap _ _)).mergeSort _) = _
    rw [List.filterMap_filterMap]
    congr 3
    funext e
    obtain ⟨other, entry⟩ := e
    cases entry with
    | directory => rfl
    | file bytes =>
      unfold scriptName?
      dsimp only
      split <;> rfl

theorem isScript_eq_false_of_parts {path source : String} {grammar : Grammar} {before : List String}
    (hparts : Disk.pathParts path = before ++ [Cache.entryName source grammar]) : isScript path = false :=
  isScript_of_entryName (Path.fileName?_of_parts hparts (Cache.isName_entryName source grammar))

/--
A path to an entry is not the path of a script.
-/
theorem isScript_eq_false_of_placeOf {disk : Disk} {path source : String} {grammar : Grammar} {directory : Disk.Place}
    (hplace : disk.placeOf path = directory ++ [Cache.entryName source grammar]) : isScript path = false := by
  cases hname : Path.fileName? path with
  | none =>
    unfold isScript Path.extension?
    rw [hname]
    rfl
  | some name =>
    obtain ⟨before, hbefore⟩ := disk.placeOf_of_fileName? hname
    have hsame := (List.append_inj' (hbefore.symm.trans hplace) rfl).2
    cases List.singleton_inj.1 hsame
    exact isScript_of_entryName hname

theorem scriptName?_eq_some_iff {directory name : String} {place : Disk.Place} {e : Disk.Place × Disk.Entry}
    : scriptName? directory place e = some name ↔
        ∃ below bytes, e = (place ++ below, .file bytes) ∧ name = String.intercalate "/" below ∧
          isScript (if below.isEmpty then directory else name) = true := by
  obtain ⟨other, entry⟩ := e
  constructor
  . intro h
    cases entry with
    | directory => cases h
    | file bytes =>
      unfold scriptName? at h
      dsimp only at h
      split at h
      . next hprefix =>
        obtain ⟨below, rfl⟩ := List.isPrefixOf_iff_prefix.1 hprefix
        rw [List.drop_left] at h
        by_cases hscript : isScript (if below.isEmpty then directory else String.intercalate "/" below) = true
        . rw [if_pos hscript] at h
          cases h
          exact ⟨below, bytes, rfl, rfl, hscript⟩
        . rw [if_neg hscript] at h
          cases h
      . cases h
  . rintro ⟨below, bytes, heq, rfl, hscript⟩
    cases heq
    unfold scriptName?
    dsimp only
    rw [if_pos (List.isPrefixOf_iff_prefix.2 ⟨below, rfl⟩), List.drop_left, if_pos hscript]

/--
An entry is not listed.
-/
theorem scriptName?_entryName {disk : Disk} {path source : String} {grammar : Grammar} {directory : Disk.Place}
    (entry : Disk.Entry)
    : scriptName? path (disk.placeOf path) (directory ++ [Cache.entryName source grammar], entry) = none := by
  rw [Option.eq_none_iff_forall_ne_some]
  intro name hname
  obtain ⟨below, bytes, heq, rfl, hscript⟩ := scriptName?_eq_some_iff.1 hname
  have hbelow := (Prod.mk.inj heq).1.symm
  obtain rfl | ⟨before, last, rfl⟩ := List.eq_nil_or_concat below
  . rw [List.append_nil] at hbelow
    rw [List.isEmpty_nil, if_pos rfl, isScript_eq_false_of_placeOf hbelow] at hscript
    cases hscript
  . rw [List.concat_eq_append] at hbelow hscript
    rw [← List.append_assoc] at hbelow
    cases List.singleton_inj.1 (List.append_inj' hbelow rfl).2
    have hparts : Disk.pathParts (String.intercalate "/" (before ++ [Cache.entryName source grammar]))
        = before.flatMap Disk.pathParts ++ [Cache.entryName source grammar] := by
      rw [Disk.pathParts_intercalate (by simp), List.flatMap_append, List.flatMap_singleton,
        Disk.pathParts_name (Cache.slash_not_mem_entryName source grammar)]
    rw [if_neg (by simp), isScript_eq_false_of_parts hparts] at hscript
    cases hscript

variable {lib : Library} {files : List String} {file : String}

/--
A script that is listed is a file below the directory, or all that is there.
-/
theorem exists_of_mem (htree : lib.disk.IsTree) (hfiles : lib.scriptFiles = .ok files) (hmem : file ∈ files)
    : ∃ place entry below bytes, lib.disk.find lib.directory = .ok (place, entry) ∧
        lib.disk.get? (place ++ below) = some (.file bytes) ∧ file = String.intercalate "/" below ∧
        isScript (if below.isEmpty then lib.directory else file) = true := by
  rw [scriptFiles_eq] at hfiles
  cases hfind : lib.disk.find lib.directory with
  | error fault =>
    rw [hfind] at hfiles
    cases hfiles
  | ok answer =>
    obtain ⟨place, entry⟩ := answer
    rw [hfind] at hfiles
    cases hfiles
    obtain ⟨e, hentry, hname⟩ := List.mem_filterMap.1 (List.mem_mergeSort.1 hmem)
    obtain ⟨below, bytes, rfl, hfile, hscript⟩ := scriptName?_eq_some_iff.1 hname
    exact ⟨place, entry, below, bytes, rfl, htree.found _ hentry, hfile, hscript⟩

theorem pathParts_of_isTree {disk : Disk} {place : Disk.Place} {name : String} {below : List String} {entry : Disk.Entry}
    (htree : disk.IsTree) (hplace : disk.get? (place ++ name :: below) = some entry)
    : Disk.pathParts (String.intercalate "/" (name :: below)) = name :: below := by
  rw [Disk.pathParts_intercalate (by simp),
    Disk.flatMap_pathParts fun name hname => (htree.isName_of_mem hplace name hname).2]

/--
A script that is listed is found, unless its path is refused.
-/
theorem find_ne_of_mem (htree : lib.disk.IsTree) (hfiles : lib.scriptFiles = .ok files) (hmem : file ∈ files)
    : lib.disk.find (Path.join lib.directory file) ≠ .error .notFound := by
  obtain ⟨place, entry, below, bytes, hfind, hplace, rfl, -⟩ := exists_of_mem htree hfiles hmem
  cases below with
  | nil =>
    rw [List.append_nil] at hplace
    have hfollow : lib.disk.follow place (Disk.pathParts "") = .error .notDirectory := by
      change lib.disk.follow place [""] = _
      rw [Disk.follow, Disk.requireDirectory, hplace]
      rfl
    apply Disk.find_join_ne hfind rfl
    change lib.disk.follow place (Disk.pathParts "") ≠ _ ∧ ∀ target, lib.disk.follow place (Disk.pathParts "") = _ → _
    rw [hfollow]
    exact ⟨by simp, fun _ htarget => by cases htarget⟩
  | cons name below =>
    have hparts := pathParts_of_isTree htree hplace
    apply Disk.find_join_ne hfind (Disk.isAbsolute_of_pathParts hparts (htree.around hplace).1.1)
    rw [hparts]
    obtain hfollow | hfollow := htree.follow_names hplace
    . refine ⟨Disk.ne_notFound_of_ok hfollow, fun target htarget => ?_⟩
      cases hfollow.symm.trans htarget
      rw [hplace]
      rfl
    . rw [hfollow]
      exact ⟨by simp, fun _ htarget => by cases htarget⟩

end Library

/--
Is this where an entry of some cache is?
-/
def Cache.IsEntryPlace (place : Disk.Place) : Prop :=
  ∃ directory source grammar, place = directory ++ [entryName source grammar]

namespace Library

variable {lib : Library} {files : List String} {file : String} {disk : Disk}

theorem not_isEntryPlace_of_mem (htree : lib.disk.IsTree) (hfiles : lib.scriptFiles = .ok files) (hmem : file ∈ files)
    : ¬Cache.IsEntryPlace (lib.disk.placeOf (Path.join lib.directory file)) := by
  rintro ⟨directory, source, grammar, hentry⟩
  obtain ⟨place, entry, below, bytes, hfind, hplace, rfl, hscript⟩ := exists_of_mem htree hfiles hmem
  obtain ⟨rfl, -⟩ := Disk.find_eq_ok hfind
  cases below with
  | nil =>
    have hempty : String.intercalate "/" [] = "" := rfl
    rw [hempty, Disk.placeOf_join_path lib.disk lib.directory (by rfl)] at hentry
    have hnot : isScript lib.directory = false := isScript_eq_false_of_placeOf hentry
    rw [List.isEmpty_nil, if_pos rfl, hnot] at hscript
    cases hscript
  | cons name below =>
    have hparts := pathParts_of_isTree htree hplace
    have hnames := fun name hname => (htree.isName_of_mem hplace name hname).1
    rw [Disk.placeOf_join_path lib.disk lib.directory
        (Disk.isAbsolute_of_pathParts hparts (htree.around hplace).1.1), hparts, Disk.walk_names hnames] at hentry
    obtain ⟨before, last, hlast⟩ := (List.eq_nil_or_concat (name :: below)).resolve_left (by simp)
    rw [List.concat_eq_append] at hlast
    rw [hlast, ← List.append_assoc] at hentry
    cases List.singleton_inj.1 (List.append_inj' hentry rfl).2
    have hnot := isScript_eq_false_of_parts (hparts.trans hlast)
    rw [List.isEmpty_cons, if_neg (by simp), hnot] at hscript
    cases hscript

end Library

/-! ### Listings while entries are written -/

namespace Disk

theorem filterMap_insert {α : Type} {f : Place × Entry → Option α} (disk : Disk) {place : Place} {entry : Entry}
    (hnew : f (place, entry) = none) (hold : ∀ e ∈ disk.entries, e.1 = place → f e = none)
    : (disk.insert place entry).entries.filterMap f = disk.entries.filterMap f := by
  change ((place, entry) :: disk.entries.filter (·.1 != place)).filterMap f = _
  rw [List.filterMap_cons, hnew]
  dsimp only
  generalize disk.entries = entries at hold ⊢
  induction entries with
  | nil => rfl
  | cons e entries ih =>
    obtain ⟨he, hentries⟩ := List.forall_mem_cons.1 hold
    by_cases hplace : e.1 = place
    . rw [List.filter_cons_of_neg (by simpa using hplace), List.filterMap_cons, he hplace]
      exact ih hentries
    . rw [List.filter_cons_of_pos (by simpa using hplace), List.filterMap_cons, List.filterMap_cons]
      rw [ih hentries]

theorem Grows.filterMap_entries {α : Type} {Writable : Place → Prop} {disk after : Disk}
    {f : Place × Entry → Option α} (h : Grows Writable disk after) (hdirectory : ∀ place, f (place, .directory) = none)
    (hwritable : ∀ place, Writable place → ∀ entry, f (place, entry) = none)
    : after.entries.filterMap f = disk.entries.filterMap f := by
  induction h with
  | refl => rfl
  | @directory after place _ hne hfree ih =>
    rw [after.filterMap_insert (hdirectory place), ih]
    rintro ⟨other, entry⟩ hmem rfl
    rw [get?, if_neg hne, List.lookup_eq_none_iff] at hfree
    exact absurd (hfree _ hmem) (by simp)
  | @file after place bytes _ _ hplace _ ih =>
    rw [after.filterMap_insert (hwritable place hplace _), ih]
    rintro ⟨other, entry⟩ _ rfl
    exact hwritable _ hplace entry

theorem Grows.find_place {Writable : Place → Prop} {disk after : Disk} (h : Grows Writable disk after) {path : String}
    {place : Place} {entry : Entry} (hfind : disk.find path = .ok (place, entry))
    : ∃ entry', after.find path = .ok (place, entry') := by
  obtain ⟨hstart, hfollow, hentry⟩ := follow_of_find hfind
  have hthere : ∃ entry', after.get? place = some entry' := by
    cases entry with
    | directory => exact ⟨_, h.directory_stays hentry⟩
    | file bytes =>
      obtain ⟨bytes', hfile, _⟩ := h.file_stays hentry
      exact ⟨_, hfile⟩
  obtain ⟨entry', hentry'⟩ := hthere
  refine ⟨entry', ?_⟩
  unfold find
  rw [start_eq h.current, hstart]
  dsimp only [bind, Except.bind]
  rw [h.follow_stays (ne_notFound_of_ok hfollow), hfollow]
  dsimp only
  rw [hentry']
  rfl

end Disk

namespace Library

variable {lib : Library} {files : List String} {disk : Disk}

theorem scriptFiles_stays (h : Disk.Grows Cache.IsEntryPlace lib.disk disk) (hfiles : lib.scriptFiles = .ok files)
    : { lib with disk }.scriptFiles = .ok files := by
  rw [scriptFiles_eq] at hfiles ⊢
  cases hfind : lib.disk.find lib.directory with
  | error fault =>
    rw [hfind] at hfiles
    cases hfiles
  | ok answer =>
    obtain ⟨place, entry⟩ := answer
    obtain ⟨entry', hfind'⟩ := h.find_place hfind
    obtain ⟨rfl, -⟩ := Disk.find_eq_ok hfind
    rw [hfind] at hfiles
    rw [hfind']
    cases hfiles
    dsimp only
    rw [h.filterMap_entries (fun _ => rfl)]
    rintro _ ⟨directory, source, grammar, rfl⟩ entry
    exact scriptName?_entryName entry

/--
The text of a script that is listed stays as well.
-/
theorem source_stays (h : Disk.Grows Cache.IsEntryPlace lib.disk disk) (htree : lib.disk.IsTree)
    (hfiles : lib.scriptFiles = .ok files) {file : String} (hmem : file ∈ files)
    : { lib with disk }.source file = lib.source file := by
  unfold source
  dsimp only
  rw [h.readText_stays (find_ne_of_mem htree hfiles hmem) (not_isEntryPlace_of_mem htree hfiles hmem)]

end Library
end VisualNovel
