import VisualNovel.Proofs.Caching.Rereading
import VisualNovel.Proofs.Handling.Jumps
import VisualNovel.Proofs.Playing.Keeping

/-!
This module contains that to preload a directory is to load its scripts one by one: the errors, and what is in memory then,
are those of the single loads, in whatever order the scripts are read.
-/

namespace VisualNovel
namespace Library

variable {lib later : Library} {files rest : List String} {file : String}

/-! ### Batches -/

/--
Reads scripts one after another. None of them is kept in memory yet.
-/
def readEach (lib : Library) : List String → List (String × Except LibraryError (List Tag)) × Disk
  | [] => ([], lib.disk)
  | file :: files =>
    let (result, disk) := lib.read file
    let (results, disk) := { lib with disk }.readEach files
    ((file, result) :: results, disk)

/--
Keeps the scripts that have been read. Returns the errors of the others.
-/
def keepEach (results : List (String × Except LibraryError (List Tag))) (lib : Library)
    : List String → List LibraryError × Library
  | [] => ([], lib)
  | file :: files =>
    match results.lookup file with
    | some (.ok tags) => keepEach results (lib.keep file tags) files
    | some (.error e) =>
      let (errors, lib) := keepEach results lib files
      (e :: errors, lib)
    | none => keepEach results lib files

/--
The scripts that are not in memory.
-/
def pending (lib : Library) (files : List String) : List String :=
  files.filter fun file => !lib.isLoaded file

/--
Loads all scripts of the directory, which are read in the given order before the first one is kept.
-/
def preloadIn (lib : Library) (order : List String) : Except LibraryError (List LibraryError × Library) := do
  let files ← lib.scriptFiles
  let (results, disk) := lib.readEach order
  return keepEach results { lib with disk } (lib.pending files)

/-! ### Single loads -/

def error? {α : Type} : Except LibraryError α → Option LibraryError
  | .ok _ => none
  | .error e => some e

/--
The error with which a script does not load.
-/
def fault? (lib : Library) (file : String) : Option LibraryError :=
  error? (lib.load file).1

theorem fault?_eq_none_iff : lib.fault? file = none ↔ ∃ cursor, (lib.load file).1 = .ok cursor := by
  unfold fault?
  cases (lib.load file).1 <;> simp [error?]

theorem load_of_lookup_eq_none (h : lib.scripts.lookup file = none)
    : lib.load file
        =
      match lib.read file with
      | (.ok tags, disk) => (.ok (lib.cursor file tags), { lib with disk }.keep file tags)
      | (.error e, disk) => (.error e, { lib with disk }) := by
  unfold load
  rw [h]
  dsimp only
  cases lib.read file with
  | mk result disk => cases result <;> rfl

theorem fault?_of_isLoaded (h : lib.isLoaded file = true) : lib.fault? file = none := by
  obtain ⟨tags, hlookup⟩ := Option.isSome_iff_exists.1 h
  rw [fault?, load_of_lookup hlookup]
  rfl

theorem isLoaded_of_load {cursor : Cursor} (h : (lib.load file).1 = .ok cursor) : (lib.load file).2.isLoaded file := by
  cases hlookup : lib.scripts.lookup file with
  | some tags =>
    rw [load_of_lookup hlookup, isLoaded, hlookup]
    rfl
  | none =>
    rw [load_of_lookup_eq_none hlookup] at h ⊢
    cases hread : lib.read file with
    | mk result disk =>
      rw [hread] at h
      cases result with
      | error e => cases h
      | ok tags => exact isLoaded_keep_self ..

/--
A script that cannot be read changes nothing.
-/
theorem disk_read_of_error {e : LibraryError} (h : (lib.read file).1 = .error e) : (lib.read file).2 = lib.disk := by
  obtain hsame | ⟨source, grammar, tags, cache, hsource, hnone, hparse, _⟩ := lib.disk_read file
  . exact hsame
  . rw [read_fst_eq, hsource] at h
    dsimp only at h
    rw [hnone, hparse] at h
    cases h

theorem load_of_fault? {e : LibraryError} (h : lib.fault? file = some e) : (lib.load file).2 = lib := by
  cases hlookup : lib.scripts.lookup file with
  | some tags => rw [load_of_lookup hlookup]
  | none =>
    unfold fault? at h
    rw [load_of_lookup_eq_none hlookup] at h ⊢
    have hdisk {e : LibraryError} (h : (lib.read file).1 = .error e) := disk_read_of_error h
    cases hread : lib.read file with
    | mk result disk =>
      rw [hread] at h hdisk
      cases result with
      | ok tags => cases h
      | error e =>
        dsimp only at hdisk ⊢
        rw [hdisk rfl]

theorem loadEach_cons (lib : Library) (file : String) (files : List String)
    : lib.loadEach (file :: files)
        = ((lib.fault? file).toList ++ ((lib.load file).2.loadEach files).1, ((lib.load file).2.loadEach files).2) := by
  rw [loadEach, fault?]
  generalize lib.load file = answer
  obtain ⟨result, later⟩ := answer
  cases result <;> rfl

/-! ### What a load gives later -/

/--
What the load of a script gives, now or later: the same, or the same but for the values, which the cache has given back.
-/
inductive Agrees (lib : Library) (file : String) : Except LibraryError Cursor → Prop where
  | same : Agrees lib file (lib.load file).1
  | reread {tags others : List Tag} (hunloaded : lib.isLoaded file = false) (hcache : lib.cache.isSome)
    (hparse : lib.parse file = .ok tags) (hload : (lib.load file).1 = .ok (lib.cursor file tags))
    (hreread : Record.reread? tags = some others) : Agrees lib file (.ok (lib.cursor file others))

theorem Agrees.error?_eq {result : Except LibraryError Cursor} (h : lib.Agrees file result)
    : error? result = lib.fault? file := by
  cases h with
  | same => rfl
  | reread _ _ _ hload _ =>
    rw [fault?, hload]
    rfl

theorem Rereads.agrees {result : Except LibraryError (List Tag)} (h : lib.Rereads file result)
    (hunloaded : lib.isLoaded file = false) : lib.Agrees file (result.map (lib.cursor file)) := by
  have hload := load_eq_read hunloaded
  cases h with
  | same =>
    rw [← hload]
    exact .same
  | reread hcache hparse hread hreread =>
    rw [hread] at hload
    exact .reread hunloaded hcache hparse hload hreread

theorem exists_of_parse {tags : List Tag} (h : lib.parse file = .ok tags)
    : ∃ source grammar, lib.source file = .ok (source, grammar) ∧ grammar.parse source = .ok tags := by
  unfold parse at h
  cases hsource : lib.source file with
  | error e =>
    rw [hsource] at h
    cases h
  | ok input =>
    obtain ⟨source, grammar⟩ := input
    rw [hsource] at h
    change (grammar.parse source).mapError (LibraryError.parse file) = _ at h
    refine ⟨source, grammar, rfl, ?_⟩
    cases hparse : grammar.parse source with
    | error e =>
      rw [hparse] at h
      cases h
    | ok parsed =>
      rw [hparse] at h
      cases h
      rfl

/--
Is there nothing that the cache could change about the values of a script?
-/
def KeepsValues (lib : Library) (file : String) : Prop :=
  lib.isLoaded file ∨ lib.cache = none ∨
    ∀ tags, lib.parse file = .ok tags → ∀ tag ∈ tags, Json.Faithful tag.values

theorem Agrees.eq_of_keepsValues {result : Except LibraryError Cursor} (h : lib.Agrees file result)
    (hvalues : lib.KeepsValues file) : result = (lib.load file).1 := by
  cases h with
  | same => rfl
  | @reread tags others hunloaded hcache hparse hload hreread =>
    obtain hloaded | hnone | hfaithful := hvalues
    . rw [hunloaded] at hloaded
      cases hloaded
    . rw [hnone] at hcache
      cases hcache
    . obtain ⟨source, grammar, _, hsource⟩ := exists_of_parse hparse
      have hbody := fun tag htag => (Grammar.tags_of_parse hsource tag htag).1
      rw [Record.eq_of_reread? hbody (hfaithful tags hparse) hreread, hload]

/-! ### What comes of a library -/

/--
What a library comes to while scripts of its directory are read and kept.
-/
inductive Reached (lib : Library) (files : List String) : Library → Prop where
  | start : Reached lib files lib
  | reads {later : Library} {file : String} (h : Reached lib files later) (hmem : file ∈ files)
    : Reached lib files { later with disk := (later.read file).2 }
  | keeps {later : Library} {file : String} {tags : List Tag} (h : Reached lib files later) (hmem : file ∈ files)
    (hunloaded : lib.isLoaded file = false) (hreads : lib.Rereads file (.ok tags)) : Reached lib files (later.keep file tags)

namespace Reached

theorem eq_with (h : lib.Reached files later) : ∃ disk scripts, later = { lib with disk, scripts } := by
  induction h with
  | start => exact ⟨_, _, rfl⟩
  | reads _ _ ih =>
    obtain ⟨disk, scripts, rfl⟩ := ih
    exact ⟨_, _, rfl⟩
  | keeps _ _ _ _ ih =>
    obtain ⟨disk, scripts, rfl⟩ := ih
    exact ⟨_, _, rfl⟩

theorem read_eq (h : lib.Reached files later) (file : String)
    : later.read file = { lib with disk := later.disk }.read file := by
  obtain ⟨disk, scripts, rfl⟩ := h.eq_with
  rfl

theorem cursor_eq (h : lib.Reached files later) (file : String) (tags : List Tag)
    : later.cursor file tags = lib.cursor file tags := by
  obtain ⟨disk, scripts, rfl⟩ := h.eq_with
  rfl

theorem steady (h : lib.Reached files later) (hlib : lib.Reliable) (hfiles : lib.scriptFiles = .ok files)
    : lib.Steady later.disk := by
  induction h with
  | start => exact hlib.steady
  | @reads later file h hmem ih =>
    rw [h.read_eq]
    exact ih.read hlib hfiles hmem
  | keeps _ _ _ _ ih => exact ih

theorem rereads (h : lib.Reached files later) (hlib : lib.Reliable) (hfiles : lib.scriptFiles = .ok files)
    (hmem : file ∈ files) : lib.Rereads file (later.read file).1 := by
  rw [h.read_eq]
  exact (h.steady hlib hfiles).rereads hlib hfiles hmem

theorem stays (h : lib.Reached files later) {tags : List Tag} (hlookup : lib.scripts.lookup file = some tags)
    : later.scripts.lookup file = some tags := by
  induction h with
  | start => exact hlookup
  | reads _ _ ih => exact ih
  | @keeps later other others _ _ hunloaded _ ih =>
    have hne : file ≠ other := by
      rintro rfl
      rw [isLoaded_eq_false_iff, hlookup] at hunloaded
      cases hunloaded
    rw [keep, List.lookup_cons, beq_eq_false_iff_ne.2 hne]
    exact ih

theorem isLoaded (h : lib.Reached files later) (hloaded : lib.isLoaded file = true) : later.isLoaded file = true := by
  obtain ⟨tags, hlookup⟩ := Option.isSome_iff_exists.1 hloaded
  rw [Library.isLoaded, h.stays hlookup]
  rfl

theorem unloaded (h : lib.Reached files later) (hlookup : later.scripts.lookup file = none)
    : lib.isLoaded file = false := by
  rw [← isLoaded_eq_false_iff] at hlookup
  cases hbefore : lib.isLoaded file with
  | false => rfl
  | true =>
    rw [h.isLoaded hbefore] at hlookup
    cases hlookup

theorem kept (h : lib.Reached files later) {tags : List Tag} (hlookup : later.scripts.lookup file = some tags)
    : lib.scripts.lookup file = some tags ∨ file ∈ files ∧ lib.isLoaded file = false ∧ lib.Rereads file (.ok tags) := by
  induction h with
  | start => exact .inl hlookup
  | reads _ _ ih => exact ih hlookup
  | keeps _ hmem hunloaded hreads ih =>
    rw [keep, List.lookup_cons] at hlookup
    split at hlookup
    . next heq =>
      cases hlookup
      cases eq_of_beq heq
      exact .inr ⟨hmem, hunloaded, hreads⟩
    . exact ih hlookup

/--
What a script that is listed loads as agrees with what it loaded as at first.
-/
theorem agrees (h : lib.Reached files later) (hlib : lib.Reliable) (hfiles : lib.scriptFiles = .ok files)
    (hmem : file ∈ files) : lib.Agrees file (later.load file).1 := by
  cases hlookup : later.scripts.lookup file with
  | some tags =>
    rw [load_of_lookup hlookup, h.cursor_eq]
    obtain hbefore | ⟨_, hunloaded, hreads⟩ := h.kept hlookup
    . have hload := load_of_lookup hbefore
      have hsame : lib.Agrees file (lib.load file).1 := .same
      rw [hload] at hsame
      exact hsame
    . exact hreads.agrees hunloaded
  | none =>
    have hunloaded := h.unloaded hlookup
    have hagrees := (h.rereads hlib hfiles hmem).agrees hunloaded
    rw [load_of_lookup_eq_none hlookup]
    cases hread : later.read file with
    | mk result disk =>
      rw [hread] at hagrees
      cases result with
      | error e => exact hagrees
      | ok tags =>
        dsimp only
        rw [h.cursor_eq]
        exact hagrees

theorem load (h : lib.Reached files later) (hlib : lib.Reliable) (hfiles : lib.scriptFiles = .ok files)
    (hmem : file ∈ files) : lib.Reached files (later.load file).2 := by
  cases hlookup : later.scripts.lookup file with
  | some tags =>
    rw [load_of_lookup hlookup]
    exact h
  | none =>
    have hunloaded := h.unloaded hlookup
    have hreads := h.rereads hlib hfiles hmem
    have hnext := h.reads hmem
    rw [load_of_lookup_eq_none hlookup]
    cases hread : later.read file with
    | mk result disk =>
      rw [hread] at hreads hnext
      cases result with
      | error e => exact hnext
      | ok tags => exact hnext.keeps hmem hunloaded hreads

theorem fault?_eq (h : lib.Reached files later) (hlib : lib.Reliable) (hfiles : lib.scriptFiles = .ok files)
    (hmem : file ∈ files) : later.fault? file = lib.fault? file :=
  (h.agrees hlib hfiles hmem).error?_eq

/-! ### Runs -/

theorem loadEach (h : lib.Reached files later) (hlib : lib.Reliable) (hfiles : lib.scriptFiles = .ok files)
    (hrest : ∀ file ∈ rest, file ∈ files)
    : (later.loadEach rest).1 = rest.filterMap lib.fault? ∧ lib.Reached files (later.loadEach rest).2 ∧
        ∀ file ∈ rest, lib.fault? file = none → (later.loadEach rest).2.isLoaded file := by
  induction rest generalizing later with
  | nil => exact ⟨rfl, h, nofun⟩
  | cons file rest ih =>
    obtain ⟨hfile, hrest⟩ := List.forall_mem_cons.1 hrest
    obtain ⟨herrors, hreached, hloaded⟩ := ih (h.load hlib hfiles hfile) hrest
    rw [loadEach_cons, h.fault?_eq hlib hfiles hfile]
    refine ⟨?_, hreached, List.forall_mem_cons.2 ⟨fun hfault => ?_, hloaded⟩⟩
    . rw [herrors, List.filterMap_cons]
      cases lib.fault? file <;> rfl
    . rw [← h.fault?_eq hlib hfiles hfile, fault?_eq_none_iff] at hfault
      obtain ⟨cursor, hcursor⟩ := hfault
      obtain ⟨tags, hlookup⟩ := Option.isSome_iff_exists.1 (isLoaded_of_load hcursor)
      have hlater := (grows_loadEach (later.load file).2 rest).scripts file tags hlookup
      rw [Library.isLoaded, hlater]
      rfl

theorem readEach (h : lib.Reached files later) (hlib : lib.Reliable) (hfiles : lib.scriptFiles = .ok files)
    {order : List String} (horder : ∀ file ∈ order, file ∈ files)
    : lib.Reached files { later with disk := (later.readEach order).2 } ∧
        ∀ file ∈ order, ∃ result, (later.readEach order).1.lookup file = some result ∧ lib.Rereads file result := by
  induction order generalizing later with
  | nil => exact ⟨h, nofun⟩
  | cons first order ih =>
    obtain ⟨hfirst, horder⟩ := List.forall_mem_cons.1 horder
    obtain ⟨hreached, hresults⟩ := ih (h.reads hfirst) horder
    have hreads := h.rereads hlib hfiles hfirst
    have hread : later.readEach (first :: order)
        = ((first, (later.read first).1) :: ({ later with disk := (later.read first).2 }.readEach order).1,
          ({ later with disk := (later.read first).2 }.readEach order).2) := rfl
    rw [hread]
    refine ⟨hreached, fun file hfile => ?_⟩
    by_cases heq : file = first
    . subst heq
      exact ⟨_, List.lookup_cons_self, hreads⟩
    . rw [List.lookup_cons, beq_eq_false_iff_ne.2 heq]
      exact hresults file ((List.mem_cons.1 hfile).resolve_left heq)

theorem keepEach {results : List (String × Except LibraryError (List Tag))} (h : lib.Reached files later)
    (hrest : ∀ file ∈ rest, file ∈ files ∧ lib.isLoaded file = false ∧
      ∃ result, results.lookup file = some result ∧ lib.Rereads file result)
    : (Library.keepEach results later rest).1 = rest.filterMap lib.fault? ∧
        lib.Reached files (Library.keepEach results later rest).2 ∧
        ∀ file, later.isLoaded file ∨ file ∈ rest ∧ lib.fault? file = none →
          (Library.keepEach results later rest).2.isLoaded file := by
  induction rest generalizing later with
  | nil => exact ⟨rfl, h, fun file hfile => hfile.resolve_right fun hmem => nomatch hmem.1⟩
  | cons first rest ih =>
    obtain ⟨⟨hfirst, hunloaded, result, hresult, hreads⟩, hrest⟩ := List.forall_mem_cons.1 hrest
    have hfault := (hreads.agrees hunloaded).error?_eq
    unfold Library.keepEach
    rw [hresult]
    cases result with
    | ok tags =>
      obtain ⟨herrors, hreached, hloaded⟩ := ih (h.keeps hfirst hunloaded hreads) hrest
      refine ⟨?_, hreached, fun file hfile => hloaded file ?_⟩
      . rw [List.filterMap_cons, ← hfault]
        exact herrors
      . by_cases heq : file = first
        . subst heq
          exact .inl (isLoaded_keep_self ..)
        . rw [isLoaded_keep_of_ne later tags heq]
          exact hfile.imp_right fun hmem => ⟨(List.mem_cons.1 hmem.1).resolve_left heq, hmem.2⟩
    | error e =>
      obtain ⟨herrors, hreached, hloaded⟩ := ih h hrest
      refine ⟨?_, hreached, fun file hfile => hloaded file ?_⟩
      . rw [List.filterMap_cons, ← hfault]
        exact congrArg (e :: ·) herrors
      . refine hfile.imp_right fun ⟨hmem, hnone⟩ => ⟨(List.mem_cons.1 hmem).resolve_left ?_, hnone⟩
        rintro rfl
        rw [← hfault] at hnone
        cases hnone

end Reached

/-! ### Preloads -/

/--
What holds of a library after its directory has been preloaded.
-/
structure Preloaded (lib : Library) (files : List String) (later : Library) : Prop where
  isLoaded_iff : ∀ file, later.isLoaded file ↔ lib.isLoaded file ∨ file ∈ files ∧ ∃ cursor, (lib.load file).1 = .ok cursor
  agrees : ∀ file ∈ files, lib.Agrees file (later.load file).1
  /-- What is done with cursors in between makes no difference. -/
  same : ∀ file ∈ files, lib.KeepsValues file →
    (later.load file).1 = (lib.load file).1 ∧
      ∀ cursor x ops, (lib.load file).1 = .ok cursor →
        (later.load file).1 = .ok (Operation.applyAll cursor x ops).1.restart
  again : later.preload = .ok ((lib.pending files).filterMap lib.fault?, later)

theorem filterMap_pending (lib : Library) (files : List String)
    : (lib.pending files).filterMap lib.fault? = files.filterMap lib.fault? := by
  induction files with
  | nil => rfl
  | cons file files ih =>
    unfold pending at ih ⊢
    cases hloaded : lib.isLoaded file with
    | true =>
      rw [List.filter_cons_of_neg (by simp [hloaded]), List.filterMap_cons, fault?_of_isLoaded hloaded]
      exact ih
    | false => rw [List.filter_cons_of_pos (by simp [hloaded]), List.filterMap_cons, List.filterMap_cons, ih]

theorem loadEach_of_load_eq (h : ∀ file ∈ rest, (lib.load file).2 = lib)
    : lib.loadEach rest = (rest.filterMap lib.fault?, lib) := by
  induction rest with
  | nil => rfl
  | cons file rest ih =>
    obtain ⟨hfile, hrest⟩ := List.forall_mem_cons.1 h
    rw [loadEach_cons, hfile, ih hrest, List.filterMap_cons]
    cases lib.fault? file <;> rfl

/--
Cursors are handed out at the start of their scripts.
-/
theorem restart_of_load {cursor : Cursor} (h : (lib.load file).1 = .ok cursor) : cursor.restart = cursor := by
  cases hlookup : lib.scripts.lookup file with
  | some tags =>
    rw [load_of_lookup hlookup] at h
    cases h
    rfl
  | none =>
    rw [load_eq_read (isLoaded_eq_false_iff.2 hlookup)] at h
    cases hread : (lib.read file).1 with
    | error e =>
      rw [hread] at h
      cases h
    | ok tags =>
      rw [hread] at h
      cases h
      rfl

theorem Reached.preloaded (h : lib.Reached files later) (hlib : lib.Reliable) (hfiles : lib.scriptFiles = .ok files)
    (hcomplete : ∀ file ∈ files, lib.fault? file = none → later.isLoaded file) : lib.Preloaded files later where
  isLoaded_iff file := by
    constructor
    . intro hloaded
      obtain ⟨tags, hlookup⟩ := Option.isSome_iff_exists.1 hloaded
      obtain hbefore | ⟨hmem, hunloaded, hreads⟩ := h.kept hlookup
      . left
        rw [Library.isLoaded, hbefore]
        rfl
      . exact .inr ⟨hmem, fault?_eq_none_iff.1 (hreads.agrees hunloaded).error?_eq.symm⟩
    . rintro (hbefore | ⟨hmem, hcursor⟩)
      . exact h.isLoaded hbefore
      . exact hcomplete file hmem (fault?_eq_none_iff.2 hcursor)
  agrees file hmem := h.agrees hlib hfiles hmem
  same file hmem hvalues := by
    have hsame := (h.agrees hlib hfiles hmem).eq_of_keepsValues hvalues
    refine ⟨hsame, fun cursor x ops hcursor => ?_⟩
    rw [Cursor.restart_applyAll, restart_of_load hcursor, hsame, hcursor]
  again := by
    have hlisted : later.scriptFiles = .ok files := by
      have hstays := scriptFiles_stays (h.steady hlib hfiles).grows hfiles
      obtain ⟨disk, scripts, rfl⟩ := h.eq_with
      exact hstays
    have hload : ∀ file ∈ files, (later.load file).2 = later := by
      intro file hmem
      cases hfault : later.fault? file with
      | some e => exact load_of_fault? hfault
      | none =>
        rw [h.fault?_eq hlib hfiles hmem] at hfault
        obtain ⟨tags, hlookup⟩ := Option.isSome_iff_exists.1 (hcomplete file hmem hfault)
        rw [load_of_lookup hlookup]
    have herrors : files.filterMap later.fault? = files.filterMap lib.fault? :=
      List.filterMap_congr fun file hmem => h.fault?_eq hlib hfiles hmem
    rw [filterMap_pending, ← herrors, ← loadEach_of_load_eq hload]
    unfold preload
    rw [hlisted]
    rfl

/--
To preload a directory is to load its scripts one by one, in whatever order they are read: the errors are those of the
scripts that are not in memory, in the order of the listing, and afterwards the scripts that load are in memory, what they
load as agrees with what they loaded as before, and to preload the directory again has no further effect.
-/
theorem preload_agrees (hlib : lib.Reliable) (hfiles : lib.scriptFiles = .ok files)
    : let errors := (lib.pending files).filterMap lib.fault?
      (∃ later, lib.preload = .ok (errors, later) ∧ lib.Preloaded files later) ∧
        ∀ order, order.Perm (lib.pending files) →
          ∃ later, lib.preloadIn order = .ok (errors, later) ∧ lib.Preloaded files later := by
  intro errors
  constructor
  . obtain ⟨herrors, hreached, hloaded⟩ := Reached.start.loadEach hlib hfiles fun _ h => h
    refine ⟨(lib.loadEach files).2, ?_, hreached.preloaded hlib hfiles hloaded⟩
    have hsame : errors = (lib.loadEach files).1 := (lib.filterMap_pending files).trans herrors.symm
    unfold preload
    rw [hfiles, hsame]
    rfl
  . intro order horder
    have hpending {file : String} (h : file ∈ lib.pending files) : file ∈ files ∧ lib.isLoaded file = false := by
      obtain ⟨hmem, hunloaded⟩ := List.mem_filter.1 h
      exact ⟨hmem, by simpa using hunloaded⟩
    obtain ⟨hread, hresults⟩ := Reached.start.readEach hlib hfiles fun file hfile => (hpending (horder.mem_iff.1 hfile)).1
    obtain ⟨herrors, hreached, hloaded⟩ := hread.keepEach fun file hfile =>
      ⟨(hpending hfile).1, (hpending hfile).2, hresults file (horder.mem_iff.2 hfile)⟩
    refine ⟨_, ?_, hreached.preloaded hlib hfiles fun file hmem hfault => hloaded file ?_⟩
    . unfold preloadIn
      rw [hfiles]
      exact congrArg (fun errors => Except.ok (errors, _)) herrors
    . cases hbefore : lib.isLoaded file with
      | true => exact .inl hbefore
      | false => exact .inr ⟨List.mem_filter.2 ⟨hmem, by simp [hbefore]⟩, hfault⟩

section Sample

/-!
Two scripts of a directory have the same text, so they share an entry of the cache.
-/

def twinDisk : Disk :=
  { entries := [(["s"], .directory), (["s", "x.pon"], .file "*a".toUTF8), (["s", "y.pon"], .file "*a".toUTF8)] }

def twinLibrary : Library :=
  { directory := "s", grammar := .line, maxDepth := 8, cache := some { directory := "cache" }, disk := twinDisk }

theorem extension?_twin {path name : String} {before : List String} (hmem : name ∈ ["x.pon", "y.pon"])
    (hparts : Disk.pathParts path = before ++ [name]) : Path.extension? path = some "pon" := by
  simp only [List.mem_cons, List.not_mem_nil, or_false] at hmem
  have hname : Disk.IsName name := by
    obtain rfl | rfl := hmem <;> constructor <;> decide
  unfold Path.extension?
  rw [Path.fileName?_of_parts hparts hname]
  obtain rfl | rfl := hmem <;> rfl

theorem pathParts_twin {name : String} (hmem : name ∈ ["x.pon", "y.pon"]) : Disk.pathParts name = [name] := by
  simp only [List.mem_cons, List.not_mem_nil, or_false] at hmem
  obtain rfl | rfl := hmem <;> exact Disk.pathParts_name (by decide)

theorem scriptFiles_twinLibrary : twinLibrary.scriptFiles = .ok ["x.pon", "y.pon"] := by
  have hfind : twinLibrary.disk.find twinLibrary.directory = .ok (["s"], .directory) := rfl
  have hscript {name : String} (hmem : name ∈ ["x.pon", "y.pon"]) : isScript name = true := by
    have hlower : "pon".toLower = "pon" := toLower_eq (by decide)
    have hparts : Disk.pathParts name = [] ++ [name] := pathParts_twin hmem
    unfold isScript
    rw [extension?_twin hmem hparts]
    dsimp only
    rw [hlower]
    decide
  have hname {name : String} (hmem : name ∈ ["x.pon", "y.pon"]) (bytes : ByteArray)
      : scriptName? "s" ["s"] (["s", name], .file bytes) = some name :=
    scriptName?_eq_some_iff.2 ⟨[name], bytes, rfl, String.intercalate_singleton.symm, hscript hmem⟩
  have hlisted : twinLibrary.disk.entries.filterMap (scriptName? twinLibrary.directory ["s"]) = ["x.pon", "y.pon"] := by
    change List.filterMap _ [_, _, _] = _
    rw [List.filterMap_cons, List.filterMap_cons, List.filterMap_cons]
    dsimp only [twinLibrary, twinDisk]
    rw [hname (by simp), hname (by simp)]
    rfl
  rw [scriptFiles_eq, hfind]
  dsimp only
  rw [hlisted]
  congr 1
  simp [List.mergeSort]

theorem isTree_twinDisk : twinDisk.IsTree := by
  constructor
  . intro e he
    simp only [twinDisk, List.mem_cons, List.not_mem_nil, or_false] at he
    obtain rfl | rfl | rfl := he <;> rfl
  . intro e he
    simp only [twinDisk, List.mem_cons, List.not_mem_nil, or_false] at he
    obtain rfl | rfl | rfl := he
    . exact ⟨[], "s", rfl, ⟨⟨by decide, by decide, by decide⟩, by decide⟩, rfl⟩
    . exact ⟨["s"], "x.pon", rfl, ⟨⟨by decide, by decide, by decide⟩, by decide⟩, rfl⟩
    . exact ⟨["s"], "y.pon", rfl, ⟨⟨by decide, by decide, by decide⟩, by decide⟩, rfl⟩

theorem listed_twinLibrary {source : String} {grammar : Grammar} (h : twinLibrary.Listed source grammar)
    : source = "*a" ∧ grammar = .line := by
  obtain ⟨files, hfiles, file, hmem, hsource⟩ := h
  cases hfiles.symm.trans scriptFiles_twinLibrary
  obtain ⟨bytes, hbytes, htext, rfl⟩ := exists_of_source hsource
  have hplace : twinDisk.placeOf (Path.join "s" file) = ["s", file] ∧
      Disk.pathParts (Path.join "s" file) = ["s"] ++ [file] := by
    simp only [List.mem_cons, List.not_mem_nil, or_false] at hmem
    obtain rfl | rfl := hmem <;> exact ⟨rfl, rfl⟩
  have hgrammar : Grammar.ofPath (Path.join "s" file) .line = .line := by
    have hlower : "pon".toLower = "pon" := toLower_eq (by decide)
    unfold Grammar.ofPath
    rw [extension?_twin hmem hplace.2, Option.map_some, hlower]
    rfl
  have hfile : twinDisk.get? ["s", file] = some (.file "*a".toUTF8) := by
    simp only [List.mem_cons, List.not_mem_nil, or_false] at hmem
    obtain rfl | rfl := hmem <;> rfl
  change twinDisk.get? (twinDisk.placeOf (Path.join "s" file)) = _ at hbytes
  rw [hplace.1, hfile] at hbytes
  cases hbytes
  rw [fromUTF8?_toUTF8] at htext
  exact ⟨(Option.some.inj htext).symm, hgrammar⟩

theorem reliable_twinLibrary : twinLibrary.Reliable where
  tree := isTree_twinDisk
  keyed := by
    rintro _ -
    refine ⟨?_, ?_⟩
    . intro source grammar other otherGrammar hsource hother _
      obtain ⟨rfl, rfl⟩ := listed_twinLibrary hsource
      obtain ⟨rfl, rfl⟩ := listed_twinLibrary hother
      rfl
    . intro source grammar hsource
      obtain ⟨rfl, rfl⟩ := listed_twinLibrary hsource
      decide
  settled := by
    rintro _ ⟨⟩
    right
    intro source grammar bytes _ hfile
    cases hfile

theorem keepsValues_twinLibrary {file : String} (hmem : file ∈ ["x.pon", "y.pon"]) : twinLibrary.KeepsValues file := by
  refine .inr (.inr fun tags hparse tag htag => ?_)
  have hbody : Json.Plain Tag.bodyKey := by
    decide
  obtain ⟨source, grammar, hsource, hparse⟩ := exists_of_parse hparse
  obtain ⟨rfl, rfl⟩ := listed_twinLibrary ⟨_, scriptFiles_twinLibrary, file, hmem, hsource⟩
  rw [World.parse_before_edit] at hparse
  cases hparse
  simp only [List.mem_cons, List.not_mem_nil, or_false] at htag
  obtain rfl | rfl := htag <;> exact Json.faithful_single hbody (by decide)

/--
The second script is read before the first one, which then comes from the cache.
-/
theorem preload_twinLibrary
    : let errors := (twinLibrary.pending ["x.pon", "y.pon"]).filterMap twinLibrary.fault?
      ∃ later, twinLibrary.preloadIn ["y.pon", "x.pon"] = .ok (errors, later) ∧
        later.preload = .ok (errors, later) ∧ (later.load "x.pon").1 = (twinLibrary.load "x.pon").1 := by
  intro errors
  obtain ⟨_, hbatch⟩ := preload_agrees reliable_twinLibrary scriptFiles_twinLibrary
  obtain ⟨later, hpreload, hpreloaded⟩ := hbatch ["y.pon", "x.pon"] (.swap _ _ [])
  have hmem : "x.pon" ∈ ["x.pon", "y.pon"] := by simp
  exact ⟨later, hpreload, hpreloaded.again, (hpreloaded.same _ hmem (keepsValues_twinLibrary hmem)).1⟩

end Sample
end Library
end VisualNovel
