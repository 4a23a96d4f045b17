import VisualNovel.Proofs.Caching.Preloading
import VisualNovel.Proofs.Reacting.Joint

/-!
This module contains that the promise for several scripts is what their loads come to: each script is loaded when it is its
turn, and the next tick settles the promise, whatever else waits for it.
-/

namespace VisualNovel
namespace Library

variable {lib later : Library} {files : List String} {file : String} {reactor : Reactor Cursor}

/-! ### Loads one after another -/

/--
What scripts load as if they are loaded one after another.
-/
def loads (lib : Library) : List String → List (String × Except LibraryError Cursor)
  | [] => []
  | file :: files => (file, (lib.load file).1) :: (lib.load file).2.loads files

@[simp]
theorem map_fst_loads (lib : Library) (files : List String) : (lib.loads files).map Prod.fst = files := by
  induction files generalizing lib with
  | nil => rfl
  | cons file files ih => exact congrArg (file :: ·) (ih _)

@[simp]
theorem length_loads (lib : Library) (files : List String) : (lib.loads files).length = files.length := by
  rw [← (lib.loads files).length_map Prod.fst, map_fst_loads]

theorem loadEach_snd_cons (lib : Library) (file : String) (files : List String)
    : (lib.loadEach (file :: files)).2 = ((lib.load file).2.loadEach files).2 := by
  rw [loadEach_cons]

theorem isLoaded_of_grows (h : Grows lib later) (hloaded : lib.isLoaded file) : later.isLoaded file := by
  obtain ⟨tags, hlookup⟩ := Option.isSome_iff_exists.1 hloaded
  rw [isLoaded, h.scripts file tags hlookup]
  rfl

/--
A script that loads is in memory from then on, whatever is loaded after it.
-/
theorem isLoaded_of_mem_loads {cursor : Cursor} (h : (file, .ok cursor) ∈ lib.loads files)
    : (lib.loadEach files).2.isLoaded file := by
  induction files generalizing lib with
  | nil => cases h
  | cons first files ih =>
    rw [loadEach_snd_cons]
    obtain heq | hmem := List.mem_cons.1 h
    . obtain ⟨rfl, hload⟩ := Prod.ext_iff.1 heq
      exact isLoaded_of_grows (grows_loadEach _ files) (isLoaded_of_load hload.symm)
    . exact ih hmem

/--
Without a cache it makes no difference to a script what is loaded before it.
-/
theorem load_load_of_cache_eq_none (h : lib.cache = none) (other file : String)
    : ((lib.load other).2.load file).1 = (lib.load file).1 := by
  have hdisk : (lib.read other).2 = lib.disk := by
    obtain hsame | ⟨_, _, _, cache, _, _, _, hcache, _⟩ := lib.disk_read other
    . exact hsame
    . rw [h] at hcache
      cases hcache
  cases hlookup : lib.scripts.lookup other with
  | some tags => rw [load_of_lookup hlookup]
  | none =>
    rw [load_of_lookup_eq_none hlookup]
    cases hread : lib.read other with
    | mk result disk =>
      rw [hread] at hdisk
      cases hdisk
      cases result with
      | error e => rfl
      | ok tags =>
        by_cases heq : file = other
        . subst heq
          have hkept : (lib.keep file tags).scripts.lookup file = some tags := List.lookup_cons_self
          rw [load_of_lookup_eq_none hlookup, hread, load_of_lookup hkept]
          rfl
        . have hsame : (lib.keep other tags).scripts.lookup file = lib.scripts.lookup file := by
            rw [keep, List.lookup_cons, beq_eq_false_iff_ne.2 heq]
          cases hfile : lib.scripts.lookup file with
          | some others =>
            rw [load_of_lookup hfile, load_of_lookup (hsame.trans hfile)]
            rfl
          | none =>
            have hreads : (lib.keep other tags).read file = lib.read file := rfl
            rw [load_of_lookup_eq_none hfile, load_of_lookup_eq_none (hsame.trans hfile), hreads]
            cases lib.read file with
            | mk result disk => cases result <;> rfl

theorem loads_of_cache_eq_none (h : lib.cache = none) (files : List String)
    : lib.loads files = files.map fun file => (file, (lib.load file).1) := by
  induction files generalizing lib with
  | nil => rfl
  | cons first files ih =>
    rw [loads, List.map_cons, ih ((lib.cache_load first).trans h)]
    refine congrArg _ (List.map_congr_left fun file _ => ?_)
    rw [load_load_of_cache_eq_none h]

/-! ### The promise for all of them -/

theorem loadEachLater_eq (lib : Library) (reactor : Reactor Cursor) (files : List String)
    : lib.loadEachLater reactor files
        =
      (bridges reactor.promises.length files.length, (lib.loadEach files).2,
        reactor.promising ((lib.loads files).map fun load => outcomeOf load.2)) := by
  induction files generalizing lib reactor with
  | nil => simp [loadEachLater, loadEach, loads, bridges, Reactor.promising, settling]
  | cons file files ih =>
    let loading := reactor.create.2.enqueue (.settle reactor.promises.length (outcomeOf (lib.load file).1))
    have hloading : loading.promises.length = reactor.promises.length + 1 := List.length_append
    have hlength : loading.create.2.promises.length = reactor.promises.length + 2 := by
      simp [Reactor.create, hloading]
    have hcreate : loading.create.1 = reactor.promises.length + 1 := hloading
    unfold loadEachLater
    rw [loadLater_eq]
    dsimp only
    rw [ih, hlength, hcreate, loads, loadEach_snd_cons, List.map_cons, List.length_cons, bridges,
      Reactor.promising_cons]

theorem preloadLater_eq (lib : Library) (files : List String) (reactor : Reactor Cursor)
    : lib.preloadLater files reactor
        =
      (reactor.promises.length, (lib.loadEach files).2,
        reactor.joined ((lib.loads files).map fun load => outcomeOf load.2)) := by
  have hlength : ((lib.loads files).map fun load => outcomeOf load.2).length = files.length := by
    rw [List.length_map, length_loads]
  have hcreate : reactor.create.2.promises.length = reactor.promises.length + 1 := List.length_append
  have hjoin := reactor.join_promising ((lib.loads files).map fun load => outcomeOf load.2)
  rw [hlength] at hjoin
  unfold preloadLater
  dsimp only
  rw [loadEachLater_eq, hcreate]
  dsimp only
  rw [← hjoin]
  rfl

/--
What becomes of the promise: it is done if all scripts load, and otherwise it fails with the error of the first one that
does not.
-/
structure Settles (loads : List (String × Except LibraryError Cursor)) (outcome : Option (Outcome Cursor)) : Prop where
  settled : outcome.isSome
  done_iff : outcome = some (.done none) ↔ ∀ load ∈ loads, ∃ cursor, load.2 = .ok cursor
  failed : ∀ before file e after, loads = before ++ (file, .error e) :: after →
    (∀ load ∈ before, ∃ cursor, load.2 = .ok cursor) → outcome = some (.failed (.failed e.message))

theorem fault?_outcomeOf_eq_none_iff {result : Except LibraryError Cursor}
    : (outcomeOf result).fault? = none ↔ ∃ cursor, result = .ok cursor := by
  cases result <;> simp [outcomeOf, Outcome.fault?]

theorem settles_joint (loads : List (String × Except LibraryError Cursor))
    : Settles loads (some (Outcome.joint (loads.map fun load => outcomeOf load.2))) where
  settled := rfl
  done_iff := by
    rw [Option.some_inj, Outcome.joint_eq_done_iff, List.forall_mem_map]
    simp only [fault?_outcomeOf_eq_none_iff]
  failed before file e after hloads hbefore := by
    rw [hloads, List.map_append, List.map_cons]
    refine congrArg some (Outcome.joint_append_failed ?_ _ _)
    exact List.forall_mem_map.2 fun load hmem => fault?_outcomeOf_eq_none_iff.2 (hbefore load hmem)

/--
The promise for several scripts is pending at first, and the next tick settles it by what the scripts load as when they are
loaded one after another, whatever else is done and whoever waits for it. Those that load are in memory.
-/
theorem preloadLater_joins (hreactor : reactor.SelfContained) (lib : Library) (files : List String)
    {between : List (Op Cursor)}
    (hbetween : Op.AllApart (.row reactor.promises.length reactor.tasks.length files.length) between) (now : Nat)
    : let (promise, later, made) := lib.preloadLater files reactor
      let settled := ((made.exec between).2.tick now).2
      made.pending? promise = some {} ∧
        Settles (lib.loads files) (settled.outcome? promise) ∧
        ∀ file cursor, (file, .ok cursor) ∈ lib.loads files → later.isLoaded file := by
  let outcomes := (lib.loads files).map fun load => outcomeOf load.2
  have hlength : outcomes.length = files.length := by
    rw [List.length_map, length_loads]
  have hawaits : (reactor.joined outcomes).Awaits reactor.promises.length reactor.tasks.length outcomes :=
    hreactor.awaits_joined outcomes
  rw [← hlength] at hbetween
  have htick := hawaits.tick hbetween now
  rw [preloadLater_eq]
  dsimp only
  refine ⟨reactor.pending?_joined outcomes, ?_, fun file cursor => isLoaded_of_mem_loads⟩
  rw [htick]
  exact settles_joint _

/--
So a reactor is still one to preload scripts with after scripts have been preloaded with it.
-/
theorem selfContained_preloadLater (hreactor : reactor.SelfContained) (lib : Library) (files : List String)
    : (lib.preloadLater files reactor).2.2.SelfContained := by
  rw [preloadLater_eq]
  exact hreactor.joined _

section Sample

def sampleFolder : Library :=
  { directory := "", grammar := .line, maxDepth := 8, cache := none, disk := World.sampleDisk }

/--
A job and a timer wait already.
-/
def busyReactor : Reactor Cursor :=
  (({} : Reactor Cursor).exec [.defer "other" [.create "q"], .schedule 3 "late" [.settle (.name "q") (.done none)]]).2

theorem selfContained_busyReactor : busyReactor.SelfContained :=
  Reactor.selfContained_empty.exec fun _ _ => ⟨⟨trivial, trivial⟩, ⟨trivial, trivial⟩, trivial⟩

theorem load_sampleFolder_x : (sampleFolder.load "x").1 = .ok (sampleFolder.cursor "x" [.label "a" 1, .stop 1]) := by
  have htext : sampleFolder.disk.readText (Path.join sampleFolder.directory "x") = .ok "*a" := by
    have hbytes : sampleFolder.disk.readBytes (Path.join sampleFolder.directory "x") = .ok "*a".toUTF8 := rfl
    unfold Disk.readText
    rw [hbytes]
    dsimp only [bind, Except.bind]
    rw [fromUTF8?_toUTF8]
    rfl
  have hsource : sampleFolder.source "x" = .ok ("*a", .line) := by
    unfold source
    dsimp only
    rw [htext]
    rfl
  have hread : sampleFolder.read "x" = (.ok [.label "a" 1, .stop 1], sampleFolder.disk) := by
    have hnone : sampleFolder.cached? "*a" .line = none := rfl
    unfold read
    rw [hsource]
    dsimp only
    rw [hnone, World.parse_before_edit]
    rfl
  unfold load
  rw [hread]
  rfl

theorem load_sampleFolder_absent : (sampleFolder.load "absent").1 = .error (.io "absent" .notFound) := by
  rfl

/--
A script is loaded before one that is absent, and again after it. Somebody waits for the promise, and some job is put off
before the tick.
-/
theorem preloadLater_sampleFolder
    : let (promise, later, made) := sampleFolder.preloadLater ["x", "absent", "x"] busyReactor
      let between : List (Op Cursor) :=
        [.listen .fail (.number promise) "heard" [.create "r"], .defer "more" [.inspect (.number promise)]]
      made.pending? promise = some {} ∧
        ((made.exec between).2.tick 5).2.outcome? promise
          = some (.failed (.failed (LibraryError.message (.io "absent" .notFound)))) ∧
        later.isLoaded "x" := by
  have hcache : sampleFolder.cache = none := rfl
  have hloads := loads_of_cache_eq_none hcache ["x", "absent", "x"]
  let between : List (Op Cursor) :=
    [.listen .fail (.number busyReactor.promises.length) "heard" [.create "r"],
      .defer "more" [.inspect (.number busyReactor.promises.length)]]
  have hbetween : Op.AllApart (.row busyReactor.promises.length busyReactor.tasks.length 3) between :=
    ⟨⟨fun hown => Nat.lt_irrefl _ hown.1, trivial, trivial⟩, ⟨trivial, trivial⟩, trivial⟩
  obtain ⟨hpending, hsettles, hloaded⟩ :=
    preloadLater_joins selfContained_busyReactor sampleFolder ["x", "absent", "x"] hbetween 5
  rw [List.map_cons, List.map_cons, load_sampleFolder_x, load_sampleFolder_absent] at hloads
  rw [hloads] at hsettles hloaded
  refine ⟨hpending, hsettles.failed [("x", _)] "absent" _ _ rfl ?_, hloaded "x" _ List.mem_cons_self⟩
  exact List.forall_mem_singleton.2 ⟨_, rfl⟩

end Sample

end Library
end VisualNovel
