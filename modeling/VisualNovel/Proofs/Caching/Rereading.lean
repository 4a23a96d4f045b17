import VisualNovel.Proofs.Caching.Listing
import VisualNovel.Proofs.Caching.Transparency

/-!
This module contains what the scripts of a directory are read as while others of them are read: their texts stay, and what
the cache has not had for them before are the tags that have been parsed, with their values read back from text.
-/

namespace VisualNovel

variable (Involved : String → Grammar → Prop)

namespace Cache

/--
What the digest is relied on for, among the texts and grammars that are involved.
-/
structure Keyed : Prop where
  keys : ∀ {source grammar other otherGrammar}, Involved source grammar → Involved other otherGrammar →
    key source grammar = key other otherGrammar → message source grammar = message other otherGrammar
  /-- No text takes more memory than there can be. -/
  size : ∀ {source grammar}, Involved source grammar → source.utf8ByteSize < 2 ^ 63

/--
Is the directory of the cache found, or else nothing in its place but what the cache has written?
-/
def Settled (cache : Cache) (disk : Disk) : Prop :=
  disk.isDirectory cache.directory = true ∨ Sound Involved (disk.placeOf cache.directory) disk

variable {Involved} {cache : Cache} {source other : String} {grammar otherGrammar : Grammar} {tags others : List Tag}
  {disk after : Disk}

theorem Keyed.eq_of_entryName (h : Keyed Involved) (hinvolved : Involved source grammar)
    (hother : Involved other otherGrammar) (hname : entryName source grammar = entryName other otherGrammar)
    : source = other ∧ grammar = otherGrammar :=
  message_inj (h.keys hinvolved hother (key_of_entryName hname))

theorem Keyed.reread?_of_decode (h : Keyed Involved) (hinvolved : Involved source grammar)
    (hparse : grammar.parse source = .ok tags) {packing : Packing}
    (hdecode : Record.decode (Record.encode packing tags) = .ok others) : Record.reread? tags = some others := by
  refine Record.reread?_of_decode (fun tag htag => ?_) hdecode
  have := (Grammar.tags_of_parse hparse tag htag).2
  have := Grammar.lineCount_le source
  have := h.size hinvolved
  omega

theorem find_of_isDirectory {path : String} (h : disk.isDirectory path = true)
    : disk.find path = .ok (disk.placeOf path, .directory) := by
  unfold Disk.isDirectory at h
  split at h
  . next place hfind =>
    obtain ⟨rfl, _⟩ := Disk.find_eq_ok hfind
    exact hfind
  . cases h

theorem Settled.write (h : cache.Settled Involved disk) (hinvolved : Involved source grammar)
    (hparse : grammar.parse source = .ok tags)
    : cache.Settled Involved ((cache.write (key source grammar) tags).run.run disk).2 := by
  have hgrows := grows_write cache source grammar tags disk
  obtain hfound | hsound := h
  . left
    have hfind := find_of_isDirectory hfound
    unfold Disk.isDirectory
    rw [hgrows.find_stays (Disk.ne_notFound_of_ok hfind) (by simp), hfind]
  . right
    rw [Disk.placeOf_eq hgrows.current]
    exact hsound.wrote hinvolved rfl hparse (wrote_write cache source grammar tags disk)

end Cache

namespace Disk

/--
A name in a directory that is found leads to what is under that name.
-/
theorem readBytes_join_eq {disk after : Disk} {directory name : String} {place : Place}
    (hcurrent : after.current = disk.current) (hfind : disk.find directory = .ok (place, .directory))
    (hafter : after.find directory = .ok (place, .directory)) (hslash : '/' ∉ name.toList) (hname : IsName name)
    (hsame : after.get? (place ++ [name]) = disk.get? (place ++ [name]))
    : after.readBytes (Path.join directory name) = disk.readBytes (Path.join directory name) := by
  have hrequire {disk : Disk} (hfind : disk.find directory = .ok (place, .directory))
      : disk.requireDirectory place = .ok () := by
    unfold requireDirectory
    rw [(find_eq_ok hfind).2]
  have hfollow : after.follow place [name] = disk.follow place [name] := by
    rw [follow_name_eq hname (hrequire hfind), follow_name_eq hname (hrequire hafter)]
  have hmore := isAbsolute_of_name hslash
  unfold readBytes
  rw [find_join hfind hmore, find_join hafter hmore, start_eq hcurrent, pathParts_name hslash, hfollow]
  cases disk.start (Path.join directory name) with
  | error fault => rfl
  | ok _ =>
    cases htarget : disk.follow place [name] with
    | error fault => rfl
    | ok target =>
      cases follow_eq_ok htarget
      rw [walk_name hname]
      dsimp only [bind, Except.bind]
      rw [hsame]

end Disk

namespace Cache

variable {Involved} {cache : Cache} {source other : String} {grammar otherGrammar : Grammar} {tags found others : List Tag}
  {disk after : Disk}

/--
An entry that is read is not changed by the writing of another one.
-/
theorem read?_write_of_ne (hname : entryName other otherGrammar ≠ entryName source grammar)
    (hread : cache.read? (key other otherGrammar) disk = .ok (some found))
    : cache.read? (key other otherGrammar) ((cache.write (key source grammar) tags).run.run disk).2 = .ok (some found) := by
  have hgrows := grows_write cache source grammar tags disk
  have hplace : disk.placeOf (cache.path (key other otherGrammar))
      ≠ disk.placeOf cache.directory ++ [entryName source grammar] := by
    rw [placeOf_path]
    exact fun heq => hname (List.singleton_inj.1 (List.append_cancel_left heq))
  have hfound : disk.find (cache.path (key other otherGrammar)) ≠ .error .notFound := by
    intro hfind
    unfold read? Disk.readBytes at hread
    dsimp only at hread
    rw [hfind] at hread
    cases hread
  rw [← hread]
  unfold read?
  dsimp only
  rw [hgrows.readBytes_stays hfound hplace]

/--
What is in the directory of the cache is read, if the directory is found.
-/
theorem read?_eq_of_isDirectory {Writable : Disk.Place → Prop} (hgrows : Disk.Grows Writable disk after)
    (hfound : disk.isDirectory cache.directory = true) (hplace : ¬Writable (disk.placeOf cache.directory))
    (hsame : after.get? (disk.placeOf cache.directory ++ [entryName source grammar])
      = disk.get? (disk.placeOf cache.directory ++ [entryName source grammar]))
    : cache.read? (key source grammar) after = cache.read? (key source grammar) disk := by
  have hfind := find_of_isDirectory hfound
  have hafter : after.find cache.directory = .ok (disk.placeOf cache.directory, .directory) := by
    rw [hgrows.find_stays (Disk.ne_notFound_of_ok hfind) hplace, hfind]
  have hbytes : after.readBytes (cache.path (key source grammar)) = disk.readBytes (cache.path (key source grammar)) :=
    Disk.readBytes_join_eq hgrows.current hfind hafter (slash_not_mem_entryName source grammar)
      (isName_entryName source grammar) hsame
  unfold read?
  dsimp only
  rw [hbytes]

theorem Keyed.reread?_of_written (h : Keyed Involved) (hinvolved : Involved source grammar) {bytes : ByteArray}
    (hwritten : Written Involved (entryName source grammar) bytes) (hdecode : Record.decode bytes.toList = .ok others)
    : ∃ tags, grammar.parse source = .ok tags ∧ Record.reread? tags = some others := by
  obtain ⟨text, textGrammar, tags, packing, htext, hname, hparse, hbytes⟩ := hwritten
  obtain ⟨rfl, rfl⟩ := h.eq_of_entryName hinvolved htext hname
  rw [hbytes] at hdecode
  exact ⟨tags, hparse, h.reread?_of_decode hinvolved hparse hdecode⟩

/--
What is read after an entry has been written has been read before, or it is the tags of the text.
-/
theorem Settled.read?_write (h : cache.Settled Involved disk) (hkeyed : Keyed Involved)
    (hinvolved : Involved source grammar) (hparse : grammar.parse source = .ok tags) (hother : Involved other otherGrammar)
    (hread : cache.read? (key other otherGrammar) ((cache.write (key source grammar) tags).run.run disk).2
      = .ok (some others))
    : cache.read? (key other otherGrammar) disk = .ok (some others) ∨
        ∃ written, otherGrammar.parse other = .ok written ∧ Record.reread? written = some others := by
  have hgrows := grows_write cache source grammar tags disk
  have hwrote := wrote_write cache source grammar tags disk
  generalize ((cache.write (key source grammar) tags).run.run disk).2 = after at hread hgrows hwrote
  obtain ⟨bytes, hfile, hdecode⟩ := file_of_read hread
  rw [Disk.placeOf_eq hgrows.current] at hfile
  obtain hbefore | ⟨hplace, hbytes⟩ := hwrote.file hfile
  . obtain hfound | hsound := h
    . left
      rw [← read?_eq_of_isDirectory hgrows hfound (by simp) (hfile.trans hbefore.symm), hread]
    . right
      cases hsound other otherGrammar bytes hother hbefore with
      | inl hunreadable =>
        obtain ⟨fault, hfault⟩ := hunreadable
        rw [hfault] at hdecode
        cases hdecode
      | inr hwritten => exact hkeyed.reread?_of_written hother hwritten hdecode
  . right
    have hname := List.singleton_inj.1 (List.append_cancel_left hplace)
    exact hkeyed.reread?_of_written hother ⟨source, grammar, tags, cache.packing, hinvolved, hname, hparse, hbytes⟩ hdecode

end Cache

namespace Library

variable {Involved} {lib : Library} {disk after : Disk} {source other : String} {grammar otherGrammar : Grammar}
  {tags : List Tag} {cache : Cache}

theorem cached?_eq_some_iff (h : lib.cache = some cache)
    : lib.cached? source grammar = some tags ↔ cache.read? (Cache.key source grammar) lib.disk = .ok (some tags) := by
  constructor
  . intro hcached
    obtain ⟨_, hcache, hread⟩ := exists_of_cached hcached
    cases h.symm.trans hcache
    exact hread
  . intro hread
    unfold cached?
    rw [h]
    dsimp only [bind, Option.bind]
    rw [hread]
    rfl

/--
What becomes of the entry of a text on another disk: it stays, or it comes to hold the tags of the text.
-/
structure Regains (lib : Library) (disk : Disk) (source : String) (grammar : Grammar) : Prop where
  stays : ∀ {tags}, lib.cached? source grammar = some tags → { lib with disk }.cached? source grammar = some tags
  comes : ∀ {others}, lib.cached? source grammar = none → { lib with disk }.cached? source grammar = some others →
    lib.cache.isSome ∧ ∃ tags, grammar.parse source = .ok tags ∧ Record.reread? tags = some others

theorem Regains.refl (lib : Library) (source : String) (grammar : Grammar) : lib.Regains lib.disk source grammar :=
  ⟨id, fun hnone hsome => by cases hnone.symm.trans hsome⟩

theorem Regains.trans (h : lib.Regains disk source grammar) (h' : { lib with disk }.Regains after source grammar)
    : lib.Regains after source grammar := by
  refine ⟨fun hsome => h'.stays (h.stays hsome), fun {others} hnone hsome => ?_⟩
  cases hbetween : { lib with disk }.cached? source grammar with
  | none => exact h'.comes hbetween hsome
  | some tags =>
    have heq : some tags = some others := (h'.stays hbetween).symm.trans hsome
    exact h.comes hnone (hbetween.trans heq)

/--
An entry is only written if it has not been read, so no entry that has been read changes.
-/
theorem regains_write (hkeyed : Cache.Keyed Involved) (hcache : lib.cache = some cache)
    (hsettled : cache.Settled Involved lib.disk) (hinvolved : Involved source grammar)
    (hnone : lib.cached? source grammar = none) (hparse : grammar.parse source = .ok tags)
    (hother : Involved other otherGrammar)
    : lib.Regains ((cache.write (Cache.key source grammar) tags).run.run lib.disk).2 other otherGrammar := by
  have hlater (disk : Disk) : { lib with disk }.cache = some cache := hcache
  refine ⟨fun {found} hsome => ?_, fun {others} hmissing hsome => ⟨by rw [hcache]; rfl, ?_⟩⟩
  . rw [cached?_eq_some_iff hcache] at hsome
    rw [cached?_eq_some_iff (hlater _)]
    refine Cache.read?_write_of_ne (fun hname => ?_) hsome
    rw [Cache.key_of_entryName hname, ← cached?_eq_some_iff hcache, hnone] at hsome
    cases hsome
  . rw [cached?_eq_some_iff (hlater _)] at hsome
    refine (hsettled.read?_write hkeyed hinvolved hparse hother hsome).resolve_left fun hbefore => ?_
    rw [← cached?_eq_some_iff hcache, hmissing] at hbefore
    cases hbefore

/-! ### Reads -/

/--
Is this the text of a script that the directory lists?
-/
def Listed (lib : Library) (source : String) (grammar : Grammar) : Prop :=
  ∃ files, lib.scriptFiles = .ok files ∧ ∃ file ∈ files, lib.source file = .ok (source, grammar)

/--
What a library with its directory is relied on for.
-/
structure Reliable (lib : Library) : Prop where
  tree : lib.disk.IsTree
  keyed : ∀ {cache}, lib.cache = some cache → Cache.Keyed lib.Listed
  settled : ∀ {cache}, lib.cache = some cache → cache.Settled lib.Listed lib.disk

/--
What a disk keeps of the disk that it has come of, while scripts of the directory are read.
-/
structure Steady (lib : Library) (disk : Disk) : Prop where
  grows : Disk.Grows Cache.IsEntryPlace lib.disk disk
  settled : ∀ {cache}, lib.cache = some cache → cache.Settled lib.Listed disk
  regains : ∀ {source grammar}, lib.Listed source grammar → lib.Regains disk source grammar

variable {files : List String} {file : String}

theorem Reliable.steady (h : lib.Reliable) : lib.Steady lib.disk :=
  ⟨.refl, h.settled, fun _ => .refl lib _ _⟩

theorem Steady.read (h : lib.Steady disk) (hlib : lib.Reliable) (hfiles : lib.scriptFiles = .ok files) (hmem : file ∈ files)
    : lib.Steady ({ lib with disk }.read file).2 := by
  obtain hsame | ⟨source, grammar, tags, cache, hsource, hnone, hparse, hcache, hwrite⟩ := { lib with disk }.disk_read file
  . rw [hsame]
    exact h
  . rw [source_stays h.grows hlib.tree hfiles hmem] at hsource
    have hcache : lib.cache = some cache := hcache
    have hlisted : lib.Listed source grammar := ⟨files, hfiles, file, hmem, hsource⟩
    have hgrows : Disk.Grows Cache.IsEntryPlace disk _ :=
      (Cache.grows_write cache source grammar tags disk).mono fun _ hplace => ⟨_, _, _, hplace⟩
    rw [hwrite]
    refine ⟨h.grows.trans hgrows, fun hother => ?_, fun hother => ?_⟩
    . cases hcache.symm.trans hother
      exact (h.settled hcache).write hlisted hparse
    . have hcache' : { lib with disk }.cache = some cache := hcache
      exact (h.regains hother).trans
        (regains_write (hlib.keyed hcache) hcache' (h.settled hcache) hlisted hnone hparse hother)

theorem read_fst_eq (lib : Library) (file : String)
    : (lib.read file).1
        =
      match lib.source file with
      | .error e => .error e
      | .ok (source, grammar) =>
        match lib.cached? source grammar with
        | some tags => .ok tags
        | none => (grammar.parse source).mapError (.parse file) := by
  unfold read
  cases lib.source file with
  | error e => rfl
  | ok input =>
    obtain ⟨source, grammar⟩ := input
    dsimp only
    cases lib.cached? source grammar with
    | some tags => rfl
    | none =>
      dsimp only
      cases grammar.parse source <;> rfl

/--
What a script is read as, now or later: the same, or what has been parsed, with its values read back from text.
-/
inductive Rereads (lib : Library) (file : String) : Except LibraryError (List Tag) → Prop where
  | same : Rereads lib file (lib.read file).1
  | reread {tags others : List Tag} (hcache : lib.cache.isSome) (hparse : lib.parse file = .ok tags)
    (hread : (lib.read file).1 = .ok tags) (hreread : Record.reread? tags = some others) : Rereads lib file (.ok others)

theorem Steady.rereads (h : lib.Steady disk) (hlib : lib.Reliable) (hfiles : lib.scriptFiles = .ok files)
    (hmem : file ∈ files) : lib.Rereads file ({ lib with disk }.read file).1 := by
  have hbefore := lib.read_fst_eq file
  rw [read_fst_eq, source_stays h.grows hlib.tree hfiles hmem]
  cases hsource : lib.source file with
  | error e =>
    rw [hsource] at hbefore
    exact hbefore ▸ .same
  | ok input =>
    obtain ⟨source, grammar⟩ := input
    rw [hsource] at hbefore
    dsimp only at hbefore ⊢
    have hregains := h.regains ⟨files, hfiles, file, hmem, hsource⟩
    cases hcached : lib.cached? source grammar with
    | some tags =>
      rw [hcached] at hbefore
      rw [hregains.stays hcached]
      exact hbefore ▸ .same
    | none =>
      rw [hcached] at hbefore
      dsimp only at hbefore
      cases hlater : { lib with disk }.cached? source grammar with
      | none => exact hbefore ▸ .same
      | some others =>
        obtain ⟨hcache, tags, hparse, hreread⟩ := hregains.comes hcached hlater
        have hparsed : lib.parse file = .ok tags := by
          unfold parse
          rw [hsource]
          change (grammar.parse source).mapError (LibraryError.parse file) = _
          rw [hparse]
          rfl
        rw [hparse] at hbefore
        exact .reread hcache hparsed hbefore hreread

end Library
end VisualNovel
