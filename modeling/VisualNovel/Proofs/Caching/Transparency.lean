import VisualNovel.Library.Load
import VisualNovel.Proofs.Caching.Keys
import VisualNovel.Proofs.Caching.Texts

/-!
This module contains that the cache is transparent: whatever libraries load through a directory that they share, and
whatever becomes of the scripts in between, a script that is not in memory loads as it does without the cache.
-/

namespace VisualNovel

variable (Involved : String → Grammar → Prop) (directory : Disk.Place)

/--
Any block that is unpacked to some bytes may be taken for them.
-/
def Packing.taking (packing : Packing) {bytes block : List UInt8} (h : Block.unpack? block = some bytes) : Packing where
  pack other := if other = bytes then block else packing.pack other
  eq_of_unpack? {other unpacked} hunpack := by
    split at hunpack
    . next heq =>
      rw [h] at hunpack
      rw [heq, Option.some.inj hunpack]
    . exact packing.eq_of_unpack? hunpack

namespace Cache

/--
What the digest and the text of values are relied on for, among the texts and grammars that are involved.
-/
structure Reliable : Prop where
  keys : ∀ {source grammar other otherGrammar}, Involved source grammar → Involved other otherGrammar →
    key source grammar = key other otherGrammar → message source grammar = message other otherGrammar
  values : ∀ {source grammar tags}, Involved source grammar → grammar.parse source = .ok tags →
    ∀ tag ∈ tags, Json.Faithful tag.values
  /-- No text takes more memory than there can be. -/
  size : ∀ {source grammar}, Involved source grammar → source.utf8ByteSize < 2 ^ 63

def Unreadable (bytes : ByteArray) : Prop :=
  ∃ fault, Record.decode bytes.toList = .error fault

/--
Is this what a cache keeps in a file of this name for a text that is involved, however it packs its entries?
-/
def Written (name : String) (bytes : ByteArray) : Prop :=
  ∃ source grammar tags packing, Involved source grammar ∧ name = entryName source grammar ∧
    grammar.parse source = .ok tags ∧ bytes.toList = Record.encode packing tags

/--
Is each entry of the directory unreadable, or one that the cache has written?
-/
def Sound (disk : Disk) : Prop :=
  ∀ source grammar bytes, Involved source grammar →
    disk.get? (directory ++ [entryName source grammar]) = some (.file bytes) →
    Unreadable bytes ∨ Written Involved (entryName source grammar) bytes

variable {Involved directory} {source : String} {grammar : Grammar} {tags : List Tag} {disk after : Disk}

theorem written_of_unpack? {bytes : ByteArray} (hinvolved : Involved source grammar)
    (hparse : grammar.parse source = .ok tags) (hunpack : Block.unpack? bytes.toList = some (Record.bytes tags))
    : Written Involved (entryName source grammar) bytes :=
  ⟨source, grammar, tags, Packing.literal.taking hunpack, hinvolved, rfl, hparse, (if_pos rfl).symm⟩

theorem Reliable.decode_encode (h : Reliable Involved) (hinvolved : Involved source grammar)
    (hparse : grammar.parse source = .ok tags) {packing : Packing} {others : List Tag}
    (hdecode : Record.decode (Record.encode packing tags) = .ok others) : others = tags := by
  have htags := Grammar.tags_of_parse hparse
  have hlines := Grammar.lineCount_le source
  have hsize := h.size hinvolved
  refine Record.decode_encode (fun tag htag => ?_) (fun tag htag => (htags tag htag).1) (h.values hinvolved hparse) hdecode
  have := (htags tag htag).2
  omega

/--
The tags that are read from an entry are those of the text.
-/
theorem Sound.parse_of_read {cache : Cache} (hsound : Sound Involved directory disk) (h : Reliable Involved)
    (hinvolved : Involved source grammar) (hdirectory : disk.placeOf cache.directory = directory)
    (hread : cache.read? (key source grammar) disk = .ok (some tags)) : grammar.parse source = .ok tags := by
  obtain ⟨bytes, hfile, hdecode⟩ := file_of_read hread
  rw [hdirectory] at hfile
  cases hsound source grammar bytes hinvolved hfile with
  | inl hunreadable =>
    obtain ⟨fault, hfault⟩ := hunreadable
    rw [hfault] at hdecode
    cases hdecode
  | inr hwritten =>
    obtain ⟨other, otherGrammar, written, packing, hother, hname, hparse, hbytes⟩ := hwritten
    obtain ⟨rfl, rfl⟩ := message_inj (h.keys hinvolved hother (key_of_entryName hname))
    rw [hbytes] at hdecode
    rw [h.decode_encode hinvolved hparse hdecode]
    exact hparse

/--
Writing an entry leaves the directory sound.
-/
theorem Sound.wrote {cache : Cache} (hsound : Sound Involved directory disk) (hinvolved : Involved source grammar)
    (hdirectory : disk.placeOf cache.directory = directory) (hparse : grammar.parse source = .ok tags)
    (hwrote : Wrote cache source grammar tags disk after) : Sound Involved directory after := by
  intro other otherGrammar bytes hother hfile
  obtain hbefore | ⟨hplace, hbytes⟩ := hwrote.file hfile
  . exact hsound other otherGrammar bytes hother hbefore
  . rw [hdirectory] at hplace
    have hname : entryName other otherGrammar = entryName source grammar :=
      List.singleton_inj.1 (List.append_cancel_left hplace)
    exact .inr ⟨source, grammar, tags, cache.packing, hinvolved, hname, hparse, hbytes⟩

end Cache

/-! ### Loads -/

namespace Library

variable {lib : Library} {file : String}

theorem isLoaded_eq_false_iff : lib.isLoaded file = false ↔ lib.scripts.lookup file = none := by
  rw [isLoaded, Option.isSome_eq_false_iff, Option.isNone_iff_eq_none]

theorem load_eq_read (h : lib.isLoaded file = false) : (lib.load file).1 = (lib.read file).1.map (lib.cursor file) := by
  unfold load
  rw [isLoaded_eq_false_iff.1 h]
  generalize lib.read file = answer
  obtain ⟨result, disk⟩ := answer
  cases result <;> rfl

theorem cache_load (lib : Library) (file : String) : (lib.load file).2.cache = lib.cache := by
  unfold load
  cases lib.scripts.lookup file with
  | some tags => rfl
  | none =>
    generalize lib.read file = answer
    obtain ⟨result, disk⟩ := answer
    cases result <;> rfl

/--
A script is read without any effect, or its entry is written, because it has not been read from there.
-/
theorem disk_read (lib : Library) (file : String)
    : (lib.read file).2 = lib.disk ∨
        ∃ source grammar tags cache, lib.source file = .ok (source, grammar) ∧ lib.cached? source grammar = none ∧
          grammar.parse source = .ok tags ∧ lib.cache = some cache ∧
          (lib.read file).2 = ((cache.write (Cache.key source grammar) tags).run.run lib.disk).2 := by
  unfold read
  cases hsource : lib.source file with
  | error e => exact .inl rfl
  | ok input =>
    obtain ⟨source, grammar⟩ := input
    dsimp only
    cases hcached : lib.cached? source grammar with
    | some tags => exact .inl rfl
    | none =>
      dsimp only
      cases hparse : grammar.parse source with
      | error e => exact .inl rfl
      | ok tags =>
        dsimp only
        unfold diskWith
        cases hcache : lib.cache with
        | none => exact .inl rfl
        | some cache => exact .inr ⟨source, grammar, tags, cache, rfl, hcached, hparse, rfl, rfl⟩

/--
A load leaves the disk as it is, or writes the entry of the text that has been parsed.
-/
theorem disk_load (lib : Library) (file : String)
    : (lib.load file).2.disk = lib.disk ∨
        ∃ source grammar tags cache, lib.source file = .ok (source, grammar) ∧ grammar.parse source = .ok tags ∧
          lib.cache = some cache ∧ Cache.Wrote cache source grammar tags lib.disk (lib.load file).2.disk := by
  have hdisk : (lib.load file).2.disk = lib.disk ∨ (lib.load file).2.disk = (lib.read file).2 := by
    unfold load
    cases lib.scripts.lookup file with
    | some tags => exact .inl rfl
    | none =>
      right
      generalize lib.read file = answer
      obtain ⟨result, disk⟩ := answer
      cases result <;> rfl
  obtain hsame | hread := hdisk
  . exact .inl hsame
  rw [hread]
  obtain hsame | ⟨source, grammar, tags, cache, hsource, _, hparse, hcache, hwrite⟩ := lib.disk_read file
  . exact .inl hsame
  . rw [hwrite]
    exact .inr ⟨source, grammar, tags, cache, hsource, hparse, hcache, Cache.wrote_write ..⟩

theorem current_load (lib : Library) (file : String) : (lib.load file).2.disk.current = lib.disk.current := by
  obtain hsame | ⟨_, _, _, _, _, _, _, hwrote⟩ := lib.disk_load file
  . rw [hsame]
  . exact hwrote.current

/--
The text of a script is in its file.
-/
theorem exists_of_source {source : String} {grammar : Grammar} (h : lib.source file = .ok (source, grammar))
    : ∃ bytes, lib.disk.get? (lib.disk.placeOf (Path.join lib.directory file)) = some (.file bytes) ∧
        String.fromUTF8? bytes = some source ∧ grammar = Grammar.ofPath (Path.join lib.directory file) lib.grammar := by
  unfold Library.source at h
  dsimp only at h
  unfold Disk.readText at h
  cases hread : lib.disk.readBytes (Path.join lib.directory file) with
  | error fault =>
    rw [hread] at h
    cases h
  | ok bytes =>
    rw [hread] at h
    refine ⟨bytes, Disk.get?_of_readBytes hread, ?_⟩
    dsimp only [bind, Except.bind] at h
    cases htext : String.fromUTF8? bytes with
    | none =>
      rw [htext] at h
      cases h
    | some text =>
      rw [htext] at h
      cases h
      exact ⟨rfl, rfl⟩

/--
A load gives what parsing gives if the cache does.
-/
theorem read_eq_parse
    (h : ∀ source grammar tags, lib.source file = .ok (source, grammar) → lib.cached? source grammar = some tags →
      grammar.parse source = .ok tags)
    : (lib.read file).1 = lib.parse file := by
  unfold read parse
  cases hsource : lib.source file with
  | error e => rfl
  | ok input =>
    obtain ⟨source, grammar⟩ := input
    dsimp only
    change _ = (grammar.parse source).mapError (LibraryError.parse file)
    cases hcached : lib.cached? source grammar with
    | some tags =>
      rw [h source grammar tags hsource hcached]
      rfl
    | none =>
      dsimp only
      cases grammar.parse source <;> rfl

theorem exists_of_cached {source : String} {grammar : Grammar} {tags : List Tag}
    (h : lib.cached? source grammar = some tags)
    : ∃ cache, lib.cache = some cache ∧ cache.read? (Cache.key source grammar) lib.disk = .ok (some tags) := by
  unfold cached? at h
  obtain ⟨cache, hcache, hread⟩ := Option.bind_eq_some_iff.1 h
  refine ⟨cache, hcache, ?_⟩
  cases hanswer : cache.read? (Cache.key source grammar) lib.disk with
  | error e =>
    rw [hanswer] at hread
    cases hread
  | ok answer =>
    rw [hanswer] at hread
    exact congrArg Except.ok hread

end Library

/-! ### Libraries that share a directory -/

namespace Library

/--
A library as it sees a disk from its own working directory.
-/
def on (lib : Library) (disk : Disk) : Library :=
  { lib with disk := { disk with current := lib.disk.current } }

/--
Does a library keep its entries in the directory, if it keeps any?
-/
def Shares (lib : Library) : Prop :=
  ∀ cache, lib.cache = some cache → lib.disk.placeOf cache.directory = directory

variable {Involved directory} {lib : Library} {disk : Disk}

theorem sound_on (h : Cache.Sound Involved directory disk) : Cache.Sound Involved directory (lib.on disk).disk :=
  h

theorem Shares.on (h : lib.Shares directory) (disk : Disk) : (lib.on disk).Shares directory := by
  intro cache hcache
  have hcurrent : (lib.on disk).disk.current = lib.disk.current := rfl
  rw [Disk.placeOf_eq hcurrent]
  exact h cache hcache

end Library

/--
A disk and the libraries that load their scripts from it.
-/
structure World where
  disk : Disk
  libraries : List Library

namespace World

/--
A load, and what can happen between two loads: a library opens, or takes another grammar, or the disk changes in any way
that does not make up readable entries.
-/
inductive Step (world : World) : World → Prop where
  | opens (lib : Library) (h : lib.Shares directory)
    : Step world { world with libraries := lib :: world.libraries }
  | chooses (i : Nat) (lib : Library) (grammar : Grammar) (hlib : world.libraries[i]? = some lib)
    : Step world { world with libraries := world.libraries.set i { lib with grammar } }
  | changes (disk : Disk)
    (h : ∀ source grammar bytes, Involved source grammar →
      disk.get? (directory ++ [Cache.entryName source grammar]) = some (.file bytes) →
      Cache.Unreadable bytes ∨
        world.disk.get? (directory ++ [Cache.entryName source grammar]) = some (.file bytes))
    : Step world { world with disk }
  | loads (i : Nat) (lib : Library) (file : String) (hlib : world.libraries[i]? = some lib)
    (h : ∀ source grammar, (lib.on world.disk).source file = .ok (source, grammar) → Involved source grammar)
    : Step world {
        disk := ((lib.on world.disk).load file).2.disk
        libraries := world.libraries.set i ((lib.on world.disk).load file).2
      }

/--
Can a world come about, from a directory that is empty or that holds what the cache has written or nothing readable?
-/
inductive Reachable : World → Prop where
  | start (disk : Disk) (h : Cache.Sound Involved directory disk) : Reachable { disk, libraries := [] }
  | step {world next : World} (h : Reachable world) (hstep : Step Involved directory world next) : Reachable next

/--
What every world that comes about keeps.
-/
structure Sound (world : World) : Prop where
  cache : Cache.Sound Involved directory world.disk
  shares : ∀ {lib}, lib ∈ world.libraries → lib.Shares directory

variable {Involved directory} {world next : World}

theorem Sound.step (hsound : Sound Involved directory world) (hstep : Step Involved directory world next)
    : Sound Involved directory next := by
  cases hstep with
  | opens lib hshares =>
    refine ⟨hsound.cache, fun hmem => ?_⟩
    obtain rfl | hmem := List.mem_cons.1 hmem
    . exact hshares
    . exact hsound.shares hmem
  | chooses i lib grammar hlib =>
    have hshares := hsound.shares (List.mem_of_getElem? hlib)
    refine ⟨hsound.cache, fun hmem => ?_⟩
    obtain hmem | rfl := List.mem_or_eq_of_mem_set hmem
    . exact hsound.shares hmem
    . exact hshares
  | changes disk hchange =>
    refine ⟨fun source grammar bytes hinvolved hfile => ?_, hsound.shares⟩
    cases hchange source grammar bytes hinvolved hfile with
    | inl hunreadable => exact .inl hunreadable
    | inr hbefore => exact hsound.cache source grammar bytes hinvolved hbefore
  | loads i lib file hlib hinvolved =>
    have hshares := (hsound.shares (List.mem_of_getElem? hlib)).on world.disk
    refine ⟨?_, fun hmem => ?_⟩
    . obtain hsame | ⟨source, grammar, tags, cache, hsource, hparse, hcache, hwrote⟩ := (lib.on world.disk).disk_load file
      . rw [hsame]
        exact hsound.cache
      . have hinput := hinvolved source grammar hsource
        exact (Library.sound_on hsound.cache).wrote hinput (hshares cache hcache) hparse hwrote
    . obtain hmem | rfl := List.mem_or_eq_of_mem_set hmem
      . exact hsound.shares hmem
      . intro cache hcache
        rw [Library.cache_load] at hcache
        rw [Disk.placeOf_eq (Library.current_load _ file)]
        exact hshares cache hcache

theorem Reachable.sound (h : Reachable Involved directory world) : Sound Involved directory world := by
  induction h with
  | start disk h => exact ⟨h, nofun⟩
  | step _ hstep ih => exact ih.step hstep

/--
The cache is transparent: in every world that comes about, a script that is not in memory loads as it does without the
cache, and as it does when it is parsed.
-/
theorem load_transparent (hreliable : Cache.Reliable Involved) (hreachable : Reachable Involved directory world)
    {i : Nat} {lib : Library} (hlib : world.libraries[i]? = some lib) {file : String}
    (hmemory : lib.isLoaded file = false)
    (hinvolved : ∀ source grammar, (lib.on world.disk).source file = .ok (source, grammar) → Involved source grammar)
    : ((lib.on world.disk).load file).1 = (({ lib with cache := none }.on world.disk).load file).1 ∧
        ((lib.on world.disk).load file).1 = ((lib.on world.disk).parse file).map (lib.cursor file) := by
  have hsound := hreachable.sound
  have hshares := (hsound.shares (List.mem_of_getElem? hlib)).on world.disk
  have hcached : ((lib.on world.disk).read file).1 = (lib.on world.disk).parse file := by
    apply Library.read_eq_parse
    intro source grammar tags hsource hcached
    obtain ⟨cache, hcache, hread⟩ := Library.exists_of_cached hcached
    have hinput := hinvolved source grammar hsource
    exact (Library.sound_on hsound.cache).parse_of_read hreliable hinput (hshares cache hcache) hread
  have hparsed : (({ lib with cache := none }.on world.disk).read file).1 = (lib.on world.disk).parse file := by
    apply Library.read_eq_parse
    intro source grammar tags hsource hcached
    obtain ⟨cache, hcache, _⟩ := Library.exists_of_cached hcached
    cases hcache
  have hload : ((lib.on world.disk).load file).1 = ((lib.on world.disk).parse file).map (lib.cursor file) := by
    have hunloaded : (lib.on world.disk).isLoaded file = false := hmemory
    rw [Library.load_eq_read hunloaded, hcached]
    rfl
  refine ⟨?_, hload⟩
  have hunloaded : ({ lib with cache := none }.on world.disk).isLoaded file = false := hmemory
  rw [hload, Library.load_eq_read hunloaded, hparsed]
  rfl

section Sample

/-!
Two libraries share a directory, in which there is an entry already. Its block has a run of literals, a copy of what the
run contains, and the last literals. After the first library has loaded the script of the entry, the script is edited, and
the second library loads it.
-/

def SampleInput (source : String) (grammar : Grammar) : Prop :=
  (source = "*a" ∨ source = "*b") ∧ grammar = .line

theorem parse_before_edit : Grammar.line.parse "*a" = .ok [.label "a" 1, .stop 1] := by
  cbv

theorem parse_after_edit : Grammar.line.parse "*b" = .ok [.label "b" 1, .stop 1] := by
  cbv

theorem key_sampleInput : Cache.key "*a" .line ≠ Cache.key "*b" .line := by
  have hmessage : Cache.message "*a" .line = [108, 105, 110, 101, 0, 42, 97] := by
    rw [Cache.message, toList_eq, toList_eq]
    rfl
  have hother : Cache.message "*b" .line = [108, 105, 110, 101, 0, 42, 98] := by
    rw [Cache.message, toList_eq, toList_eq]
    rfl
  intro hkey
  have hdigest := congrArg (fun key => key.toList.take 8) hkey
  rw [Cache.key_eq, Cache.key_eq, hmessage, hother, Digest.take_hex_short (by decide),
    Digest.take_hex_short (by decide)] at hdigest
  revert hdigest
  decide +kernel

theorem reliable_sampleInput : Cache.Reliable SampleInput where
  keys := by
    rintro source _ other _ ⟨hsource, rfl⟩ ⟨hother, rfl⟩ hkey
    obtain rfl | rfl := hsource <;> obtain rfl | rfl := hother
    . rfl
    . exact absurd hkey key_sampleInput
    . exact absurd hkey.symm key_sampleInput
    . rfl
  values := by
    have hbody : Json.Plain Tag.bodyKey := by
      decide
    rintro source _ tags ⟨rfl | rfl, rfl⟩ hparse tag htag
    . rw [parse_before_edit] at hparse
      cases hparse
      simp only [List.mem_cons, List.not_mem_nil, or_false] at htag
      obtain rfl | rfl := htag <;> exact Json.faithful_single hbody (by decide)
    . rw [parse_after_edit] at hparse
      cases hparse
      simp only [List.mem_cons, List.not_mem_nil, or_false] at htag
      obtain rfl | rfl := htag <;> exact Json.faithful_single hbody (by decide)
  size := by
    rintro source _ ⟨rfl | rfl, _⟩ <;> decide

def sampleDisk : Disk := { entries := [(["x"], .file "*a".toUTF8)] }

def keptTags : List Tag := [.label "a" 1, .stop 1]

def keptBlock : List UInt8 :=
  [49, 0, 0, 0, 0xf6, 18] ++ ((Record.bytes keptTags).take 33 ++ [20, 0, 0x60] ++ (Record.bytes keptTags).drop 43)

theorem unpack?_keptBlock : Block.unpack? keptBlock = some (Record.bytes keptTags) := by
  decide +kernel

def keptDisk : Disk :=
  (sampleDisk.insert ["cache"] .directory).insert ["cache", Cache.entryName "*a" .line] (.file ⟨keptBlock.toArray⟩)

theorem sound_keptDisk : Cache.Sound SampleInput ["cache"] keptDisk := by
  intro source grammar bytes _ hfile
  by_cases hname : Cache.entryName source grammar = Cache.entryName "*a" .line
  . rw [hname] at hfile ⊢
    have hkept : keptDisk.get? ["cache", Cache.entryName "*a" .line] = _ := Disk.get?_insert_self _ _ (by simp)
    cases hkept.symm.trans hfile
    right
    apply Cache.written_of_unpack? ⟨.inl rfl, rfl⟩ parse_before_edit
    rw [toList_mk]
    exact unpack?_keptBlock
  . have hother : ["cache"] ++ [Cache.entryName source grammar] ≠ ["cache", Cache.entryName "*a" .line] := by
      simpa using hname
    rw [keptDisk, Disk.get?_insert_of_ne _ _ hother, Disk.get?_insert_of_ne _ _ (by simp)] at hfile
    cases hfile

def sampleLibrary : Library :=
  { directory := "", grammar := .line, maxDepth := 8, cache := some { directory := "cache" }, disk := {} }

theorem shares_sampleLibrary : sampleLibrary.Shares ["cache"] := by
  rintro _ ⟨⟩
  rfl

def openedWorld : World := { disk := keptDisk, libraries := [sampleLibrary, sampleLibrary] }

def loadedWorld : World := {
  disk := ((sampleLibrary.on keptDisk).load "x").2.disk
  libraries := openedWorld.libraries.set 0 ((sampleLibrary.on keptDisk).load "x").2
}

def editedWorld : World := { loadedWorld with disk := loadedWorld.disk.insert ["x"] (.file "*b".toUTF8) }

theorem sampleInput_of_source {disk : Disk} {text source : String} {grammar : Grammar}
    (hfile : disk.get? ["x"] = some (.file text.toUTF8)) (htext : text = "*a" ∨ text = "*b")
    (h : (sampleLibrary.on disk).source "x" = .ok (source, grammar)) : SampleInput source grammar := by
  obtain ⟨bytes, hbytes, hsource, hgrammar⟩ := Library.exists_of_source h
  change (sampleLibrary.on disk).disk.get? ((sampleLibrary.on disk).disk.placeOf (Path.join "" "x")) = _ at hbytes
  have hplace : (sampleLibrary.on disk).disk.placeOf (Path.join "" "x") = ["x"] := rfl
  rw [hplace] at hbytes
  cases hbytes.symm.trans hfile
  rw [fromUTF8?_toUTF8] at hsource
  cases hsource
  have hline : Grammar.ofPath (Path.join "" "x") .line = .line := by
    decide
  exact ⟨htext, hgrammar.trans hline⟩

theorem reachable_openedWorld : Reachable SampleInput ["cache"] openedWorld :=
  .step (.step (.start keptDisk sound_keptDisk) (.opens sampleLibrary shares_sampleLibrary))
    (.opens sampleLibrary shares_sampleLibrary)

theorem reachable_editedWorld : Reachable SampleInput ["cache"] editedWorld := by
  have hloaded : Reachable SampleInput ["cache"] loadedWorld :=
    .step reachable_openedWorld (.loads 0 sampleLibrary "x" rfl fun _ _ => sampleInput_of_source rfl (.inl rfl))
  refine .step hloaded (.changes _ ?_)
  intro source grammar bytes _ hfile
  right
  rw [Disk.get?_insert_of_ne] at hfile
  . exact hfile
  . simp

theorem transparent_editedWorld
    : ((sampleLibrary.on keptDisk).load "x").1 = (({ sampleLibrary with cache := none }.on keptDisk).load "x").1 ∧
        ((sampleLibrary.on editedWorld.disk).load "x").1
          = (({ sampleLibrary with cache := none }.on editedWorld.disk).load "x").1 ∧
        ((sampleLibrary.on editedWorld.disk).load "x").1
          = ((sampleLibrary.on editedWorld.disk).parse "x").map (sampleLibrary.cursor "x") := by
  have hopened : openedWorld.libraries[0]? = some sampleLibrary := rfl
  have hedited : editedWorld.libraries[1]? = some sampleLibrary := rfl
  constructor
  . refine (load_transparent reliable_sampleInput reachable_openedWorld hopened rfl ?_).1
    intro source grammar
    exact sampleInput_of_source rfl (.inl rfl)
  . apply load_transparent reliable_sampleInput reachable_editedWorld hedited rfl
    intro source grammar
    exact sampleInput_of_source (Disk.get?_insert_self _ _ (by simp)) (.inr rfl)

end Sample

end World
end VisualNovel
