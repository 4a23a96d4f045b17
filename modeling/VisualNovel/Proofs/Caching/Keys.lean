import VisualNovel.Proofs.Caching.Growth

/-!
This module contains the names of the entries of a cache: the message that a key is the digest of tells the text and the
grammar, and the file of an entry is in the directory of the cache.
-/

namespace VisualNovel

/-! ### Digests of short messages -/

namespace Digest

/--
The only node of the tree over a message of one block.
-/
def shortRoot (bytes : List UInt8) : Node :=
  { chain := initial, block := words bytes, length := bytes.length.toUInt32
    flags := (chunkStart ||| chunkEnd) ||| rootFlag, counter := 0 }

theorem hex_short {bytes : List UInt8} (h : bytes.length ≤ 64)
    : hex bytes = String.ofList (((shortRoot bytes).compress.take 4).toList.flatMap hexWord) := by
  unfold hex
  rw [tree, if_pos (by omega), chunk, if_pos h]
  rfl

theorem take_hex_short {bytes : List UInt8} (h : bytes.length ≤ 64)
    : (hex bytes).toList.take 8 = hexWord ((shortRoot bytes).state[0] ^^^ (shortRoot bytes).state[8]) := by
  rw [hex_short h, String.toList_ofList, ← Node.compress_zero]
  generalize (shortRoot bytes).compress = v
  have hfirst : (v.take 4)[0] = v[0] := Vector.getElem_take ..
  have hhead : (v.take 4).toList.head? = some v[0] := by
    rw [List.head?_eq_getElem?, Vector.getElem?_toList, Vector.getElem?_eq_getElem (by decide), hfirst]
  obtain ⟨others, hlist⟩ := List.head?_eq_some_iff.1 hhead
  rw [hlist, List.flatMap_cons]
  exact List.take_left' rfl

end Digest

namespace Cache

/-! ### Messages -/

/--
What the key of a text in a grammar is the digest of.
-/
def message (source : String) (grammar : Grammar) : List UInt8 :=
  grammar.name.toUTF8.toList ++ 0 :: source.toUTF8.toList

theorem key_eq (source : String) (grammar : Grammar) : key source grammar = Digest.hex (message source grammar) :=
  rfl

theorem message_inj {source other : String} {grammar otherGrammar : Grammar}
    (h : message source grammar = message other otherGrammar) : source = other ∧ grammar = otherGrammar := by
  have hline : Grammar.line.name.toUTF8.toList = [108, 105, 110, 101] := by
    rw [toList_eq]
    rfl
  have hbracket : Grammar.bracket.name.toUTF8.toList = [98, 114, 97, 99, 107, 101, 116] := by
    rw [toList_eq]
    rfl
  have hsame {grammar : Grammar} (h : message source grammar = message other grammar) : source = other :=
    toUTF8_toList_inj (List.cons.inj (List.append_cancel_left h)).2
  cases grammar with
  | line =>
    cases otherGrammar with
    | line => exact ⟨hsame h, rfl⟩
    | bracket =>
      rw [message, message, hline, hbracket] at h
      cases h
  | bracket =>
    cases otherGrammar with
    | line =>
      rw [message, message, hline, hbracket] at h
      cases h
    | bracket => exact ⟨hsame h, rfl⟩

/-! ### Files -/

theorem slash_not_mem_hexWord (w : UInt32) : '/' ∉ Digest.hexWord w := by
  have hdigit : ∀ n < 16, Nat.digitChar n ≠ '/' := by decide
  have hbyte (n : UInt32) : '/' ∉ Digest.hexByte n := by
    have hhigh := hdigit (n.toNat % 256 / 16) (by omega)
    have hlow := hdigit (n.toNat % 256 % 16) (by omega)
    simp only [Digest.hexByte, List.mem_cons, List.not_mem_nil, or_false, not_or]
    exact ⟨Ne.symm hhigh, Ne.symm hlow⟩
  simp [Digest.hexWord, hbyte]

theorem slash_not_mem_hex (bytes : List UInt8) : '/' ∉ (Digest.hex bytes).toList := by
  unfold Digest.hex
  dsimp only
  rw [String.toList_ofList, List.mem_flatMap]
  rintro ⟨w, _, hw⟩
  exact slash_not_mem_hexWord w hw

/--
The name of the file of an entry.
-/
def entryName (source : String) (grammar : Grammar) : String :=
  key source grammar ++ extension

theorem slash_not_mem_entryName (source : String) (grammar : Grammar) : '/' ∉ (entryName source grammar).toList := by
  rw [entryName, String.toList_append, List.mem_append, not_or]
  exact ⟨slash_not_mem_hex _, by decide⟩

theorem isName_entryName (source : String) (grammar : Grammar) : Disk.IsName (entryName source grammar) := by
  have hmem : 'b' ∈ (entryName source grammar).toList := by
    rw [entryName, String.toList_append]
    exact List.mem_append_right _ (by decide)
  constructor
  all_goals
    intro heq
    rw [heq] at hmem
    revert hmem
    decide

theorem placeOf_path (cache : Cache) (disk : Disk) (source : String) (grammar : Grammar)
    : disk.placeOf (cache.path (key source grammar)) = disk.placeOf cache.directory ++ [entryName source grammar] :=
  Disk.placeOf_join disk cache.directory (slash_not_mem_entryName source grammar) (isName_entryName source grammar)

theorem key_of_entryName {source other : String} {grammar otherGrammar : Grammar}
    (h : entryName source grammar = entryName other otherGrammar) : key source grammar = key other otherGrammar :=
  (String.append_left_inj extension).1 h

/--
What an entry that is read holds stands in the file of the entry.
-/
theorem file_of_read {cache : Cache} {disk : Disk} {source : String} {grammar : Grammar} {tags : List Tag}
    (h : cache.read? (key source grammar) disk = .ok (some tags))
    : ∃ bytes, disk.get? (disk.placeOf cache.directory ++ [entryName source grammar]) = some (.file bytes) ∧
        Record.decode bytes.toList = .ok tags := by
  unfold read? at h
  dsimp only at h
  cases hread : disk.readBytes (cache.path (key source grammar)) with
  | error fault =>
    rw [hread] at h
    cases fault <;> cases h
  | ok bytes =>
    rw [hread] at h
    have hget := Disk.get?_of_readBytes hread
    rw [placeOf_path] at hget
    refine ⟨bytes, hget, ?_⟩
    dsimp only at h
    cases hdecode : Record.decode bytes.toList with
    | error fault =>
      rw [hdecode] at h
      cases h
    | ok decoded =>
      rw [hdecode] at h
      cases h
      rfl

/--
The writing of an entry makes directories, and then the file of the entry unless it has failed.
-/
theorem write_cases (cache : Cache) (source : String) (grammar : Grammar) (tags : List Tag) (disk : Disk)
    : ∃ made, Disk.Grows (fun _ => False) disk made ∧
        (((cache.write (key source grammar) tags).run.run disk).2 = made ∨
          ∃ bytes, made.writeBytes (cache.path (key source grammar)) bytes
              = .ok ((cache.write (key source grammar) tags).run.run disk).2 ∧
            bytes.toList = Record.encode cache.packing tags) := by
  have hmade : Disk.Grows (fun _ => False) disk _ :=
    Disk.grows_ensureDirectories (CacheError.io cache.directory) cache.directory disk
  unfold write
  rw [run_bind]
  cases hensure : (Disk.ensureDirectories (CacheError.io cache.directory) cache.directory).run.run disk with
  | mk answer made =>
    rw [hensure] at hmade
    refine ⟨made, hmade, ?_⟩
    cases answer with
    | error e => exact .inl rfl
    | ok _ =>
      dsimp only
      rw [Disk.run_change]
      cases hwrite : made.writeBytes (cache.path (key source grammar)) ⟨(Record.encode cache.packing tags).toArray⟩ with
      | error fault => exact .inl rfl
      | ok after => exact .inr ⟨_, hwrite, toList_mk _⟩

theorem grows_write (cache : Cache) (source : String) (grammar : Grammar) (tags : List Tag) (disk : Disk)
    : Disk.Grows (· = disk.placeOf cache.directory ++ [entryName source grammar]) disk
        ((cache.write (key source grammar) tags).run.run disk).2 := by
  obtain ⟨made, hmade, hsame | ⟨bytes, hwrite, _⟩⟩ := write_cases cache source grammar tags disk
  . rw [hsame]
    exact hmade.mono fun _ => False.elim
  . have hplace : made.placeOf (cache.path (key source grammar))
        = disk.placeOf cache.directory ++ [entryName source grammar] := by
      rw [Disk.placeOf_eq hmade.current, placeOf_path]
    exact (hmade.mono fun _ => False.elim).trans (hplace ▸ Disk.grows_writeBytes hwrite)

/--
After an entry has been written, or its writing has failed, there is no new file but that of the entry.
-/
structure Wrote (cache : Cache) (source : String) (grammar : Grammar) (tags : List Tag) (disk after : Disk) : Prop where
  current : after.current = disk.current
  file : ∀ {place bytes}, after.get? place = some (.file bytes) →
    disk.get? place = some (.file bytes) ∨
      place = disk.placeOf cache.directory ++ [entryName source grammar] ∧
        bytes.toList = Record.encode cache.packing tags

theorem wrote_write (cache : Cache) (source : String) (grammar : Grammar) (tags : List Tag) (disk : Disk)
    : Wrote cache source grammar tags disk ((cache.write (key source grammar) tags).run.run disk).2 := by
  refine ⟨(grows_write cache source grammar tags disk).current, fun {place bytes} hfile => ?_⟩
  obtain ⟨made, hmade, hsame | ⟨written, hwrite, hencode⟩⟩ := write_cases cache source grammar tags disk
  . rw [hsame] at hfile
    exact .inl (hmade.file_before id hfile)
  . obtain ⟨⟨before, name, hleads⟩, _, hafter⟩ := Disk.writeBytes_eq_ok hwrite
    rw [hafter] at hfile
    by_cases hself : place = made.placeOf (cache.path (key source grammar))
    . rw [hself, Disk.get?_insert_self made _ hleads.placeOf_ne] at hfile
      have hbytes := Disk.Entry.file.inj (Option.some.inj hfile)
      right
      rw [hself, Disk.placeOf_eq hmade.current, placeOf_path, ← hbytes]
      exact ⟨rfl, hencode⟩
    . rw [Disk.get?_insert_of_ne made _ hself] at hfile
      exact .inl (hmade.file_before id hfile)

end Cache
end VisualNovel
