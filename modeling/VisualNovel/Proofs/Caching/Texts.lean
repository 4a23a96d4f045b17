import VisualNovel.Proofs.Caching.Entries

/-!
This module contains that an object of one plain text is read back from its JSON text: nothing in it is escaped.
-/

namespace VisualNovel
namespace Json

/--
Is a text written in JSON as it is?
-/
def Plain (s : String) : Prop :=
  ∀ c ∈ s.toList, c ≠ '"' ∧ c ≠ '\\' ∧ ¬c < ' '

instance (s : String) : Decidable (Plain s) :=
  List.decidableBAll (fun c => c ≠ '"' ∧ c ≠ '\\' ∧ ¬c < ' ') s.toList

theorem encodeChar_of_plain {c : Char} (h : c ≠ '"' ∧ c ≠ '\\' ∧ ¬c < ' ') : encodeChar c = [c] := by
  obtain ⟨hquote, hslash, hcontrol⟩ := h
  have hne {d : Char} (hd : d < ' ') : c ≠ d := by
    rintro rfl
    exact hcontrol hd
  rw [encodeChar, if_neg hquote, if_neg hslash, if_neg (hne (by decide)), if_neg (hne (by decide)),
    if_neg (hne (by decide)), if_neg (hne (by decide)), if_neg (hne (by decide)), if_neg hcontrol]

theorem flatMap_encodeChar {cs : List Char} (h : ∀ c ∈ cs, c ≠ '"' ∧ c ≠ '\\' ∧ ¬c < ' ')
    : cs.flatMap encodeChar = cs := by
  induction cs with
  | nil => rfl
  | cons c cs ih =>
    rw [List.flatMap_cons, encodeChar_of_plain (h c List.mem_cons_self), ih fun d hd => h d (List.mem_cons_of_mem c hd)]
    rfl

theorem readString?_plainChar {c : Char} (h : c ≠ '"' ∧ c ≠ '\\' ∧ ¬c < ' ') {quoted : List Char}
    {t : Taken quoted (List Piece)} (ht : readString? quoted = some t)
    : ∃ u, readString? (c :: quoted) = some u ∧ u.value = .char c :: t.value ∧ u.rest = t.rest := by
  obtain ⟨hquote, hslash, hcontrol⟩ := h
  rw [readString?]
  . rw [if_neg (by simp [hcontrol, hslash]), ht]
    exact ⟨_, rfl, rfl, rfl⟩
  . exact hquote
  . exact fun _ _ _ _ _ heq _ => hslash heq
  . exact fun _ _ heq _ => hslash heq

theorem readString?_plain {cs : List Char} (h : ∀ c ∈ cs, c ≠ '"' ∧ c ≠ '\\' ∧ ¬c < ' ') (rest : List Char)
    : ∃ t, readString? (cs ++ '"' :: rest) = some t ∧ t.value = cs.map .char ∧ t.rest = rest := by
  induction cs with
  | nil => exact ⟨_, rfl, rfl, rfl⟩
  | cons c cs ih =>
    obtain ⟨t, hread, hvalue, hrest⟩ := ih fun d hd => h d (List.mem_cons_of_mem c hd)
    obtain ⟨u, hu, huvalue, hurest⟩ := readString?_plainChar (h c List.mem_cons_self) hread
    exact ⟨u, hu, by rw [huvalue, hvalue]; rfl, hurest.trans hrest⟩

theorem decode?_map_char (cs : List Char) : Piece.decode? (cs.map .char) = some cs := by
  induction cs with
  | nil => rfl
  | cons c cs ih => rw [List.map_cons, Piece.decode?, ih]; rfl

theorem readValue?_string {cs quoted : List Char} {t : Taken quoted (List Piece)} (hcs : skipSpace cs = '"' :: quoted)
    (ht : readString? quoted = some t) : ∃ u, readValue? cs = some u ∧ u.value = .string t.value ∧ u.rest = t.rest := by
  rw [readValue?]
  split
  . next rest h =>
    rw [hcs] at h
    cases h
    rw [ht]
    exact ⟨_, rfl, rfl, rfl⟩
  . next rest h =>
    rw [hcs] at h
    cases h
  . next rest h =>
    rw [hcs] at h
    cases h
  . next h _ _ => exact absurd hcs (h quoted)

theorem readMembers?_last {cs quoted colon rest : List Char} {name : Taken quoted (List Piece)} {member : Taken colon Json}
    (hcs : skipSpace cs = '"' :: quoted) (hname : readString? quoted = some name)
    (hcolon : skipSpace name.rest = ':' :: colon) (hmember : readValue? colon = some member)
    (hend : skipSpace member.rest = '\x7d' :: rest)
    : ∃ u, readMembers? cs = some u ∧ u.value = [(name.value, member.value)] ∧ u.rest = rest := by
  rw [readMembers?]
  split
  . next other h =>
    rw [hcs] at h
    cases h
    rw [hname]
    dsimp only
    split
    . next other h' =>
      rw [hcolon] at h'
      cases h'
      rw [hmember]
      dsimp only
      split
      . next other h'' =>
        rw [hend] at h''
        cases h''
      . next other h'' =>
        rw [hend] at h''
        cases h''
        exact ⟨_, rfl, rfl, rfl⟩
      . next h'' => exact absurd hend (h'' rest)
    . next h' => exact absurd hcolon (h' colon)
  . next h => exact absurd hcs (h quoted)

theorem readValue?_object {cs braced : List Char} {members : Taken braced (List (List Piece × Json))}
    (hcs : skipSpace cs = '\x7b' :: braced) (hopen : ∀ after, skipSpace braced ≠ '\x7d' :: after)
    (hmembers : readMembers? braced = some members)
    : ∃ u, readValue? cs = some u ∧ u.value = .object members.value ∧ u.rest = members.rest := by
  rw [readValue?]
  split
  . next rest h =>
    rw [hcs] at h
    cases h
  . next rest h =>
    rw [hcs] at h
    cases h
  . next other h =>
    rw [hcs] at h
    cases h
    split
    . next after he => exact absurd he (hopen after)
    . rw [hmembers]
      exact ⟨_, rfl, rfl, rfl⟩
  . next h => exact absurd hcs (h braced)

theorem toList_compact_single {key s : String} (hkey : Plain key) (hs : Plain s)
    : (compact (.object [(key, .string s)])).toList
        = '\x7b' :: '"' :: (key.toList ++ '"' :: ':' :: '"' :: (s.toList ++ ['"', '\x7d'])) := by
  rw [compact, compactFields, compactFields, compact, encodeString, encodeString, flatMap_encodeChar hkey,
    flatMap_encodeChar hs]
  have hsingle (text : String) : String.intercalate "," [text] = text := rfl
  rw [hsingle]
  simp

theorem read?_eq_some {text : String} {cs : List Char} (htext : text.toList = cs) {t : Taken cs Json}
    (h : readValue? cs = some t) (hrest : t.rest = []) : read? text = some t.value := by
  subst htext
  unfold read?
  rw [h]
  dsimp only
  rw [hrest]
  rfl

/--
An object of one plain text is read back as it has been written.
-/
theorem readWhole?_single {key s : String} (hkey : Plain key) (hs : Plain s)
    : readWhole? (compact (.object [(key, .string s)])) = some (.object [(key, .string s)]) := by
  obtain ⟨name, hname, hnameValue, hnameRest⟩ :=
    readString?_plain hkey (':' :: '"' :: (s.toList ++ ['"', '\x7d']))
  obtain ⟨text, htext, htextValue, htextRest⟩ := readString?_plain hs ['\x7d']
  have hquote (cs : List Char) : skipSpace ('"' :: cs) = '"' :: cs := rfl
  have hbrace (cs : List Char) : skipSpace ('\x7b' :: cs) = '\x7b' :: cs := rfl
  obtain ⟨member, hmember, hmemberValue, hmemberRest⟩ := readValue?_string (hquote _) htext
  rw [htextRest] at hmemberRest
  have hcolon : skipSpace name.rest = ':' :: '"' :: (s.toList ++ ['"', '\x7d']) := by
    rw [hnameRest]
    rfl
  have hend : skipSpace member.rest = ['\x7d'] := by
    rw [hmemberRest]
    rfl
  obtain ⟨members, hmembers, hmembersValue, hmembersRest⟩ :=
    readMembers?_last (hquote _) hname hcolon hmember hend
  have hopen (cs after : List Char) : skipSpace ('"' :: cs) ≠ '\x7d' :: after := by
    rw [hquote]
    exact nofun
  obtain ⟨value, hvalue, hvalueValue, hvalueRest⟩ := readValue?_object (hbrace _) (hopen _) hmembers
  rw [hmembersRest] at hvalueRest
  rw [readWhole?, read?_eq_some (toList_compact_single hkey hs) hvalue hvalueRest, hvalueValue, hmembersValue,
    hmemberValue, hnameValue, htextValue]
  simp [toValue?, toFields?, text?, decode?_map_char, Fields.insert, maxDepth]

theorem faithful_single {key s : String} (hkey : Plain key) (hs : Plain s) : Faithful [(key, .string s)] := by
  intro value hvalue
  rw [readWhole?_single hkey hs] at hvalue
  exact (Option.some.inj hvalue).symm

end Json
end VisualNovel
