import VisualNovel.Proofs.Caching.Texts
import VisualNovel.Proofs.Storing.Numbers

/-!
This module contains that the indented JSON text of every value is read back as a document of the value: its lists, its
members and all of its texts are kept. What its numbers mean is left open.
-/

namespace VisualNovel
namespace Json

mutual

/--
A document of a value, whatever its numbers mean.
-/
inductive IsDocument : Value → Json → Prop where
  | null : IsDocument .null .null
  | bool (b : Bool) : IsDocument (.bool b) (.bool b)
  | number (n : Number) (numeral : Numeral) : IsDocument (.number n) (.number numeral)
  | string {s : String} {pieces : List Piece} (h : text? pieces = some s) : IsDocument (.string s) (.string pieces)
  | array {vs : List Value} {items : List Json} (h : AreItems vs items) : IsDocument (.array vs) (.array items)
  | object {fields : List (String × Value)} {members : List (List Piece × Json)} (h : AreMembers fields members)
    : IsDocument (.object fields) (.object members)

inductive AreItems : List Value → List Json → Prop where
  | nil : AreItems [] []
  | cons {v : Value} {item : Json} {vs : List Value} {items : List Json} (h : IsDocument v item) (hs : AreItems vs items)
    : AreItems (v :: vs) (item :: items)

inductive AreMembers : List (String × Value) → List (List Piece × Json) → Prop where
  | nil : AreMembers [] []
  | cons {key : String} {v : Value} {pieces : List Piece} {json : Json} {fields : List (String × Value)}
    {members : List (List Piece × Json)} (hkey : text? pieces = some key) (h : IsDocument v json)
    (hs : AreMembers fields members) : AreMembers ((key, v) :: fields) ((pieces, json) :: members)

end

/-! ### Texts -/

theorem decode?_unit {n : Nat} (hn : n < 0xd800) (rest : List Piece)
    : Piece.decode? (.unit n :: rest) = (Piece.decode? rest).map (Char.ofNat n :: ·) := by
  cases rest with
  | nil => simp [Piece.decode?, hn]
  | cons piece rest =>
    cases piece with
    | char c => simp [Piece.decode?, hn]
    | unit low => simp [Piece.decode?, hn]

variable {cs quoted behind : List Char}

theorem readString?_escape {letter c : Char} (hletter : letter ≠ 'u') (hescape : escape? letter = some c)
    {t : Taken quoted (List Piece)} (h : readString? quoted = some t)
    : ∃ u, readString? ('\\' :: letter :: quoted) = some u ∧ u.value = .char c :: t.value ∧ u.rest = t.rest := by
  rw [readString?]
  . rw [hescape, h]
    exact ⟨_, rfl, rfl, rfl⟩
  . exact fun _ _ _ _ _ heq _ => hletter heq

theorem readString?_unit {a b c d : Char} {n : Nat} (hunit : unit? a b c d = some n)
    {t : Taken quoted (List Piece)} (h : readString? quoted = some t)
    : ∃ u, readString? ('\\' :: 'u' :: a :: b :: c :: d :: quoted) = some u ∧ u.value = .unit n :: t.value ∧
        u.rest = t.rest := by
  rw [readString?, hunit, h]
  exact ⟨_, rfl, rfl, rfl⟩

theorem unit?_hexDigit {n : Nat} (h : n < 32) : unit? '0' '0' (hexDigit (n / 16)) (hexDigit n) = some n := by
  have hall : ∀ n < 32, unit? '0' '0' (hexDigit (n / 16)) (hexDigit n) = some n := by decide
  exact hall n h

/--
A character is written as a letter behind a backslash, as the four digits of its code, or as it is.
-/
inductive Encodes (c : Char) : List Char → Prop where
  | letter {letter : Char} (hne : letter ≠ 'u') (h : escape? letter = some c) : Encodes c ['\\', letter]
  | control (h : c.toNat < 32)
    : Encodes c ['\\', 'u', '0', '0', hexDigit (c.toNat / 16), hexDigit c.toNat]
  | plain (h : c ≠ '"' ∧ c ≠ '\\' ∧ ¬c < ' ') : Encodes c [c]

theorem encodes_encodeChar (c : Char) : Encodes c (encodeChar c) := by
  unfold encodeChar
  split
  . next h =>
    subst h
    exact .letter (by decide) rfl
  split
  . next h =>
    subst h
    exact .letter (by decide) rfl
  split
  . next h =>
    subst h
    exact .letter (by decide) rfl
  split
  . next h =>
    subst h
    exact .letter (by decide) rfl
  split
  . next h =>
    subst h
    exact .letter (by decide) rfl
  split
  . next h =>
    subst h
    exact .letter (by decide) rfl
  split
  . next h =>
    subst h
    exact .letter (by decide) rfl
  split
  . next h => exact .control h
  . next hquote hslash _ _ _ _ _ hcontrol => exact .plain ⟨hquote, hslash, hcontrol⟩

/--
A character is read back from what is written for it.
-/
theorem Encodes.reads {c : Char} {written : List Char} (hc : Encodes c written) {t : Taken quoted (List Piece)}
    (h : readString? quoted = some t)
    : ∃ u, readString? (written ++ quoted) = some u ∧
        Piece.decode? u.value = (Piece.decode? t.value).map (c :: ·) ∧ u.rest = t.rest := by
  cases hc with
  | letter hne hescape =>
    obtain ⟨u, hu, hvalue, hrest⟩ := readString?_escape hne hescape h
    exact ⟨u, hu, by rw [hvalue, Piece.decode?], hrest⟩
  | control hlt =>
    obtain ⟨u, hu, hvalue, hrest⟩ := readString?_unit (unit?_hexDigit hlt) h
    exact ⟨u, hu, by rw [hvalue, decode?_unit (by omega), Char.ofNat_toNat], hrest⟩
  | plain hplain =>
    obtain ⟨u, hu, hvalue, hrest⟩ := readString?_plainChar hplain h
    exact ⟨u, hu, by rw [hvalue, Piece.decode?], hrest⟩

/--
Any text is read back.
-/
theorem readString?_encoded (cs behind : List Char)
    : ∃ t, readString? (cs.flatMap encodeChar ++ '"' :: behind) = some t ∧ Piece.decode? t.value = some cs ∧
        t.rest = behind := by
  induction cs with
  | nil => exact ⟨_, rfl, rfl, rfl⟩
  | cons c cs ih =>
    obtain ⟨t, ht, hvalue, hrest⟩ := ih
    obtain ⟨u, hu, hvalue', hrest'⟩ := (encodes_encodeChar c).reads ht
    rw [List.flatMap_cons, List.append_assoc]
    exact ⟨u, hu, by rw [hvalue', hvalue]; rfl, hrest'.trans hrest⟩

/-! ### Documents in longer texts -/

/--
Wherever a text stands in front of something that no number goes on with, a document of the value is read from it.
-/
structure Legible (v : Value) (text : List Char) : Prop where
  head : ∃ c rest, text = c :: rest ∧ isSpace c = false ∧ c ≠ ']'
  reads : ∀ {cs behind}, skipSpace cs = text ++ behind → EndsNumber behind →
    ∃ t, readValue? cs = some t ∧ IsDocument v t.value ∧ t.rest = behind

/--
A member is legible, with its name in front.
-/
inductive LegibleMember : String × Value → List Char → Prop where
  | intro {key : String} {v : Value} {text : List Char} (h : Legible v text)
    : LegibleMember (key, v) ('"' :: (key.toList.flatMap encodeChar ++ '"' :: ':' :: ' ' :: text))

theorem skipSpace_cons {c : Char} (h : isSpace c = false) (cs : List Char) : skipSpace (c :: cs) = c :: cs := by
  rw [skipSpace, List.dropWhile_cons_of_neg (by simp [h])]

theorem skipSpace_append {gap cs : List Char} (hgap : ∀ c ∈ gap, isSpace c) : skipSpace (gap ++ cs) = skipSpace cs :=
  List.dropWhile_append_of_pos hgap

/-! ### Words, numbers and texts -/

theorem readValue?_atom {atom rest : List Char} {c : Char} {json : Json} (hcs : skipSpace cs = c :: atom)
    (hquote : c ≠ '"') (hbracket : c ≠ '[') (hbrace : c ≠ '\x7b') (hatom : readAtom? (c :: atom) = some (json, rest))
    (hlt : rest.length < (c :: atom).length)
    : ∃ u, readValue? cs = some u ∧ u.value = json ∧ u.rest = rest := by
  rw [readValue?]
  split
  . next h =>
    rw [hcs] at h
    cases h
    exact absurd rfl hquote
  . next h =>
    rw [hcs] at h
    cases h
    exact absurd rfl hbracket
  . next h =>
    rw [hcs] at h
    cases h
    exact absurd rfl hbrace
  . simp only [hcs, hatom]
    rw [dif_pos hlt]
    exact ⟨_, rfl, rfl, rfl⟩

/--
What is read as a word or a number, whatever follows it, is legible.
-/
theorem legible_of_readAtom? {v : Value} {text : List Char} {c : Char} {rest : List Char} (htext : text = c :: rest)
    (hc : isSpace c = false ∧ c ≠ ']' ∧ c ≠ '"' ∧ c ≠ '[' ∧ c ≠ '\x7b')
    (h : ∀ behind, EndsNumber behind → ∃ json, readAtom? (text ++ behind) = some (json, behind) ∧ IsDocument v json)
    : Legible v text := by
  obtain ⟨hspace, hclose, hquote, hbracket, hbrace⟩ := hc
  refine ⟨⟨c, rest, htext, hspace, hclose⟩, fun {cs behind} hcs hbehind => ?_⟩
  obtain ⟨json, hatom, hdocument⟩ := h behind hbehind
  have hlt : behind.length < (text ++ behind).length := by
    rw [htext, List.length_append, List.length_cons]
    omega
  rw [htext, List.cons_append] at hcs hatom hlt
  obtain ⟨u, hu, hvalue, hrest⟩ := readValue?_atom hcs hquote hbracket hbrace hatom hlt
  exact ⟨u, hu, hvalue ▸ hdocument, hrest⟩

theorem IsNumber.exists_cons {text : List Char} (h : IsNumber text)
    : ∃ c rest, text = c :: rest ∧ (c = '-' ∨ c.isDigit) := by
  cases h with
  | @intro sign whole fraction exponent hsign hwhole =>
    rcases hsign with rfl | rfl
    . obtain ⟨d, ds, rfl⟩ := List.exists_cons_of_ne_nil hwhole.ne_nil
      exact ⟨d, _, rfl, .inr (hwhole.digits d List.mem_cons_self)⟩
    . exact ⟨'-', _, rfl, .inl rfl⟩

theorem legible_number (n : Number) : Legible (.number n) (compact (.number n)).toList := by
  have hnumber := isNumber_display n
  obtain ⟨c, rest, htext, hc⟩ := hnumber.exists_cons
  have hne {d : Char} (hminus : d ≠ '-') (hdigit : d.isDigit = false) : c ≠ d := by
    rintro rfl
    rcases hc with hc | hc
    . exact hminus hc
    . rw [hdigit] at hc
      cases hc
  rw [compact]
  refine legible_of_readAtom? htext ?_ fun behind hbehind => ?_
  . have hspace : isSpace c = false := by
      simp [isSpace, hne (d := ' '), hne (d := '\n'), hne (d := '\t'), hne (d := '\r')]
    exact ⟨hspace, hne (by decide) rfl, hne (by decide) rfl, hne (by decide) rfl, hne (by decide) rfl⟩
  . obtain ⟨numeral, hread⟩ := hnumber.reads hbehind
    refine ⟨.number numeral, ?_, .number n numeral⟩
    rw [htext] at hread ⊢
    rw [List.cons_append] at hread ⊢
    unfold readAtom?
    split
    . next heq => exact absurd (List.cons.inj heq).1 (hne (by decide) rfl)
    . next heq => exact absurd (List.cons.inj heq).1 (hne (by decide) rfl)
    . next heq => exact absurd (List.cons.inj heq).1 (hne (by decide) rfl)
    . rw [hread]
      rfl

theorem legible_null : Legible .null (compact .null).toList :=
  legible_of_readAtom? (c := 'n') rfl (by decide) fun _ _ => ⟨.null, rfl, .null⟩

theorem legible_bool (b : Bool) : Legible (.bool b) (compact (.bool b)).toList := by
  cases b with
  | false => exact legible_of_readAtom? (c := 'f') rfl (by decide) fun _ _ => ⟨.bool false, rfl, .bool false⟩
  | true => exact legible_of_readAtom? (c := 't') rfl (by decide) fun _ _ => ⟨.bool true, rfl, .bool true⟩

theorem legible_string (s : String) : Legible (.string s) (compact (.string s)).toList := by
  have htext : (compact (.string s)).toList = '"' :: (s.toList.flatMap encodeChar ++ ['"']) := by
    simp [compact, encodeString]
  rw [htext]
  refine ⟨⟨_, _, rfl, rfl, by decide⟩, fun {cs behind} hcs _ => ?_⟩
  rw [List.cons_append, List.append_assoc] at hcs
  obtain ⟨t, ht, hvalue, hrest⟩ := readString?_encoded s.toList behind
  obtain ⟨u, hu, hvalue', hrest'⟩ := readValue?_string hcs ht
  refine ⟨u, hu, ?_, hrest'.trans hrest⟩
  rw [hvalue']
  refine .string ?_
  rw [text?, hvalue, Option.map_some, String.ofList_toList]

/-! ### Brackets -/

theorem readItems?_last {first : Taken cs Json} {rest : List Char} (hfirst : readValue? cs = some first)
    (hend : skipSpace first.rest = ']' :: rest)
    : ∃ u, readItems? cs = some u ∧ u.value = [first.value] ∧ u.rest = rest := by
  rw [readItems?]
  simp only [hfirst]
  split
  . next h =>
    rw [hend] at h
    cases h
  . next h =>
    rw [hend] at h
    cases h
    exact ⟨_, rfl, rfl, rfl⟩
  . next h => exact absurd hend (h rest)

theorem readItems?_cons {first : Taken cs Json} {rest : List Char} {items : Taken rest (List Json)}
    (hfirst : readValue? cs = some first) (hcomma : skipSpace first.rest = ',' :: rest)
    (hitems : readItems? rest = some items)
    : ∃ u, readItems? cs = some u ∧ u.value = first.value :: items.value ∧ u.rest = items.rest := by
  rw [readItems?]
  simp only [hfirst]
  split
  . next h =>
    rw [hcomma] at h
    cases h
    rw [hitems]
    exact ⟨_, rfl, rfl, rfl⟩
  . next h =>
    rw [hcomma] at h
    cases h
  . next h _ => exact absurd hcomma (h rest)

theorem readMembers?_cons {colon rest : List Char} {name : Taken quoted (List Piece)} {member : Taken colon Json}
    {members : Taken rest (List (List Piece × Json))} (hcs : skipSpace cs = '"' :: quoted)
    (hname : readString? quoted = some name) (hcolon : skipSpace name.rest = ':' :: colon)
    (hmember : readValue? colon = some member) (hcomma : skipSpace member.rest = ',' :: rest)
    (hmembers : readMembers? rest = some members)
    : ∃ u, readMembers? cs = some u ∧ u.value = (name.value, member.value) :: members.value ∧
        u.rest = members.rest := by
  rw [readMembers?]
  split
  . next other h =>
    rw [hcs] at h
    cases h
    simp only [hname]
    split
    . next other h' =>
      rw [hcolon] at h'
      cases h'
      simp only [hmember]
      split
      . next other h'' =>
        rw [hcomma] at h''
        cases h''
        rw [hmembers]
        exact ⟨_, rfl, rfl, rfl⟩
      . next other h'' =>
        rw [hcomma] at h''
        cases h''
      . next h'' _ => exact absurd hcomma (h'' rest)
    . next h' => exact absurd hcolon (h' colon)
  . next h => exact absurd hcs (h quoted)

theorem readValue?_emptyArray {inner rest : List Char} (hcs : skipSpace cs = '[' :: inner)
    (hclose : skipSpace inner = ']' :: rest) : ∃ u, readValue? cs = some u ∧ u.value = .array [] ∧ u.rest = rest := by
  rw [readValue?]
  split
  . next h =>
    rw [hcs] at h
    cases h
  . next other h =>
    rw [hcs] at h
    cases h
    split
    . next after he =>
      rw [hclose] at he
      cases he
      exact ⟨_, rfl, rfl, rfl⟩
    . next he => exact absurd hclose (he rest)
  . next h =>
    rw [hcs] at h
    cases h
  . next h _ => exact absurd hcs (h inner)

theorem readValue?_array {inner : List Char} {items : Taken inner (List Json)} (hcs : skipSpace cs = '[' :: inner)
    (hopen : ∀ after, skipSpace inner ≠ ']' :: after) (hitems : readItems? inner = some items)
    : ∃ u, readValue? cs = some u ∧ u.value = .array items.value ∧ u.rest = items.rest := by
  rw [readValue?]
  split
  . next h =>
    rw [hcs] at h
    cases h
  . next other h =>
    rw [hcs] at h
    cases h
    split
    . next after he => exact absurd he (hopen after)
    . rw [hitems]
      exact ⟨_, rfl, rfl, rfl⟩
  . next h =>
    rw [hcs] at h
    cases h
  . next h _ => exact absurd hcs (h inner)

theorem readValue?_emptyObject {inner rest : List Char} (hcs : skipSpace cs = '\x7b' :: inner)
    (hclose : skipSpace inner = '\x7d' :: rest)
    : ∃ u, readValue? cs = some u ∧ u.value = .object [] ∧ u.rest = rest := by
  rw [readValue?]
  split
  . next h =>
    rw [hcs] at h
    cases h
  . next h =>
    rw [hcs] at h
    cases h
  . next other h =>
    rw [hcs] at h
    cases h
    split
    . next after he =>
      rw [hclose] at he
      cases he
      exact ⟨_, rfl, rfl, rfl⟩
    . next he => exact absurd hclose (he rest)
  . next h => exact absurd hcs (h inner)

/-! ### Lines -/

/--
The start of a line: its end before, and blanks.
-/
structure IsGap (gap : List Char) : Prop where
  newline : ∃ blanks, gap = '\n' :: blanks
  space : ∀ c ∈ gap, isSpace c

theorem isGap_indent (level : Nat) : IsGap (indent level).toList := by
  rw [indent, String.toList_ofList]
  refine ⟨⟨_, rfl⟩, fun c hc => ?_⟩
  rcases List.mem_cons.1 hc with rfl | hc
  . rfl
  . rw [List.eq_of_mem_replicate hc]
    rfl

theorem IsGap.endsNumber {gap : List Char} (h : IsGap gap) (rest : List Char) : EndsNumber (gap ++ rest) := by
  obtain ⟨blanks, rfl⟩ := h.newline
  intro c hc
  cases hc
  decide

theorem endsNumber_comma (rest : List Char) : EndsNumber (',' :: rest) := by
  intro c hc
  cases hc
  decide

variable {gap close : List Char} {vs : List Value} {fields : List (String × Value)} {texts : List (List Char)}

theorem Legible.skipSpace_eq {v : Value} {text : List Char} (h : Legible v text) (rest : List Char)
    : skipSpace (text ++ rest) = text ++ rest := by
  obtain ⟨c, cs, rfl, hspace, _⟩ := h.head
  exact skipSpace_cons hspace (cs ++ rest)

theorem skipSpace_lines (hgap : IsGap gap) {text : List Char} (htext : ∀ rest, skipSpace (text ++ rest) = text ++ rest)
    (texts : List (List Char)) (rest : List Char)
    : skipSpace (gap ++ (List.intercalate (',' :: gap) (text :: texts) ++ rest))
        =
      List.intercalate (',' :: gap) (text :: texts) ++ rest := by
  rw [skipSpace_append hgap.space]
  cases texts with
  | nil => rw [List.intercalate_singleton, htext]
  | cons text' texts' => rw [List.intercalate_cons_cons, List.append_assoc, List.append_assoc, htext]

theorem readItems?_lines (hgap : IsGap gap) (hclose : IsGap close) (h : List.Forall₂ Legible vs texts) (hne : vs ≠ [])
    (hcs : skipSpace cs = List.intercalate (',' :: gap) texts ++ (close ++ ']' :: behind))
    : ∃ u, readItems? cs = some u ∧ AreItems vs u.value ∧ u.rest = behind := by
  induction h generalizing cs with
  | nil => exact absurd rfl hne
  | @cons v text vs texts hv hs ih =>
    cases hs with
    | nil =>
      rw [List.intercalate_singleton] at hcs
      obtain ⟨first, hfirst, hdocument, hrest⟩ := hv.reads hcs (hclose.endsNumber _)
      have hend : skipSpace first.rest = ']' :: behind := by
        rw [hrest, skipSpace_append hclose.space, skipSpace_cons rfl]
      obtain ⟨u, hu, hvalue, hrest'⟩ := readItems?_last hfirst hend
      exact ⟨u, hu, hvalue ▸ .cons hdocument .nil, hrest'⟩
    | @cons v' text' vs' texts' hv' hs' =>
      rw [List.intercalate_cons_cons, List.append_assoc, List.append_assoc, List.cons_append] at hcs
      obtain ⟨first, hfirst, hdocument, hrest⟩ := hv.reads hcs (endsNumber_comma _)
      have hcomma := congrArg skipSpace hrest
      rw [skipSpace_cons rfl] at hcomma
      obtain ⟨items, hitems, hdocuments, hrest'⟩ := ih (by simp) (skipSpace_lines hgap hv'.skipSpace_eq texts' _)
      obtain ⟨u, hu, hvalue, hrest''⟩ := readItems?_cons hfirst hcomma hitems
      exact ⟨u, hu, hvalue ▸ .cons hdocument hdocuments, hrest''.trans hrest'⟩

/--
What is read of a member: its name, the colon and its value.
-/
theorem LegibleMember.reads {field : String × Value} {text after : List Char} (h : LegibleMember field text)
    (hcs : skipSpace cs = text ++ after) (hafter : EndsNumber after)
    : ∃ quoted colon, ∃ name : Taken quoted (List Piece), ∃ member : Taken colon Json,
        skipSpace cs = '"' :: quoted ∧ readString? quoted = some name ∧ text? name.value = some field.1 ∧
        skipSpace name.rest = ':' :: colon ∧ readValue? colon = some member ∧ IsDocument field.2 member.value ∧
        member.rest = after := by
  cases h with
  | @intro key v text hv =>
    simp only [List.cons_append, List.append_assoc] at hcs
    obtain ⟨name, hname, hkey, hnameRest⟩ := readString?_encoded key.toList (':' :: ' ' :: (text ++ after))
    have hblank : skipSpace (' ' :: (text ++ after)) = text ++ after := by
      rw [← List.singleton_append, skipSpace_append (by decide), hv.skipSpace_eq]
    obtain ⟨member, hmember, hdocument, hrest⟩ := hv.reads hblank hafter
    refine ⟨_, _, name, member, hcs, hname, ?_, ?_, hmember, hdocument, hrest⟩
    . rw [text?, hkey, Option.map_some, String.ofList_toList]
    . rw [hnameRest, skipSpace_cons rfl]

theorem LegibleMember.head {field : String × Value} {text : List Char} (h : LegibleMember field text)
    : ∃ rest, text = '"' :: rest := by
  cases h with
  | intro => exact ⟨_, rfl⟩

theorem LegibleMember.skipSpace_eq {field : String × Value} {text : List Char} (h : LegibleMember field text)
    (rest : List Char) : skipSpace (text ++ rest) = text ++ rest := by
  obtain ⟨cs, rfl⟩ := h.head
  exact skipSpace_cons rfl (cs ++ rest)

theorem readMembers?_lines (hgap : IsGap gap) (hclose : IsGap close) (h : List.Forall₂ LegibleMember fields texts)
    (hne : fields ≠ []) (hcs : skipSpace cs = List.intercalate (',' :: gap) texts ++ (close ++ '\x7d' :: behind))
    : ∃ u, readMembers? cs = some u ∧ AreMembers fields u.value ∧ u.rest = behind := by
  induction h generalizing cs with
  | nil => exact absurd rfl hne
  | @cons field text fields texts hfield hs ih =>
    cases hs with
    | nil =>
      rw [List.intercalate_singleton] at hcs
      obtain ⟨quoted, colon, name, member, hquoted, hname, hkey, hcolon, hmember, hdocument, hrest⟩ :=
        hfield.reads hcs (hclose.endsNumber _)
      have hend : skipSpace member.rest = '\x7d' :: behind := by
        rw [hrest, skipSpace_append hclose.space, skipSpace_cons rfl]
      obtain ⟨u, hu, hvalue, hrest'⟩ := readMembers?_last hquoted hname hcolon hmember hend
      exact ⟨u, hu, hvalue ▸ .cons hkey hdocument .nil, hrest'⟩
    | @cons field' text' fields' texts' hfield' hs' =>
      rw [List.intercalate_cons_cons, List.append_assoc, List.append_assoc, List.cons_append] at hcs
      obtain ⟨quoted, colon, name, member, hquoted, hname, hkey, hcolon, hmember, hdocument, hrest⟩ :=
        hfield.reads hcs (endsNumber_comma _)
      have hcomma := congrArg skipSpace hrest
      rw [skipSpace_cons rfl] at hcomma
      obtain ⟨members, hmembers, hdocuments, hrest'⟩ :=
        ih (by simp) (skipSpace_lines hgap hfield'.skipSpace_eq texts' _)
      obtain ⟨u, hu, hvalue, hrest''⟩ := readMembers?_cons hquoted hname hcolon hmember hcomma hmembers
      exact ⟨u, hu, hvalue ▸ .cons hkey hdocument hdocuments, hrest''.trans hrest'⟩

theorem toList_block (first last : String) (level : Nat) {parts : List String} (h : parts ≠ [])
    : (block first last level parts).toList
        =
      first.toList ++ ((indent (level + 1)).toList ++
        (List.intercalate (',' :: (indent (level + 1)).toList) (parts.map String.toList) ++
          ((indent level).toList ++ last.toList))) := by
  unfold block
  split
  . exact absurd rfl h
  . simp [String.toList_intercalate]

theorem toList_block_nil (first last : String) (level : Nat)
    : (block first last level []).toList = first.toList ++ last.toList := by
  simp [block]

theorem legible_array (level : Nat) {parts : List String} (h : List.Forall₂ Legible vs (parts.map String.toList))
    : Legible (.array vs) (block "[" "]" level parts).toList := by
  cases parts with
  | nil =>
    cases h
    rw [toList_block_nil]
    refine ⟨⟨_, _, rfl, rfl, by decide⟩, fun {cs behind} hcs _ => ?_⟩
    obtain ⟨u, hu, hvalue, hrest⟩ := readValue?_emptyArray hcs (skipSpace_cons rfl behind)
    exact ⟨u, hu, hvalue ▸ .array .nil, hrest⟩
  | cons part parts =>
    rw [toList_block "[" "]" level (by simp)]
    refine ⟨⟨_, _, rfl, rfl, by decide⟩, fun {cs behind} hcs _ => ?_⟩
    simp only [List.append_assoc] at hcs
    have hgap := isGap_indent (level + 1)
    let inner := (indent (level + 1)).toList ++
      (List.intercalate (',' :: (indent (level + 1)).toList) (part.toList :: parts.map String.toList) ++
        ((indent level).toList ++ ']' :: behind))
    have hcs : skipSpace cs = '[' :: inner := hcs
    cases h with
    | @cons v _ vs _ hv hs =>
      have hfirst := skipSpace_lines hgap hv.skipSpace_eq (parts.map String.toList) ((indent level).toList ++ ']' :: behind)
      obtain ⟨items, hitems, hdocuments, hrest⟩ := readItems?_lines hgap (isGap_indent level) (.cons hv hs) (by simp) hfirst
      have hopen (after : List Char) : skipSpace inner ≠ ']' :: after := by
        obtain ⟨c, rest, htext, _, hclose⟩ := hv.head
        rw [hfirst, htext, List.intercalate_cons_cons_left]
        exact fun hafter => hclose (List.cons.inj hafter).1
      obtain ⟨u, hu, hvalue, hrest'⟩ := readValue?_array hcs hopen hitems
      exact ⟨u, hu, hvalue ▸ .array hdocuments, hrest'.trans hrest⟩

theorem legible_object (level : Nat) {parts : List String} (h : List.Forall₂ LegibleMember fields (parts.map String.toList))
    : Legible (.object fields) (block "\x7b" "\x7d" level parts).toList := by
  cases parts with
  | nil =>
    cases h
    rw [toList_block_nil]
    refine ⟨⟨_, _, rfl, rfl, by decide⟩, fun {cs behind} hcs _ => ?_⟩
    obtain ⟨u, hu, hvalue, hrest⟩ := readValue?_emptyObject hcs (skipSpace_cons rfl behind)
    exact ⟨u, hu, hvalue ▸ .object .nil, hrest⟩
  | cons part parts =>
    rw [toList_block "\x7b" "\x7d" level (by simp)]
    refine ⟨⟨_, _, rfl, rfl, by decide⟩, fun {cs behind} hcs _ => ?_⟩
    simp only [List.append_assoc] at hcs
    have hgap := isGap_indent (level + 1)
    let inner := (indent (level + 1)).toList ++
      (List.intercalate (',' :: (indent (level + 1)).toList) (part.toList :: parts.map String.toList) ++
        ((indent level).toList ++ '\x7d' :: behind))
    have hcs : skipSpace cs = '\x7b' :: inner := hcs
    cases h with
    | @cons field _ fields _ hfield hs =>
      have hfirst :=
        skipSpace_lines hgap hfield.skipSpace_eq (parts.map String.toList) ((indent level).toList ++ '\x7d' :: behind)
      obtain ⟨members, hmembers, hdocuments, hrest⟩ :=
        readMembers?_lines hgap (isGap_indent level) (.cons hfield hs) (by simp) hfirst
      have hopen (after : List Char) : skipSpace inner ≠ '\x7d' :: after := by
        obtain ⟨rest, htext⟩ := hfield.head
        rw [hfirst, htext, List.intercalate_cons_cons_left]
        exact nofun
      obtain ⟨u, hu, hvalue, hrest'⟩ := readValue?_object hcs hopen hmembers
      exact ⟨u, hu, hvalue ▸ .object hdocuments, hrest'.trans hrest⟩

mutual

theorem legible_pretty : (v : Value) → (level : Nat) → Legible v (pretty level v).toList
  | .null, _ => by rw [pretty]; exact legible_null; all_goals nofun
  | .bool b, _ => by rw [pretty]; exact legible_bool b; all_goals nofun
  | .number n, _ => by rw [pretty]; exact legible_number n; all_goals nofun
  | .string s, _ => by rw [pretty]; exact legible_string s; all_goals nofun
  | .array items, level => by
    rw [pretty]
    exact legible_array level (legible_prettyItems items (level + 1))
  | .object fields, level => by
    rw [pretty]
    exact legible_object level (legible_prettyFields fields (level + 1))

theorem legible_prettyItems
    : (vs : List Value) → (level : Nat) → List.Forall₂ Legible vs ((prettyItems level vs).map String.toList)
  | [], _ => .nil
  | v :: vs, level => .cons (legible_pretty v level) (legible_prettyItems vs level)

theorem legible_prettyFields
    : (fields : List (String × Value)) → (level : Nat) →
        List.Forall₂ LegibleMember fields ((prettyFields level fields).map String.toList)
  | [], _ => .nil
  | (key, v) :: fields, level => by
    have htext : (encodeString key ++ ": " ++ pretty level v).toList
        = '"' :: (key.toList.flatMap encodeChar ++ '"' :: ':' :: ' ' :: (pretty level v).toList) := by
      simp [encodeString]
    rw [prettyFields, List.map_cons, htext]
    exact .cons (.intro (legible_pretty v level)) (legible_prettyFields fields level)

end

/--
Every value that is written is read back as a document of it.
-/
theorem read?_pretty (v : Value) (level : Nat) : ∃ json, read? (pretty level v) = some json ∧ IsDocument v json := by
  have hlegible := legible_pretty v level
  have htext := hlegible.skipSpace_eq []
  rw [List.append_nil] at htext
  obtain ⟨t, ht, hdocument, hrest⟩ := hlegible.reads (htext.trans (List.append_nil _).symm) nofun
  exact ⟨t.value, read?_eq_some rfl ht hrest, hdocument⟩

end Json
end VisualNovel
