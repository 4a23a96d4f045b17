import VisualNovel.Json.Basic
import VisualNovel.Taken

/-!
This module contains the reader of JSON documents. Each function takes one construct from the front of a
text; lists of items and members call back the reader of documents on what is left, which is shorter.
-/

namespace VisualNovel
namespace Json

def isSpace (c : Char) : Bool :=
  c == ' ' || c == '\n' || c == '\t' || c == '\r'

def skipSpace (cs : List Char) : List Char :=
  cs.dropWhile isSpace

theorem length_skipSpace_le (cs : List Char) : (skipSpace cs).length ≤ cs.length :=
  (List.dropWhile_sublist isSpace).length_le

def hexValue? (c : Char) : Option Nat :=
  if c.isDigit then some (c.toNat - '0'.toNat)
  else if 'a' ≤ c && c ≤ 'f' then some (c.toNat - 'a'.toNat + 10)
  else if 'A' ≤ c && c ≤ 'F' then some (c.toNat - 'A'.toNat + 10)
  else none

def unit? (a b c d : Char) : Option Nat := do
  return (((← hexValue? a) * 16 + (← hexValue? b)) * 16 + (← hexValue? c)) * 16 + (← hexValue? d)

/--
What a single letter after a backslash stands for.
-/
def escape? (c : Char) : Option Char :=
  if c = '"' || c = '\\' || c = '/' then some c
  else if c = 'b' then some '\x08'
  else if c = 'f' then some '\x0c'
  else if c = 'n' then some '\n'
  else if c = 'r' then some '\r'
  else if c = 't' then some '\t'
  else none

/--
Reads the rest of a text, after its opening quote.
-/
def readString? : (cs : List Char) → Option (Taken cs (List Piece))
  | [] => none
  | '"' :: cs => some { value := [], rest := cs, shorter := by simp }
  | '\\' :: 'u' :: a :: b :: c :: d :: cs =>
    match unit? a b c d, readString? cs with
    | some n, some t => some ((t.map (.unit n :: ·)).widen (by simp; omega))
    | _, _ => none
  | '\\' :: e :: cs =>
    match escape? e, readString? cs with
    | some c, some t => some ((t.map (.char c :: ·)).widen (by simp; omega))
    | _, _ => none
  | c :: cs =>
    if c < ' ' || c = '\\' then
      none
    else
      (readString? cs).map fun t => (t.map (.char c :: ·)).widen (by simp)

/--
Takes the sign of a negative number, if there is one.
-/
def splitMinus : List Char → Bool × List Char
  | '-' :: cs => (true, cs)
  | cs => (false, cs)

/--
Takes the sign of an exponent, if there is one. Is it negative?
-/
def splitSign : List Char → Bool × List Char
  | '-' :: cs => (true, cs)
  | '+' :: cs => (false, cs)
  | cs => (false, cs)

/--
Takes a point and the digits behind it, if there is a point.
-/
def readFraction? : List Char → Option (List Char × List Char)
  | '.' :: cs =>
    let (fraction, cs) := Text.splitDigits cs
    if fraction.isEmpty then none else some (fraction, cs)
  | cs => some ([], cs)

/--
Takes the sign and the digits of an exponent, if there is one.
-/
def readExponent? : List Char → Option (Option (Bool × List Char) × List Char)
  | e :: cs =>
    if e = 'e' || e = 'E' then
      let (negative, cs) := splitSign cs
      let (exponent, cs) := Text.splitDigits cs
      if exponent.isEmpty then none else some (some (negative, exponent), cs)
    else
      some (none, e :: cs)
  | [] => some (none, [])

/--
Reads a number: no leading zeros, and digits on either side of a point and in an exponent.
-/
def readNumeral? (cs : List Char) : Option (Numeral × List Char) := do
  let (negative, cs) := splitMinus cs
  let (digits, cs) := Text.splitDigits cs
  guard (!digits.isEmpty && (digits.head? != some '0' || digits.length == 1))
  let (fraction, cs) ← readFraction? cs
  let (exponent, cs) ← readExponent? cs
  return ({ negative, digits, fraction, exponent }, cs)

/--
Reads a word or a number, all that is neither a text nor in brackets.
-/
def readAtom? : (cs : List Char) → Option (Json × List Char)
  | 'n' :: 'u' :: 'l' :: 'l' :: cs => some (.null, cs)
  | 't' :: 'r' :: 'u' :: 'e' :: cs => some (.bool true, cs)
  | 'f' :: 'a' :: 'l' :: 's' :: 'e' :: cs => some (.bool false, cs)
  | cs => (readNumeral? cs).map fun (n, rest) => (.number n, rest)

mutual

def readValue? (cs : List Char) : Option (Taken cs Json) :=
  have hle := length_skipSpace_le cs
  match h : skipSpace cs with
  | '"' :: rest =>
    (readString? rest).map fun t =>
      (t.map .string).widen (by rw [h] at hle; simp at hle; omega)
  | '[' :: rest =>
    have hrest : rest.length < cs.length := by rw [h] at hle; simp at hle; omega
    match he : skipSpace rest with
    | ']' :: after =>
      have := length_skipSpace_le rest
      some { value := .array [], rest := after, shorter := by rw [he] at this; simp at this; omega }
    | _ => (readItems? rest).map fun t => (t.map .array).widen (by omega)
  | '{' :: rest =>
    have hrest : rest.length < cs.length := by rw [h] at hle; simp at hle; omega
    match he : skipSpace rest with
    | '}' :: after =>
      have := length_skipSpace_le rest
      some { value := .object [], rest := after, shorter := by rw [he] at this; simp at this; omega }
    | _ => (readMembers? rest).map fun t => (t.map .object).widen (by omega)
  | atom =>
    match readAtom? atom with
    | some (value, rest) =>
      if hlt : rest.length < atom.length then
        some { value, rest, shorter := by rw [h] at hle; omega }
      else
        none
    | none => none
termination_by (cs.length, 0)

/--
Reads the items of an array and its closing bracket. There is at least one item.
-/
def readItems? (cs : List Char) : Option (Taken cs (List Json)) :=
  match readValue? cs with
  | none => none
  | some first =>
    have hle := length_skipSpace_le first.rest
    have hlt := first.shorter
    match h : skipSpace first.rest with
    | ',' :: rest =>
      have hrest : rest.length < cs.length := by rw [h] at hle; simp at hle; omega
      (readItems? rest).map fun t => (t.map (first.value :: ·)).widen (by omega)
    | ']' :: rest =>
      some { value := [first.value], rest, shorter := by rw [h] at hle; simp at hle; omega }
    | _ => none
termination_by (cs.length, 1)

/--
Reads the members of an object and its closing brace. There is at least one member.
-/
def readMembers? (cs : List Char) : Option (Taken cs (List (List Piece × Json))) :=
  have hle := length_skipSpace_le cs
  match h : skipSpace cs with
  | '"' :: afterQuote =>
    match readString? afterQuote with
    | none => none
    | some name =>
      have hname := name.shorter
      have hcolon := length_skipSpace_le name.rest
      match h' : skipSpace name.rest with
      | ':' :: afterColon =>
        have hafter : afterColon.length < cs.length := by
          rw [h] at hle; rw [h'] at hcolon; simp at hle hcolon; omega
        match readValue? afterColon with
        | none => none
        | some member =>
          have hmember := member.shorter
          have hend := length_skipSpace_le member.rest
          match h'' : skipSpace member.rest with
          | ',' :: rest =>
            have hrest : rest.length < cs.length := by rw [h''] at hend; simp at hend; omega
            (readMembers? rest).map fun t =>
              (t.map ((name.value, member.value) :: ·)).widen (by omega)
          | '}' :: rest =>
            some {
              value := [(name.value, member.value)]
              rest
              shorter := by rw [h''] at hend; simp at hend; omega
            }
          | _ => none
      | _ => none
  | _ => none
termination_by (cs.length, 1)

end

/--
Reads a whole text as one document.
-/
def read? (text : String) : Option Json :=
  match readValue? text.toList with
  | some t => if (skipSpace t.rest).isEmpty then some t.value else none
  | none => none

/--
Reads a whole text as a value.
-/
def readWhole? (text : String) : Option Value :=
  (read? text).bind (toValue? maxDepth)

end Json
end VisualNovel
