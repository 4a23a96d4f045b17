import VisualNovel.Expr.Error
import VisualNovel.Taken
import VisualNovel.Text.Blank
import VisualNovel.Text.Letter

/-!
This module contains the division of an expression into tokens. Every token takes at least one character,
so the rest of the text gets shorter.
-/

namespace VisualNovel
namespace Expr

/--
The rest of a number literal: digits, points, one letter `e`, and a sign right behind it. The literal may
still spell no number.
-/
def scanNumber (previous : Char) (seenExponent : Bool) : List Char → List Char × List Char
  | [] => ([], [])
  | d :: ds =>
    let signed := (d == '+' || d == '-') && (previous == 'e' || previous == 'E')
    if d.isDigit || d == '.' || signed then
      (scanNumber d seenExponent ds).map (d :: ·) id
    else if (d == 'e' || d == 'E') && !seenExponent then
      (scanNumber d true ds).map (d :: ·) id
    else
      ([], d :: ds)

theorem scanNumber_length_le (previous : Char) (seen : Bool) (cs : List Char)
    : (scanNumber previous seen cs).2.length ≤ cs.length := by
  induction cs generalizing previous seen with
  | nil => simp [scanNumber]
  | cons d ds ih =>
    simp only [scanNumber]
    split
    . exact Nat.le_succ_of_le (ih d seen)
    . split
      . exact Nat.le_succ_of_le (ih d true)
      . exact Nat.le_refl _

def isNameStart (c : Char) : Bool :=
  Text.isAlphabetic c || c == '_' || c == '$'

def isNamePart (c : Char) : Bool :=
  Text.isAlphanumeric c || c == '_' || c == '$'

def hexDigit? (c : Char) : Option Nat :=
  if c.isDigit then some (c.toNat - '0'.toNat)
  else if 'a' ≤ c && c ≤ 'f' then some (c.toNat - 'a'.toNat + 10)
  else if 'A' ≤ c && c ≤ 'F' then some (c.toNat - 'A'.toNat + 10)
  else none

/--
The number spelled by hexadecimal digits after an optional plus sign.
-/
def readHex? (code : List Char) : Option Nat :=
  let digits :=
    match code with
    | '+' :: ds => ds
    | ds => ds
  if digits.isEmpty then
    none
  else
    digits.foldlM (fun n d => (hexDigit? d).map (n * 16 + ·)) 0

/--
The character that a code names. Surrogates are no characters.
-/
def readCode? (code : List Char) : Option Char :=
  (readHex? code).bind fun n => if h : n.isValidChar then some (Char.ofNatAux n h) else none

/--
What a single character after a backslash stands for.
-/
def unescape (c : Char) : Char :=
  if c = 'n' then '\n'
  else if c = 't' then '\t'
  else if c = 'r' then '\r'
  else if c = '0' then '\x00'
  else c

/--
Reads the rest of a string literal, after its opening quote. The four characters after `\u` are a code,
whatever they are.
-/
def readString (quote : Char) (cs : List Char) : Except Fault (Taken cs (List Char)) :=
  match cs with
  | [] => .error .unterminatedString
  | c :: rest =>
    if c = quote then
      .ok (.first [])
    else if c = '\\' then
      match rest with
      | [] => .error .unterminatedString
      | 'u' :: rest =>
        let code := rest.take 4
        match readCode? code with
        | none => .error (.badSyntax (.badEscape (String.ofList code)))
        | some c => do
          let t ← readString quote (rest.drop 4)
          return ((t.map (c :: ·)).widen (List.drop_sublist 4 rest).length_le).behind.behind
      | e :: rest => do
        let t ← readString quote rest
        return (t.map (unescape e :: ·)).behind.behind
    else do
      let t ← readString quote rest
      return (t.map (c :: ·)).behind
termination_by cs.length
decreasing_by
  all_goals
    simp only [List.length_cons, List.length_drop]
    omega

def stripText? : List Char → List Char → Option (List Char)
  | [], cs => some cs
  | t :: ts, c :: cs => if t = c then stripText? ts cs else none
  | _ :: _, [] => none

/--
The longest punctuator that a text starts with.
-/
def punct? (cs : List Char) : Option (Punct × List Char) :=
  Punct.all.findSome? fun p => (stripText? p.text.toList cs).map (p, ·)

def utf8Length (cs : List Char) : Nat :=
  cs.foldr (fun c n => c.utf8Size + n) 0

/--
Does a number start here: with a digit, or with a point before a digit?
-/
def startsNumber : List Char → Bool
  | '.' :: d :: _ => d.isDigit
  | d :: _ => d.isDigit
  | [] => false

/--
Reads one token, from a character that is not blank.
-/
def readToken (c : Char) (rest : List Char) : Except Fault (Taken (c :: rest) TokenKind) :=
  if startsNumber (c :: rest) then
    have := scanNumber_length_le c false rest
    let literal := c :: (scanNumber c false rest).1
    match Binary64.read? literal with
    | none => .error (.badSyntax (.badNumber (String.ofList literal)))
    | some x => .ok {
        value := .number x
        rest := (scanNumber c false rest).2
        shorter := Nat.lt_succ_of_le this
      }
  else if c = '"' || c = '\'' then do
    let t ← readString c rest
    return (t.map fun s => .string (String.ofList s)).behind
  else if isNameStart c then
    .ok ((Taken.span isNamePart c rest).map fun cs => .name (String.ofList cs))
  else
    match punct? (c :: rest) with
    | some (p, rest') =>
      if h : rest'.length < (c :: rest).length then
        .ok { value := .punct p, rest := rest', shorter := h }
      else
        .error (.unexpectedChar c (utf8Length (c :: rest)))
    | none => .error (.unexpectedChar c (utf8Length (c :: rest)))

/--
The tokens of a text. `newline` tells whether a line break has been passed since the last token.
-/
def tokenize (newline : Bool) (cs : List Char) : Except Fault (List Token) :=
  match cs with
  | [] => .ok []
  | c :: rest =>
    if c = '\n' then
      tokenize true rest
    else if Text.isBlank c then
      tokenize newline rest
    else
      match readToken c rest with
      | .error e => .error e
      | .ok t => do
        have := t.shorter
        let tokens ← tokenize false t.rest
        return { kind := t.value, newlineBefore := newline } :: tokens
termination_by cs.length
decreasing_by
  all_goals
    simp only [List.length_cons] at *
    omega

end Expr
end VisualNovel
