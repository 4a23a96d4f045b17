import VisualNovel.Taken

/-!
This module contains the quoted texts of TOML.
-/

namespace VisualNovel
namespace Toml

def isSpace (c : Char) : Bool :=
  c == ' ' || c == '\t'

/--
Control characters other than tabs are refused everywhere.
-/
def isControl (c : Char) : Bool :=
  c != '\t' && (c < ' ' || c == '\x7f')

def digitValue? (c : Char) : Option Nat :=
  if c.isDigit then some (c.toNat - '0'.toNat)
  else if 'a' ≤ c && c ≤ 'f' then some (c.toNat - 'a'.toNat + 10)
  else if 'A' ≤ c && c ≤ 'F' then some (c.toNat - 'A'.toNat + 10)
  else none

/-! ### Quoted texts -/

/--
The character of a code point that is written with a number of hexadecimal digits behind a letter.
-/
def readCodePoint? (letter : Char) (count : Nat) (n : Nat) (cs : List Char)
    : Option (Taken (letter :: cs) Char) :=
  match count, cs with
  | 0, _ =>
    if n < 0xd800 || (0xe000 ≤ n && n < 0x110000) then some (.first (Char.ofNat n)) else none
  | count + 1, c :: cs =>
    match digitValue? c with
    | some d => (readCodePoint? letter count (n * 16 + d) cs).map fun t => t.widen (Nat.le_succ _)
    | none => none
  | _ + 1, [] => none

/--
Reads an escape sequence after its backslash.
-/
def readEscape? : (cs : List Char) → Option (Taken cs Char)
  | 'x' :: cs => readCodePoint? 'x' 2 0 cs
  | 'u' :: cs => readCodePoint? 'u' 4 0 cs
  | 'U' :: cs => readCodePoint? 'U' 8 0 cs
  | c :: _ =>
    let meant :=
      if c = '"' || c = '\\' then some c
      else if c = 'b' then some '\x08'
      else if c = 't' then some '\t'
      else if c = 'n' then some '\n'
      else if c = 'f' then some '\x0c'
      else if c = 'r' then some '\r'
      else if c = 'e' then some '\x1b'
      else none
    meant.map .first
  | [] => none

/--
Reads a text on one line up to its closing quote. Between single quotes a backslash is nothing special.
-/
def readQuoted? (quote : Char) (cs : List Char) : Option (Taken cs (List Char)) :=
  match cs with
  | [] => none
  | c :: rest =>
    if c = quote then
      some (.first [])
    else if c = '\\' && quote = '"' then
      match readEscape? rest with
      | none => none
      | some escape =>
        have := escape.shorter
        (readQuoted? quote escape.rest).map fun t =>
          (escape.after (t.map (escape.value :: ·))).behind
    else if isControl c then
      none
    else
      (readQuoted? quote rest).map fun t => (t.map (c :: ·)).behind
termination_by cs.length
decreasing_by
  all_goals
    simp only [List.length_cons]
    omega

def dropBlankLines : List Char → List Char
  | [] => []
  | '\r' :: '\n' :: cs => dropBlankLines cs
  | c :: cs => if isSpace c || c == '\n' then dropBlankLines cs else c :: cs

theorem length_dropBlankLines_le (cs : List Char) : (dropBlankLines cs).length ≤ cs.length := by
  fun_induction dropBlankLines cs <;> simp_all <;> omega

/--
Does a backslash end its line, but for blanks?
-/
def endsLine : List Char → Bool
  | '\n' :: _ => true
  | '\r' :: '\n' :: _ => true
  | c :: cs => isSpace c && endsLine cs
  | [] => false

/--
Reads a text on several lines up to its three closing quotes. Up to two more quotes before these belong to
the text, and a backslash at the end of a line takes away the blanks that follow.
-/
def readLines? (quote : Char) (cs : List Char) : Option (Taken cs (List Char)) :=
  match cs with
  | [] => none
  | c :: rest =>
    let quotes := ((c :: rest).takeWhile (· == quote)).length
    if h : 3 ≤ quotes then
      let extra := min (quotes - 3) 2
      some {
        value := List.replicate extra quote
        rest := (c :: rest).drop (extra + 3)
        shorter := by
          have : quotes ≤ (c :: rest).length := (List.takeWhile_sublist _).length_le
          simp only [List.length_drop]
          omega
      }
    else if c = '\\' && quote = '"' then
      if endsLine rest then
        (readLines? quote (dropBlankLines rest)).map fun t =>
          (t.widen (length_dropBlankLines_le rest)).behind
      else
        match readEscape? rest with
        | none => none
        | some escape =>
          have := escape.shorter
          (readLines? quote escape.rest).map fun t =>
            (escape.after (t.map (escape.value :: ·))).behind
    else if c = '\n' || (c = '\r' && rest.head? = some '\n') || !isControl c then
      (readLines? quote rest).map fun t => (t.map (c :: ·)).behind
    else
      none
termination_by cs.length
decreasing_by
  all_goals
    have := length_dropBlankLines_le rest
    simp only [List.length_cons]
    omega

/--
A line break right after the opening quotes does not belong to the text.
-/
def dropLineBreak : List Char → List Char
  | '\n' :: cs => cs
  | '\r' :: '\n' :: cs => cs
  | cs => cs

theorem length_dropLineBreak_le (cs : List Char) : (dropLineBreak cs).length ≤ cs.length := by
  unfold dropLineBreak
  split <;> simp
  omega

end Toml
end VisualNovel
