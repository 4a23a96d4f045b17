import VisualNovel.Binary64.Decimal
import VisualNovel.Text.Quoted

/-!
This module contains the tokens of expressions.
-/

namespace VisualNovel

inductive Punct where
  | strictEq | strictNe | eq | ne | le | ge | and | or | addAssign | subAssign | mulAssign | divAssign
  | plus | minus | star | slash | percent | less | greater | bang | assign | question | colon | dot
  | comma | semicolon | leftParen | rightParen | leftBracket | rightBracket | leftBrace | rightBrace
  deriving DecidableEq, Repr

namespace Punct

def text : Punct → String
  | .strictEq => "==="
  | .strictNe => "!=="
  | .eq => "=="
  | .ne => "!="
  | .le => "<="
  | .ge => ">="
  | .and => "&&"
  | .or => "||"
  | .addAssign => "+="
  | .subAssign => "-="
  | .mulAssign => "*="
  | .divAssign => "/="
  | .plus => "+"
  | .minus => "-"
  | .star => "*"
  | .slash => "/"
  | .percent => "%"
  | .less => "<"
  | .greater => ">"
  | .bang => "!"
  | .assign => "="
  | .question => "?"
  | .colon => ":"
  | .dot => "."
  | .comma => ","
  | .semicolon => ";"
  | .leftParen => "("
  | .rightParen => ")"
  | .leftBracket => "["
  | .rightBracket => "]"
  | .leftBrace => "\x7b"
  | .rightBrace => "\x7d"

/--
All punctuators, the longer ones first, so that the first one that a text starts with is the longest.
-/
def all : List Punct := [
  .strictEq, .strictNe, .eq, .ne, .le, .ge, .and, .or, .addAssign, .subAssign, .mulAssign, .divAssign,
  .plus, .minus, .star, .slash, .percent, .less, .greater, .bang, .assign, .question, .colon, .dot,
  .comma, .semicolon, .leftParen, .rightParen, .leftBracket, .rightBracket, .leftBrace, .rightBrace
]

theorem mem_all (p : Punct) : p ∈ all := by
  cases p <;> decide

end Punct

inductive TokenKind where
  | number (x : Binary64)
  | string (s : String)
  | name (s : String)
  | punct (p : Punct)
  deriving DecidableEq, Repr

/--
A token, and whether a line break separates it from the one before it.
-/
structure Token where
  kind : TokenKind
  newlineBefore : Bool
  deriving DecidableEq, Repr

namespace TokenKind

/--
Numbers in error messages are written without an exponent from `1e-4` to below `1e16`.
-/
def numberLayout : Binary64.Layout :=
  { tie := .up, minPlain := -4, maxPlain := 15, plus := false }

/--
The token as error messages show it.
-/
def describe : TokenKind → String
  | .number x => "Number(" ++ x.render numberLayout ++ ")"
  | .string s => "Str(" ++ Text.quote s ++ ")"
  | .name s => "Ident(" ++ Text.quote s ++ ")"
  | .punct p => "Punct(" ++ Text.quote p.text ++ ")"

end TokenKind
end VisualNovel
