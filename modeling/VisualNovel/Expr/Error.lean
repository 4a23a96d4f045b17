import VisualNovel.Expr.Token
import VisualNovel.Value.Coercion
import VisualNovel.Value.Path

/-!
This module contains what can go wrong with an expression, and the messages about it.
-/

namespace VisualNovel
namespace Expr

/--
Why tokens do not form an expression.
-/
inductive SyntaxFault where
  | badNumber (literal : String)
  | badEscape (code : String)
  | unexpectedToken (kind : TokenKind)
  | unexpectedPunct (p : Punct)
  | expected (p : Punct)
  | expectedProperty
  | expectedKey
  | unexpectedEnd
  deriving Repr

/--
Why an expression has no value. The position of an unexpected character is given by the number of bytes
from it to the end.
-/
inductive Fault where
  | unexpectedChar (c : Char) (bytesLeft : Nat)
  | unterminatedString
  | badSyntax (fault : SyntaxFault)
  | undefined (name : String)
  | noVariables
  | noParameters
  | invalidTarget
  | notFinite (x : Binary64)
  | badWrite (fault : Value.WriteFault)
  deriving Repr

/--
A fault of an expression, together with the text of the whole expression.
-/
structure Error where
  fault : Fault
  source : String
  deriving Repr

def SyntaxFault.message : SyntaxFault → String
  | .badNumber text => "invalid number literal '" ++ text ++ "'"
  | .badEscape code => "invalid unicode escape '\\u" ++ code ++ "'"
  | .unexpectedToken kind => "unexpected token " ++ kind.describe
  | .unexpectedPunct p => "unexpected '" ++ p.text ++ "'"
  | .expected p => "expected '" ++ p.text ++ "'"
  | .expectedProperty => "expected a property name after '.'"
  | .expectedKey => "expected an object key"
  | .unexpectedEnd => "unexpected end of expression"

end Expr

def Value.WriteFault.message : Value.WriteFault → String
  | .undefinedParent key => "cannot set property '" ++ key ++ "' of undefined"
  | .badIndex key => "invalid array index '" ++ key ++ "'"
  | .outOfRange i => "array index " ++ toString i ++ " out of range"
  | .notAContainer key value => "cannot set property '" ++ key ++ "' of " ++ value.display

namespace Expr

def Error.message (e : Error) : String :=
  match e.fault with
  | .unexpectedChar c bytesLeft =>
    "Unexpected character '" ++ c.toString ++ "' at offset " ++
      toString (e.source.utf8ByteSize - bytesLeft) ++ " in expression '" ++ e.source ++ "'"
  | .unterminatedString => "Unterminated string literal in expression '" ++ e.source ++ "'"
  | .badSyntax fault => "Syntax error in expression '" ++ e.source ++ "': " ++ fault.message
  | .undefined identifier => "'" ++ identifier ++ "' is not defined"
  | .noVariables => "Variables are not available while evaluating '" ++ e.source ++ "'"
  | .noParameters => "'mp' is only available inside a macro"
  | .invalidTarget => "Invalid assignment target in '" ++ e.source ++ "'"
  | .notFinite x =>
    "Type error: " ++ x.render TokenKind.numberLayout ++ " is not a finite number"
  | .badWrite fault => "Type error: " ++ fault.message

end Expr
end VisualNovel
