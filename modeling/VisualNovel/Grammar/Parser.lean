import VisualNovel.Grammar.Bracket
import VisualNovel.Grammar.Line

/-!
This module contains the parser of scripts, for either grammar.
-/

namespace VisualNovel
namespace Grammar

def reader : Grammar → Reader
  | .line => Line.read
  | .bracket => Bracket.read

/--
The tags of a script.
-/
def parse (grammar : Grammar) (source : String) : Except ParseError (List Tag) :=
  readSource grammar.reader source

end Grammar
end VisualNovel
