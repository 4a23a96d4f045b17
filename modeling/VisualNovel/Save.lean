import VisualNovel.Value.Basic

/-!
This module contains saves: the point at which a game goes on, and the game variables.
-/

namespace VisualNovel

structure Save where
  file : String
  mark : String
  game : Fields := []
  deriving Repr

end VisualNovel
