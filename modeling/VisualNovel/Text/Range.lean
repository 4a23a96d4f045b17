/-!
This module contains membership in a table of code points.
-/

namespace VisualNovel
namespace Text

/--
Is the character in one of the ranges? They are in ascending order, so the search ends at the first one
that starts behind it.
-/
def inRanges (c : Char) : List (Nat × Nat) → Bool
  | [] => false
  | (first, last) :: rest => first ≤ c.toNat && (c.toNat ≤ last || inRanges c rest)

end Text
end VisualNovel
