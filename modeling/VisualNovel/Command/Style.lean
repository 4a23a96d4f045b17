/-!
This module contains the styles that text may have on a terminal. They are switched on and off by escape
sequences.
-/

namespace VisualNovel

structure Style where
  /-- The numbers of the style in an escape sequence, with semicolons between them. -/
  codes : String
  deriving DecidableEq, Repr

namespace Style

def bold : Style := ⟨"1"⟩

def dim : Style := ⟨"2"⟩

def red : Style := ⟨"31"⟩

def green : Style := ⟨"32"⟩

def yellow : Style := ⟨"33"⟩

def cyan : Style := ⟨"36"⟩

def boldRed : Style := ⟨"1;31"⟩

def boldYellow : Style := ⟨"1;33"⟩

def opening (style : Style) : String :=
  "\x1b[" ++ style.codes ++ "m"

/--
The end of every style.
-/
def closing : String := "\x1b[0m"

/--
The text in the style, if colours are shown. Where the text itself ends a style, this one starts again.
-/
def paint (style : Style) (coloured : Bool) (text : String) : String :=
  if coloured then
    style.opening ++ text.replace closing (closing ++ style.opening) ++ closing
  else
    text

@[simp]
theorem paint_false (style : Style) (text : String) : style.paint false text = text := by
  simp [paint]

/--
Whether colours are shown, given what the environment says about it, and whether the output is a terminal.
-/
def isWanted (force refusal permission : Option String) (isTerminal : Bool) : Bool :=
  if force.any (· != "0") then true
  else if refusal.isSome then false
  else permission != some "0" && isTerminal

end Style
end VisualNovel
