/-!
This module contains the result of a reader that takes something from the front of a list: what it read,
and the rest of the list, which is shorter. Readers that call each other terminate by the second part.
-/

namespace VisualNovel

structure Taken {σ : Type} (input : List σ) (α : Type) where
  value : α
  rest : List σ
  shorter : rest.length < input.length

namespace Taken

variable {σ α β : Type} {input longer : List σ}

def map (f : α → β) (t : Taken input α) : Taken input β :=
  { value := f t.value, rest := t.rest, shorter := t.shorter }

/--
A reading from a list is a reading from any longer list that it starts in.
-/
def widen (t : Taken input α) (h : input.length ≤ longer.length) : Taken longer α :=
  { value := t.value, rest := t.rest, shorter := Nat.lt_of_lt_of_le t.shorter h }

/--
A reading from a shorter list, which is what is left of a longer one.
-/
def within (t : Taken input α) (h : input.length < longer.length) : Taken longer α :=
  t.widen (Nat.le_of_lt h)

variable {a : σ}

/--
A reading behind an element is a reading from that element on.
-/
def behind (t : Taken input α) : Taken (a :: input) α :=
  t.widen (Nat.le_succ _)

/--
A reading behind another one is a reading from where that one starts.
-/
def after (t : Taken input β) (u : Taken t.rest α) : Taken input α :=
  u.within t.shorter

/--
A reading of the first element alone.
-/
def first (value : α) : Taken (a :: input) α :=
  { value, rest := input, shorter := Nat.lt_succ_self _ }

/--
A reading of the first element and of those behind it, as long as they satisfy a predicate.
-/
def span (p : σ → Bool) (a : σ) (input : List σ) : Taken (a :: input) (List σ) := {
  value := a :: input.takeWhile p
  rest := input.dropWhile p
  shorter := Nat.lt_succ_of_le (List.dropWhile_sublist p).length_le
}

theorem length_le_of_eq {start rest : List σ} (h : start = rest)
    (hle : start.length ≤ input.length) : rest.length ≤ input.length :=
  h ▸ hle

theorem length_lt_of_eq_cons {start rest : List σ} (h : start = a :: rest)
    (hle : start.length ≤ input.length) : rest.length < input.length :=
  length_le_of_eq h hle

end Taken
end VisualNovel
