import LetLang.Token

/-!
# Unique names

Each name that is asked for is given as it is if it is still free; otherwise a point and a number
are put behind it, where the numbers count up for each name asked for and skip what is taken
(`Names.fresh`). The empty name is never given. The absence of a name is treated as a name like any
other: it can be given once, and after that is asked for under the word that shows it.
-/

set_option autoImplicit false

namespace LetLang

/-- The names taken so far, and the last number used for each name that was asked for again. -/
structure Names where
  taken : List Lexeme := [some ""]
  counters : List (Lexeme × Nat) := []

namespace Names

/-- The last number used for a name. -/
def counter (names : Names) (base : Lexeme) : Nat := (names.counters.lookup base).getD 0

/-- A name with a number behind it. -/
def numbered (base : Lexeme) (number : Nat) : Lexeme :=
  some (base.shown ++ "." ++ toString number)

/-- The number that makes a name free, searched upwards from after `last` in at most the given
number of tries. -/
def freeNumber (taken : List Lexeme) (base : Lexeme) : Nat → Nat → Nat
  | 0, last => last + 1
  | tries + 1, last =>
    if taken.contains (numbered base (last + 1)) then freeNumber taken base tries (last + 1)
    else last + 1

/-- A name that is still free, made from the one asked for, and the names taken afterwards. -/
def fresh (names : Names) (base : Lexeme) : Lexeme × Names :=
  if names.taken.contains base then
    let number := freeNumber names.taken base names.taken.length (names.counter base)
    let name := numbered base number
    (name, ⟨name :: names.taken, (base, number) :: names.counters.filter (·.1 != base)⟩)
  else (base, { names with taken := base :: names.taken })

end Names

end LetLang
