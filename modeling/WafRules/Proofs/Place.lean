import Mathlib.Data.List.Induction
import WafRules.Position

/-!
# Places in a text

A place is reached character by character.  Here it is described by the text before it: the
line feeds in that text, and the characters behind the last of them.

## Main Definitions

* `Position.placeAfter` — the place behind a stretch of text, counted.

## Main Statements

* `Position.advance_start` — reading on from the first place of a text leads there.
-/

namespace WafRules

namespace Position

/-- The place behind a stretch of text that begins at the first place: its line is one more than
the number of line feeds in the stretch, its column one more than the number of characters
behind the last of them. -/
def placeAfter (label : String) (before : List Char) : Position where
  file := (start label).file
  line := 1 + before.count '\n'
  column := 1 + (before.reverse.takeWhile (· ≠ '\n')).length

theorem advance_concat (p : Position) (cs : List Char) (c : Char) :
    p.advance (cs ++ [c]) = (p.advance cs).next c := p.advance_append cs [c]

/-- The **place that reading on leads to.**  By induction on the text from its end, because a
line feed forgets the column reached before it. -/
theorem advance_start (label : String) (before : List Char) :
    (start label).advance before = placeAfter label before := by
  induction before using List.reverseRecOn with
  | nil => rfl
  | append_singleton before c ih =>
    rw [advance_concat, ih]
    unfold next placeAfter
    rw [List.reverse_append, List.reverse_singleton, List.singleton_append, List.count_append]
    by_cases lineFeed : c = '\n'
    · subst lineFeed
      rfl
    · rw [if_neg lineFeed, List.takeWhile_cons_of_pos (by simp [lineFeed]),
        List.count_singleton, List.length_cons]
      simp [lineFeed, Nat.add_assoc]

end Position

end WafRules
