/-!
# Pieces of text

A text falls into pieces at every occurrence of a mark.
-/

namespace Throttle.Text

/-- The pieces between marks: one more than there are marks, some of them perhaps empty. -/
def pieces (mark : Char) : List Char → List (List Char)
  | [] => [[]]
  | c :: rest =>
    match pieces mark rest with
    | [] => [[c]]
    | piece :: others =>
      if c = mark then [] :: piece :: others else (c :: piece) :: others

theorem pieces_ne_nil (mark : Char) (text : List Char) : pieces mark text ≠ [] := by
  cases text with
  | nil => simp [pieces]
  | cons c rest =>
    unfold pieces
    split
    · simp
    · split <;> simp

/-- Nothing but marks is lost. -/
theorem intercalate_pieces (mark : Char) (text : List Char) :
    [mark].intercalate (pieces mark text) = text := by
  induction text with
  | nil => rfl
  | cons c rest ih =>
    unfold pieces
    split
    · next h => exact absurd h (pieces_ne_nil mark rest)
    · next piece others h =>
      rw [h] at ih
      split
      · next hc => subst hc; simp [List.intercalate, List.intersperse] at ih ⊢; exact ih
      · cases others <;> simp_all [List.intercalate, List.intersperse]

end Throttle.Text
