/-!
# Lines

A line of bytes ends with a line feed, which belongs to it; only the last line may lack one.
-/

namespace Throttle.Text

/-- The byte that ends a line. -/
def lineFeed : UInt8 := 10

/-- The lines of some bytes. -/
def lines : List UInt8 → List (List UInt8)
  | [] => []
  | byte :: rest =>
    if byte = lineFeed then [byte] :: lines rest
    else match lines rest with
      | [] => [[byte]]
      | line :: others => (byte :: line) :: others

/-- No byte is lost. -/
theorem flatten_lines (bytes : List UInt8) : (lines bytes).flatten = bytes := by
  induction bytes with
  | nil => rfl
  | cons byte rest ih =>
    unfold lines
    split
    · simp [ih]
    · generalize lines rest = others at ih
      subst ih
      cases others <;> rfl

end Throttle.Text
