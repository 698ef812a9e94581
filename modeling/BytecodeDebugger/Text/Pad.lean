/-!
# Columns

Listings align their columns with spaces. A column has a least width, counted in characters; a text
that is longer than its column is kept whole.

Main facts: `length_padLeft` and `length_padRight` (a column is as wide as asked, or as its text).
-/

namespace BytecodeDebugger.Text

/-- The text moved to the right end of a column of the given least width. -/
def padLeft (width : Nat) (text : String) : String :=
  String.ofList (List.replicate (width - text.length) ' ') ++ text

/-- The text at the left end of a column of the given least width. -/
def padRight (width : Nat) (text : String) : String :=
  text ++ String.ofList (List.replicate (width - text.length) ' ')

/-- The decimal digits of a number, with leading zeros up to the given least width. -/
def zeroPad (width n : Nat) : String :=
  String.ofList (List.replicate (width - (toString n).length) '0') ++ toString n

theorem length_padLeft (width : Nat) (text : String) :
    (padLeft width text).length = max width text.length := by
  simp [padLeft]
  omega

theorem length_padRight (width : Nat) (text : String) :
    (padRight width text).length = max width text.length := by
  simp [padRight]
  omega

end BytecodeDebugger.Text
