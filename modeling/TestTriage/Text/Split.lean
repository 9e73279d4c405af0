/-!
# Splitting at separators

There is one piece more than there are separators, and joining the pieces gives the text back.
-/

namespace TestTriage.Text

/-- The pieces of a list between separators. -/
def split [DecidableEq α] (separator : α) : List α → List (List α)
  | [] => [[]]
  | x :: xs =>
    if x = separator then [] :: split separator xs
    else match split separator xs with
      | [] => [[x]]
      | piece :: pieces => (x :: piece) :: pieces

end TestTriage.Text
