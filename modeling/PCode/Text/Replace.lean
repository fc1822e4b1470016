/-!
Plain text search and replacement. Patterns are not empty.
-/

namespace PCode.Text

def occurs (pattern : List Char) : List Char → Bool
  | [] => pattern.isEmpty
  | c :: cs => pattern.isPrefixOf (c :: cs) || occurs pattern cs

/-- Replaces the pattern wherever it stands, from the left and without overlap. -/
def replace (pattern replacement : List Char) : List Char → List Char
  | [] => []
  | c :: cs =>
    if pattern.isPrefixOf (c :: cs) then
      replacement ++ replace pattern replacement (cs.drop (pattern.length - 1))
    else c :: replace pattern replacement cs
termination_by cs => cs.length
decreasing_by
  · rw [List.length_drop, List.length_cons]
    omega
  · exact Nat.lt_succ_self _

end PCode.Text
