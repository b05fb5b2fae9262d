import Mathlib.Data.List.Basic

/-! Patterns that stand at the head of a line, behind nothing but space. -/
namespace LineSearch

variable {α β : Type*} (space newline : α → Bool)

/-- Whether there is nothing but space since a line began, behind one more character. -/
def headAfter (atHead : Bool) (c : α) : Bool := space c && (atHead || newline c)

/-- The matches of `^\s*` and a pattern that begins with no space, where none hides another. -/
def lineMatches (pattern : List α → Option β) : Bool → List α → List β
  | _, [] => []
  | atHead, c :: rest =>
    (if atHead && !space c then (pattern (c :: rest)).toList else []) ++
      lineMatches pattern (headAfter space newline atHead c) rest

variable {space newline}

end LineSearch
