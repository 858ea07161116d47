import Mathlib.Data.List.Basic

/-! # Lines

The lines of a sequence are its pieces between separators.  A last piece need not have an end, but
it only counts as a line when it holds anything.  So a sequence that is empty or ends in a separator
can be taken apart from whatever follows it.
-/

namespace SensorBar.Text

variable {β : Type} [BEq β] {feed : β}

/-- The pieces that end at a separator, and what comes after the last one unless it is empty. -/
def lines (feed : β) (xs : List β) : List (List β) :=
  (xs.splitOn feed).dropLast ++ (xs.splitOn feed).getLast?.toList.filter (!·.isEmpty)

@[simp] theorem lines_nil : lines feed [] = [] := by
  simp [lines]

variable [LawfulBEq β]

theorem lines_cons {line : List β} (whole : feed ∉ line) (rest : List β) :
    lines feed (line ++ feed :: rest) = line :: lines feed rest := by
  have hrest := List.splitOn_ne_nil feed rest
  rw [lines, List.splitOn_append_cons_self_of_not_mem whole, List.dropLast_cons_of_ne_nil hrest,
    List.getLast?_cons_of_ne_nil hrest]
  rfl

/-- A last line without an end. -/
theorem lines_of_not_mem {line : List β} (whole : feed ∉ line) (nonempty : line ≠ []) :
    lines feed line = [line] := by
  simp [lines, List.splitOn_eq_singleton whole, nonempty]

/-- Lines that are written with an end each are read back. -/
theorem lines_flatMap {bodies : List (List β)} (whole : ∀ body ∈ bodies, feed ∉ body) :
    lines feed (bodies.flatMap (· ++ [feed])) = bodies := by
  induction bodies with
  | nil => simp
  | cons body rest ih =>
      rw [List.forall_mem_cons] at whole
      rw [List.flatMap_cons, List.append_assoc, List.singleton_append, lines_cons whole.1,
        ih whole.2]

end SensorBar.Text
