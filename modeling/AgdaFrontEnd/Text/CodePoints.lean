import AgdaFrontEnd.Text.Basic

/-!
# Sets of code points

Character classes of the Unicode standard are given by tables of closed intervals of code points.
`CodePoints` is such a table and `CodePoints.has` its membership test.
-/

namespace AgdaFrontEnd

/-- A set of code points, as closed intervals `(first, last)`. -/
abbrev CodePoints := List (Nat × Nat)

/-- A character lies in one of the intervals. -/
def CodePoints.has (s : CodePoints) (c : Char) : Bool :=
  s.any fun (first, last) => first ≤ c.toNat && c.toNat ≤ last

theorem CodePoints.has_iff (s : CodePoints) (c : Char) :
    s.has c = true ↔ ∃ r ∈ s, r.1 ≤ c.toNat ∧ c.toNat ≤ r.2 := by
  simp [CodePoints.has]

end AgdaFrontEnd
