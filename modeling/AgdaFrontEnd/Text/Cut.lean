import AgdaFrontEnd.Text.Basic

/-!
# Cutting texts at positions

A position counts characters from the start of the text, or from its end if it is negative.
Positions outside the text stand for its ends, so a cut never fails.

* `Text.position`: the number of characters before a position.
* `Text.before`, `Text.after`, `Text.between`: the parts of a text.
-/

namespace AgdaFrontEnd.Text

/-- The number of characters before position `n` of a text of the given length. -/
def position (length : Nat) (n : Int) : Nat :=
  if n < 0 then (length + n).toNat else min n.toNat length

/-- The text before a position. -/
def before (n : Int) (t : Text) : Text := t.take (position t.length n)

/-- The text from a position on. -/
def after (n : Int) (t : Text) : Text := t.drop (position t.length n)

/-- The text from one position up to another. -/
def between (a b : Int) (t : Text) : Text :=
  (t.take (position t.length b)).drop (position t.length a)

theorem before_append_after (n : Int) (t : Text) : before n t ++ after n t = t :=
  List.take_append_drop _ t

/-! ## Positions that count from the start -/

theorem position_of_nonneg {n : Int} (h : 0 ≤ n) (length : Nat) :
    position length n = min n.toNat length := if_neg (Int.not_lt.2 h)

theorem before_of_nonneg {n : Int} (h : 0 ≤ n) (t : Text) : before n t = t.take n.toNat := by
  rw [before, position_of_nonneg h, ← List.take_eq_take_min]

theorem after_of_nonneg {n : Int} (h : 0 ≤ n) (t : Text) : after n t = t.drop n.toNat := by
  rw [after, position_of_nonneg h]
  rcases Nat.le_total n.toNat t.length with hle | hle
  · rw [Nat.min_eq_left hle]
  · rw [Nat.min_eq_right hle, List.drop_length, List.drop_eq_nil_of_le hle]

theorem between_of_nonneg {a b : Int} (ha : 0 ≤ a) (hb : 0 ≤ b) (t : Text) :
    between a b t = (t.take b.toNat).drop a.toNat := by
  rw [between, position_of_nonneg ha, position_of_nonneg hb, ← List.take_eq_take_min]
  rcases Nat.le_total a.toNat t.length with hle | hle
  · rw [Nat.min_eq_left hle]
  · have hshort : (t.take b.toNat).length ≤ t.length := List.length_take_le' _ t
    rw [Nat.min_eq_right hle, List.drop_eq_nil_of_le hshort,
      List.drop_eq_nil_of_le (Nat.le_trans hshort hle)]

end AgdaFrontEnd.Text
