import AgdaFrontEnd.Response.Quoted

/-!
# Scanning what was written

* `Quoted.inside_escapeAll`: inside a string an escaped text is read as the text.
* `Quoted.outside_write`: a written field is read as one field.
* `Quoted.not_mem_write`: a written field is free of the characters that have letters of their own.
-/

namespace AgdaFrontEnd.Quoted

/-! ## One character -/

theorem inside_backslash (depth : Int) (field : Text) (e : Char) (r : Text) :
    inside depth field ('\\' :: e :: r) = inside depth (unescape e :: field) r := by
  simp [inside]

theorem inside_quote (depth : Int) (field r : Text) :
    inside depth field ('"' :: r) = (outside depth r).cons field.reverse := by
  rw [inside] <;> simp

theorem inside_other {c : Char} (hb : c ≠ '\\') (hq : c ≠ '"') (depth : Int) (field r : Text) :
    inside depth field (c :: r) = inside depth (c :: field) r := by
  rw [inside]
  · rw [if_neg hq]
  · intro e
    exact absurd e hb
  · intro e r' h
    exact absurd h hb

/-- An escaped character is read as the character. -/
theorem inside_escape (depth : Int) (field : Text) (c : Char) (r : Text) :
    inside depth field (escape c ++ r) = inside depth (c :: field) r := by
  unfold escape
  split
  · exact inside_backslash depth field '\\' r
  · exact inside_backslash depth field '"' r
  · exact inside_backslash depth field 'n' r
  · exact inside_backslash depth field 't' r
  · exact inside_backslash depth field 'r' r
  · rename_i hb hq _ _ _
    exact inside_other hb hq depth field r

/-! ## Whole fields -/

/-- **Inside a string an escaped text is read as the text**, whatever it holds. -/
theorem inside_escapeAll (depth : Int) : ∀ (t field r : Text),
    inside depth field (escapeAll t ++ '"' :: r) = (outside depth r).cons (field.reverse ++ t)
  | [], field, r => by simpa [escapeAll] using inside_quote depth field r
  | c :: t, field, r => by
    rw [escapeAll, List.flatMap_cons, List.append_assoc, inside_escape, ← escapeAll,
      inside_escapeAll depth t (c :: field) r]
    simp

theorem outside_write (depth : Int) (field r : Text) :
    outside depth (write field ++ r) = (outside depth r).cons field := by
  have h := inside_escapeAll depth field [] r
  simpa [write, outside] using h

theorem outside_blank {c : Char} (hq : c ≠ '"') (ho : c ≠ '(') (hc : c ≠ ')') (depth : Int)
    (r : Text) : outside depth (c :: r) = outside depth r := by
  rw [outside, if_neg hq, if_neg ho, if_neg hc]

/-! ## What a written field is free of -/

theorem not_mem_escape {x : Char} (hx : x = '\n' ∨ x = '\t' ∨ x = '\r') (c : Char) : x ∉ escape c := by
  unfold escape
  split
  case h_6 _ hn ht hr =>
    rcases hx with rfl | rfl | rfl
    · simpa using fun h => hn h.symm
    · simpa using fun h => ht h.symm
    · simpa using fun h => hr h.symm
  all_goals rcases hx with rfl | rfl | rfl <;> decide

/-- A written field holds no line feed, no tab and no carriage return. -/
theorem not_mem_write {x : Char} (hx : x = '\n' ∨ x = '\t' ∨ x = '\r') (t : Text) : x ∉ write t := by
  have hq : x ≠ '"' := by rcases hx with rfl | rfl | rfl <;> decide
  simp [write, escapeAll, not_mem_escape hx, hq]

end AgdaFrontEnd.Quoted
