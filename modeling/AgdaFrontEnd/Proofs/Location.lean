import AgdaFrontEnd.Report.Item
import Mathlib.Data.List.TakeWhile

/-!
# Locations that cannot be read

The place of a message is the first location in its first line.  It cannot be read if one of its
numbers has too many digits, and that is the only cause.

* `Location.Token.numbers`: the digits of a location's numbers.
* `Location.Token.range_eq_error_iff`, `Location.ofMessage_eq_error_iff`: when a location, or the
  place of a message, cannot be read.
* `Location.token?_line`, `Location.token?_lines`: a location within one line, and one over two lines.
* `Location.find?_append`: what stands before the first one.
-/

namespace AgdaFrontEnd.Location

/-! ## Overlong numbers -/

/-- More digits than are read. -/
def IsOverlong (ds : List Nat) : Prop := IntegerFault.digitLimit < ds.length

instance (ds : List Nat) : Decidable (IsOverlong ds) := inferInstanceAs (Decidable (_ < _))

theorem ofDigits_of_isOverlong {ds : List Nat} (h : IsOverlong ds) :
    Integer.ofDigits ds = .error (.tooManyDigits ds.length) := if_pos h

theorem ofDigits_of_not_isOverlong {ds : List Nat} (h : ¬ IsOverlong ds) :
    Integer.ofDigits ds = .ok (Digits.value ds) := if_neg h

/-- The digits of a location's numbers, in order. -/
def Token.numbers (l : Token) : List (List Nat) :=
  l.startLine :: l.startCol :: (l.endLine.toList ++ [l.endCol])

/-- **A location cannot be read if a number of it has too many digits**, and the fault is that of the
first such number. -/
theorem Token.range_eq_error_iff {l : Token} {fault : IntegerFault} :
    l.range = .error fault ↔
      ∃ ds, l.numbers.find? IsOverlong = some ds ∧ fault = .tooManyDigits ds.length := by
  obtain ⟨a, b, c, d⟩ := l
  unfold range numbers
  by_cases ha : IsOverlong a
  · simp [ofDigits_of_isOverlong ha, ha, bind, Except.bind, eq_comm]
  have hstart := ofDigits_of_not_isOverlong ha
  by_cases hb : IsOverlong b
  · simp [hstart, ofDigits_of_isOverlong hb, ha, hb, bind, Except.bind, eq_comm]
  have hcol := ofDigits_of_not_isOverlong hb
  cases c with
  | none =>
    by_cases hd : IsOverlong d
    · simp [hstart, hcol, ofDigits_of_isOverlong hd, ha, hb, hd, bind, Except.bind, pure, Except.pure,
        eq_comm]
    · simp [hstart, hcol, ofDigits_of_not_isOverlong hd, ha, hb, hd, bind, Except.bind, pure,
        Except.pure]
  | some c =>
    by_cases hc : IsOverlong c
    · simp [hstart, hcol, ofDigits_of_isOverlong hc, ha, hb, hc, bind, Except.bind, eq_comm]
    have hstop := ofDigits_of_not_isOverlong hc
    by_cases hd : IsOverlong d
    · simp [hstart, hcol, hstop, ofDigits_of_isOverlong hd, ha, hb, hc, hd, bind, Except.bind, eq_comm]
    · simp [hstart, hcol, hstop, ofDigits_of_not_isOverlong hd, ha, hb, hc, hd, bind, Except.bind, pure,
        Except.pure]

/-- **The place of a message cannot be read** if there is a location in its first line and a number
of the first one has too many digits. -/
theorem ofMessage_eq_error_iff {message : Text} {fault : IntegerFault} :
    ofMessage message = .error fault ↔ ∃ l, find? (message.upTo '\n') = some l ∧
      ∃ ds, l.numbers.find? IsOverlong = some ds ∧ fault = .tooManyDigits ds.length := by
  unfold ofMessage
  cases find? (message.upTo '\n') with
  | none => exact ⟨nofun, nofun⟩
  | some l => simp [Token.range_eq_error_iff]

/-! ## Locations of a written form -/

theorem digits?_append {ds rest : Text} (hne : ds ≠ []) (hd : ∀ c ∈ ds, isDigit c = true)
    (hr : ∀ c ∈ rest.head?, isDigit c = false) :
    digits? (ds ++ rest) = some (ds.filterMap digitValue?, rest) := by
  obtain ⟨d, ds, rfl⟩ := List.exists_cons_of_ne_nil hne
  have hrest : rest.takeWhile isDigit = [] ∧ rest.dropWhile isDigit = rest := by
    cases rest with
    | nil => exact ⟨rfl, rfl⟩
    | cons c r => simp [hr c rfl]
  unfold digits?
  rw [List.takeWhile_append_of_pos hd, List.dropWhile_append_of_pos hd, hrest.1, hrest.2,
    List.append_nil]

theorem length_digits {ds : Text} (hd : ∀ c ∈ ds, isDigit c = true) :
    (ds.filterMap digitValue?).length = ds.length := by
  rw [List.length_filterMap_eq_countP, List.countP_eq_length]
  exact hd

/-- A location whose start is read up to the number behind the dash: this is the end column, unless a
comma and a number follow it. -/
theorem token?_start {a b t r : Text} {first : List Nat} (ha : ∀ x ∈ a, isDigit x = true) (hane : a ≠ [])
    (hb : ∀ x ∈ b, isDigit x = true) (hbne : b ≠ []) (hfirst : digits? t = some (first, r)) :
    token? (a ++ ',' :: (b ++ '-' :: t)) = some (((r.dropPrefix? [',']).bind digits?).elim
      ⟨a.filterMap digitValue?, b.filterMap digitValue?, none, first⟩
      fun second => ⟨a.filterMap digitValue?, b.filterMap digitValue?, some first, second.1⟩) := by
  have hcomma : isDigit ',' = false := by decide
  have hdash : isDigit '-' = false := by decide
  have hdrop (x : Char) (t : Text) : Text.dropPrefix? (x :: t) [x] = some t :=
    Text.dropPrefix?_append [x] t
  unfold token?
  rw [digits?_append hane ha (by simp [hcomma])]
  simp only [Option.bind_eq_bind, Option.bind_some, hdrop]
  rw [digits?_append hbne hb (by simp [hdash])]
  simp only [Option.bind_some, hdrop, hfirst]
  cases (r.dropPrefix? [',']).bind digits? <;> rfl

/-- A location within one line, at the start of a text. -/
theorem token?_line {a b c rest : Text} (ha : ∀ x ∈ a, isDigit x = true) (hane : a ≠ [])
    (hb : ∀ x ∈ b, isDigit x = true) (hbne : b ≠ []) (hc : ∀ x ∈ c, isDigit x = true) (hcne : c ≠ [])
    (hrest : ∀ x ∈ rest.head?, isDigit x = false ∧ x ≠ ',') :
    token? (a ++ ',' :: (b ++ '-' :: (c ++ rest))) =
      some ⟨a.filterMap digitValue?, b.filterMap digitValue?, none, c.filterMap digitValue?⟩ := by
  have hend : rest.dropPrefix? [','] = none := by
    cases rest with
    | nil => rfl
    | cons x r => simp [Text.dropPrefix?, Ne.symm (hrest x rfl).2]
  have hfirst := digits?_append hcne hc fun x hx => (hrest x hx).1
  rw [token?_start ha hane hb hbne hfirst, hend, Option.bind_none, Option.elim_none]

/-- A location over two lines, at the start of a text. -/
theorem token?_lines {a b c d rest : Text} (ha : ∀ x ∈ a, isDigit x = true) (hane : a ≠ [])
    (hb : ∀ x ∈ b, isDigit x = true) (hbne : b ≠ []) (hc : ∀ x ∈ c, isDigit x = true) (hcne : c ≠ [])
    (hd : ∀ x ∈ d, isDigit x = true) (hdne : d ≠ []) (hrest : ∀ x ∈ rest.head?, isDigit x = false) :
    token? (a ++ ',' :: (b ++ '-' :: (c ++ ',' :: (d ++ rest)))) =
      some ⟨a.filterMap digitValue?, b.filterMap digitValue?, some (c.filterMap digitValue?),
        d.filterMap digitValue?⟩ := by
  have hcomma : isDigit ',' = false := by decide
  have hdrop : Text.dropPrefix? (',' :: (d ++ rest)) [','] = some (d ++ rest) :=
    Text.dropPrefix?_append [','] _
  have hfirst : digits? (c ++ ',' :: (d ++ rest)) =
      some (c.filterMap digitValue?, ',' :: (d ++ rest)) := digits?_append hcne hc (by simp [hcomma])
  rw [token?_start ha hane hb hbne hfirst, hdrop, Option.bind_some, digits?_append hdne hd hrest,
    Option.elim_some]

theorem find?_of_token? {t : Text} {l : Token} (h : token? t = some l) : find? t = some l := by
  cases t with
  | nil => cases h
  | cons c t => rw [find?, h]

theorem token?_of_not_isDigit {c : Char} (hc : isDigit c = false) (t : Text) :
    token? (c :: t) = none := by
  simp [token?, digits?, hc]

/-- Characters that are no digits stand before the first location. -/
theorem find?_append {p : Text} (hp : ∀ c ∈ p, isDigit c = false) (t : Text) :
    find? (p ++ t) = find? t := by
  induction p with
  | nil => rfl
  | cons c p ih =>
    rw [List.cons_append, find?, token?_of_not_isDigit (hp c (.head _))]
    exact ih fun c' hc' => hp c' (.tail _ hc')

/-- The place of a message cannot be read if the line number behind its file has too many digits. -/
theorem ofMessage_line {file a b c : Text} (hfile : ∀ x ∈ file, isDigit x = false ∧ x ≠ '\n')
    (ha : ∀ x ∈ a, isDigit x = true) (hlong : IntegerFault.digitLimit < a.length)
    (hb : ∀ x ∈ b, isDigit x = true) (hbne : b ≠ []) (hc : ∀ x ∈ c, isDigit x = true) (hcne : c ≠ []) :
    ofMessage (file ++ (a ++ ',' :: (b ++ '-' :: c))) = .error (.tooManyDigits a.length) := by
  have hnewline (x : Char) (hx : isDigit x = true) : x ≠ '\n' := by
    rintro rfl
    exact absurd hx (by decide)
  have hline : (file ++ (a ++ ',' :: (b ++ '-' :: c))).upTo '\n' =
      file ++ (a ++ ',' :: (b ++ '-' :: c)) := by
    rw [Text.upTo, List.takeWhile_eq_self_iff]
    intro x hx
    simp only [List.mem_append, List.mem_cons] at hx
    rw [bne_iff_ne]
    rcases hx with hx | hx | rfl | hx | rfl | hx
    · exact (hfile x hx).2
    · exact hnewline x (ha x hx)
    · decide
    · exact hnewline x (hb x hx)
    · decide
    · exact hnewline x (hc x hx)
  have hane : a ≠ [] := by
    rintro rfl
    exact absurd hlong (by decide)
  have htoken := token?_line ha hane hb hbne hc hcne
    (show ∀ x ∈ ([] : Text).head?, isDigit x = false ∧ x ≠ ',' from nofun)
  rw [List.append_nil] at htoken
  have hover : IsOverlong (a.filterMap digitValue?) := by
    rw [IsOverlong, length_digits ha]
    exact hlong
  rw [ofMessage_eq_error_iff, hline, find?_append fun x hx => (hfile x hx).1]
  refine ⟨_, find?_of_token? htoken, _, List.find?_cons_of_pos (by simpa using hover), ?_⟩
  rw [length_digits ha]

end AgdaFrontEnd.Location
