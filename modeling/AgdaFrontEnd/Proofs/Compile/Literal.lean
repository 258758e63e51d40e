import AgdaFrontEnd.Proofs.Json.String

/-!
# String literals of scripts

What stands between the single quotes of a literal in a script is read from left to right.  A character
stands for its code units, and a backslash starts an escape: a letter, up to three octal digits, two or
four hexadecimal digits, a code point in braces, or a line end that is passed over.  A quote, a line feed
and a carriage return end the literal where they stand.

* `Literal.denoted?`: the code units that a literal denotes.
* `Literal.length_le_of_run`: a literal denotes no more units than its characters have.
* `Literal.denoted?_eq_self_iff`: the literals that denote their own characters.
* `Literal.denotes_iff_of_not_mem`: the literals without a backslash.
-/

namespace AgdaFrontEnd.Literal

open Json (units hexDigit?)

/-! ## The reader -/

/-- What the reader is in the midst of. -/
inductive Reading
  | plain
  | escape
  /-- A line end may go on with a line feed. -/
  | lineEnd
  /-- The octal digits so far; so many more may follow the next one. -/
  | octal (value more : Nat)
  /-- The hexadecimal digits so far; so many more have to follow the next one. -/
  | hexadecimal (value more : Nat)
  | codePoint
  /-- The hexadecimal digits in braces so far, if there are some. -/
  | braced (value : Option Nat)

/-- The code units of a code point. -/
def codeUnits (n : Nat) : List Nat :=
  if n < 0x10000 then [n] else [0xD800 + (n - 0x10000) / 0x400, 0xDC00 + (n - 0x10000) % 0x400]

def octalDigit? (c : Char) : Option Nat :=
  if '0' ≤ c ∧ c ≤ '7' then some (c.toNat - '0'.toNat) else none

/-- The letters that stand for one unit. -/
def letter? : Char → Option Nat
  | 'b' => some 0x08
  | 't' => some 0x09
  | 'n' => some 0x0A
  | 'v' => some 0x0B
  | 'f' => some 0x0C
  | 'r' => some 0x0D
  | _ => none

/-- A character outside an escape. -/
def plainStep (c : Char) : Option (List Nat × Reading) :=
  if c = '\'' ∨ c = '\n' ∨ c = '\r' then none
  else if c = '\\' then some ([], .escape)
  else some (units c, .plain)

/-- The character behind a backslash. -/
def escapeStep (c : Char) : List Nat × Reading :=
  if c = '\r' then ([], .lineEnd)
  else if c = '\n' ∨ c = '\u2028' ∨ c = '\u2029' then ([], .plain)
  else if c = 'x' then ([], .hexadecimal 0 1)
  else if c = 'u' then ([], .codePoint)
  else
    match letter? c, octalDigit? c with
    | some u, _ => ([u], .plain)
    | none, some d => ([], .octal d (if d < 4 then 1 else 0))
    | none, none => (units c, .plain)

/-- One character gives units, and what the reader is then in the midst of. -/
def Reading.step : Reading → Char → Option (List Nat × Reading)
  | .plain, c => plainStep c
  | .escape, c => some (escapeStep c)
  | .lineEnd, c => if c = '\n' then some ([], .plain) else plainStep c
  | .octal value more, c =>
    match octalDigit? c, more with
    | some d, 0 => some ([8 * value + d], .plain)
    | some d, more + 1 => some ([], .octal (8 * value + d) more)
    | none, _ => (plainStep c).map fun (us, r) => (value :: us, r)
  | .hexadecimal value more, c =>
    match hexDigit? c, more with
    | some d, 0 => some ([16 * value + d], .plain)
    | some d, more + 1 => some ([], .hexadecimal (16 * value + d) more)
    | none, _ => none
  | .codePoint, c =>
    if c = '{' then some ([], .braced none)
    else (hexDigit? c).map fun d => ([], .hexadecimal d 2)
  | .braced value, c =>
    if c = '}' then value.map fun n => (codeUnits n, .plain)
    else
      match hexDigit? c with
      | some d =>
        let n := 16 * value.getD 0 + d
        if n < 0x110000 then some ([], .braced (some n)) else none
      | none => none

/-- The units that are left at the end. -/
def Reading.finish : Reading → Option (List Nat)
  | .plain | .lineEnd => some []
  | .octal value _ => some [value]
  | .escape | .hexadecimal .. | .codePoint | .braced _ => none

/-- Reads to the end. -/
def run : Reading → Text → Option (List Nat)
  | r, [] => r.finish
  | r, c :: t => (r.step c).bind fun (us, r') => (run r' t).map (us ++ ·)

/-- The code units that a literal denotes, of which this is what stands between its quotes. -/
def denoted? (body : Text) : Option (List Nat) := run .plain body

/-! ## Characters that stand for themselves -/

/-- The character stands for itself. -/
def IsOrdinary (c : Char) : Prop := c ≠ '\'' ∧ c ≠ '\\' ∧ c ≠ '\n' ∧ c ≠ '\r'

instance (c : Char) : Decidable (IsOrdinary c) := inferInstanceAs (Decidable (_ ∧ _))

theorem plainStep_of_isOrdinary {c : Char} (hc : IsOrdinary c) :
    plainStep c = some (units c, .plain) := by
  obtain ⟨hquote, hbackslash, hfeed, hreturn⟩ := hc
  rw [plainStep, if_neg (by simp [hquote, hfeed, hreturn]), if_neg hbackslash]

/-- Ordinary characters at the start stand for themselves, whatever follows. -/
theorem run_append_of_isOrdinary : ∀ {s : Text}, (∀ c ∈ s, IsOrdinary c) → ∀ t,
    run .plain (s ++ t) = (run .plain t).map (s.flatMap units ++ ·)
  | [], _, t => by cases h : run .plain t <;> simp [h]
  | c :: s, hs, t => by
    obtain ⟨hc, hs⟩ := List.forall_mem_cons.1 hs
    rw [List.cons_append, run, Reading.step, plainStep_of_isOrdinary hc, Option.bind_some]
    dsimp only
    rw [run_append_of_isOrdinary hs t, Option.map_map, List.flatMap_cons]
    simp only [Function.comp_def, List.append_assoc]

theorem denoted?_of_isOrdinary {t : Text} (ht : ∀ c ∈ t, IsOrdinary c) :
    denoted? t = some (t.flatMap units) := by
  have h := run_append_of_isOrdinary ht []
  rw [List.append_nil] at h
  rw [denoted?, h]
  simp [run, Reading.finish]

/-- Characters that are not all ordinary have a first one that is not. -/
theorem exists_first_not_isOrdinary : ∀ {t : Text}, ¬ (∀ c ∈ t, IsOrdinary c) →
    ∃ s c r, t = s ++ c :: r ∧ (∀ a ∈ s, IsOrdinary a) ∧ ¬ IsOrdinary c
  | [], h => absurd (by simp) h
  | c :: t, h => by
    by_cases hc : IsOrdinary c
    · have ht : ¬ (∀ a ∈ t, IsOrdinary a) := fun ht => h (List.forall_mem_cons.2 ⟨hc, ht⟩)
      obtain ⟨s, b, r, rfl, hs, hb⟩ := exists_first_not_isOrdinary ht
      exact ⟨c :: s, b, r, rfl, List.forall_mem_cons.2 ⟨hc, hs⟩, hb⟩
    · exact ⟨[], c, t, rfl, by simp, hc⟩

/-! ## How many units are denoted -/

theorem length_units_pos (c : Char) : 1 ≤ (units c).length := by
  unfold units Json.pointUnits
  split <;> simp

theorem length_codeUnits_le (n : Nat) : (codeUnits n).length ≤ 2 := by
  unfold codeUnits
  split <;> simp

/-- The most units by which an unfinished escape may exceed the units of the characters to come. -/
def Reading.due : Reading → Nat
  | .octal .. | .braced _ => 1
  | .plain | .escape | .lineEnd | .hexadecimal .. | .codePoint => 0

theorem due_of_plainStep {c : Char} {us : List Nat} {r : Reading} (h : plainStep c = some (us, r)) :
    us.length + r.due ≤ (units c).length := by
  unfold plainStep at h
  split at h
  · cases h
  split at h
  · cases h
    simp [Reading.due]
  · cases h
    simp [Reading.due]

theorem due_of_escapeStep (c : Char) :
    (escapeStep c).1.length + (escapeStep c).2.due ≤ (units c).length := by
  have hc := length_units_pos c
  unfold escapeStep
  repeat' split
  all_goals simp [Reading.due, hc]

/-- A step gives no more units than its character has, but for those that an escape owed. -/
theorem Reading.due_of_step {r r' : Reading} {c : Char} {us : List Nat}
    (h : r.step c = some (us, r')) : us.length + r'.due ≤ (units c).length + r.due := by
  have hc := length_units_pos c
  cases r with
  | plain => exact due_of_plainStep h
  | escape =>
    have heq : escapeStep c = (us, r') := Option.some.inj h
    have := due_of_escapeStep c
    rwa [heq] at this
  | lineEnd =>
    simp only [step] at h
    split at h
    · cases h
      simp [due]
    · exact due_of_plainStep h
  | octal value more =>
    simp only [step] at h
    split at h
    · cases h
      simp [due]
    · cases h
      simp [due]
    · obtain ⟨⟨vs, r''⟩, hplain, heq⟩ := Option.map_eq_some_iff.1 h
      cases heq
      have hle := due_of_plainStep hplain
      have hone (n : Nat) : (octal value n).due = 1 := rfl
      rw [hone, List.length_cons]
      dsimp only
      omega
  | hexadecimal value more =>
    simp only [step] at h
    split at h
    · cases h
      simp [due, hc]
    · cases h
      simp [due]
    · cases h
  | codePoint =>
    simp only [step] at h
    split at h
    · cases h
      simp [due, hc]
    · obtain ⟨d, -, heq⟩ := Option.map_eq_some_iff.1 h
      cases heq
      simp [due]
  | braced value =>
    simp only [step] at h
    split at h
    · obtain ⟨n, -, heq⟩ := Option.map_eq_some_iff.1 h
      cases heq
      have := length_codeUnits_le n
      simp only [due]
      omega
    · split at h
      · split at h
        · cases h
          simp [due]
        · cases h
      · cases h

/-- **A literal denotes no more units than its characters have**, from any point of it on. -/
theorem length_le_of_run : ∀ {t : Text} {r : Reading} {us : List Nat}, run r t = some us →
    us.length ≤ (t.flatMap units).length + r.due
  | [], r, us, h => by
    cases r <;> cases h <;> simp [Reading.due]
  | c :: t, r, us, h => by
    obtain ⟨⟨vs, r'⟩, hstep, hrest⟩ := Option.bind_eq_some_iff.1 h
    obtain ⟨ws, hrun, rfl⟩ := Option.map_eq_some_iff.1 hrest
    have hfirst := Reading.due_of_step hstep
    have hlater := length_le_of_run hrun
    rw [List.length_append, List.flatMap_cons, List.length_append]
    omega

/-! ## What the characters denote -/

/-- Behind ordinary characters only a backslash goes on. -/
theorem denoted?_of_not_isOrdinary {s r : Text} {c : Char} (hs : ∀ a ∈ s, IsOrdinary a)
    (hc : ¬ IsOrdinary c) (hb : c ≠ '\\') : denoted? (s ++ c :: r) = none := by
  have hend : c = '\'' ∨ c = '\n' ∨ c = '\r' := by
    simpa [IsOrdinary, hb, Decidable.or_iff_not_imp_left] using hc
  rw [denoted?, run_append_of_isOrdinary hs, run, Reading.step, plainStep, if_pos hend]
  rfl

/-- A literal with a backslash behind ordinary characters denotes less than its characters. -/
theorem length_lt_of_backslash {s r : Text} {us : List Nat} (hs : ∀ a ∈ s, IsOrdinary a)
    (h : denoted? (s ++ '\\' :: r) = some us) :
    us.length < ((s ++ '\\' :: r).flatMap units).length := by
  have hbackslash : plainStep '\\' = some ([], .escape) := rfl
  have hone : (units '\\').length = 1 := rfl
  rw [denoted?, run_append_of_isOrdinary hs, run, Reading.step, hbackslash, Option.bind_some] at h
  obtain ⟨_, hrest, rfl⟩ := Option.map_eq_some_iff.1 h
  obtain ⟨vs, hrun, rfl⟩ := Option.map_eq_some_iff.1 hrest
  have hle := length_le_of_run hrun
  simp only [Reading.due] at hle
  rw [List.flatMap_append, List.flatMap_cons, List.length_append, List.length_append,
    List.length_append, List.length_append, List.length_nil]
  omega

/-- **A literal denotes its own characters just if all of them are ordinary.** -/
theorem denoted?_eq_self_iff {t : Text} :
    denoted? t = some (t.flatMap units) ↔ ∀ c ∈ t, IsOrdinary c := by
  refine ⟨fun h => ?_, denoted?_of_isOrdinary⟩
  refine Classical.byContradiction fun hnot => ?_
  obtain ⟨s, c, r, rfl, hs, hc⟩ := exists_first_not_isOrdinary hnot
  by_cases hb : c = '\\'
  · subst hb
    exact Nat.lt_irrefl _ (length_lt_of_backslash hs h)
  · rw [denoted?_of_not_isOrdinary hs hc hb] at h
    cases h

/-- A literal without a backslash denotes something just if all of its characters are ordinary. -/
theorem denotes_iff_of_not_mem {t : Text} (hb : '\\' ∉ t) :
    (∃ us, denoted? t = some us) ↔ ∀ c ∈ t, IsOrdinary c := by
  refine ⟨fun ⟨us, h⟩ => ?_, fun h => ⟨_, denoted?_of_isOrdinary h⟩⟩
  refine Classical.byContradiction fun hnot => ?_
  obtain ⟨s, c, r, rfl, hs, hc⟩ := exists_first_not_isOrdinary hnot
  have hc' : c ≠ '\\' := by
    rintro rfl
    exact hb (by simp)
  rw [denoted?_of_not_isOrdinary hs hc hc'] at h
  cases h

/-- A quote behind a backslash, two digits, a code point in braces, octal digits and a line end. -/
example : denoted? "a\\'\\x41\\u\x7b1F600\x7d\\1018\\\nz".toList =
    some ([0x61, 0x27, 0x41, 0xD83D, 0xDE00, 0x41, 0x38, 0x7A]) := by decide

end AgdaFrontEnd.Literal
