import AgdaFrontEnd.Render.Message

/-!
# Signs of a mismatch

A line tells a mismatch where a sign stands between two sides that are not empty.  A line may have
several such places, and the sides may hold signs themselves; the last place in the first line that has
one counts.

* `Message.SignAt`, `Message.IsSignPosition`: the places of a line at which a sign stands.
* `Message.IsLastSign`: the last of them.
* `Message.lastSign?_spec`: reading a line finds its last sign.
* `Message.mismatch?_eq_some_iff`, `Message.isSome_mismatch?_iff`: the mismatch of a message.
* `Message.mismatch_recognised`: its short form, which comes before that of a missing name.
-/

namespace AgdaFrontEnd.Message

/-! ## Signs in a line -/

/-- At a position of the line, but not at its start, stands a sign, and `expected` is all that follows
it; that is not empty. -/
structure SignAt (line : Text) (i : Nat) (expected : Text) : Prop where
  pos : 1 ≤ i
  ne_nil : expected ≠ []
  drop_eq : ∃ sign ∈ mismatchSigns, line.drop i = sign ++ expected

/-- A sign stands at this position of the line. -/
def IsSignPosition (line : Text) (i : Nat) : Prop := ∃ expected, SignAt line i expected

/-- The last sign of the line stands at this position. -/
structure IsLastSign (line : Text) (i : Nat) (expected : Text) : Prop where
  signAt : SignAt line i expected
  last : ∀ j, IsSignPosition line j → j ≤ i

variable {line message expected : Text} {i : Nat}

/-- The two signs exclude each other, so what follows a sign is told by the text. -/
theorem afterSign?_eq_some_iff {t : Text} : afterSign? t = some expected ↔
    expected ≠ [] ∧ ∃ sign ∈ mismatchSigns, t = sign ++ expected := by
  have hplain : " != ".toList = [' ', '!', '=', ' '] := by decide
  have hless : " !=< ".toList = [' ', '!', '=', '<', ' '] := by decide
  have hnot (r : Text) : Text.dropPrefix? ([' ', '!', '=', '<', ' '] ++ r) [' ', '!', '=', ' '] = none := by
    simp [Text.dropPrefix?]
  unfold afterSign? mismatchSigns
  rw [hplain, hless]
  constructor
  · intro h
    obtain ⟨sign, hsign, h⟩ := List.exists_of_findSome?_eq_some h
    split at h
    · rename_i c r hdrop
      cases h
      exact ⟨List.cons_ne_nil c r, sign, hsign, Text.eq_append_of_dropPrefix? hdrop⟩
    · cases h
  · rintro ⟨hne, sign, hsign, rfl⟩
    obtain ⟨c, r, rfl⟩ := List.exists_cons_of_ne_nil hne
    rcases List.mem_cons.1 hsign with rfl | hsign
    · rw [List.findSome?_cons, Text.dropPrefix?_append]
    · rw [List.mem_singleton.1 hsign, List.findSome?_cons, hnot, List.findSome?_cons,
        Text.dropPrefix?_append]

theorem signAt_iff : SignAt line i expected ↔ 1 ≤ i ∧ afterSign? (line.drop i) = some expected := by
  rw [afterSign?_eq_some_iff]
  exact ⟨fun h => ⟨h.pos, h.ne_nil, h.drop_eq⟩, fun h => ⟨h.1, h.2.1, h.2.2⟩⟩

theorem isSignPosition_iff :
    IsSignPosition line i ↔ 1 ≤ i ∧ (afterSign? (line.drop i)).isSome = true := by
  simp only [IsSignPosition, signAt_iff, exists_and_left, Option.isSome_iff_exists]

instance (line : Text) (i : Nat) : Decidable (IsSignPosition line i) :=
  decidable_of_iff _ isSignPosition_iff.symm

/-- No sign stands at the end of the line or behind it. -/
theorem IsSignPosition.lt_length (h : IsSignPosition line i) : i < line.length := by
  obtain ⟨expected, h⟩ := h
  refine Nat.lt_of_not_le fun hle => ?_
  obtain ⟨sign, -, hdrop⟩ := h.drop_eq
  rw [List.drop_eq_nil_of_le hle] at hdrop
  exact h.ne_nil (List.append_eq_nil_iff.1 hdrop.symm).2

/-- There is at most one last sign. -/
theorem IsLastSign.unique {j : Nat} {expected' : Text} (h : IsLastSign line i expected)
    (h' : IsLastSign line j expected') : i = j ∧ expected = expected' := by
  obtain rfl : i = j := Nat.le_antisymm (h'.last i ⟨_, h.signAt⟩) (h.last j ⟨_, h'.signAt⟩)
  exact ⟨rfl, Option.some.inj ((signAt_iff.1 h.signAt).2.symm.trans (signAt_iff.1 h'.signAt).2)⟩

/-- **Reading a line from a position on finds its last sign**, if there is one from there on. -/
theorem lastSign?_spec (read t : Text) :
    match lastSign? read t with
    | some (detected, expected) => ∃ i, read.length ≤ i ∧ detected = (read.reverse ++ t).take i ∧
        IsLastSign (read.reverse ++ t) i expected
    | none => ∀ i, read.length ≤ i → ¬ IsSignPosition (read.reverse ++ t) i := by
  induction t generalizing read with
  | nil =>
    intro i hi h
    have hlt := h.lt_length
    simp only [List.append_nil, List.length_reverse] at hlt
    omega
  | cons c r ih =>
    have hline : (c :: read).reverse ++ r = read.reverse ++ c :: r := by simp
    have hdrop : (read.reverse ++ c :: r).drop read.length = c :: r := by simp
    have ih := ih (c :: read)
    rw [hline, List.length_cons] at ih
    rw [lastSign?]
    cases hrest : lastSign? (c :: read) r with
    | some sides =>
      rw [hrest] at ih
      obtain ⟨i, hi, hsides⟩ := ih
      exact ⟨i, Nat.le_of_succ_le hi, hsides⟩
    | none =>
      -- no sign behind this position, so the last one can only stand here
      rw [hrest] at ih
      dsimp only at ih ⊢
      have hhere {i : Nat} (hi : read.length ≤ i) (h : IsSignPosition (read.reverse ++ c :: r) i) :
          i = read.length :=
        Nat.le_antisymm (Nat.le_of_not_lt fun hlt => ih i hlt h) hi
      by_cases hread : read = []
      · subst hread
        intro i hi h
        obtain rfl := hhere hi h
        exact absurd (isSignPosition_iff.1 h).1 (by decide)
      · rw [if_neg (by simpa using hread)]
        cases hafter : afterSign? (c :: r) with
        | none =>
          intro i hi h
          obtain rfl := hhere hi h
          have hsome := (isSignPosition_iff.1 h).2
          rw [hdrop, hafter] at hsome
          cases hsome
        | some expected =>
          have hsign : SignAt (read.reverse ++ c :: r) read.length expected :=
            signAt_iff.2 ⟨List.length_pos_iff.2 hread, by rw [hdrop, hafter]⟩
          refine ⟨read.length, Nat.le_refl _, by simp, hsign, fun j hj => ?_⟩
          exact Nat.le_of_not_lt fun hlt => ih j hlt hj

theorem lastSign?_eq_some_iff {detected : Text} : lastSign? [] line = some (detected, expected) ↔
    ∃ i, detected = line.take i ∧ IsLastSign line i expected := by
  have hspec := lastSign?_spec [] line
  rw [List.reverse_nil, List.nil_append] at hspec
  constructor
  · intro h
    rw [h] at hspec
    obtain ⟨i, -, hi⟩ := hspec
    exact ⟨i, hi⟩
  · rintro ⟨i, rfl, hi⟩
    cases h : lastSign? [] line with
    | none =>
      rw [h] at hspec
      exact absurd ⟨expected, hi.signAt⟩ (hspec i (Nat.zero_le i))
    | some sides =>
      rw [h] at hspec
      obtain ⟨j, -, hdetected, hj⟩ := hspec
      obtain ⟨rfl, hexpected⟩ := hi.unique hj
      exact congrArg some (Prod.ext hdetected hexpected.symm)

theorem lastSign?_eq_none_iff : lastSign? [] line = none ↔ ∀ i, ¬ IsSignPosition line i := by
  have hspec := lastSign?_spec [] line
  rw [List.reverse_nil, List.nil_append] at hspec
  constructor
  · intro h i
    rw [h] at hspec
    exact hspec i (Nat.zero_le i)
  · intro h
    refine Option.eq_none_iff_forall_ne_some.2 fun sides hsides => ?_
    obtain ⟨i, -, hi⟩ := lastSign?_eq_some_iff.1 hsides
    exact h i ⟨_, hi.signAt⟩

theorem isSome_lastSign?_iff :
    (lastSign? [] line).isSome = true ↔ ∃ i, IsSignPosition line i := by
  constructor
  · intro h
    obtain ⟨sides, hsides⟩ := Option.isSome_iff_exists.1 h
    obtain ⟨i, -, hi⟩ := lastSign?_eq_some_iff.1 hsides
    exact ⟨i, _, hi.signAt⟩
  · rintro ⟨i, hi⟩
    exact Option.ne_none_iff_isSome.1 fun h => lastSign?_eq_none_iff.1 h i hi

/-! ## The mismatch of a message -/

/-- The line is the first one of the message in which a sign stands. -/
def IsFirstSigned (message line : Text) : Prop :=
  ∃ before after, message.lines = before ++ line :: after ∧ (∃ i, IsSignPosition line i) ∧
    ∀ l ∈ before, ∀ i, ¬ IsSignPosition l i

/-- The mismatch of a message is told by the last sign of its first line that has one. -/
theorem mismatch?_eq_some_iff {sides : Text × Text} : mismatch? message = some sides ↔
    ∃ line i expected, IsFirstSigned message line ∧ IsLastSign line i expected ∧
      sides = (Text.strip (line.take i), expected.strip) := by
  simp only [mismatch?, Option.map_eq_some_iff, Prod.exists, List.findSome?_eq_some_iff,
    lastSign?_eq_some_iff, lastSign?_eq_none_iff]
  constructor
  · rintro ⟨_, expected, ⟨before, line, after, hlines, ⟨i, rfl, hi⟩, hbefore⟩, rfl⟩
    exact ⟨line, i, expected, ⟨before, after, hlines, ⟨i, expected, hi.signAt⟩, hbefore⟩, hi, rfl⟩
  · rintro ⟨line, i, expected, ⟨before, after, hlines, -, hbefore⟩, hi, rfl⟩
    exact ⟨_, expected, ⟨before, line, after, hlines, ⟨i, rfl, hi⟩, hbefore⟩, rfl⟩

theorem isSome_mismatch?_iff :
    (mismatch? message).isSome = true ↔ ∃ line ∈ message.lines, ∃ i, IsSignPosition line i := by
  simp only [mismatch?, Option.isSome_map, List.isSome_findSome?, List.any_eq_true,
    isSome_lastSign?_iff]

/-- **A mismatch is recognised where a sign stands.**  A message has the short form of a mismatch just
if a sign stands in one of its lines.  The last sign of the first such line parts what was detected
from what was expected, and the file is what stands before the first colon of the first line.  This
short form is that of the message, whatever else it says. -/
theorem mismatch_recognised (p : Palette) (message : Text) :
    ((shortMismatch? p message).isSome = true ↔
      ∃ line ∈ message.lines, ∃ i, IsSignPosition line i) ∧
    (∀ short, shortMismatch? p message = some short ↔ ∃ line i expected,
      IsFirstSigned message line ∧ IsLastSign line i expected ∧
      short = p.bold ++ "TypeMismatch:".toList ++ p.reset ++
        "\n- expected: ".toList ++ expected.strip ++
        "\n- detected: ".toList ++ Text.strip (line.take i) ++ ['\n'] ++
        (p.dim ++ p.underline ++ (message.upTo '\n').upTo ':' ++ p.reset)) ∧
    ∀ short, shortMismatch? p message = some short → short? p message = some short := by
  refine ⟨?_, fun short => ?_, fun short hshort => ?_⟩
  · rw [shortMismatch?, Option.isSome_map, isSome_mismatch?_iff]
  · rw [shortMismatch?, Option.map_eq_some_iff]
    constructor
    · rintro ⟨sides, hsides, rfl⟩
      obtain ⟨line, i, expected, hline, hi, rfl⟩ := mismatch?_eq_some_iff.1 hsides
      exact ⟨line, i, expected, hline, hi, rfl⟩
    · rintro ⟨line, i, expected, hline, hi, rfl⟩
      exact ⟨_, mismatch?_eq_some_iff.2 ⟨line, i, expected, hline, hi, rfl⟩, rfl⟩
  · rw [short?, hshort]

/-- A line with two signs between sides, and one with nothing behind it. -/
def signedLine : Text := "Set != Nat !=< Bool != ".toList

/-- A message that tells a mismatch and a missing name. -/
def mixedMessage : Text := "A.agda:3,5-8\nNot in scope: x at y\n".toList ++ signedLine

theorem mismatch_recognised_sample : IsFirstSigned mixedMessage signedLine ∧
    IsLastSign signedLine 10 "Bool != ".toList ∧
    shortUnbound? .plain mixedMessage = some "Unbound: 'x'\nA.agda".toList ∧
    short? .plain mixedMessage =
      some "TypeMismatch:\n- expected: Bool !=\n- detected: Set != Nat\nA.agda".toList := by
  have hsigned : ∀ i < signedLine.length, IsSignPosition signedLine i → i ≤ 10 := by decide +kernel
  have hlast : IsLastSign signedLine 10 "Bool != ".toList :=
    ⟨signAt_iff.2 (by decide +kernel), fun j hj => hsigned j hj.lt_length hj⟩
  have hbefore : ∀ l ∈ ["A.agda:3,5-8".toList, "Not in scope: x at y".toList],
      lastSign? [] l = none := by decide +kernel
  have hfirst : IsFirstSigned mixedMessage signedLine :=
    ⟨_, [], by decide +kernel, ⟨10, _, hlast.signAt⟩, fun l hl => lastSign?_eq_none_iff.1 (hbefore l hl)⟩
  obtain ⟨-, hform, hprecedes⟩ := mismatch_recognised .plain mixedMessage
  have hshort := hprecedes _ ((hform _).2 ⟨signedLine, 10, _, hfirst, hlast, rfl⟩)
  exact ⟨hfirst, hlast, by decide +kernel, hshort.trans (by decide +kernel)⟩

end AgdaFrontEnd.Message
