import AgdaFrontEnd.Proofs.Text.Occurrence
import AgdaFrontEnd.Render.Message

/-!
# Names that a message tells are not in scope

A message tells a missing name where its words are followed by blanks, by a name, and by the word "at"
behind one space.  The blanks may hold line ends.  The words may stand at several places, and not each of
them is followed by a name; the first place that is counts.

* `Message.NameAt`: a place of a message at which a name is told.
* `Message.IsFirstName`: the first of them.
* `Message.unboundName?_eq_some_iff`: what is read at the start of a text.
* `Message.unbound?_eq_some_iff`, `Message.isSome_unbound?_iff`: the name that a message tells.
* `Message.isFirstName_report`: the name in a message of the usual form.
* `Message.unbound_recognised`: the short form of a message about a missing name.
-/

namespace AgdaFrontEnd.Message

/-! ## Names in a message -/

/-- At a position of the message stand the words, then blanks, the name, and the word that follows it.
The name holds no blank and stands between two of them, so it is as long as it can be. -/
structure NameAt (message : Text) (i : Nat) (name : Text) : Prop where
  ne_nil : name ≠ []
  solid : ∀ c ∈ name, isBlank c = false
  drop_eq : ∃ gap rest, gap ≠ [] ∧ (∀ c ∈ gap, isBlank c = true) ∧
    message.drop i = unboundWords ++ (gap ++ (name ++ (" at".toList ++ rest)))

/-- The first name that the message tells stands at this position. -/
structure IsFirstName (message : Text) (i : Nat) (name : Text) : Prop where
  nameAt : NameAt message i name
  first : ∀ j < i, ∀ other, ¬ NameAt message j other

variable {message name gap rest t : Text} {i : Nat}

/-! ## Reading a name -/

/-- A text between blanks is cut at both ends. -/
theorem dropWhile_gap (rest : Text) (hgap : ∀ c ∈ gap, isBlank c = true) (hne : name ≠ [])
    (hsolid : ∀ c ∈ name, isBlank c = false) :
    (gap ++ (name ++ rest)).dropWhile isBlank = name ++ rest := by
  obtain ⟨c, r, rfl⟩ := List.exists_cons_of_ne_nil hne
  have hc : isBlank c = false := hsolid c (.head _)
  rw [List.dropWhile_append_of_pos hgap, List.cons_append, List.dropWhile_cons_of_neg (by simp [hc])]

theorem takeWhile_solid (rest : Text) (hsolid : ∀ c ∈ name, isBlank c = false) :
    (name ++ (" at".toList ++ rest)).takeWhile (!isBlank ·) = name ∧
      (name ++ (" at".toList ++ rest)).dropWhile (!isBlank ·) = " at".toList ++ rest := by
  have hpos : ∀ c ∈ name, (!isBlank c) = true := fun c hc => by rw [hsolid c hc]; rfl
  have hat : " at".toList = ' ' :: ['a', 't'] := by decide
  constructor
  · rw [List.takeWhile_append_of_pos hpos, hat, List.cons_append,
      List.takeWhile_cons_of_neg (by decide), List.append_nil]
  · rw [List.dropWhile_append_of_pos hpos, hat, List.cons_append,
      List.dropWhile_cons_of_neg (by decide)]

/-- A name is read at the start of a text just if it is told there. -/
theorem unboundName?_eq_some_iff : unboundName? t = some name ↔ NameAt t 0 name := by
  constructor
  · intro h
    simp only [unboundName?, Option.bind_eq_bind, Option.bind_eq_some_iff] at h
    obtain ⟨u, hwords, h⟩ := h
    obtain rfl := Text.eq_append_of_dropPrefix? hwords
    split at h
    · cases h
    · rename_i hnot
      obtain ⟨rest, hat, rfl⟩ := Option.map_eq_some_iff.1 h
      obtain ⟨hlength, hname⟩ := not_or.1 hnot
      have hgap : u.takeWhile isBlank ++ u.dropWhile isBlank = u := List.takeWhile_append_dropWhile
      have hrun : (u.dropWhile isBlank).takeWhile (!isBlank ·) ++
          (u.dropWhile isBlank).dropWhile (!isBlank ·) = u.dropWhile isBlank :=
        List.takeWhile_append_dropWhile
      rw [Text.eq_append_of_dropPrefix? hat] at hrun
      refine ⟨by simpa using hname, fun c hc => ?_, u.takeWhile isBlank, rest, fun hnil => ?_,
        List.all_eq_true.1 List.all_takeWhile, ?_⟩
      · have hall := List.all_eq_true.1 (List.all_takeWhile (p := (!isBlank ·))) c hc
        simpa using hall
      · rw [hnil, List.nil_append] at hgap
        exact hlength (congrArg List.length hgap.symm)
      · rw [List.drop_zero, hrun, hgap]
  · rintro ⟨hne, hsolid, gap, rest, hgap, hblank, rfl⟩
    have hcut := dropWhile_gap (" at".toList ++ rest) hblank hne hsolid
    obtain ⟨htake, hdrop⟩ := takeWhile_solid rest hsolid
    have hlength : (gap ++ (name ++ (" at".toList ++ rest))).length ≠
        (name ++ (" at".toList ++ rest)).length := by
      rw [List.length_append]
      have := List.length_pos_iff.2 hgap
      omega
    simp only [unboundName?, Text.dropPrefix?_append, Option.bind_eq_bind, Option.bind_some, hcut,
      htake, hdrop, Option.map_some]
    rw [if_neg (not_or.2 ⟨hlength, by simpa using hne⟩)]

theorem nameAt_iff : NameAt message i name ↔ unboundName? (message.drop i) = some name := by
  rw [unboundName?_eq_some_iff]
  exact ⟨fun h => ⟨h.ne_nil, h.solid, h.drop_eq⟩, fun h => ⟨h.ne_nil, h.solid, h.drop_eq⟩⟩

/-- A position tells at most one name. -/
theorem NameAt.unique {other : Text} (h : NameAt message i name) (h' : NameAt message i other) :
    name = other :=
  Option.some.inj ((nameAt_iff.1 h).symm.trans (nameAt_iff.1 h'))

/-! ## The first name -/

theorem IsFirstName.unique {j : Nat} {other : Text} (h : IsFirstName message i name)
    (h' : IsFirstName message j other) : i = j ∧ name = other := by
  have hij : i ≤ j := Nat.le_of_not_lt fun hlt => h.first j hlt other h'.nameAt
  have hji : j ≤ i := Nat.le_of_not_lt fun hlt => h'.first i hlt name h.nameAt
  obtain rfl : i = j := Nat.le_antisymm hij hji
  exact ⟨rfl, h.nameAt.unique h'.nameAt⟩

theorem isFirstName_cons_zero {c : Char} {r : Text} (h : unboundName? (c :: r) = some name) :
    IsFirstName (c :: r) 0 name :=
  ⟨unboundName?_eq_some_iff.1 h, fun _ hj => absurd hj (Nat.not_lt_zero _)⟩

theorem isFirstName_cons_succ {c : Char} {r : Text} (h : unboundName? (c :: r) = none) :
    IsFirstName (c :: r) (i + 1) name ↔ IsFirstName r i name := by
  have hstart : ∀ other, ¬ NameAt (c :: r) 0 other := fun other hother => by
    rw [unboundName?_eq_some_iff.2 hother] at h
    cases h
  have hbehind : ∀ j other, NameAt (c :: r) (j + 1) other ↔ NameAt r j other := fun j other => by
    rw [nameAt_iff, nameAt_iff, List.drop_succ_cons]
  constructor
  · rintro ⟨hname, hfirst⟩
    exact ⟨(hbehind i name).1 hname, fun j hj other hother =>
      hfirst (j + 1) (Nat.succ_lt_succ hj) other ((hbehind j other).2 hother)⟩
  · rintro ⟨hname, hfirst⟩
    refine ⟨(hbehind i name).2 hname, fun j hj other hother => ?_⟩
    cases j with
    | zero => exact hstart other hother
    | succ j => exact hfirst j (Nat.lt_of_succ_lt_succ hj) other ((hbehind j other).1 hother)

/-- **Reading a message finds the first name** that it tells. -/
theorem unbound?_eq_some_iff : unbound? message = some name ↔ ∃ i, IsFirstName message i name := by
  induction message with
  | nil =>
    constructor
    · intro h
      cases h
    · rintro ⟨i, h⟩
      have hread := nameAt_iff.1 h.nameAt
      rw [List.drop_nil] at hread
      cases hread
  | cons c r ih =>
    rw [unbound?]
    cases hread : unboundName? (c :: r) with
    | some other =>
      have hother := isFirstName_cons_zero hread
      constructor
      · intro h
        obtain rfl := Option.some.inj h
        exact ⟨0, hother⟩
      · rintro ⟨i, h⟩
        rw [(hother.unique h).2]
    | none =>
      rw [ih]
      constructor
      · rintro ⟨i, h⟩
        exact ⟨i + 1, (isFirstName_cons_succ hread).2 h⟩
      · rintro ⟨i, h⟩
        cases i with
        | zero =>
          have hstart := nameAt_iff.1 h.nameAt
          rw [List.drop_zero, hread] at hstart
          cases hstart
        | succ i => exact ⟨i, (isFirstName_cons_succ hread).1 h⟩

theorem isSome_unbound?_iff :
    (unbound? message).isSome = true ↔ ∃ i name, NameAt message i name := by
  constructor
  · intro h
    obtain ⟨name, hname⟩ := Option.isSome_iff_exists.1 h
    obtain ⟨i, hi⟩ := unbound?_eq_some_iff.1 hname
    exact ⟨i, name, hi.nameAt⟩
  · rintro ⟨i, h⟩
    -- the least of these positions is the first one
    induction i using Nat.strongRecOn with
    | ind i ih =>
      by_cases hbefore : ∃ j, j < i ∧ ∃ other, NameAt message j other
      · obtain ⟨j, hj, hother⟩ := hbefore
        exact ih j hj hother
      · obtain ⟨name, hname⟩ := h
        have hfirst : ∀ j < i, ∀ other, ¬ NameAt message j other :=
          fun j hj other hother => hbefore ⟨j, hj, other, hother⟩
        exact Option.isSome_iff_exists.2 ⟨name, unbound?_eq_some_iff.2 ⟨i, hname, hfirst⟩⟩

/-! ## Messages of the usual form -/

/-- A message about a missing name: a file and a location on the first line, the words on the second,
and the name on the third. -/
def report (file loc name tail : Text) : Text :=
  file ++ ':' :: (loc ++ '\n' :: (unboundWords ++ ("\n  ".toList ++ (name ++ (" at".toList ++ tail)))))

section Report

variable {file loc tail : Text}

/-- The words without the colon at their end. -/
def bareWords : Text := "Not in scope".toList

theorem unboundWords_eq : unboundWords = bareWords ++ [':'] := by decide

/-- Where a message tells a name behind a text without a colon and the first colon, this text are the
words. -/
theorem NameAt.eq_of_colon {a b : Text} (h : NameAt (a ++ ':' :: b) 0 name) (ha : ':' ∉ a) :
    a = bareWords ∧ ∃ gap rest, gap ≠ [] ∧ (∀ c ∈ gap, isBlank c = true) ∧
      b = gap ++ (name ++ (" at".toList ++ rest)) := by
  obtain ⟨-, -, gap, rest, hne, hblank, hdrop⟩ := h
  rw [List.drop_zero, unboundWords_eq, List.append_assoc, List.singleton_append] at hdrop
  obtain ⟨hwords, hrest⟩ := Text.append_cons_inj ha (by decide) hdrop
  exact ⟨hwords, gap, rest, hne, hblank, hrest⟩

/-- Before the words of a report no name is told: a colon is followed by no blank, or there is more than
the words in front of it. -/
theorem not_nameAt_of_lt (hfile : ':' ∉ file) (hloc : ':' ∉ loc)
    (hhead : ∃ c r, loc = c :: r ∧ isBlank c = false) {j : Nat} (hj : j < file.length + loc.length + 2)
    (other : Text) : ¬ NameAt (report file loc name tail) j other := by
  intro h
  have hstart : NameAt ((report file loc name tail).drop j) 0 other :=
    ⟨h.ne_nil, h.solid, h.drop_eq⟩
  rcases Nat.lt_or_ge file.length j with hlt | hle
  · obtain ⟨k, rfl⟩ : ∃ k, j = file.length + 1 + k := ⟨j - (file.length + 1), by omega⟩
    have hdrop : (report file loc name tail).drop (file.length + 1 + k) =
        loc.drop k ++ '\n' :: bareWords ++
          ':' :: ("\n  ".toList ++ (name ++ (" at".toList ++ tail))) := by
      have hk : k ≤ loc.length := by omega
      rw [report, unboundWords_eq, Nat.add_assoc, ← List.drop_drop, List.drop_left, Nat.add_comm 1,
        List.drop_succ_cons, List.drop_append_of_le_length hk]
      simp
    rw [hdrop] at hstart
    have hno : ':' ∉ loc.drop k ++ '\n' :: bareWords := by
      have hbare : ':' ∉ bareWords := by decide
      have hrest : ':' ∉ loc.drop k := fun hm => hloc (List.mem_of_mem_drop hm)
      simp [hbare, hrest]
    have hwords := (hstart.eq_of_colon hno).1
    have hbreak : '\n' ∉ bareWords := by decide
    rw [← hwords] at hbreak
    simp at hbreak
  · have hdrop : (report file loc name tail).drop j = file.drop j ++ ':' :: (loc ++ '\n' ::
        (unboundWords ++ ("\n  ".toList ++ (name ++ (" at".toList ++ tail))))) :=
      List.drop_append_of_le_length hle
    rw [hdrop] at hstart
    obtain ⟨-, gap, rest, hne, hblank, heq⟩ :=
      hstart.eq_of_colon fun hm => hfile (List.mem_of_mem_drop hm)
    obtain ⟨c, r, rfl, hc⟩ := hhead
    obtain ⟨d, gap, rfl⟩ := List.exists_cons_of_ne_nil hne
    obtain rfl : c = d := (List.cons.inj heq).1
    rw [hblank c (.head _)] at hc
    cases hc

/-- The name of a report is its first name. -/
theorem isFirstName_report (hfile : ':' ∉ file) (hloc : ':' ∉ loc)
    (hhead : ∃ c r, loc = c :: r ∧ isBlank c = false) (hne : name ≠ [])
    (hsolid : ∀ c ∈ name, isBlank c = false) :
    IsFirstName (report file loc name tail) (file.length + loc.length + 2) name := by
  have hblank : ∀ c ∈ "\n  ".toList, isBlank c = true := List.all_eq_true.1 (by decide)
  refine ⟨⟨hne, hsolid, "\n  ".toList, tail, by decide, hblank, ?_⟩, fun j hj =>
    not_nameAt_of_lt hfile hloc hhead hj⟩
  have hcut : file.length + loc.length + 2 = file.length + (loc.length + 1 + 1) := by omega
  rw [report, hcut, ← List.drop_drop, List.drop_left, List.drop_succ_cons, ← List.drop_drop,
    List.drop_left]
  rfl

end Report

/-! ## Short forms -/

/-- **A missing name is recognised where a message tells one.**  A message has the short form of a missing
name just if it tells a name somewhere.  The form shows the first of them, and as the file what stands
before the first colon.  So it does for every report on a file without a colon in its name, at a location
that, as all locations do, starts with no blank and holds no colon, and of a name without blanks. -/
theorem unbound_recognised (p : Palette) (message : Text) :
    ((shortUnbound? p message).isSome = true ↔ ∃ i name, NameAt message i name) ∧
    (∀ short, shortUnbound? p message = some short ↔ ∃ i name, IsFirstName message i name ∧
      short = p.bold ++ "Unbound:".toList ++ p.reset ++ " '".toList ++ name ++ "'\n".toList ++
        (p.dim ++ p.underline ++ message.upTo ':' ++ p.reset)) ∧
    ∀ file loc name tail : Text, ':' ∉ file → ':' ∉ loc →
      (∃ c r, loc = c :: r ∧ isBlank c = false) → name ≠ [] → (∀ c ∈ name, isBlank c = false) →
      shortUnbound? p (report file loc name tail) =
        some (p.bold ++ "Unbound:".toList ++ p.reset ++ " '".toList ++ name ++ "'\n".toList ++
          (p.dim ++ p.underline ++ file ++ p.reset)) := by
  have hshort : ∀ message short, shortUnbound? p message = some short ↔
      ∃ i name, IsFirstName message i name ∧
        short = p.bold ++ "Unbound:".toList ++ p.reset ++ " '".toList ++ name ++ "'\n".toList ++
          (p.dim ++ p.underline ++ message.upTo ':' ++ p.reset) := by
    intro message short
    rw [shortUnbound?, Option.map_eq_some_iff]
    constructor
    · rintro ⟨name, hname, rfl⟩
      obtain ⟨i, hi⟩ := unbound?_eq_some_iff.1 hname
      exact ⟨i, name, hi, rfl⟩
    · rintro ⟨i, name, hi, rfl⟩
      exact ⟨name, unbound?_eq_some_iff.2 ⟨i, hi⟩, rfl⟩
  refine ⟨?_, hshort message, fun file loc name tail hfile hloc hhead hne hsolid => ?_⟩
  · rw [shortUnbound?, Option.isSome_map, isSome_unbound?_iff]
  · refine (hshort _ _).2 ⟨_, name, isFirstName_report hfile hloc hhead hne hsolid, ?_⟩
    rw [report, Text.upTo_append_cons hfile]

/-- A message with the words at two places, the first of which is followed by no blank. -/
def doubtfulMessage : Text := "A.agda:3,5-8\nNot in scope:x at\nNot in scope:\n  at:'q at A.agda".toList

theorem unbound_recognised_samples : IsFirstName doubtfulMessage 31 "at:'q".toList ∧
    shortUnbound? .plain doubtfulMessage = some "Unbound: 'at:'q'\nA.agda".toList ∧
    shortUnbound? .plain "Not in scope:3,5-8\nNot in scope:\n  at at Not in scope:3,5-8".toList =
      some "Unbound: 'at'\nNot in scope".toList := by
  have hbefore : ∀ j < 31, unboundName? (doubtfulMessage.drop j) = none := by decide +kernel
  have hfirst : IsFirstName doubtfulMessage 31 "at:'q".toList := by
    refine ⟨nameAt_iff.2 (by decide +kernel), fun j hj other hother => ?_⟩
    have hnone := hbefore j hj
    rw [nameAt_iff.1 hother] at hnone
    cases hnone
  have hat : isBlank 'a' = false ∧ isBlank 't' = false := by decide
  have hshort := ((unbound_recognised .plain doubtfulMessage).2.1 _).2 ⟨31, _, hfirst, rfl⟩
  have hreport := (unbound_recognised .plain []).2.2 bareWords "3,5-8".toList "at".toList
    " Not in scope:3,5-8".toList (by decide) (by decide) ⟨'3', _, rfl, by decide⟩ (by decide)
    (by simpa using hat)
  exact ⟨hfirst, hshort.trans (by decide +kernel), hreport⟩

end AgdaFrontEnd.Message
