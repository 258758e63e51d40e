import AgdaFrontEnd.Proofs.Json.RoundTrip

/-!
# What stops a reader

A reader of JSON leaves an end of its text.  It stops at a text that is no JSON value, at a whole
number whose digits stand somewhere in the text and are more than are read, or at an array or object
in a text that opens more of them than the reader has levels.

* `Json.Accounts`: what the outcome of a reader says about its text.
* `Json.accountsWith`: this holds of the readers of values, of items and of members.
* `Json.ofText_tooManyDigits`: a text with too long a number has a long run of digits.
* `Json.ofText_tooDeep`, `Json.ofText_openings`: a text that goes too deep opens many arrays and
  objects, and one that starts with as many brackets goes too deep, whatever follows them.
-/

namespace AgdaFrontEnd.Json

/-- A run of digits in the text is a whole number with more digits than are read. -/
def HasOverlong (count : Nat) (t : Text) : Prop :=
  IntegerFault.digitLimit < count ∧ ∃ ds, ds <:+: t ∧ ds.length = count ∧ ∀ c ∈ ds, isDigit c = true

theorem HasOverlong.mono {count : Nat} {s t : Text} (hs : s <:+ t) (h : HasOverlong count s) :
    HasOverlong count t := by
  obtain ⟨hlimit, ds, hds, hrest⟩ := h
  exact ⟨hlimit, ds, hds.trans hs.isInfix, hrest⟩

/-- The character opens an array or an object. -/
def isOpening (c : Char) : Bool := c = '[' || c = '{'

/-- The text opens more arrays and objects than there are levels. -/
def OpensMore (levels : Nat) (t : Text) : Prop := levels < t.countP isOpening

theorem OpensMore.mono {levels : Nat} {s t : Text} (hs : s <:+ t) (h : OpensMore levels s) :
    OpensMore levels t := Nat.lt_of_lt_of_le h (hs.sublist.countP_le)

theorem OpensMore.cons {levels : Nat} {s t : Text} {c : Char} (hc : isOpening c = true) (hs : s <:+ t)
    (h : OpensMore levels s) : OpensMore (levels + 1) (c :: t) := by
  have hlevels := OpensMore.mono hs h
  rw [OpensMore, List.countP_cons_of_pos hc]
  exact Nat.add_lt_add_right hlevels 1

/-- What the outcome of a reader says about the text that it was given: after a value it leaves an end
of the text, a number with too many digits is part of the text, and what goes too deep opens many
arrays and objects. -/
def Accounts {α : Type} (levels : Nat) (t : Text) : Except Fault (α × Text) → Prop
  | .ok (_, rest) => rest <:+ t
  | .error .malformed => True
  | .error (.tooManyDigits count) => HasOverlong count t
  | .error (.tooDeep _) => OpensMore levels t

section Accounts

variable {α β : Type} {levels : Nat} {s t : Text}

theorem Accounts.mono {r : Except Fault (α × Text)} (h : Accounts levels s r) (hs : s <:+ t) :
    Accounts levels t r := by
  match r with
  | .ok (_, rest) => exact List.IsSuffix.trans h hs
  | .error .malformed => trivial
  | .error (.tooManyDigits count) => exact HasOverlong.mono hs h
  | .error (.tooDeep _) => exact OpensMore.mono hs h

/-- What stands within an array or object has a level less. -/
theorem Accounts.opened {r : Except Fault (α × Text)} {c : Char} (hc : isOpening c = true)
    (h : Accounts levels s r) (hs : s <:+ t) : Accounts (levels + 1) (c :: t) r := by
  have hcons := hs.trans (List.suffix_cons c t)
  match r with
  | .ok (_, rest) => exact List.IsSuffix.trans h hcons
  | .error .malformed => trivial
  | .error (.tooManyDigits count) => exact HasOverlong.mono hcons h
  | .error (.tooDeep _) => exact OpensMore.cons hc hs h

theorem Accounts.map {r : Except Fault (α × Text)} (h : Accounts levels t r) (f : α → β) :
    Accounts levels t (r.map fun (a, rest) => (f a, rest)) := by
  match r with
  | .ok (_, rest) => exact h
  | .error .malformed => trivial
  | .error (.tooManyDigits count) => exact h
  | .error (.tooDeep _) => exact h

/-- What comes next is given an end of the text. -/
theorem Accounts.bind {r : Except Fault (α × Text)} {f : α × Text → Except Fault (β × Text)}
    (h : Accounts levels t r) (hf : ∀ a rest, rest <:+ t → Accounts levels t (f (a, rest))) :
    Accounts levels t (r >>= f) := by
  match r with
  | .ok (a, rest) => exact hf a rest h
  | .error .malformed => trivial
  | .error (.tooManyDigits count) => exact h
  | .error (.tooDeep _) => exact h

end Accounts

/-! ## Tokens -/

theorem skipSpaces_suffix (t : Text) : skipSpaces t <:+ t := List.dropWhile_suffix _

theorem accounts_readUnits (levels : Nat) (t : Text) : Accounts levels t (readUnits t) := by
  fun_induction readUnits t with
  | case1 r => exact List.suffix_cons _ _
  | case2 a b c d r n _ ih =>
    exact (ih.map (n :: ·)).mono (List.suffix_append ['\\', 'u', a, b, c, d] r)
  | case3 => trivial
  | case4 e r _ c _ ih => exact (ih.map (c.toNat :: ·)).mono (List.suffix_append ['\\', e] r)
  | case5 => trivial
  | case6 => trivial
  | case7 c r _ _ _ _ ih => exact (ih.map (c.toNat :: ·)).mono (List.suffix_cons c r)
  | case8 => trivial

theorem accounts_readString (levels : Nat) (t : Text) : Accounts levels t (readString t) :=
  (accounts_readUnits levels t).map ofUnits

theorem append_of_wholePart? {t whole rest : Text} (h : wholePart? t = some (whole, rest)) :
    whole ++ rest = t ∧ ∀ c ∈ whole, isDigit c = true := by
  unfold wholePart? at h
  split at h
  · cases h
    exact ⟨rfl, List.forall_mem_singleton.2 rfl⟩
  · split at h
    · cases h
    · cases h
      exact ⟨List.takeWhile_append_dropWhile, List.all_eq_true.1 List.all_takeWhile⟩

theorem suffix_of_fraction? {t places rest : Text} (h : fraction? t = some (places, rest)) :
    rest <:+ t := by
  unfold fraction? at h
  split at h
  · split at h
    · cases h
      exact (List.dropWhile_suffix _).trans (List.suffix_cons _ _)
    · cases h
  · cases h

theorem suffix_of_sign (r : Text) :
    (match r with
      | '-' :: r => (true, r)
      | '+' :: r => (false, r)
      | _ => (false, r)).2 <:+ r := by
  split
  · exact List.suffix_cons _ _
  · exact List.suffix_cons _ _
  · exact List.suffix_refl _

theorem suffix_of_exponent? {t rest : Text} {x : Int} (h : exponent? t = some (x, rest)) :
    rest <:+ t := by
  unfold exponent? at h
  split at h
  · rename_i e r
    split at h
    · dsimp only at h
      split at h
      · cases h
      · cases h
        exact ((List.dropWhile_suffix _).trans (suffix_of_sign r)).trans (List.suffix_cons _ _)
    · cases h
  · cases h

theorem accounts_readNumber (levels : Nat) (negative : Bool) (t : Text) :
    Accounts levels t (readNumber negative t) := by
  cases hw : wholePart? t with
  | none =>
    unfold readNumber
    rw [hw]
    trivial
  | some w =>
    obtain ⟨whole, r⟩ := w
    obtain ⟨ht, hdigits⟩ := append_of_wholePart? hw
    have hr : r <:+ t := ⟨whole, ht⟩
    cases hf : fraction? r with
    | some p =>
      obtain ⟨places, r₁⟩ := p
      have hr₁ := (suffix_of_fraction? hf).trans hr
      cases he : exponent? r₁ with
      | some q =>
        rw [readNumber_point_power negative hw hf he]
        exact (suffix_of_exponent? he).trans hr₁
      | none =>
        rw [readNumber_point negative hw hf he]
        exact hr₁
    | none =>
      cases he : exponent? r with
      | some q =>
        rw [readNumber_power negative hw hf he]
        exact (suffix_of_exponent? he).trans hr
      | none =>
        rw [readNumber_whole negative hw hf he, Integer.ofDigits, digitsOf, List.length_map]
        by_cases hlimit : IntegerFault.digitLimit < whole.length
        · rw [if_pos hlimit]
          exact ⟨hlimit, whole, ⟨[], r, ht⟩, rfl, hdigits⟩
        · rw [if_neg hlimit]
          exact hr

theorem accounts_readScalar (levels : Nat) (t : Text) : Accounts levels t (readScalar t) := by
  unfold readScalar
  split
  · rename_i hs
    obtain ⟨⟨name, v⟩, -, hname⟩ := List.exists_of_findSome?_eq_some hs
    obtain ⟨s, hprefix, rfl⟩ := Option.map_eq_some_iff.1 hname
    exact ⟨name, (Text.eq_append_of_dropPrefix? hprefix).symm⟩
  · split
    · exact (accounts_readNumber levels true _).mono (List.suffix_cons _ _)
    · exact accounts_readNumber levels false t

/-! ## Values -/

/-- What the readers of values, of items and of members say about their texts, with the same fuel. -/
structure AccountsWith (fuel : Nat) : Prop where
  value (levels : Nat) (t : Text) : Accounts levels t (readValue fuel levels t)
  items (levels : Nat) (t : Text) : Accounts levels t (readItems fuel levels t)
  members (levels : Nat) (before : List (Text × Json)) (t : Text) :
    Accounts levels t (readMembers fuel levels before t)

section Step

variable {fuel : Nat} (ih : AccountsWith fuel) (levels : Nat) (t : Text)

include ih

theorem AccountsWith.value_succ : Accounts levels t (readValue (fuel + 1) levels t) := by
  unfold readValue
  split
  · exact ((accounts_readString levels _).map Json.string).mono (List.suffix_cons _ _)
  · rename_i r
    split
    · exact Nat.lt_of_lt_of_eq (Nat.succ_pos _) (List.countP_cons_of_pos rfl).symm
    · split
      · rename_i h
        exact (List.suffix_cons ']' _).trans (h ▸ (skipSpaces_suffix r).trans (List.suffix_cons '[' r))
      · exact ((ih.items _ _).map Json.array).opened rfl (skipSpaces_suffix r)
  · rename_i r
    split
    · exact Nat.lt_of_lt_of_eq (Nat.succ_pos _) (List.countP_cons_of_pos rfl).symm
    · split
      · rename_i h
        exact (List.suffix_cons '}' _).trans (h ▸ (skipSpaces_suffix r).trans (List.suffix_cons '{' r))
      · exact ((ih.members _ [] _).map Json.object).opened rfl (skipSpaces_suffix r)
  · exact accounts_readScalar levels _

theorem AccountsWith.items_succ : Accounts levels t (readItems (fuel + 1) levels t) := by
  unfold readItems
  refine (ih.value levels t).bind fun v r hr => ?_
  have hskip := (skipSpaces_suffix r).trans hr
  dsimp only
  split
  · rename_i h
    exact (List.suffix_cons ']' _).trans (h ▸ hskip)
  · rename_i h
    have hmore := (skipSpaces_suffix _).trans ((List.suffix_cons ',' _).trans (h ▸ hskip))
    exact ((ih.items levels _).mono hmore).bind fun vs rest hrest => hrest
  · trivial

theorem AccountsWith.members_succ (before : List (Text × Json)) :
    Accounts levels t (readMembers (fuel + 1) levels before t) := by
  unfold readMembers
  split
  · rename_i r
    refine ((accounts_readString levels r).mono (List.suffix_cons _ _)).bind fun key r' hr' => ?_
    dsimp only
    split
    · rename_i s hs
      have hvalue := (skipSpaces_suffix s).trans
        ((List.suffix_cons ':' s).trans (hs ▸ (skipSpaces_suffix r').trans hr'))
      refine ((ih.value levels _).mono hvalue).bind fun v s' hs' => ?_
      have hskip := (skipSpaces_suffix s').trans hs'
      dsimp only
      split
      · rename_i h
        exact (List.suffix_cons '}' _).trans (h ▸ hskip)
      · rename_i h
        exact (ih.members levels _ _).mono
          ((skipSpaces_suffix _).trans ((List.suffix_cons ',' _).trans (h ▸ hskip)))
      · trivial
    · trivial
  · trivial

end Step

theorem accountsWith : ∀ fuel : Nat, AccountsWith fuel
  | 0 => ⟨fun _ _ => trivial, fun _ _ => trivial, fun _ _ _ => trivial⟩
  | fuel + 1 =>
    have ih := accountsWith fuel
    ⟨ih.value_succ, ih.items_succ, fun levels before t => ih.members_succ levels t before⟩

/-- What makes a reader give up its text is in the text. -/
theorem accounts_of_ofText {levels : Levels} {t : Text} {fault : Fault}
    (h : ofText levels t = .error fault) :
    fault = .malformed ∨ Accounts (α := Json) levels.count t (.error fault) := by
  have haccounts := ((accountsWith (2 * t.length + 2)).value levels.count (skipSpaces t)).mono
    (skipSpaces_suffix t)
  unfold ofText at h
  cases hread : readValue (2 * t.length + 2) levels.count (skipSpaces t) with
  | ok p =>
    obtain ⟨v, rest⟩ := p
    rw [hread] at h
    change (if _ then _ else _) = _ at h
    split at h <;> cases h
    exact .inl rfl
  | error fault =>
    rw [hread] at h haccounts
    cases h
    exact .inr haccounts

/-- **A text is only given up for a number that has too many digits**, all of which stand in it. -/
theorem ofText_tooManyDigits {levels : Levels} {t : Text} {count : Nat}
    (h : ofText levels t = .error (.tooManyDigits count)) : HasOverlong count t :=
  (accounts_of_ofText h).resolve_left nofun

/-- **A text is only given up for its depth** if it opens more arrays and objects than there are
levels. -/
theorem ofText_tooDeep {levels : Levels} {t : Text} {c : Container}
    (h : ofText levels t = .error (.tooDeep c)) : OpensMore levels.count t :=
  (accounts_of_ofText h).resolve_left nofun

/-- A text of more digits than are read is given up. -/
theorem ofText_of_isWhole (levels : Levels) {t : Text} (ht : IsWhole t)
    (hlong : IntegerFault.digitLimit < t.length) :
    ofText levels t = .error (.tooManyDigits t.length) := by
  have hends : EndsNumber [] := fun _ h => nomatch h
  have hw := wholePart?_append ht fun c hc => (hends c hc).1
  rw [List.append_nil] at hw
  obtain ⟨c, s, hcs, hc⟩ := exists_cons_of_wholePart? hw
  have hne (d : Char) (hd : isDigit d = false) : c ≠ d := by
    rintro rfl
    rw [hc] at hd
    cases hd
  have hspace : isSpace c = false := by
    simp [isSpace, hne ' ' (by decide), hne '\t' (by decide), hne '\n' (by decide), hne '\r' (by decide)]
  have hskip : skipSpaces t = t := by rw [hcs, skipSpaces_cons hspace]
  have hscalar (fuel : Nat) : readValue (fuel + 1) levels.count t = readNumber false t := by
    rw [hcs, readValue_eq_readScalar (hne '"' (by decide)) (hne '[' (by decide)) (hne '{' (by decide)),
      ← hcs]
    exact readScalar_eq_readNumber false hw
  have hdigits : Integer.ofDigits (digitsOf t) = .error (.tooManyDigits t.length) := by
    rw [Integer.ofDigits, digitsOf, List.length_map, if_pos hlong]
  rw [ofText, hskip, hscalar, readNumber_whole false hw hends.fraction?_eq hends.exponent?_eq, hdigits]
  rfl

theorem readValue_openings (rest : Text) : ∀ {levels fuel : Nat}, 2 * levels < fuel →
    readValue fuel levels (List.replicate (levels + 1) '[' ++ rest) = .error (.tooDeep .array)
  | _, 0, h => absurd h (Nat.not_lt_zero _)
  | 0, fuel + 1, _ => rfl
  | levels + 1, 1, h => by omega
  | levels + 1, fuel + 2, h => by
    have ih := readValue_openings rest (show 2 * levels < fuel by omega)
    have hitems : readItems (fuel + 1) levels (List.replicate (levels + 1) '[' ++ rest) =
        .error (.tooDeep .array) := by
      rw [readItems, ih]
      rfl
    rw [List.replicate_succ, List.cons_append, readValue]
    have hskip : skipSpaces (List.replicate (levels + 1) '[' ++ rest) =
        List.replicate (levels + 1) '[' ++ rest := by
      rw [List.replicate_succ, List.cons_append, skipSpaces_cons (by decide)]
    rw [hskip]
    split
    · rename_i heq
      cases heq
    · rw [hitems]
      rfl

/-- A text that starts with more brackets than there are levels is given up. -/
theorem ofText_openings (levels : Levels) (rest : Text) :
    ofText levels (List.replicate (levels.count + 1) '[' ++ rest) = .error (.tooDeep .array) := by
  have hskip : skipSpaces (List.replicate (levels.count + 1) '[' ++ rest) =
      List.replicate (levels.count + 1) '[' ++ rest := by
    rw [List.replicate_succ, List.cons_append, skipSpaces_cons (by decide)]
  rw [ofText, hskip, readValue_openings rest]
  · rfl
  · simp only [List.length_append, List.length_replicate]
    omega

end AgdaFrontEnd.Json
