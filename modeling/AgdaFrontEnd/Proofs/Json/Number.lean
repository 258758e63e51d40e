import AgdaFrontEnd.Json.Reader
import AgdaFrontEnd.Json.Writer
import AgdaFrontEnd.Proofs.Binary64.Shortest

/-!
# Written numbers are read

* `Json.IsWhole`: digits that can stand before a point.
* `Json.readNumber_whole`, `Json.readNumber_point`, `Json.readNumber_power`: the forms of numbers.
* `Json.readScalar_ofInt`, `Json.readScalar_floatText`: a written number is read as itself.
-/

namespace AgdaFrontEnd.Json

/-! ## Digits -/

theorem isDigit_eq (c : Char) : isDigit c = c.isDigit := by
  simp only [isDigit, Char.isDigit, Char.le_def]

/-- The digits spell what the library reads from them. -/
theorem value_digitsOf (t : Text) : Digits.value (digitsOf t) = Nat.ofDigitChars 10 t 0 := by
  rw [Digits.value, digitsOf, List.foldl_map, Nat.ofDigitChars_eq_foldl]

theorem value_append (a b : Text) :
    Digits.value (digitsOf (a ++ b)) =
      10 ^ b.length * Digits.value (digitsOf a) + Digits.value (digitsOf b) := by
  rw [value_digitsOf, value_digitsOf, value_digitsOf, Nat.ofDigitChars_append,
    Nat.ofDigitChars_eq_ofDigitChars_zero]

theorem value_zeros (k : Nat) : Digits.value (digitsOf (List.replicate k '0')) = 0 := by
  rw [value_digitsOf, Nat.ofDigitChars_replicate_zero, Nat.mul_zero]

/-- Only digits, at least one of them, and no zero before another one. -/
structure IsWhole (t : Text) : Prop where
  digits : ∀ c ∈ t, isDigit c = true
  head : t = ['0'] ∨ ∃ c r, t = c :: r ∧ c ≠ '0'

theorem isDigit_of_mem_ofNat {n : Nat} : ∀ c ∈ Text.ofNat n, isDigit c = true := by
  intro c hc
  rw [isDigit_eq]
  exact Text.isDigit_of_mem_ofNat hc

theorem value_ofNat (n : Nat) : Digits.value (digitsOf (Text.ofNat n)) = n := by
  rw [value_digitsOf]
  exact Nat.ofDigitChars_ten_toDigits

theorem isDigit_of_mem_zeros {k : Nat} : ∀ c ∈ List.replicate k '0', isDigit c = true := by
  intro c hc
  rw [List.eq_of_mem_replicate hc]
  decide

theorem isWhole_ofNat (n : Nat) : IsWhole (Text.ofNat n) where
  digits := isDigit_of_mem_ofNat
  head := by
    rcases Nat.eq_zero_or_pos n with rfl | hn
    · exact .inl (Nat.toDigits_zero 10)
    · exact .inr (Text.exists_cons_ofNat hn)

/-- A number behind which the text goes on with neither a digit, a point nor an exponent. -/
def EndsNumber (rest : Text) : Prop := ∀ c ∈ rest.head?, isDigit c = false ∧ c ≠ '.' ∧ c ≠ 'e' ∧ c ≠ 'E'

/-- Digits are read up to the first character that is none. -/
theorem span_digits {ds rest : Text} (hd : ∀ c ∈ ds, isDigit c = true)
    (hr : ∀ c ∈ rest.head?, isDigit c = false) :
    (ds ++ rest).takeWhile isDigit = ds ∧ (ds ++ rest).dropWhile isDigit = rest := by
  rw [List.takeWhile_append_of_pos hd, List.dropWhile_append_of_pos hd]
  cases rest with
  | nil => simp
  | cons c r =>
    have hc := hr c rfl
    simp [hc]

/-! ## Parts of numbers -/

theorem wholePart?_append {whole rest : Text} (hw : IsWhole whole)
    (hr : ∀ c ∈ rest.head?, isDigit c = false) : wholePart? (whole ++ rest) = some (whole, rest) := by
  rcases hw.head with rfl | ⟨c, r, rfl, hc⟩
  · rfl
  · obtain ⟨htake, hdrop⟩ := span_digits hw.digits hr
    rw [wholePart?]
    · rw [htake, hdrop]
      rfl
    · intro r' h
      exact hc (List.cons.inj h).1

theorem fraction?_append {places rest : Text} (hne : places ≠ []) (hp : ∀ c ∈ places, isDigit c = true)
    (hr : ∀ c ∈ rest.head?, isDigit c = false) :
    fraction? ('.' :: (places ++ rest)) = some (places, rest) := by
  obtain ⟨htake, hdrop⟩ := span_digits hp hr
  cases places with
  | nil => exact absurd rfl hne
  | cons d places =>
    rw [List.cons_append] at htake hdrop ⊢
    rw [fraction?, if_pos (hp d (.head _)), htake, hdrop]

theorem fraction?_eq_none {rest : Text} (hr : ∀ c ∈ rest.head?, c ≠ '.') : fraction? rest = none := by
  rw [fraction?]
  intro d r h
  exact hr '.' (by rw [h]; rfl) rfl

theorem exponent?_eq_none {rest : Text} (hr : ∀ c ∈ rest.head?, c ≠ 'e' ∧ c ≠ 'E') :
    exponent? rest = none := by
  cases rest with
  | nil => rfl
  | cons c r =>
    obtain ⟨he, hE⟩ := hr c rfl
    simp [exponent?, he, hE]

theorem exponent?_signed (negative : Bool) {ds rest : Text} (hne : ds ≠ [])
    (hd : ∀ c ∈ ds, isDigit c = true) (hr : ∀ c ∈ rest.head?, isDigit c = false) :
    exponent? ('e' :: (if negative then '-' else '+') :: (ds ++ rest)) =
      some (if negative then -(Digits.value (digitsOf ds) : Int) else Digits.value (digitsOf ds),
        rest) := by
  obtain ⟨htake, hdrop⟩ := span_digits hd hr
  obtain ⟨d, ds, rfl⟩ := List.exists_cons_of_ne_nil hne
  rw [List.cons_append] at htake hdrop ⊢
  cases negative <;> simp [exponent?, htake, hdrop]

/-- A written exponent is read as it is. -/
theorem exponent?_exponentText (x : Int) {rest : Text} (hr : ∀ c ∈ rest.head?, isDigit c = false) :
    exponent? ('e' :: (Binary64.exponentText x ++ rest)) = some (x, rest) := by
  have hdigits : ∀ c ∈ Text.padLeft 2 '0' (Text.ofNat x.natAbs), isDigit c = true := by
    intro c hc
    rcases List.mem_append.1 hc with hc | hc
    · exact isDigit_of_mem_zeros c hc
    · exact isDigit_of_mem_ofNat c hc
  have hvalue : Digits.value (digitsOf (Text.padLeft 2 '0' (Text.ofNat x.natAbs))) = x.natAbs := by
    rw [Text.padLeft, value_append, value_zeros, value_ofNat, Nat.mul_zero, Nat.zero_add]
  have hne : Text.padLeft 2 '0' (Text.ofNat x.natAbs) ≠ [] := by
    simp [Text.padLeft, Text.ofNat_ne_nil]
  have h := exponent?_signed (decide (x < 0)) hne hdigits hr
  simp only [decide_eq_true_eq] at h
  rw [hvalue] at h
  have hx : (if x < 0 then -(x.natAbs : Int) else x.natAbs) = x := by
    split <;> omega
  rw [hx] at h
  exact h

/-! ## Numbers -/

theorem EndsNumber.fraction?_eq {rest : Text} (hr : EndsNumber rest) : fraction? rest = none :=
  fraction?_eq_none fun c hc => (hr c hc).2.1

theorem EndsNumber.exponent?_eq {rest : Text} (hr : EndsNumber rest) : exponent? rest = none :=
  exponent?_eq_none fun c hc => (hr c hc).2.2

section Numbers

variable {t whole places r r' rest : Text} {power : Int} (negative : Bool)
  (hw : wholePart? t = some (whole, r))

include hw

theorem readNumber_whole (hf : fraction? r = none) (he : exponent? r = none) :
    readNumber negative t =
      match Integer.ofDigits (digitsOf whole) with
      | .ok n => .ok (.int (if negative then -(n : Int) else n), r)
      | .error _ => .error (.tooManyDigits whole.length) := by
  unfold readNumber
  rw [hw]
  dsimp only
  rw [hf]
  dsimp only
  rw [he]
  dsimp only
  exact if_neg Bool.false_ne_true

theorem readNumber_point (hf : fraction? r = some (places, rest)) (he : exponent? rest = none) :
    readNumber negative t =
      .ok (.float (Binary64.ofDecimal negative (Digits.value (digitsOf (whole ++ places)))
        (-places.length)), rest) := by
  unfold readNumber
  rw [hw]
  dsimp only
  rw [hf]
  dsimp only
  rw [he]
  dsimp only
  rw [if_pos rfl, zero_sub]

theorem readNumber_power (hf : fraction? r = none) (he : exponent? r = some (power, rest)) :
    readNumber negative t =
      .ok (.float (Binary64.ofDecimal negative (Digits.value (digitsOf whole)) power), rest) := by
  unfold readNumber
  rw [hw]
  dsimp only
  rw [hf]
  dsimp only
  rw [he]
  dsimp only
  rw [if_pos rfl, List.append_nil, List.length_nil, Nat.cast_zero, sub_zero]

theorem readNumber_point_power (hf : fraction? r = some (places, r'))
    (he : exponent? r' = some (power, rest)) :
    readNumber negative t =
      .ok (.float (Binary64.ofDecimal negative (Digits.value (digitsOf (whole ++ places)))
        (power - places.length)), rest) := by
  unfold readNumber
  rw [hw]
  dsimp only
  rw [hf]
  dsimp only
  rw [he]
  dsimp only
  rw [if_pos rfl]

end Numbers

/-! ## Doubles -/

/-- The text is read as a double that has the value `n * 10 ^ power`. -/
def ReadsAs (negative : Bool) (n : Nat) (power : Int) (rest t : Text) : Prop :=
  ∃ (digits : Nat) (exponent : Int), 0 < digits ∧ (digits : ℚ) * 10 ^ exponent = n * 10 ^ power ∧
    readNumber negative t = .ok (.float (Binary64.ofDecimal negative digits exponent), rest)

section Decimal

variable {n : Nat} {power : Int} {rest : Text} (negative : Bool) (hr : EndsNumber rest)

include hr

/-- Digits are moved to the place of their point by zeros before or behind them. -/
theorem readsAs_point {whole places : Text} (hn : 0 < n) (hw : IsWhole whole) (hne : places ≠ [])
    (hp : ∀ c ∈ places, isDigit c = true)
    (hvalue : (Digits.value (digitsOf (whole ++ places)) : ℚ) = n * 10 ^ (power + places.length)) :
    ReadsAs negative n power rest (whole ++ '.' :: places ++ rest) := by
  refine ⟨Digits.value (digitsOf (whole ++ places)), -places.length, ?_, ?_, ?_⟩
  · have hpos : (0 : ℚ) < Digits.value (digitsOf (whole ++ places)) := by
      rw [hvalue]
      have hn' : (0 : ℚ) < n := by exact_mod_cast hn
      positivity
    exact_mod_cast hpos
  · rw [hvalue, mul_assoc, ← zpow_add₀ (by norm_num)]
    congr 2
    ring
  · have hf := fraction?_append hne hp fun c hc => (hr c hc).1
    have hw' : wholePart? (whole ++ '.' :: (places ++ rest)) = some (whole, '.' :: (places ++ rest)) := by
      refine wholePart?_append hw fun c hc => ?_
      cases hc
      decide
    rw [List.append_assoc, List.cons_append]
    exact readNumber_point negative hw' hf hr.exponent?_eq

/-- With an exponent, one digit stands before the point, and the point is left out if no other
digit follows. -/
theorem readsAs_power (hn : 0 < n) {d : Char} {more : Text} (hd : Text.ofNat n = d :: more) :
    ReadsAs negative n power rest
      ([d] ++ ((if more = [] then [] else '.' :: more) ++
        'e' :: (Binary64.exponentText (more.length + power) ++ rest))) := by
  have hdigits : ∀ c ∈ [d] ++ more, isDigit c = true := by
    rw [List.singleton_append, ← hd]
    exact isDigit_of_mem_ofNat
  have he := exponent?_exponentText (more.length + power) fun c hc => (hr c hc).1
  have hvalue : Digits.value (digitsOf ([d] ++ more)) = n := by
    rw [List.singleton_append, ← hd, value_ofNat]
  have hwhole {c : Char} {r : Text} (hc : isDigit c = false) :
      wholePart? ([d] ++ c :: r) = some ([d], c :: r) := by
    refine wholePart?_append ⟨fun c hc => hdigits c (List.mem_append_left _ hc), ?_⟩ fun c' hc' => ?_
    · by_cases hzero : d = '0'
      · exact .inl (by rw [hzero])
      · exact .inr ⟨d, [], rfl, hzero⟩
    · cases hc'
      exact hc
  refine ⟨n, power, hn, rfl, ?_⟩
  by_cases hmore : more = []
  · subst hmore
    rw [if_pos rfl, List.nil_append]
    have hf : fraction? ('e' :: (Binary64.exponentText (([] : Text).length + power) ++ rest)) = none :=
      fraction?_eq_none fun c hc => by cases hc; decide
    rw [readNumber_power negative (hwhole (by decide)) hf he, ← List.append_nil [d], hvalue,
      List.length_nil, Nat.cast_zero, zero_add]
  · rw [if_neg hmore]
    have hdelim : ∀ c ∈ ('e' :: (Binary64.exponentText (more.length + power) ++ rest)).head?,
        isDigit c = false := fun c hc => by cases hc; decide
    have hf := fraction?_append hmore (fun c hc => hdigits c (List.mem_append_right _ hc)) hdelim
    refine (readNumber_point_power negative (hwhole (by decide)) hf he).trans ?_
    rw [hvalue, add_sub_cancel_left]

/-- A whole number: zeros fill the places up to the point. -/
theorem readsAs_filled (hn : 0 < n) (hpower : 0 ≤ power) : ReadsAs negative n power rest
    (Text.ofNat n ++ List.replicate power.toNat '0' ++ '.' :: ['0'] ++ rest) := by
  obtain ⟨k, rfl⟩ := Int.eq_ofNat_of_zero_le hpower
  obtain ⟨d, more, hd, hhead⟩ := Text.exists_cons_ofNat hn
  have hwhole : IsWhole (Text.ofNat n ++ List.replicate k '0') :=
    ⟨fun c hc => (List.mem_append.1 hc).elim (isDigit_of_mem_ofNat c) (isDigit_of_mem_zeros c),
      .inr ⟨d, _, by rw [hd, List.cons_append], hhead⟩⟩
  have hvalue : (Digits.value (digitsOf (Text.ofNat n ++ List.replicate k '0' ++ ['0'])) : ℚ) =
      n * 10 ^ ((k : ℤ) + (['0'].length : ℕ)) := by
    rw [value_append, value_append, value_ofNat, value_zeros, List.length_replicate,
      List.length_singleton, show Digits.value (digitsOf ['0']) = 0 from rfl,
      zpow_add₀ (by norm_num), zpow_natCast]
    push_cast
    ring
  exact readsAs_point negative hr hn hwhole (List.cons_ne_nil _ _) (List.forall_mem_singleton.2 rfl) hvalue

/-- The point stands among the digits. -/
theorem readsAs_split (hn : 0 < n) {k : Nat} (hk : 0 < k) (hlt : k < (Text.ofNat n).length)
    (hpower : power = k - (Text.ofNat n).length) : ReadsAs negative n power rest
    ((Text.ofNat n).take k ++ '.' :: (Text.ofNat n).drop k ++ rest) := by
  obtain ⟨d, more, hd, hhead⟩ := Text.exists_cons_ofNat hn
  obtain ⟨k, rfl⟩ := Nat.exists_eq_add_one_of_ne_zero hk.ne_zero
  have hwhole : IsWhole ((Text.ofNat n).take (k + 1)) :=
    ⟨fun c hc => isDigit_of_mem_ofNat c (List.mem_of_mem_take hc),
      .inr ⟨d, more.take k, by rw [hd, List.take_succ_cons], hhead⟩⟩
  have hne : (Text.ofNat n).drop (k + 1) ≠ [] := by
    rw [ne_eq, List.drop_eq_nil_iff]
    exact not_le.2 hlt
  have hvalue : (Digits.value (digitsOf ((Text.ofNat n).take (k + 1) ++ (Text.ofNat n).drop (k + 1))) : ℚ) =
      n * 10 ^ (power + ((Text.ofNat n).drop (k + 1)).length) := by
    have hplaces : power + (((Text.ofNat n).length - (k + 1) : ℕ) : ℤ) = 0 := by omega
    rw [List.take_append_drop, value_ofNat, List.length_drop, hplaces, zpow_zero, mul_one]
  exact readsAs_point negative hr hn hwhole hne
    (fun c hc => isDigit_of_mem_ofNat c (List.mem_of_mem_drop hc)) hvalue

/-- Zeros stand between the point and the digits. -/
theorem readsAs_shifted (hn : 0 < n) {k : Nat} (hpower : power = -(k + (Text.ofNat n).length)) :
    ReadsAs negative n power rest
      (['0'] ++ '.' :: (List.replicate k '0' ++ Text.ofNat n) ++ rest) := by
  have hwhole : IsWhole ['0'] := ⟨List.forall_mem_singleton.2 rfl, .inl rfl⟩
  have hne : List.replicate k '0' ++ Text.ofNat n ≠ [] := by simp [Text.ofNat_ne_nil]
  have hvalue : (Digits.value (digitsOf (['0'] ++ (List.replicate k '0' ++ Text.ofNat n))) : ℚ) =
      n * 10 ^ (power + (List.replicate k '0' ++ Text.ofNat n).length) := by
    have hplaces : power + ((k + (Text.ofNat n).length : ℕ) : ℤ) = 0 := by
      rw [hpower]
      push_cast
      ring
    rw [value_append, value_append, value_ofNat, value_zeros, List.length_append,
      List.length_replicate, hplaces, show Digits.value (digitsOf ['0']) = 0 from rfl]
    simp
  exact readsAs_point negative hr hn hwhole hne
    (fun c hc => (List.mem_append.1 hc).elim (isDigit_of_mem_zeros c) (isDigit_of_mem_ofNat c)) hvalue

/-- The text of digits is read as the number that they stand for. -/
theorem readsAs_decimalText (hn : 0 < n) :
    ReadsAs negative n power rest (Binary64.decimalText n power ++ rest) := by
  obtain ⟨d, more, hd, -⟩ := Text.exists_cons_ofNat hn
  have hlength : ((Text.ofNat n).length : ℤ) = more.length + 1 := by simp [hd]
  unfold Binary64.decimalText
  dsimp only
  split_ifs with hfar hpower hpoint
  · have hlead : ((Text.ofNat n).length : ℤ) - 1 + power = more.length + power := by omega
    have h : ReadsAs negative n power rest _ := readsAs_power negative hr hn hd
    rw [hlead, hd]
    cases more <;> simpa using h
  · have h := readsAs_filled negative hr hn hpower
    simpa using h
  · have h := readsAs_split negative hr hn
      (show 0 < (((Text.ofNat n).length : ℤ) - 1 + power).toNat + 1 by omega) (by omega)
      (show power = _ by omega)
    simpa using h
  · have h := readsAs_shifted negative hr hn
      (show power = -(((-(((Text.ofNat n).length : ℤ) - 1 + power) - 1).toNat : ℤ) + _) by omega)
    simpa using h

end Decimal

/-! ## Scalars -/

/-- A number starts with a digit. -/
theorem exists_cons_of_wholePart? {t : Text} {r : Text × Text} (h : wholePart? t = some r) :
    ∃ c s, t = c :: s ∧ isDigit c = true := by
  cases t with
  | nil => simp [wholePart?] at h
  | cons c s =>
    refine ⟨c, s, rfl, ?_⟩
    by_contra hc
    have hzero : c ≠ '0' := by
      rintro rfl
      exact hc (by decide)
    unfold wholePart? at h
    split at h
    · rename_i heq
      exact hzero (List.cons.inj heq).1
    · simp [hc] at h

/-- A name is read as its value. -/
theorem readScalar_name {name : Text} {v : Json} (h : (name, v) ∈ names) (rest : Text) :
    readScalar (name ++ rest) = .ok (v, rest) := by
  simp only [names, List.mem_cons, Prod.mk.injEq, List.not_mem_nil, or_false] at h
  rcases h with ⟨rfl, rfl⟩ | ⟨rfl, rfl⟩ | ⟨rfl, rfl⟩ | ⟨rfl, rfl⟩ | ⟨rfl, rfl⟩ | ⟨rfl, rfl⟩ <;>
    simp [readScalar, names, Text.dropPrefix?]

/-- No name starts with a digit, or with a sign and a digit. -/
theorem findSome?_names_eq_none (negative : Bool) {c : Char} (hc : isDigit c = true) (t : Text) :
    (names.findSome? fun (name, v) =>
      (Text.dropPrefix? ((if negative then ['-'] else []) ++ c :: t) name).map (v, ·)) = none := by
  have hne (d : Char) (hd : isDigit d = false) : d ≠ c := by
    rintro rfl
    rw [hc] at hd
    cases hd
  have hn := hne 'n' (by decide)
  have ht := hne 't' (by decide)
  have hf := hne 'f' (by decide)
  have hN := hne 'N' (by decide)
  have hI := hne 'I' (by decide)
  have hm := hne '-' (by decide)
  cases negative <;> simp [names, Text.dropPrefix?, hn, ht, hf, hN, hI, hm]

/-- A number is read behind its sign. -/
theorem readScalar_eq_readNumber (negative : Bool) {t : Text} {w : Text × Text}
    (hw : wholePart? t = some w) :
    readScalar ((if negative then ['-'] else []) ++ t) = readNumber negative t := by
  obtain ⟨c, s, rfl, hc⟩ := exists_cons_of_wholePart? hw
  have hminus : c ≠ '-' := by
    rintro rfl
    exact absurd hc (by decide)
  unfold readScalar
  rw [findSome?_names_eq_none negative hc s]
  cases negative with
  | true => rfl
  | false =>
    dsimp only
    split
    · rename_i heq
      exact absurd (List.cons.inj heq).1 hminus
    · rfl

theorem readScalar_of_readNumber {negative : Bool} {t : Text} {r : Json × Text}
    (h : readNumber negative t = .ok r) :
    readScalar ((if negative then ['-'] else []) ++ t) = .ok r := by
  cases hw : wholePart? t with
  | none => simp [readNumber, hw] at h
  | some w => rw [readScalar_eq_readNumber negative hw, h]

theorem readNumber_ofNat (negative : Bool) {n : Nat} {rest : Text} (hr : EndsNumber rest)
    (hlimit : (Text.ofNat n).length ≤ IntegerFault.digitLimit) :
    readNumber negative (Text.ofNat n ++ rest) =
      .ok (.int (if negative then -(n : Int) else n), rest) := by
  have hw := wholePart?_append (isWhole_ofNat n) fun c hc => (hr c hc).1
  have hlength : ¬ IntegerFault.digitLimit < (digitsOf (Text.ofNat n)).length := by
    rw [digitsOf, List.length_map]
    exact not_lt.2 hlimit
  rw [readNumber_whole negative hw hr.fraction?_eq hr.exponent?_eq, Integer.ofDigits, if_neg hlength,
    value_ofNat]

/-- **A written integer is read as itself.** -/
theorem readScalar_ofInt {n : Int} {rest : Text} (hr : EndsNumber rest)
    (hlimit : (Text.ofNat n.natAbs).length ≤ IntegerFault.digitLimit) :
    readScalar (Text.ofInt n ++ rest) = .ok (.int n, rest) := by
  cases n with
  | ofNat n => exact readScalar_of_readNumber (readNumber_ofNat false hr hlimit)
  | negSucc n => exact readScalar_of_readNumber (readNumber_ofNat true hr hlimit)

theorem readNumber_zero (negative : Bool) {rest : Text} (hr : EndsNumber rest) :
    readNumber negative ("0.0".toList ++ rest) = .ok (.float (Binary64.signedZero negative), rest) := by
  have hf := fraction?_append (List.cons_ne_nil '0' []) (List.forall_mem_singleton.2 rfl)
    fun c hc => (hr c hc).1
  have hw : wholePart? (['0'] ++ '.' :: (['0'] ++ rest)) = some (['0'], '.' :: (['0'] ++ rest)) := rfl
  exact readNumber_point negative hw hf hr.exponent?_eq

theorem readNumber_finite (negative : Bool) {m : Nat} {e : Int} {rest : Text} (hr : EndsNumber rest)
    (hm : Binary64.IsFinite m e) (hpos : 0 < m) :
    readNumber negative (Binary64.decimalText (Binary64.shortestDigits m e).1
      (Binary64.shortestDigits m e).2 ++ rest) = .ok (.float (.finite negative m e), rest) := by
  obtain ⟨hne, hround⟩ := Binary64.shortestDigits_spec hm hpos
  obtain ⟨digits, exponent, hdigits, hvalue, hread⟩ :=
    readsAs_decimalText negative hr (Nat.pos_of_ne_zero hne)
  rw [← hvalue] at hround
  rw [hread, Binary64.ofDecimal_of_roundsTo hm hpos hdigits hround negative]

/-- **A written double is read as itself.** -/
theorem readScalar_floatText {x : Binary64} {rest : Text} (hr : EndsNumber rest) (hx : x.IsDouble) :
    readScalar (floatText x ++ rest) = .ok (.float x, rest) := by
  cases x with
  | nan => exact readScalar_name (by simp [names, floatText]) rest
  | infinite negative => cases negative <;> exact readScalar_name (by simp [names, floatText]) rest
  | finite negative m e =>
    rw [floatText, Binary64.toText, List.append_assoc]
    · apply readScalar_of_readNumber
      by_cases hm : m = 0
      · have he : e = Binary64.leastExponent := by
          by_contra hne
          have hfull := hx.full hne
          rw [hm] at hfull
          exact absurd hfull (by decide)
        rw [if_pos hm, readNumber_zero negative hr, hm, he, Binary64.signedZero]
      · rw [if_neg hm]
        exact readNumber_finite negative hr hx (Nat.pos_of_ne_zero hm)
    · rintro ⟨⟩
    · rintro _ ⟨⟩

end AgdaFrontEnd.Json
