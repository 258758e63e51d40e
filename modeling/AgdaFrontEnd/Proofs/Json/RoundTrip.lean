import AgdaFrontEnd.Proofs.Json.Number
import AgdaFrontEnd.Proofs.Json.String

/-!
# Round trip of JSON values

A value is written on one line or on many.  Reading the written form gives the value back, whatever
follows it, as long as its numbers are of those that can be read, no object has a key twice and the
value is no deeper than the reader goes.  If it is deeper, the reader stops at the first array or
object for which no level is left.

* `Json.Regular`: the values that are read back by a reader that goes deep enough.
* `Json.nesting`, `Json.tooDeep?`: how deep a value is, and where a reader stops.
* `Json.Regular.readsBack`: what is read for a written value in any layout.
* `Json.ofText_toText`: the same for a text that is a written value and nothing else.
-/

namespace AgdaFrontEnd.Json

/-- The values that a reader can give: an integer has no more digits than are read, a floating-point
number is a double, and an object holds each key once. -/
inductive Regular : Json → Prop where
  | null : Regular .null
  | bool (b : Bool) : Regular (.bool b)
  | int {n : Int} (h : (Text.ofNat n.natAbs).length ≤ IntegerFault.digitLimit) : Regular (.int n)
  | float {x : Binary64} (h : x.IsDouble) : Regular (.float x)
  | string (t : Text) : Regular (.string t)
  | array {items : List Json} (h : ∀ v ∈ items, Regular v) : Regular (.array items)
  | object {members : List (Text × Json)} (keys : (members.map Prod.fst).Nodup)
      (h : ∀ m ∈ members, Regular m.2) : Regular (.object members)

attribute [simp] Regular.null Regular.bool Regular.string

@[simp] theorem regular_int_iff {n : Int} :
    Regular (.int n) ↔ (Text.ofNat n.natAbs).length ≤ IntegerFault.digitLimit :=
  ⟨fun | .int h => h, .int⟩

@[simp] theorem regular_float_iff {x : Binary64} : Regular (.float x) ↔ x.IsDouble :=
  ⟨fun | .float h => h, .float⟩

@[simp] theorem regular_array_iff {items : List Json} :
    Regular (.array items) ↔ ∀ v ∈ items, Regular v :=
  ⟨fun | .array h => h, .array⟩

@[simp] theorem regular_object_iff {members : List (Text × Json)} :
    Regular (.object members) ↔ (members.map Prod.fst).Nodup ∧ ∀ m ∈ members, Regular m.2 :=
  ⟨fun | .object keys h => ⟨keys, h⟩, fun ⟨keys, h⟩ => .object keys h⟩

/-! ## Depth -/

mutual

/-- How many arrays and objects stand within each other in a value. -/
def nesting : Json → Nat
  | .array items => itemsNesting items + 1
  | .object members => membersNesting members + 1
  | _ => 0

/-- The depth of the deepest item. -/
def itemsNesting : List Json → Nat
  | [] => 0
  | v :: vs => max v.nesting (itemsNesting vs)

/-- The depth of the deepest member. -/
def membersNesting : List (Text × Json) → Nat
  | [] => 0
  | (_, v) :: ms => max v.nesting (membersNesting ms)

end

mutual

/-- The first array or object, in reading order, for which no level is left. -/
def tooDeep? (levels : Nat) : Json → Option Container
  | .array items =>
    match levels with
    | 0 => some .array
    | levels + 1 => tooDeepItem? levels items
  | .object members =>
    match levels with
    | 0 => some .object
    | levels + 1 => tooDeepMember? levels members
  | _ => none

/-- The first one in items. -/
def tooDeepItem? (levels : Nat) : List Json → Option Container
  | [] => none
  | v :: vs => (v.tooDeep? levels).or (tooDeepItem? levels vs)

/-- The first one in members. -/
def tooDeepMember? (levels : Nat) : List (Text × Json) → Option Container
  | [] => none
  | (_, v) :: ms => (v.tooDeep? levels).or (tooDeepMember? levels ms)

end

mutual

/-- Nothing stands too deep for a reader that goes as deep as the value. -/
theorem tooDeep?_eq_none_iff : ∀ {levels : Nat} {v : Json}, v.tooDeep? levels = none ↔ v.nesting ≤ levels
  | 0, .array _ | 0, .object _ => by simp [tooDeep?, nesting]
  | _ + 1, .array items => by
    rw [tooDeep?, nesting, Nat.add_le_add_iff_right]
    exact tooDeepItem?_eq_none_iff
  | _ + 1, .object members => by
    rw [tooDeep?, nesting, Nat.add_le_add_iff_right]
    exact tooDeepMember?_eq_none_iff
  | _, .null | _, .bool _ | _, .int _ | _, .float _ | _, .string _ => by simp [tooDeep?, nesting]

theorem tooDeepItem?_eq_none_iff : ∀ {levels : Nat} {vs : List Json},
    tooDeepItem? levels vs = none ↔ itemsNesting vs ≤ levels
  | _, [] => by simp [tooDeepItem?, itemsNesting]
  | levels, v :: vs => by
    rw [tooDeepItem?, itemsNesting, Option.or_eq_none_iff, Nat.max_le, tooDeep?_eq_none_iff,
      tooDeepItem?_eq_none_iff]

theorem tooDeepMember?_eq_none_iff : ∀ {levels : Nat} {ms : List (Text × Json)},
    tooDeepMember? levels ms = none ↔ membersNesting ms ≤ levels
  | _, [] => by simp [tooDeepMember?, membersNesting]
  | levels, (k, v) :: ms => by
    rw [tooDeepMember?, membersNesting, Option.or_eq_none_iff, Nat.max_le, tooDeep?_eq_none_iff,
      tooDeepMember?_eq_none_iff]

end

/-- A result, unless something stands too deep. -/
def unlessTooDeep {α : Type} (r : α) : Option Container → Except Fault α
  | none => .ok r
  | some c => .error (.tooDeep c)

/-! ## Blanks -/

theorem skipSpaces_append {b : Text} (hb : ∀ c ∈ b, isSpace c = true) (t : Text) :
    skipSpaces (b ++ t) = skipSpaces t := List.dropWhile_append_of_pos hb

theorem skipSpaces_cons {c : Char} (hc : isSpace c = false) (t : Text) :
    skipSpaces (c :: t) = c :: t := by simp [skipSpaces, hc]

theorem isSpace_newLine (layout : Layout) (depth : Nat) :
    ∀ c ∈ layout.newLine depth, isSpace c = true := by
  intro c hc
  cases layout with
  | oneLine => cases hc
  | indented width =>
    rcases List.mem_cons.1 hc with rfl | hc
    · decide
    · rw [List.eq_of_mem_replicate hc]
      decide

/-- Two parts are separated by a comma and blanks. -/
theorem separator_eq (layout : Layout) (depth : Nat) :
    ∃ b, layout.separator depth = ',' :: b ∧ ∀ c ∈ b, isSpace c = true := by
  cases layout with
  | oneLine => exact ⟨[' '], rfl, List.forall_mem_singleton.2 rfl⟩
  | indented width => exact ⟨_, rfl, isSpace_newLine (.indented width) depth⟩

theorem endsNumber_cons {c : Char} (hc : isDigit c = false ∧ c ≠ '.' ∧ c ≠ 'e' ∧ c ≠ 'E') (t : Text) :
    EndsNumber (c :: t) := by
  intro c' hc'
  cases hc'
  exact hc

theorem endsNumber_of_isSpace {c : Char} (hc : isSpace c = true) (t : Text) : EndsNumber (c :: t) := by
  apply endsNumber_cons
  simp only [isSpace, Bool.or_eq_true, decide_eq_true_eq] at hc
  rcases hc with ((rfl | rfl) | rfl) | rfl <;> decide

theorem endsNumber_append {b t : Text} (hb : ∀ c ∈ b, isSpace c = true) (ht : EndsNumber t) :
    EndsNumber (b ++ t) := by
  cases b with
  | nil => exact ht
  | cons c b => exact endsNumber_of_isSpace (hb c (.head _)) (b ++ t)

/-! ## The first character of a value -/

/-- The characters with which a scalar starts. -/
def startsScalar (c : Char) : Bool := isDigit c || "ntfNI-".toList.contains c

theorem exists_cons_of_readScalar {t : Text} {r : Json × Text} (h : readScalar t = .ok r) :
    ∃ c s, t = c :: s ∧ ∀ d, startsScalar d = false → c ≠ d := by
  have hstart {c : Char} (hc : startsScalar c = true) : ∀ d, startsScalar d = false → c ≠ d := by
    rintro d hd rfl
    rw [hc] at hd
    cases hd
  unfold readScalar at h
  split at h
  · rename_i hs
    obtain ⟨⟨name, v⟩, hmem, hname⟩ := List.exists_of_findSome?_eq_some hs
    obtain ⟨s, hs, -⟩ := Option.map_eq_some_iff.1 hname
    rw [Text.eq_append_of_dropPrefix? hs]
    simp only [names, List.mem_cons, Prod.mk.injEq, List.not_mem_nil, or_false] at hmem
    rcases hmem with ⟨rfl, -⟩ | ⟨rfl, -⟩ | ⟨rfl, -⟩ | ⟨rfl, -⟩ | ⟨rfl, -⟩ | ⟨rfl, -⟩ <;>
      exact ⟨_, _, rfl, hstart (by decide)⟩
  · split at h
    · exact ⟨_, _, rfl, hstart (by decide)⟩
    · cases hw : wholePart? t with
      | none => simp [readNumber, hw] at h
      | some w =>
        obtain ⟨c, s, rfl, hc⟩ := exists_cons_of_wholePart? hw
        exact ⟨c, s, rfl, hstart (by simp [startsScalar, hc])⟩

/-- A value that starts with no quote, bracket or brace is a scalar. -/
theorem readValue_eq_readScalar {c : Char} {s : Text} (hq : c ≠ '"') (hb : c ≠ '[') (hc : c ≠ '{')
    (fuel levels : Nat) : readValue (fuel + 1) levels (c :: s) = readScalar (c :: s) := by
  rw [readValue]
  · rintro r ⟨⟩
    exact hq rfl
  · rintro r ⟨⟩
    exact hb rfl
  · rintro r ⟨⟩
    exact hc rfl

theorem readValue_of_readScalar {t : Text} {r : Json × Text} (h : readScalar t = .ok r)
    (fuel levels : Nat) : readValue (fuel + 1) levels t = .ok r := by
  obtain ⟨c, s, rfl, hne⟩ := exists_cons_of_readScalar h
  rw [readValue_eq_readScalar (hne '"' (by decide)) (hne '[' (by decide)) (hne '{' (by decide)), h]

/-- A value starts with no blank and with no closing bracket or brace. -/
theorem exists_cons_of_readValue {fuel levels : Nat} {t : Text} {r : Json × Text}
    (h : readValue fuel levels t = .ok r) :
    ∃ c s, t = c :: s ∧ isSpace c = false ∧ c ≠ ']' ∧ c ≠ '}' := by
  cases fuel with
  | zero => cases h
  | succ fuel =>
    unfold readValue at h
    split at h
    · exact ⟨_, _, rfl, by decide⟩
    · exact ⟨_, _, rfl, by decide⟩
    · exact ⟨_, _, rfl, by decide⟩
    · obtain ⟨c, s, rfl, hne⟩ := exists_cons_of_readScalar h
      refine ⟨c, s, rfl, ?_, hne ']' (by decide), hne '}' (by decide)⟩
      simp [isSpace, hne ' ' (by decide), hne '\t' (by decide), hne '\n' (by decide),
        hne '\r' (by decide)]

/-! ## One step of the reader -/

section Steps

variable {fuel levels : Nat} {t r r' s s' rest key : Text} {v : Json} {vs : List Json}
  {before members : List (Text × Json)} {c c' : Option Container}

theorem readItems_last (hv : readValue fuel levels t = unlessTooDeep (v, r) c)
    (hr : skipSpaces r = ']' :: rest) :
    readItems (fuel + 1) levels t = unlessTooDeep ([v], rest) c := by
  cases c <;> simp only [readItems, unlessTooDeep, bind, Except.bind, hv, hr]

theorem readItems_more (hv : readValue fuel levels t = unlessTooDeep (v, r) c)
    (hr : skipSpaces r = ',' :: s)
    (hs : readItems fuel levels (skipSpaces s) = unlessTooDeep (vs, rest) c') :
    readItems (fuel + 1) levels t = unlessTooDeep (v :: vs, rest) (c.or c') := by
  cases c <;> cases c' <;>
    simp only [readItems, unlessTooDeep, Option.none_or, Option.some_or, bind, Except.bind, hv, hr, hs]

theorem readMembers_last (hkey : readString t = .ok (key, r)) (hr : skipSpaces r = ':' :: s)
    (hv : readValue fuel levels (skipSpaces s) = unlessTooDeep (v, s') c)
    (hs : skipSpaces s' = '}' :: rest) :
    readMembers (fuel + 1) levels before ('"' :: t) = unlessTooDeep (put key v before, rest) c := by
  cases c <;> simp only [readMembers, unlessTooDeep, bind, Except.bind, hkey, hr, hv, hs]

theorem readMembers_more (hkey : readString t = .ok (key, r)) (hr : skipSpaces r = ':' :: s)
    (hv : readValue fuel levels (skipSpaces s) = unlessTooDeep (v, s') c)
    (hs : skipSpaces s' = ',' :: r')
    (hmore : readMembers fuel levels (put key v before) (skipSpaces r') =
      unlessTooDeep (members, rest) c') :
    readMembers (fuel + 1) levels before ('"' :: t) = unlessTooDeep (members, rest) (c.or c') := by
  cases c <;> cases c' <;>
    simp only [readMembers, unlessTooDeep, Option.none_or, Option.some_or, bind, Except.bind, hkey, hr,
      hv, hs, hmore]

theorem readValue_string (h : readString t = .ok (key, rest)) :
    readValue (fuel + 1) levels ('"' :: t) = .ok (.string key, rest) := by
  rw [readValue, h]
  rfl

theorem readValue_array (ht : ∀ rest, skipSpaces t ≠ ']' :: rest)
    (h : readItems fuel levels (skipSpaces t) = unlessTooDeep (vs, rest) c) :
    readValue (fuel + 1) (levels + 1) ('[' :: t) = unlessTooDeep (.array vs, rest) c := by
  rw [readValue]
  split
  · rename_i heq
    exact absurd heq (ht _)
  · rw [h]
    cases c <;> rfl

theorem readValue_object (ht : ∀ rest, skipSpaces t ≠ '}' :: rest)
    (h : readMembers fuel levels [] (skipSpaces t) = unlessTooDeep (members, rest) c) :
    readValue (fuel + 1) (levels + 1) ('{' :: t) = unlessTooDeep (.object members, rest) c := by
  rw [readValue]
  split
  · rename_i heq
    exact absurd heq (ht _)
  · rw [h]
    cases c <;> rfl

end Steps

/-! ## Values in any layout -/

/-- The written value is read back, whatever delimits it, with more fuel than it has characters, unless
something in it stands too deep. -/
def ReadsBack (layout : Layout) (v : Json) : Prop :=
  ∀ (depth levels : Nat) {fuel : Nat} {rest : Text},
    (valueText layout depth v).length < fuel → EndsNumber rest →
    readValue fuel levels (valueText layout depth v ++ rest) =
      unlessTooDeep (v, rest) (v.tooDeep? levels)

variable {layout : Layout}

theorem readsBack_of_readScalar {v : Json} {t : Text} (htext : ∀ depth, valueText layout depth v = t)
    (hv : ∀ levels, v.tooDeep? levels = none)
    (h : ∀ {rest}, EndsNumber rest → readScalar (t ++ rest) = .ok (v, rest)) : ReadsBack layout v := by
  intro depth levels fuel rest hfuel hrest
  obtain ⟨fuel, rfl⟩ := Nat.exists_eq_add_one_of_ne_zero (Nat.ne_zero_of_lt hfuel)
  rw [htext, hv]
  exact readValue_of_readScalar (h hrest) fuel levels

/-- A written value starts as a value does. -/
theorem ReadsBack.exists_cons {v : Json} {rest : Text} (hv : ReadsBack layout v) (depth : Nat)
    (hrest : EndsNumber rest) :
    ∃ c s, valueText layout depth v ++ rest = c :: s ∧ isSpace c = false ∧ c ≠ ']' ∧ c ≠ '}' := by
  have hread := hv depth v.nesting (Nat.lt_succ_self _) hrest
  rw [tooDeep?_eq_none_iff.2 (Nat.le_refl _)] at hread
  exact exists_cons_of_readValue hread

/-- Blanks are skipped up to a written value. -/
theorem ReadsBack.skipSpaces_append {v : Json} {b rest : Text} (hv : ReadsBack layout v) (depth : Nat)
    (hb : ∀ c ∈ b, isSpace c = true) (hrest : EndsNumber rest) :
    skipSpaces (b ++ (valueText layout depth v ++ rest)) = valueText layout depth v ++ rest := by
  obtain ⟨c, s, hs, hc, -⟩ := hv.exists_cons depth hrest
  rw [Json.skipSpaces_append hb, hs, skipSpaces_cons hc]

/-- A written value is read back behind the blank after a colon. -/
theorem ReadsBack.readValue_blank {v : Json} {fuel : Nat} {rest : Text} (hv : ReadsBack layout v)
    (depth levels : Nat) (hfuel : (valueText layout depth v).length < fuel) (hrest : EndsNumber rest) :
    readValue fuel levels (skipSpaces (' ' :: (valueText layout depth v ++ rest))) =
      unlessTooDeep (v, rest) (v.tooDeep? levels) := by
  have hskip := hv.skipSpaces_append depth (b := [' ']) (List.forall_mem_singleton.2 rfl) hrest
  rw [List.singleton_append] at hskip
  rw [hskip, hv depth levels hfuel hrest]

/-- Behind a part stands the next one, or blanks and a closing character. -/
theorem endsNumber_tail {t close rest : Text} {c : Char} (ht : t = [] ∨ ∃ s, t = ',' :: s)
    (hclose : ∀ c ∈ close, isSpace c = true)
    (hc : isDigit c = false ∧ c ≠ '.' ∧ c ≠ 'e' ∧ c ≠ 'E') :
    EndsNumber (t ++ (close ++ c :: rest)) := by
  rcases ht with rfl | ⟨s, rfl⟩
  · rw [List.nil_append]
    exact endsNumber_append hclose (endsNumber_cons hc rest)
  · exact endsNumber_cons (by decide) _

theorem itemsText_eq (depth : Nat) (vs : List Json) :
    itemsText layout depth vs = [] ∨ ∃ s, itemsText layout depth vs = ',' :: s := by
  cases vs with
  | nil => exact .inl rfl
  | cons v vs =>
    obtain ⟨b, hb, -⟩ := separator_eq layout depth
    exact .inr ⟨_, by rw [itemsText, hb]; rfl⟩

theorem membersText_eq (depth : Nat) (ms : List (Text × Json)) :
    membersText layout depth ms = [] ∨ ∃ s, membersText layout depth ms = ',' :: s := by
  cases ms with
  | nil => exact .inl rfl
  | cons m ms =>
    obtain ⟨b, hb, -⟩ := separator_eq layout depth
    exact .inr ⟨_, by rw [membersText, hb]; rfl⟩

theorem stringText_append (t rest : Text) :
    stringText t ++ rest = '"' :: (t.flatMap charText ++ '"' :: rest) := by simp [stringText]

/-- A new key is put at the end. -/
theorem put_of_not_mem {key : Text} (value : Json) :
    ∀ {members : List (Text × Json)}, key ∉ members.map Prod.fst →
      put key value members = members ++ [(key, value)]
  | [], _ => rfl
  | (k, v) :: rest, h => by
    rw [List.map_cons, List.mem_cons, not_or] at h
    rw [put, if_neg (Ne.symm h.1), put_of_not_mem value h.2, List.cons_append]

/-- The members of an object stand behind the ones before them. -/
theorem put_of_nodup {key : Text} {value : Json} {before after : List (Text × Json)}
    (h : ((before ++ (key, value) :: after).map Prod.fst).Nodup) :
    put key value before = before ++ [(key, value)] := by
  refine put_of_not_mem value fun hmem => ?_
  rw [List.map_append, List.map_cons, List.nodup_append] at h
  exact h.2.2 key hmem key (.head _) rfl

section Parts

variable (layout) (depth levels : Nat) (rest : Text) {close : Text}
  (hclose : ∀ c ∈ close, isSpace c = true)

include hclose

theorem endsNumber_itemsText (vs : List Json) :
    EndsNumber (itemsText layout depth vs ++ (close ++ ']' :: rest)) :=
  endsNumber_tail (itemsText_eq depth vs) hclose (by decide)

theorem endsNumber_membersText (ms : List (Text × Json)) :
    EndsNumber (membersText layout depth ms ++ (close ++ '}' :: rest)) :=
  endsNumber_tail (membersText_eq depth ms) hclose (by decide)

/-- Items are read back up to the closing bracket. -/
theorem readItems_itemsText : ∀ {vs : List Json} {v : Json} {fuel : Nat}, ReadsBack layout v →
    (∀ w ∈ vs, ReadsBack layout w) →
    (valueText layout depth v).length + (itemsText layout depth vs).length + 1 < fuel →
    readItems fuel levels
        (valueText layout depth v ++ (itemsText layout depth vs ++ (close ++ ']' :: rest))) =
      unlessTooDeep (v :: vs, rest) (tooDeepItem? levels (v :: vs))
  | vs, v, 0, _, _, hfuel => absurd hfuel (Nat.not_lt_zero _)
  | [], v, fuel + 1, hv, _, hfuel => by
    have hread := hv depth levels (show _ < fuel by omega)
      (endsNumber_itemsText layout depth rest hclose [])
    rw [tooDeepItem?, tooDeepItem?, Option.or_none]
    refine readItems_last hread ?_
    rw [itemsText, List.nil_append, skipSpaces_append hclose, skipSpaces_cons (by decide)]
  | w :: ws, v, fuel + 1, hv, hvs, hfuel => by
    obtain ⟨b, hb, hspace⟩ := separator_eq layout depth
    have htext : itemsText layout depth (w :: ws) =
        ',' :: (b ++ (valueText layout depth w ++ itemsText layout depth ws)) := by
      simp [itemsText, hb]
    have hlength := congrArg List.length htext
    simp only [List.length_cons, List.length_append] at hlength
    have hw : ReadsBack layout w := hvs w (.head _)
    have hread := hv depth levels (show _ < fuel by omega)
      (endsNumber_itemsText layout depth rest hclose (w :: ws))
    have hmore := readItems_itemsText hw (fun x hx => hvs x (.tail _ hx)) (show _ < fuel by omega)
    have hskip := hw.skipSpaces_append depth hspace (endsNumber_itemsText layout depth rest hclose ws)
    rw [← hskip] at hmore
    rw [tooDeepItem?]
    refine readItems_more hread ?_ hmore
    rw [htext, List.cons_append, skipSpaces_cons (by decide)]
    simp only [List.append_assoc]

/-- Members are read back up to the closing brace. -/
theorem readMembers_membersText : ∀ {ms before : List (Text × Json)} {key : Text} {v : Json} {fuel : Nat},
    ReadsBack layout v → (∀ m ∈ ms, ReadsBack layout m.2) →
    ((before ++ (key, v) :: ms).map Prod.fst).Nodup →
    (valueText layout depth v).length + (membersText layout depth ms).length + 1 < fuel →
    readMembers fuel levels before (stringText key ++ ([':', ' '] ++ (valueText layout depth v ++
        (membersText layout depth ms ++ (close ++ '}' :: rest))))) =
      unlessTooDeep (before ++ (key, v) :: ms, rest) (tooDeepMember? levels ((key, v) :: ms))
  | ms, before, key, v, 0, _, _, _, hfuel => absurd hfuel (Nat.not_lt_zero _)
  | [], before, key, v, fuel + 1, hv, _, hkeys, hfuel => by
    have hread := hv.readValue_blank depth levels (show _ < fuel by omega)
      (endsNumber_membersText layout depth rest hclose [])
    rw [stringText_append, ← put_of_nodup hkeys, tooDeepMember?, tooDeepMember?, Option.or_none]
    refine readMembers_last (readString_flatMap _ _) (skipSpaces_cons (by decide) _) hread ?_
    rw [membersText, List.nil_append, skipSpaces_append hclose, skipSpaces_cons (by decide)]
  | (key', w) :: ms, before, key, v, fuel + 1, hv, hms, hkeys, hfuel => by
    obtain ⟨b, hb, hspace⟩ := separator_eq layout depth
    have htext : membersText layout depth ((key', w) :: ms) =
        ',' :: (b ++ (stringText key' ++ ([':', ' '] ++ (valueText layout depth w ++
          membersText layout depth ms)))) := by
      simp [membersText, hb]
    have hlength := congrArg List.length htext
    simp only [List.length_cons, List.length_append] at hlength
    have hkeys' : (((before ++ [(key, v)]) ++ (key', w) :: ms).map Prod.fst).Nodup := by
      rw [List.append_assoc]
      exact hkeys
    have hread := hv.readValue_blank depth levels (show _ < fuel by omega)
      (endsNumber_membersText layout depth rest hclose ((key', w) :: ms))
    have hw : ReadsBack layout w := hms (key', w) (.head _)
    have hmore := readMembers_membersText hw (fun m hm => hms m (.tail _ hm)) hkeys'
      (show _ < fuel by omega)
    have hskip (t : Text) : skipSpaces (b ++ (stringText key' ++ t)) = stringText key' ++ t := by
      rw [skipSpaces_append hspace, stringText_append, skipSpaces_cons (by decide)]
    rw [List.append_assoc, List.singleton_append, ← put_of_nodup hkeys, ← hskip] at hmore
    rw [stringText_append, tooDeepMember?]
    refine readMembers_more (readString_flatMap _ _) (skipSpaces_cons (by decide) _) hread ?_ hmore
    rw [htext, List.cons_append, skipSpaces_cons (by decide)]
    simp only [List.append_assoc]

end Parts

section Containers

variable {depth fuel levels : Nat} {rest : Text}

/-- An array that is not empty is read back. -/
theorem readValue_cons_items {v : Json} {vs : List Json} (h : ∀ w ∈ v :: vs, ReadsBack layout w)
    (hfuel : (valueText layout depth (.array (v :: vs))).length < fuel + 1) :
    readValue (fuel + 1) (levels + 1) (valueText layout depth (.array (v :: vs)) ++ rest) =
      unlessTooDeep (.array (v :: vs), rest) (tooDeepItem? levels (v :: vs)) := by
  have hv : ReadsBack layout v := h v (.head _)
  have hclose := isSpace_newLine layout depth
  have hends := endsNumber_itemsText layout (depth + 1) rest hclose vs
  have htext : valueText layout depth (.array (v :: vs)) =
      '[' :: (layout.newLine (depth + 1) ++ (valueText layout (depth + 1) v ++
        (itemsText layout (depth + 1) vs ++ (layout.newLine depth ++ [']'])))) := by
    simp [valueText]
  have hlength := congrArg List.length htext
  simp only [List.length_cons, List.length_append] at hlength
  have hskip := hv.skipSpaces_append (depth + 1) (isSpace_newLine layout (depth + 1)) hends
  have hread := readItems_itemsText layout (depth + 1) levels rest hclose hv
    (fun w hw => h w (.tail _ hw)) (show _ < fuel by omega)
  rw [← hskip] at hread
  rw [htext]
  simp only [List.cons_append, List.append_assoc, List.nil_append]
  refine readValue_array (fun r hr => ?_) hread
  obtain ⟨c, s, hs, -, hc, -⟩ := hv.exists_cons (depth + 1) hends
  rw [hskip, hs] at hr
  exact hc (List.cons.inj hr).1

/-- An object that is not empty is read back. -/
theorem readValue_cons_members {key : Text} {v : Json} {ms : List (Text × Json)}
    (keys : (((key, v) :: ms).map Prod.fst).Nodup) (h : ∀ m ∈ (key, v) :: ms, ReadsBack layout m.2)
    (hfuel : (valueText layout depth (.object ((key, v) :: ms))).length < fuel + 1) :
    readValue (fuel + 1) (levels + 1) (valueText layout depth (.object ((key, v) :: ms)) ++ rest) =
      unlessTooDeep (.object ((key, v) :: ms), rest) (tooDeepMember? levels ((key, v) :: ms)) := by
  have htext : valueText layout depth (.object ((key, v) :: ms)) =
      '{' :: (layout.newLine (depth + 1) ++ (stringText key ++ ([':', ' '] ++
        (valueText layout (depth + 1) v ++ (membersText layout (depth + 1) ms ++
          (layout.newLine depth ++ ['}'])))))) := by
    simp [valueText]
  have hlength := congrArg List.length htext
  simp only [List.length_cons, List.length_append] at hlength
  have hskip (t : Text) : skipSpaces (layout.newLine (depth + 1) ++ (stringText key ++ t)) =
      stringText key ++ t := by
    rw [skipSpaces_append (isSpace_newLine layout (depth + 1)), stringText_append,
      skipSpaces_cons (by decide)]
  have hv : ReadsBack layout v := h (key, v) (.head _)
  have hread := readMembers_membersText layout (depth + 1) levels rest (isSpace_newLine layout depth)
    hv (fun m hm => h m (.tail _ hm)) (show (([] ++ (key, v) :: ms).map Prod.fst).Nodup from keys)
    (show _ < fuel by omega)
  rw [← hskip] at hread
  rw [htext]
  simp only [List.cons_append, List.append_assoc, List.nil_append]
  refine readValue_object (fun r hr => ?_) hread
  rw [hskip, stringText_append] at hr
  exact absurd (List.cons.inj hr).1 (by decide)

end Containers

/-- **A written value is read back in any layout**, unless something in it stands too deep. -/
theorem Regular.readsBack {v : Json} (hv : Regular v) : ReadsBack layout v := by
  induction hv with
  | null =>
    exact readsBack_of_readScalar (t := "null".toList) (fun _ => rfl) (fun _ => rfl) fun _ =>
      readScalar_name (by simp [names]) _
  | bool b =>
    cases b with
    | false =>
      exact readsBack_of_readScalar (t := "false".toList) (fun _ => rfl) (fun _ => rfl) fun _ =>
        readScalar_name (by simp [names]) _
    | true =>
      exact readsBack_of_readScalar (t := "true".toList) (fun _ => rfl) (fun _ => rfl) fun _ =>
        readScalar_name (by simp [names]) _
  | int h =>
    exact readsBack_of_readScalar (fun _ => rfl) (fun _ => rfl) fun hrest => readScalar_ofInt hrest h
  | float h =>
    exact readsBack_of_readScalar (fun _ => rfl) (fun _ => rfl) fun hrest =>
      readScalar_floatText hrest h
  | string t =>
    intro depth levels fuel rest hfuel _
    obtain ⟨fuel, rfl⟩ := Nat.exists_eq_add_one_of_ne_zero (Nat.ne_zero_of_lt hfuel)
    rw [valueText, stringText_append]
    exact readValue_string (readString_flatMap t rest)
  | @array items _ ih =>
    intro depth levels fuel rest hfuel _
    obtain ⟨fuel, rfl⟩ := Nat.exists_eq_add_one_of_ne_zero (Nat.ne_zero_of_lt hfuel)
    cases items with
    | nil => cases levels <;> rfl
    | cons v vs =>
      cases levels with
      | zero => rfl
      | succ levels => exact readValue_cons_items ih hfuel
  | @object members keys _ ih =>
    intro depth levels fuel rest hfuel _
    obtain ⟨fuel, rfl⟩ := Nat.exists_eq_add_one_of_ne_zero (Nat.ne_zero_of_lt hfuel)
    cases members with
    | nil => cases levels <;> rfl
    | cons m ms =>
      cases levels with
      | zero => rfl
      | succ levels => exact readValue_cons_members keys ih hfuel

/-- **A text that is a written value gives the value**, unless something in it stands too deep. -/
theorem ofText_toText (layout : Layout) (levels : Levels) {v : Json} (hv : Regular v) :
    ofText levels (v.toText layout) = unlessTooDeep v (v.tooDeep? levels.count) := by
  have hback : ReadsBack layout v := hv.readsBack
  have hends : EndsNumber [] := fun _ h => nomatch h
  have hread := hback 0 levels.count
    (show _ < 2 * (v.toText layout).length + 2 by unfold toText; omega) hends
  have hskip := hback.skipSpaces_append 0 (b := []) (List.forall_mem_nil _) hends
  rw [List.append_nil, ← toText] at hread
  rw [List.append_nil, ← toText, List.nil_append] at hskip
  rw [ofText, hskip, hread]
  cases v.tooDeep? levels.count <;> rfl

/-- A written value that is no deeper than the reader goes is read back. -/
theorem ofText_toText_of_le (layout : Layout) {levels : Levels} {v : Json} (hv : Regular v)
    (hdepth : v.nesting ≤ levels.count) : ofText levels (v.toText layout) = .ok v := by
  rw [ofText_toText layout levels hv, tooDeep?_eq_none_iff.2 hdepth]
  rfl

end AgdaFrontEnd.Json
