import AgdaFrontEnd.Response.Record
import Mathlib.Data.List.Forall2

/-!
# What asking for parts gives

A value is asked for one part after the other, and the first missing part is the fault.  The lemmas
say when the answer is a value, and when it is the one fault that is not caught, an infinite number.

* `Json.Has`, `Json.Lacks`, `Json.HasInt`: keys of objects.
* `Json.HasInfinite`: an infinite number in the place of an integer.
* `SourceRange.ofJson_eq_ok_iff`, `SourceRange.ofJson_eq_infinite_iff`: the outcome for an interval.
-/

namespace AgdaFrontEnd

/-! ## Outcomes in sequence -/

section Sequence

variable {ε ε' α β : Type} {x : Except ε α} {f : α → Except ε β}

theorem ok_bind (a : α) (f : α → Except ε β) : (Except.ok a >>= f) = f a := rfl

theorem bind_eq_ok_iff {b : β} : (x >>= f) = .ok b ↔ ∃ a, x = .ok a ∧ f a = .ok b := by
  cases x <;> simp [bind, Except.bind]

theorem bind_eq_error_iff {e : ε} :
    (x >>= f) = .error e ↔ x = .error e ∨ ∃ a, x = .ok a ∧ f a = .error e := by
  cases x <;> simp [bind, Except.bind]

theorem mapError_eq_ok_iff {g : ε → ε'} {a : α} : x.mapError g = .ok a ↔ x = .ok a := by
  cases x <;> simp [Except.mapError]

/-- A list of outcomes is a success if every one is. -/
theorem mapM_eq_ok_iff {as : List α} {bs : List β} :
    as.mapM f = .ok bs ↔ List.Forall₂ (fun b a => f a = .ok b) bs as := by
  induction as generalizing bs with
  | nil =>
    rw [List.mapM_nil, List.forall₂_nil_right_iff]
    exact ⟨fun h => by cases h; rfl, fun h => by rw [h]; rfl⟩
  | cons a as ih =>
    rw [List.mapM_cons, List.forall₂_cons_right_iff]
    simp only [bind_eq_ok_iff, ih]
    constructor
    · rintro ⟨b, hb, bs', hbs, h⟩
      cases h
      exact ⟨b, bs', hb, hbs, rfl⟩
    · rintro ⟨b, bs', hb, hbs, rfl⟩
      exact ⟨b, hb, bs', hbs, rfl⟩

theorem exists_of_mapM_eq_ok {as : List α} {bs : List β} (h : as.mapM f = .ok bs) :
    ∀ a ∈ as, ∃ b, f a = .ok b := by
  induction mapM_eq_ok_iff.1 h with
  | nil => exact fun a ha => absurd ha List.not_mem_nil
  | cons hb hbs ih => exact List.forall_mem_cons.2 ⟨⟨_, hb⟩, ih (mapM_eq_ok_iff.2 hbs)⟩

/-- The fault of a list of outcomes is the fault of one of them. -/
theorem exists_of_mapM_eq_error {e : ε} : ∀ {as : List α}, as.mapM f = .error e → ∃ a ∈ as, f a = .error e
  | [], h => nomatch h
  | a :: as, h => by
    rw [List.mapM_cons, bind_eq_error_iff] at h
    rcases h with h | ⟨b, -, h⟩
    · exact ⟨a, .head _, h⟩
    · rw [bind_eq_error_iff] at h
      rcases h with h | ⟨bs, -, h⟩
      · obtain ⟨a', ha', h⟩ := exists_of_mapM_eq_error h
        exact ⟨a', .tail _ ha', h⟩
      · cases h

end Sequence

namespace Json

/-! ## Keys -/

/-- The value is an object in which the key has the given value. -/
def Has (v : Json) (key : Text) (value : Json) : Prop :=
  ∃ members, v = .object members ∧ member? key members = some value

/-- The value is an object without the key. -/
def Lacks (v : Json) (key : Text) : Prop := ∃ members, v = .object members ∧ member? key members = none

/-- The value is an object in which the value of the key is taken for the integer. -/
def HasInt (v : Json) (key : Text) (n : Int) : Prop := ∃ value, v.Has key value ∧ value.toInt = .ok n

/-- The value is an object in which an infinite number stands at the key. -/
def HasInfinite (v : Json) (key : Text) : Prop := ∃ negative, v.Has key (.float (.infinite negative))

variable {v value default : Json} {key : Text} {members : Members}

theorem Has.exists_object (h : v.Has key value) : ∃ members, v = .object members :=
  h.imp fun _ h => h.1

theorem has_object_iff : (object members).Has key value ↔ member? key members = some value :=
  ⟨fun ⟨_, h, hm⟩ => by cases h; exact hm, fun h => ⟨members, rfl, h⟩⟩

theorem lacks_object_iff : (object members).Lacks key ↔ member? key members = none :=
  ⟨fun ⟨_, h, hm⟩ => by cases h; exact hm, fun h => ⟨members, rfl, h⟩⟩

theorem Has.unique {value' : Json} (h : v.Has key value) (h' : v.Has key value') : value = value' := by
  obtain ⟨members, rfl, hm⟩ := h
  exact Option.some.inj (hm.symm.trans (has_object_iff.1 h'))

theorem Has.not_lacks (h : v.Has key value) : ¬ v.Lacks key := by
  rintro ⟨members, rfl, hm⟩
  exact absurd ((has_object_iff.1 h).symm.trans hm) (by simp)

/-! ## Parts -/

theorem part_eq_ok_iff : v.part key = .ok value ↔ v.Has key value := by
  constructor
  · intro h
    cases v with
    | object members =>
      unfold part at h
      dsimp only at h
      split at h
      · rename_i w hm
        cases h
        exact ⟨members, rfl, hm⟩
      · cases h
    | _ => cases h
  · rintro ⟨members, rfl, hm⟩
    simp only [part, hm]

theorem part_ne_infinite : v.part key ≠ .error .infinite := by
  intro h
  cases v with
  | object members =>
    unfold part at h
    dsimp only at h
    split at h <;> cases h
  | _ => cases h

theorem memberOr_eq_ok_iff :
    v.memberOr key default = .ok value ↔ v.Has key value ∨ v.Lacks key ∧ value = default := by
  constructor
  · intro h
    cases v with
    | object members =>
      rw [has_object_iff, lacks_object_iff]
      cases hm : member? key members with
      | some w =>
        rw [memberOr, hm] at h
        cases h
        exact .inl rfl
      | none =>
        rw [memberOr, hm] at h
        cases h
        exact .inr ⟨rfl, rfl⟩
    | _ => cases h
  · rintro (⟨members, rfl, hm⟩ | ⟨⟨members, rfl, hm⟩, rfl⟩) <;> simp [memberOr, hm]

theorem Has.exists_memberOr (h : v.Has key value) (key' : Text) (default : Json) :
    ∃ w, v.memberOr key' default = .ok w := by
  obtain ⟨members, rfl, -⟩ := h
  exact ⟨_, rfl⟩

theorem memberOr_ne_infinite : v.memberOr key default ≠ .error .infinite := by
  cases v <;> exact nofun

theorem elements_ne_infinite : v.elements ≠ .error .infinite := by
  cases v <;> exact nofun

theorem toInt_eq_infinite_iff :
    v.toInt = .error .infinite ↔ ∃ negative, v = .float (.infinite negative) := by
  constructor
  · intro h
    cases v with
    | float x =>
      cases x with
      | nan => cases h
      | infinite negative => exact ⟨negative, rfl⟩
      | finite negative m e => simp [toInt, Binary64.truncate?] at h
    | string t =>
      unfold toInt at h
      cases ht : Integer.ofText t with
      | ok n => simp [ht, Except.mapError] at h
      | error fault => simp [ht, Except.mapError] at h
    | _ => cases h
  · rintro ⟨negative, rfl⟩
    rfl

/-- An integer at a key. -/
theorem partInt_eq_ok_iff {n : Int} : (v.part key >>= toInt) = .ok n ↔ v.HasInt key n := by
  simp only [bind_eq_ok_iff, part_eq_ok_iff, HasInt]

theorem hasInfinite_iff :
    (∃ value, v.Has key value ∧ value.toInt = .error .infinite) ↔ v.HasInfinite key := by
  simp only [toInt_eq_infinite_iff, HasInfinite]
  constructor
  · rintro ⟨_, h, negative, rfl⟩
    exact ⟨negative, h⟩
  · rintro ⟨negative, h⟩
    exact ⟨_, h, negative, rfl⟩

end Json

/-! ## Intervals -/

namespace SourceRange

/-- The value is taken for an interval with the ends of the range. -/
def FitsInterval (r : SourceRange) (v : Json) : Prop :=
  ∃ start stop, v.Has "start".toList start ∧ v.Has "end".toList stop ∧
    start.HasInt "line".toList r.startLine ∧ start.HasInt "col".toList r.startCol ∧
    stop.HasInt "line".toList r.endLine ∧ stop.HasInt "col".toList r.endCol

/-- The value has the two ends of an interval, and an infinite number stands at the first of the four
places that has no integer. -/
def InfiniteInterval (v : Json) : Prop :=
  ∃ start stop, v.Has "start".toList start ∧ v.Has "end".toList stop ∧
    (start.HasInfinite "line".toList ∨ (∃ n, start.HasInt "line".toList n) ∧
    (start.HasInfinite "col".toList ∨ (∃ n, start.HasInt "col".toList n) ∧
    (stop.HasInfinite "line".toList ∨ (∃ n, stop.HasInt "line".toList n) ∧
    stop.HasInfinite "col".toList)))

theorem ofJson_eq_ok_iff {v : Json} {r : SourceRange} : ofJson v = .ok r ↔ r.FitsInterval v := by
  simp only [ofJson, bind_eq_ok_iff, mapError_eq_ok_iff, ofInts_eq_ok_iff, Json.part_eq_ok_iff,
    FitsInterval, Json.HasInt]
  constructor
  · rintro ⟨start, hstart, stop, hstop, _, hsl, _, hsc, _, hel, _, hec, rfl, rfl, rfl, rfl⟩
    exact ⟨start, stop, hstart, hstop, hsl, hsc, hel, hec⟩
  · rintro ⟨start, stop, hstart, hstop, hsl, hsc, hel, hec⟩
    exact ⟨start, hstart, stop, hstop, _, hsl, _, hsc, _, hel, _, hec, rfl, rfl, rfl, rfl⟩

theorem ofInts_ne_infinite {a b c d : Int} :
    (ofInts a b c d).mapError ShapeFault.inverted ≠ .error .infinite := by
  cases ofInts a b c d <;> exact nofun

theorem ofJson_eq_infinite_iff {v : Json} : ofJson v = .error .infinite ↔ InfiniteInterval v := by
  simp only [ofJson, bind_eq_error_iff, Json.part_eq_ok_iff, Json.part_ne_infinite,
    Json.partInt_eq_ok_iff, Json.hasInfinite_iff, ofInts_ne_infinite, InfiniteInterval, false_or,
    and_false, exists_false, or_false, exists_and_left, exists_and_right]

end SourceRange

end AgdaFrontEnd
