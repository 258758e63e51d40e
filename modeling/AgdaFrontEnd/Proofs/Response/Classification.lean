import AgdaFrontEnd.Proofs.Response.Shape

/-!
# The shapes of records

An object is classified by its parts.  The shapes below say which parts make up a goal, an error and
a normal form; all other keys may have any value.

* `Record.Fits`: an object has the shape of a record.
* `Record.InfiniteNumber`: a goal in which an infinite number stands in the place of an integer.
* `Record.outcome_classify`: an object is classified as a record that it fits, or it is kept, or it is
  such a goal, at which classification fails.
-/

namespace AgdaFrontEnd.Record

/-! ## Goals -/

/-- The range of an interaction point: its first interval, or none if there is no interval. -/
def FitsRange (range : Option SourceRange) (point : Json) : Prop :=
  match range with
  | some r => ∃ first others, point.Has "range".toList (.array (first :: others)) ∧ r.FitsInterval first
  | none => point.Lacks "range".toList ∨ ∃ ranges, point.Has "range".toList ranges ∧ ranges.isPresent = false

/-- A name in scope and its type, either of which may be missing. -/
def FitsEntry (e : Text × Text) (v : Json) : Prop :=
  ∃ members, v = .object members ∧
    e.1 = ((Json.member? "originalName".toList members).getD
      ((Json.member? "reifiedName".toList members).getD (.string []))).asText ∧
    e.2 = ((Json.member? "binding".toList members).getD (.string [])).asText

/-- The names in scope. -/
def FitsEntries (entries : List (Text × Text)) (goalInfo : Json) : Prop :=
  goalInfo.Lacks "entries".toList ∧ entries = [] ∨
    ∃ v elements, goalInfo.Has "entries".toList v ∧ v.elements = .ok elements ∧
      List.Forall₂ FitsEntry entries elements

/-- The information object of a goal. -/
def FitsGoal (id : Int) (range : Option SourceRange) (type : Text) (entries : List (Text × Text))
    (info : Json) : Prop :=
  ∃ point goalInfo, info.Has "interactionPoint".toList point ∧ info.Has "goalInfo".toList goalInfo ∧
    point.HasInt "id".toList id ∧ FitsRange range point ∧
    (∃ v, goalInfo.Has "type".toList v ∧ v.asText = type) ∧ FitsEntries entries goalInfo

/-- The information object of a goal with an infinite number in the place of its own number or, behind
that number, of the first interval's. -/
def InfiniteGoal (info : Json) : Prop :=
  ∃ point goalInfo, info.Has "interactionPoint".toList point ∧ info.Has "goalInfo".toList goalInfo ∧
    (point.HasInfinite "id".toList ∨ (∃ n, point.HasInt "id".toList n) ∧
      ∃ first others, point.Has "range".toList (.array (first :: others)) ∧
        SourceRange.InfiniteInterval first)

/-- A string is no interval. -/
theorem not_has_string {t key : Text} {value : Json} : ¬ (Json.string t).Has key value := by
  rintro ⟨members, h, -⟩
  cases h

theorem firstInterval_eq_ok_iff {ranges : Json} {r : SourceRange} :
    (ranges.firstItem >>= SourceRange.ofJson) = .ok r ↔
      ∃ first others, ranges = .array (first :: others) ∧ r.FitsInterval first := by
  simp only [bind_eq_ok_iff, SourceRange.ofJson_eq_ok_iff]
  constructor
  · rintro ⟨first, h, hr⟩
    unfold Json.firstItem at h
    split at h
    · cases h
      exact ⟨_, _, rfl, hr⟩
    · cases h
      obtain ⟨start, stop, hstart, -⟩ := hr
      exact absurd hstart not_has_string
    · cases h
    · cases h
  · rintro ⟨first, others, rfl, hr⟩
    exact ⟨first, rfl, hr⟩

theorem firstInterval_eq_infinite_iff {ranges : Json} :
    (ranges.firstItem >>= SourceRange.ofJson) = .error .infinite ↔
      ∃ first others, ranges = .array (first :: others) ∧ SourceRange.InfiniteInterval first := by
  simp only [bind_eq_error_iff, SourceRange.ofJson_eq_infinite_iff]
  constructor
  · rintro (h | ⟨first, h, hr⟩)
    · unfold Json.firstItem at h
      split at h <;> cases h
    · unfold Json.firstItem at h
      split at h
      · cases h
        exact ⟨_, _, rfl, hr⟩
      · cases h
        obtain ⟨start, stop, hstart, -⟩ := hr
        exact absurd hstart not_has_string
      · cases h
      · cases h
  · rintro ⟨first, others, rfl, hr⟩
    exact .inr ⟨first, rfl, hr⟩

theorem pointRange_of_isPresent {ranges : Json} (h : ranges.isPresent = true) :
    pointRange ranges = some <$> (ranges.firstItem >>= SourceRange.ofJson) := by
  rw [pointRange, if_pos h]
  cases ranges.firstItem with
  | error fault => rfl
  | ok first => cases SourceRange.ofJson first <;> rfl

theorem pointRange_of_not_isPresent {ranges : Json} (h : ranges.isPresent = false) :
    pointRange ranges = .ok none := by
  rw [pointRange, if_neg (by rw [h]; exact Bool.false_ne_true)]

theorem pointRange_eq_ok_iff {ranges : Json} {range : Option SourceRange} :
    pointRange ranges = .ok range ↔
      match range with
      | some r => ∃ first others, ranges = .array (first :: others) ∧ r.FitsInterval first
      | none => ranges.isPresent = false := by
  cases h : ranges.isPresent with
  | true =>
    rw [pointRange_of_isPresent h]
    cases range with
    | none => cases ranges.firstItem >>= SourceRange.ofJson <;> exact ⟨nofun, nofun⟩
    | some r =>
      refine Iff.trans ?_ firstInterval_eq_ok_iff
      cases ranges.firstItem >>= SourceRange.ofJson <;> simp [Functor.map, Except.map]
  | false =>
    rw [pointRange_of_not_isPresent h]
    cases range with
    | none => simp
    | some r =>
      refine ⟨nofun, ?_⟩
      rintro ⟨first, others, rfl, -⟩
      cases h

theorem pointRange_eq_infinite_iff {ranges : Json} :
    pointRange ranges = .error .infinite ↔
      ∃ first others, ranges = .array (first :: others) ∧ SourceRange.InfiniteInterval first := by
  cases h : ranges.isPresent with
  | true =>
    rw [pointRange_of_isPresent h, ← firstInterval_eq_infinite_iff]
    cases ranges.firstItem >>= SourceRange.ofJson <;> simp [Functor.map, Except.map]
  | false =>
    rw [pointRange_of_not_isPresent h]
    refine ⟨nofun, ?_⟩
    rintro ⟨first, others, rfl, -⟩
    cases h

/-- A missing range is a range that is not present. -/
theorem fitsRange_iff {point : Json} {range : Option SourceRange} :
    (∃ ranges, point.memberOr "range".toList .null = .ok ranges ∧ pointRange ranges = .ok range) ↔
      FitsRange range point := by
  simp only [Json.memberOr_eq_ok_iff, pointRange_eq_ok_iff]
  cases range with
  | none =>
    constructor
    · rintro ⟨ranges, h | ⟨h, -⟩, habsent⟩
      · exact .inr ⟨ranges, h, habsent⟩
      · exact .inl h
    · rintro (h | ⟨ranges, h, habsent⟩)
      · exact ⟨.null, .inr ⟨h, rfl⟩, rfl⟩
      · exact ⟨ranges, .inl h, habsent⟩
  | some r =>
    constructor
    · rintro ⟨_, h | ⟨-, h⟩, first, others, rfl, hr⟩
      · exact ⟨first, others, h, hr⟩
      · cases h
    · rintro ⟨first, others, h, hr⟩
      exact ⟨_, .inl h, first, others, rfl, hr⟩

theorem entry_eq_ok_iff {v : Json} {e : Text × Text} : entry v = .ok e ↔ FitsEntry e v := by
  constructor
  · intro h
    cases v with
    | object members =>
      cases h
      exact ⟨members, rfl, rfl, rfl⟩
    | _ => cases h
  · rintro ⟨members, rfl, hname, hbinding⟩
    obtain ⟨name, binding⟩ := e
    cases hname
    cases hbinding
    rfl

theorem entry_ne_infinite {v : Json} : entry v ≠ .error .infinite := by
  cases v <;> exact nofun

theorem fitsEntries_iff {goalInfo : Json} {entries : List (Text × Text)} :
    (∃ elements, (goalInfo.memberOr "entries".toList (.array []) >>= Json.elements) = .ok elements ∧
      elements.mapM entry = .ok entries) ↔ FitsEntries entries goalInfo := by
  simp only [bind_eq_ok_iff, Json.memberOr_eq_ok_iff, mapM_eq_ok_iff, entry_eq_ok_iff]
  constructor
  · rintro ⟨elements, ⟨v, h | ⟨h, rfl⟩, helements⟩, hentries⟩
    · exact .inr ⟨v, elements, h, helements, hentries⟩
    · cases helements
      exact .inl ⟨h, List.forall₂_nil_right_iff.1 hentries⟩
  · rintro (⟨h, rfl⟩ | ⟨v, elements, h, helements, hentries⟩)
    · exact ⟨[], ⟨_, .inr ⟨h, rfl⟩, rfl⟩, .nil⟩
    · exact ⟨elements, ⟨v, .inl h, helements⟩, hentries⟩

/-- **An information object describes a goal exactly if it has the shape of one.** -/
theorem goalOf_eq_ok_iff {info : Json} {r : Record} :
    goalOf info = .ok r ↔
      ∃ id range type entries, r = .goal id range type entries ∧ FitsGoal id range type entries info := by
  constructor
  · intro h
    simp only [goalOf, bind_eq_ok_iff, Json.part_eq_ok_iff] at h
    obtain ⟨point, hpoint, goalInfo, hgoal, ranges, hranges, id, hid, range, hrange, t, ht, elements,
      helements, entries, hentries, h⟩ := h
    cases h
    exact ⟨id, range, _, entries, rfl, point, goalInfo, hpoint, hgoal, hid,
      fitsRange_iff.1 ⟨ranges, hranges, hrange⟩, ⟨t, ht, rfl⟩,
      fitsEntries_iff.1 ⟨elements, bind_eq_ok_iff.2 helements, hentries⟩⟩
  · rintro ⟨id, range, type, entries, rfl, point, goalInfo, hpoint, hgoal, hid, hrange, ⟨t, ht, rfl⟩,
      hentries⟩
    obtain ⟨ranges, hranges, hrange⟩ := fitsRange_iff.2 hrange
    obtain ⟨elements, helements, hentries⟩ := fitsEntries_iff.2 hentries
    simp only [goalOf, bind_eq_ok_iff, Json.part_eq_ok_iff]
    exact ⟨point, hpoint, goalInfo, hgoal, ranges, hranges, id, hid, range, hrange, t, ht, elements,
      bind_eq_ok_iff.1 helements, entries, hentries, rfl⟩

theorem mapM_entry_ne_infinite {elements : List Json} : elements.mapM entry ≠ .error .infinite := by
  intro h
  obtain ⟨v, -, hv⟩ := exists_of_mapM_eq_error h
  exact entry_ne_infinite hv

/-- **The one fault of a goal that is not caught is an infinite number** in the place of an integer. -/
theorem goalOf_eq_infinite_iff {info : Json} : goalOf info = .error .infinite ↔ InfiniteGoal info := by
  have hpure (r : Record) : (pure r : Except ShapeFault Record) ≠ .error .infinite := nofun
  simp only [goalOf, bind_eq_error_iff, Json.part_ne_infinite, Json.part_eq_ok_iff, false_or,
    Json.memberOr_ne_infinite, Json.partInt_eq_ok_iff, Json.hasInfinite_iff, pointRange_eq_infinite_iff,
    Json.elements_ne_infinite, mapM_entry_ne_infinite, hpure, and_false, exists_false, or_false]
  constructor
  · rintro ⟨point, hpoint, goalInfo, hgoal, ranges, hranges, h | ⟨n, hn, first, others, rfl, hfirst⟩⟩
    · exact ⟨point, goalInfo, hpoint, hgoal, .inl h⟩
    · rcases Json.memberOr_eq_ok_iff.1 hranges with hranges | ⟨-, hranges⟩
      · exact ⟨point, goalInfo, hpoint, hgoal, .inr ⟨⟨n, hn⟩, first, others, hranges, hfirst⟩⟩
      · cases hranges
  · rintro ⟨point, goalInfo, hpoint, hgoal, ⟨negative, h⟩ | ⟨⟨n, hn⟩, first, others, hranges, hfirst⟩⟩
    · obtain ⟨ranges, hranges⟩ := h.exists_memberOr "range".toList .null
      exact ⟨point, hpoint, goalInfo, hgoal, ranges, hranges, .inl ⟨negative, h⟩⟩
    · exact ⟨point, hpoint, goalInfo, hgoal, _, Json.memberOr_eq_ok_iff.2 (.inl hranges),
        .inr ⟨n, hn, first, others, rfl, hfirst⟩⟩

/-! ## Records -/

/-- The object has the shape of the record. -/
inductive Fits : Record → Json → Prop where
  | goal {id : Int} {range : Option SourceRange} {type : Text} {entries : List (Text × Text)} {v info : Json}
      (kind : v.Has "kind".toList (.string "DisplayInfo".toList)) (hasInfo : v.Has "info".toList info)
      (isGoal : info.Has "kind".toList (.string "GoalSpecific".toList))
      (fits : FitsGoal id range type entries info) : Fits (.goal id range type entries) v
  | error {message : Text} {v info error : Json}
      (kind : v.Has "kind".toList (.string "DisplayInfo".toList)) (hasInfo : v.Has "info".toList info)
      (notGoal : ¬ info.Has "kind".toList (.string "GoalSpecific".toList))
      (hasError : info.Has "error".toList error)
      (hasMessage : error.Has "message".toList (.string message) ∨ error = .string message ∧ message ≠ []) :
      Fits (.error message) v
  | normalForm {expr : Text} {v info : Json}
      (kind : v.Has "kind".toList (.string "DisplayInfo".toList)) (hasInfo : v.Has "info".toList info)
      (isNormalForm : info.Has "kind".toList (.string "NormalForm".toList))
      (noError : ∀ error, info.Has "error".toList error → error.isPresent = false)
      (hasExpr : info.Has "expr".toList (.string expr)) : Fits (.normalForm expr) v

/-- The object says that it is a goal, and has an infinite number in the place of an integer. -/
def InfiniteNumber (v : Json) : Prop :=
  v.Has "kind".toList (.string "DisplayInfo".toList) ∧ ∃ info, v.Has "info".toList info ∧
    info.Has "kind".toList (.string "GoalSpecific".toList) ∧ InfiniteGoal info

/-- An object is kept whole, or, if it says that it is a goal, by its kind and its information alone. -/
def KeptAs (raw kept : Members) : Prop :=
  kept = raw ∨ ∃ info, (Json.object raw).Has "info".toList info ∧
    info.Has "kind".toList (.string "GoalSpecific".toList) ∧
    kept = [("kind".toList, .string "DisplayInfo".toList), ("info".toList, info)]

theorem hasWord_iff {key word : Text} {members : Members} :
    hasWord key word members = true ↔ (Json.object members).Has key (.string word) := by
  rw [Json.has_object_iff]
  unfold hasWord
  split
  · rename_i t ht
    simp [ht]
  · rename_i ht
    simp only [Bool.false_eq_true, false_iff]
    exact ht word

/-- A string at a key is the only value there. -/
theorem not_hasWord {key word other : Text} {members : Members}
    (h : (Json.object members).Has key (.string other)) (hne : other ≠ word) :
    ¬ hasWord key word members = true := by
  intro hword
  cases h.unique (hasWord_iff.1 hword)
  exact hne rfl

theorem errorMessage_eq_some_iff {error : Json} {message : Text} (h : error.isPresent = true) :
    errorMessage error = some message ↔
      error.Has "message".toList (.string message) ∨ error = .string message ∧ message ≠ [] := by
  cases error with
  | object members =>
    unfold errorMessage
    dsimp only
    rw [Json.has_object_iff]
    split
    · rename_i t ht
      rw [ht]
      simp
    · rename_i ht
      constructor
      · exact nofun
      · rintro (h | ⟨h, -⟩)
        · exact absurd h (ht message)
        · cases h
  | string t =>
    have ht : t ≠ [] := by
      rintro rfl
      cases h
    constructor
    · intro h
      cases h
      exact .inr ⟨rfl, ht⟩
    · rintro (h | ⟨h, -⟩)
      · exact absurd h not_has_string
      · cases h
        rfl
  | _ =>
    refine ⟨nofun, ?_⟩
    rintro (⟨_, ⟨⟩, -⟩ | ⟨⟨⟩, -⟩)

theorem isPresent_of_message {error : Json} {message : Text}
    (h : error.Has "message".toList (.string message) ∨ error = .string message ∧ message ≠ []) :
    error.isPresent = true := by
  rcases h with ⟨members, rfl, hm⟩ | ⟨rfl, hne⟩
  · cases members with
    | nil => cases hm
    | cons => rfl
  · cases message with
    | nil => exact absurd rfl hne
    | cons => rfl

theorem classify_of_info {raw info : Members}
    (kind : (Json.object raw).Has "kind".toList (.string "DisplayInfo".toList))
    (hasInfo : (Json.object raw).Has "info".toList (.object info)) :
    classify raw = classifyInfo raw info := by
  rw [classify, if_pos (hasWord_iff.2 kind), Json.has_object_iff.1 hasInfo]

/-- **An object of a record's shape is classified as the record.** -/
theorem Fits.classify_eq {r : Record} {raw : Members} (h : Fits r (.object raw)) :
    classify raw = .ok r := by
  cases h with
  | @goal id range type entries _ info kind hasInfo isGoal fits =>
    obtain ⟨members, rfl⟩ := isGoal.exists_object
    have hgoal := goalOf_eq_ok_iff.2 ⟨id, range, type, entries, rfl, fits⟩
    rw [classify_of_info kind hasInfo, classifyInfo, if_pos (hasWord_iff.2 isGoal), classifyGoal, hgoal]
  | error kind hasInfo notGoal hasError hasMessage =>
    obtain ⟨members, rfl⟩ := hasError.exists_object
    have hpresent := isPresent_of_message hasMessage
    rw [classify_of_info kind hasInfo, classifyInfo, if_neg (mt hasWord_iff.1 notGoal),
      Json.has_object_iff.1 hasError]
    dsimp only [Option.getD_some]
    rw [if_pos hpresent, (errorMessage_eq_some_iff hpresent).2 hasMessage]
  | normalForm kind hasInfo isNormalForm noError hasExpr =>
    obtain ⟨members, rfl⟩ := hasExpr.exists_object
    have habsent : ¬ ((Json.member? "error".toList members).getD .null).isPresent = true := by
      cases herror : Json.member? "error".toList members with
      | none => exact Bool.false_ne_true
      | some error => exact ne_true_of_eq_false (noError error (Json.has_object_iff.2 herror))
    rw [classify_of_info kind hasInfo, classifyInfo, if_neg (not_hasWord isNormalForm (by decide))]
    dsimp only
    rw [if_neg habsent, if_pos (hasWord_iff.2 isNormalForm), Json.has_object_iff.1 hasExpr]

theorem InfiniteNumber.classify_eq {raw : Members} (h : InfiniteNumber (.object raw)) :
    classify raw = .error .infinite := by
  obtain ⟨kind, info, hasInfo, isGoal, hgoal⟩ := h
  obtain ⟨members, rfl⟩ := isGoal.exists_object
  rw [classify_of_info kind hasInfo, classifyInfo, if_pos (hasWord_iff.2 isGoal), classifyGoal,
    goalOf_eq_infinite_iff.2 hgoal]

/-- What becomes of an object: a record that it fits, or the object itself under a reason, or the fault
of an infinite number. -/
def Outcome (raw : Members) : Except DecodeFault Record → Prop
  | .ok (.unrecognized kept _) => KeptAs raw kept
  | .ok r => Fits r (.object raw)
  | .error fault => fault = .infinite ∧ InfiniteNumber (.object raw)

theorem outcome_classifyGoal {raw info : Members}
    (kind : (Json.object raw).Has "kind".toList (.string "DisplayInfo".toList))
    (hasInfo : (Json.object raw).Has "info".toList (.object info))
    (isGoal : (Json.object info).Has "kind".toList (.string "GoalSpecific".toList)) :
    Outcome raw (classifyGoal info) := by
  unfold classifyGoal
  split
  · rename_i r hgoal
    obtain ⟨id, range, type, entries, rfl, fits⟩ := goalOf_eq_ok_iff.1 hgoal
    exact .goal kind hasInfo isGoal fits
  · rename_i hgoal
    exact ⟨rfl, kind, _, hasInfo, isGoal, goalOf_eq_infinite_iff.1 hgoal⟩
  · exact .inr ⟨_, hasInfo, isGoal, rfl⟩

theorem outcome_classifyInfo {raw info : Members}
    (kind : (Json.object raw).Has "kind".toList (.string "DisplayInfo".toList))
    (hasInfo : (Json.object raw).Has "info".toList (.object info)) :
    Outcome raw (classifyInfo raw info) := by
  have hkept : KeptAs raw raw := .inl rfl
  unfold classifyInfo
  split
  · rename_i isGoal
    exact outcome_classifyGoal kind hasInfo (hasWord_iff.1 isGoal)
  rename_i notGoal
  dsimp only
  split
  · rename_i hpresent
    cases herror : Json.member? "error".toList info with
    | none =>
      rw [herror] at hpresent
      cases hpresent
    | some error =>
      rw [herror, Option.getD_some] at hpresent
      dsimp only [Option.getD_some]
      split
      · rename_i message hmessage
        exact .error kind hasInfo (mt hasWord_iff.2 notGoal) (Json.has_object_iff.2 herror)
          ((errorMessage_eq_some_iff hpresent).1 hmessage)
      · exact hkept
  rename_i habsent
  split
  · rename_i isNormalForm
    split
    · rename_i expr hexpr
      refine .normalForm kind hasInfo (hasWord_iff.1 isNormalForm) ?_ (Json.has_object_iff.2 hexpr)
      intro error herror
      rw [Json.has_object_iff.1 herror, Option.getD_some] at habsent
      exact eq_false_of_ne_true habsent
    · exact hkept
  · exact hkept

/-- **An object is classified as a record that it fits, or it is kept**, unless it is a goal with an
infinite number in the place of an integer. -/
theorem outcome_classify (raw : Members) : Outcome raw (classify raw) := by
  have hkept : KeptAs raw raw := .inl rfl
  unfold classify
  split
  · rename_i kind
    split
    · rename_i info hinfo
      exact outcome_classifyInfo (hasWord_iff.1 kind) (Json.has_object_iff.2 hinfo)
    · exact hkept
  · exact hkept

/-- An object that is kept has the shape of no record. -/
theorem not_fits_of_unrecognized {raw kept : Members} {reason : Unfit}
    (h : classify raw = .ok (.unrecognized kept reason)) (r : Record) : ¬ Fits r (.object raw) := by
  intro hr
  rw [hr.classify_eq] at h
  cases h
  cases hr

/-! ## Lines -/

/-- The empty text needs no case of its own, as it is no JSON value. -/
theorem objectOf_eq (levels : Json.Levels) (line : Text) :
    objectOf levels line = match Json.ofText levels (payload line) with
      | .ok (.object members) => .ok (some members)
      | .ok _ => .ok none
      | .error .malformed => .ok none
      | .error (.tooManyDigits count) => .error (.integer (.tooManyDigits count))
      | .error (.tooDeep container) => .error (.tooDeep container) := by
  unfold objectOf
  split
  · rename_i h
    rw [h]
    rfl
  · rfl

end AgdaFrontEnd.Record
