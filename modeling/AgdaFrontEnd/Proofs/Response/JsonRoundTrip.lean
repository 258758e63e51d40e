import AgdaFrontEnd.Proofs.Json.Ascii
import AgdaFrontEnd.Proofs.Json.RoundTrip
import AgdaFrontEnd.Proofs.Response.Classification
import AgdaFrontEnd.Proofs.Text.Margins

/-!
# Round trip of the JSON dialect

A record is written as an object of its shape, in which every key that the shape does not name may
have any value.  The object stands on a line of its own between margins, behind a prompt perhaps.
An output mixes such lines with lines that carry no object.  It is decoded to the records if no object
in it is deeper than values are read; a single one that is stops the decoding, whatever key its depth
stands at.

The strings of the records are texts.  A string with halves of surrogate pairs in it is read as it was
written if no first half stands right before a second half, and only then.

* `Record.IsResponse`: the objects that a record is written as.
* `Record.IsResponse.fits`: such an object has the shape of the record.
* `ResponseLine`: a line of an output, with the record on it if it has one.
* `Record.decode_unlines_text`: decoding an output gives the records on its lines.
* `Record.decode_deep`: an error beside a deep value is not decoded, and a pair of halves is read as
  one character.
-/

namespace AgdaFrontEnd

/-! ## Written records -/

/-- An interval with the ends of a range. -/
def SourceRange.IsInterval (r : SourceRange) (v : Json) : Prop :=
  ∃ start stop, v.Has "start".toList start ∧ v.Has "end".toList stop ∧
    start.Has "line".toList (.int r.startLine) ∧ start.Has "col".toList (.int r.startCol) ∧
    stop.Has "line".toList (.int r.endLine) ∧ stop.Has "col".toList (.int r.endCol)

namespace Record

/-- An interaction point: its number, and the interval of its range before others.  Without a range
it has no interval or not even the key. -/
def IsPoint (id : Int) (range : Option SourceRange) (v : Json) : Prop :=
  v.Has "id".toList (.int id) ∧
    match range with
    | some r => ∃ first others, v.Has "range".toList (.array (first :: others)) ∧ r.IsInterval first
    | none => v.Lacks "range".toList ∨ v.Has "range".toList (.array [])

/-- A name in scope with its type. -/
def IsEntry (e : Text × Text) (v : Json) : Prop :=
  v.Has "originalName".toList (.string e.1) ∧ v.Has "binding".toList (.string e.2)

/-- The information objects that a record is written as. -/
inductive IsInfo : Record → Json → Prop where
  | goal {id : Int} {range : Option SourceRange} {type : Text} {entries : List (Text × Text)}
      {info point goalInfo : Json} {items : List Json}
      (kind : info.Has "kind".toList (.string "GoalSpecific".toList))
      (hasPoint : info.Has "interactionPoint".toList point) (isPoint : IsPoint id range point)
      (hasGoal : info.Has "goalInfo".toList goalInfo)
      (hasType : goalInfo.Has "type".toList (.string type))
      (hasEntries : goalInfo.Has "entries".toList (.array items))
      (isEntries : List.Forall₂ IsEntry entries items) : IsInfo (.goal id range type entries) info
  | error {message : Text} {info error : Json}
      (kind : ¬ info.Has "kind".toList (.string "GoalSpecific".toList))
      (hasError : info.Has "error".toList error)
      (hasMessage : error.Has "message".toList (.string message)) : IsInfo (.error message) info
  | normalForm {expr : Text} {info : Json}
      (kind : info.Has "kind".toList (.string "NormalForm".toList))
      (noError : info.Lacks "error".toList)
      (hasExpr : info.Has "expr".toList (.string expr)) : IsInfo (.normalForm expr) info

/-- The objects that a record is written as. -/
def IsResponse (r : Record) (v : Json) : Prop :=
  v.Has "kind".toList (.string "DisplayInfo".toList) ∧ ∃ info, v.Has "info".toList info ∧ r.IsInfo info

/-! ## Written records have their shapes -/

theorem fitsInterval_of_isInterval {r : SourceRange} {v : Json} (h : r.IsInterval v) :
    r.FitsInterval v := by
  obtain ⟨start, stop, hstart, hstop, hsl, hsc, hel, hec⟩ := h
  exact ⟨start, stop, hstart, hstop, ⟨_, hsl, rfl⟩, ⟨_, hsc, rfl⟩, ⟨_, hel, rfl⟩, ⟨_, hec, rfl⟩⟩

theorem IsPoint.fitsRange {id : Int} {range : Option SourceRange} {point : Json}
    (h : IsPoint id range point) : FitsRange range point := by
  cases range with
  | none => exact h.2.imp_right fun hranges => ⟨_, hranges, rfl⟩
  | some r =>
    obtain ⟨first, others, hranges, hfirst⟩ := h.2
    exact ⟨first, others, hranges, fitsInterval_of_isInterval hfirst⟩

theorem IsEntry.fitsEntry {e : Text × Text} {v : Json} (h : IsEntry e v) : FitsEntry e v := by
  obtain ⟨⟨members, rfl, hname⟩, hbinding⟩ := h
  refine ⟨members, rfl, ?_, ?_⟩
  · rw [hname]
    rfl
  · rw [Json.has_object_iff.1 hbinding]
    rfl

theorem IsResponse.fits {r : Record} {v : Json} (h : r.IsResponse v) : Fits r v := by
  obtain ⟨kind, info, hasInfo, isInfo⟩ := h
  cases isInfo with
  | goal isGoal hasPoint isPoint hasGoal hasType hasEntries isEntries =>
    exact .goal kind hasInfo isGoal ⟨_, _, hasPoint, hasGoal, ⟨_, isPoint.1, rfl⟩, isPoint.fitsRange,
      ⟨_, hasType, rfl⟩, .inr ⟨_, _, hasEntries, rfl, isEntries.imp fun _ _ => IsEntry.fitsEntry⟩⟩
  | error notGoal hasError hasMessage => exact .error kind hasInfo notGoal hasError (.inl hasMessage)
  | normalForm isNormalForm noError hasExpr =>
    exact .normalForm kind hasInfo isNormalForm (fun _ h => absurd noError h.not_lacks) hasExpr

/-! ## An object on its line -/

theorem isSolid_object (members : Members) : Text.IsSolid ((Json.object members).toText .oneLine) where
  head := by
    cases members with
    | nil => exact ⟨'{', ['}'], rfl, by decide⟩
    | cons m ms => exact ⟨'{', _, rfl, by decide⟩
  last := by
    cases members with
    | nil => exact ⟨['{'], '}', rfl, by decide⟩
    | cons m ms => exact ⟨_, '}', rfl, by decide⟩

theorem dropPrefix?_prompt_object (members : Members) :
    ((Json.object members).toText .oneLine).dropPrefix? prompt = none := by
  cases members <;> rfl

/-- **The payload of a line is its object**, whatever margins and prompt it has. -/
theorem payload_object {before after : Text} {prompted : Option Text} (members : Members)
    (hb : Text.IsMargin before) (hp : ∀ gap ∈ prompted, Text.IsMargin gap)
    (ha : Text.IsMargin after) :
    payload (before ++ ((Text.lead prompt prompted ++ (Json.object members).toText .oneLine) ++ after)) =
      (Json.object members).toText .oneLine :=
  Text.unprompt_of_margins ⟨'J', _, rfl, by decide⟩ (isSolid_object members)
    (dropPrefix?_prompt_object members) hb hp ha

/-- A result of decoding, unless something stands too deep. -/
def unlessTooDeep {α : Type} (a : α) : Option Json.Container → Except DecodeFault α
  | none => .ok a
  | some c => .error (.tooDeep c)

variable (levels : Json.Levels)

theorem objectOf_object {before after : Text} {prompted : Option Text} {members : Members}
    (hregular : (Json.object members).Regular) (hb : Text.IsMargin before)
    (hp : ∀ gap ∈ prompted, Text.IsMargin gap) (ha : Text.IsMargin after) :
    objectOf levels
        (before ++ ((Text.lead prompt prompted ++ (Json.object members).toText .oneLine) ++ after)) =
      unlessTooDeep (some members) ((Json.object members).tooDeep? levels.count) := by
  rw [objectOf_eq, payload_object members hb hp ha, Json.ofText_toText .oneLine levels hregular]
  cases (Json.object members).tooDeep? levels.count <;> rfl

/-- An object on a line of its own. -/
theorem objectOf_toText {members : Members} (h : (Json.object members).Regular) :
    objectOf levels ((Json.object members).toText .oneLine) =
      unlessTooDeep (some members) ((Json.object members).tooDeep? levels.count) := by
  have hnone : Text.IsMargin [] := nofun
  have hmargins := objectOf_object levels h hnone (show ∀ gap ∈ none, Text.IsMargin gap from nofun) hnone
  simpa [Text.lead] using hmargins

end Record

/-- A line of an output. -/
inductive ResponseLine where
  /-- A record, written as the object with these members, between margins.  Where a prompt stands
  before it, a margin follows the prompt. -/
  | record (r : Record) (members : Members) (before : Text) (prompted : Option Text) (after : Text)
  /-- A line without an object. -/
  | other (line : Text)
  deriving Repr

namespace ResponseLine

/-- The text is no JSON object: it is empty, it is no JSON value, or it is another value. -/
def CarriesNone (levels : Json.Levels) (payload : Text) : Prop :=
  payload = [] ∨ Json.ofText levels payload = .error .malformed ∨
    ∃ v, Json.ofText levels payload = .ok v ∧ ∀ members, v ≠ .object members

/-- What a line has to fulfil: an object has the shape of its record, has numbers that can be read and
no key twice, and stands between margins; another line carries no object. -/
def Valid (levels : Json.Levels) : ResponseLine → Prop
  | record r members before prompted after =>
    r.IsResponse (.object members) ∧ (Json.object members).Regular ∧ Text.IsMargin before ∧
      (∀ gap ∈ prompted, Text.IsMargin gap) ∧ Text.IsMargin after
  | other line => '\n' ∉ line ∧ CarriesNone levels (Record.payload line)

/-- The text of a line. -/
def text : ResponseLine → Text
  | record _ members before prompted after =>
    before ++ ((Text.lead Record.prompt prompted ++ (Json.object members).toText .oneLine) ++ after)
  | other line => line

/-- The record on a line, if it has one. -/
def record? : ResponseLine → Option Record
  | record r _ _ _ _ => some r
  | other _ => none

/-- The object on a line, if it has one. -/
def members? : ResponseLine → Option Members
  | record _ members _ _ _ => some members
  | other _ => none

/-- How deep the object on a line is. -/
def nesting (l : ResponseLine) : Nat := l.members?.elim 0 fun members => (Json.object members).nesting

/-- The first array or object of a line for which no level is left. -/
def tooDeep? (levels : Json.Levels) (l : ResponseLine) : Option Json.Container :=
  l.members?.bind fun members => (Json.object members).tooDeep? levels.count

theorem tooDeep?_eq_none_iff {levels : Json.Levels} {l : ResponseLine} :
    l.tooDeep? levels = none ↔ l.nesting ≤ levels.count := by
  cases l with
  | record r members before prompted after => exact Json.tooDeep?_eq_none_iff
  | other line => simp [tooDeep?, nesting, members?]

variable {levels : Json.Levels}

theorem Valid.not_mem_text {l : ResponseLine} (h : l.Valid levels) : '\n' ∉ l.text := by
  cases l with
  | record r members before prompted after =>
    obtain ⟨-, -, hb, hp, ha⟩ := h
    have hlead : '\n' ∉ Text.lead Record.prompt prompted := Text.not_mem_lead (by decide) hp
    have hobject := Json.newline_not_mem_toText (.object members)
    simp [text, hb.not_mem, ha.not_mem, hlead, hobject]
  | other line => exact h.1

theorem Valid.objectOf_text {l : ResponseLine} (h : l.Valid levels) :
    Record.objectOf levels l.text = Record.unlessTooDeep l.members? (l.tooDeep? levels) := by
  cases l with
  | record r members before prompted after =>
    obtain ⟨-, hregular, hb, hp, ha⟩ := h
    exact Record.objectOf_object levels hregular hb hp ha
  | other line =>
    rw [text, Record.objectOf_eq]
    obtain ⟨-, h | h | ⟨v, h, hv⟩⟩ := h
    · rw [h]
      rfl
    · rw [h]
      rfl
    · rw [h]
      cases v with
      | object members => exact absurd rfl (hv members)
      | _ => rfl

/-- The objects on lines are the records' objects, unless one of them is too deep. -/
theorem objectsOfLines_map_text : ∀ ls : List ResponseLine, (∀ l ∈ ls, l.Valid levels) →
    Record.objectsOfLines levels (ls.map text) =
      Record.unlessTooDeep (ls.filterMap members?) (ls.findSome? (tooDeep? levels))
  | [], _ => rfl
  | l :: ls, h => by
    have hl := (h l (.head _)).objectOf_text
    have ih := objectsOfLines_map_text ls fun l' hl' => h l' (.tail _ hl')
    rw [List.map_cons, Record.objectsOfLines, hl, ih, List.findSome?_cons, List.filterMap_cons]
    cases l.tooDeep? levels with
    | some c => rfl
    | none =>
      cases ls.findSome? (tooDeep? levels) with
      | some c => rfl
      | none => cases l.members? <;> rfl

/-- The records of the objects are the records on the lines. -/
theorem mapM_classify : ∀ ls : List ResponseLine, (∀ l ∈ ls, l.Valid levels) →
    (ls.filterMap members?).mapM Record.classify = .ok (ls.filterMap record?)
  | [], _ => rfl
  | .other line :: ls, h => mapM_classify ls fun l' hl' => h l' (.tail _ hl')
  | .record r members before prompted after :: ls, h => by
    have hr : Record.classify members = .ok r := (h _ (.head _)).1.fits.classify_eq
    have ih := mapM_classify ls fun l' hl' => h l' (.tail _ hl')
    show (members :: ls.filterMap members?).mapM Record.classify = .ok (r :: ls.filterMap record?)
    rw [List.mapM_cons, hr, ih]
    rfl

/-- Decoding an output gives the records on its lines, unless an object is too deep. -/
theorem decode_map_text (ls : List ResponseLine) (h : ∀ l ∈ ls, l.Valid levels) :
    Record.decode levels (Text.unlines (ls.map text)) =
      Record.unlessTooDeep (ls.filterMap record?) (ls.findSome? (tooDeep? levels)) := by
  by_cases hne : ls = []
  · subst hne
    rfl
  · have hlines : Text.lines (Text.unlines (ls.map text)) = ls.map text := by
      apply Text.lines_unlines (by simpa using hne)
      intro t ht
      obtain ⟨l, hl, rfl⟩ := List.mem_map.1 ht
      exact (h l hl).not_mem_text
    rw [Record.decode, Record.objects, hlines, objectsOfLines_map_text ls h]
    cases ls.findSome? (tooDeep? levels) with
    | some c => rfl
    | none => exact mapM_classify ls h

end ResponseLine

/-! ## Whole outputs -/

/-- The members of the sample of a goal, at the empty range `3,5-4`. -/
def ResponseLine.sampleGoal : Members :=
  [("kind".toList, .string "DisplayInfo".toList),
   ("info".toList, .object
     [("interactionPoint".toList, .object
        [("id".toList, .int 0),
         ("range".toList, .array [.object
           [("start".toList, .object [("pos".toList, .int 40), ("line".toList, .int 3), ("col".toList, .int 5)]),
            ("end".toList, .object [("line".toList, .int 3), ("col".toList, .int 4)])]])]),
      ("goalInfo".toList, .object
        [("entries".toList, .array [.object
           [("originalName".toList, .string "x\"".toList), ("inScope".toList, .bool true),
            ("binding".toList, .string "ℕ".toList)]]),
         ("type".toList, .string "𝔸 →\nSet".toList)]),
      ("kind".toList, .string "GoalSpecific".toList)])]

/-- The members of the sample of an error, with a number that is no integer at another key. -/
def ResponseLine.sampleError : Members :=
  [("info".toList, .object
     [("error".toList, .object [("message".toList, .string "JSON>\t".toList)]),
      ("warnings".toList, .array [.float (.finite false 6755399441055744 (-52)), .null])]),
   ("kind".toList, .string "DisplayInfo".toList)]

theorem ResponseLine.isResponse_sampleGoal :
    (Record.goal 0 (some ⟨3, 5, 3, 4, by decide⟩) "𝔸 →\nSet".toList
      [("x\"".toList, "ℕ".toList)]).IsResponse (.object sampleGoal) := by
  refine ⟨⟨_, rfl, rfl⟩, _, ⟨_, rfl, rfl⟩, .goal ⟨_, rfl, rfl⟩ ⟨_, rfl, rfl⟩ ⟨⟨_, rfl, rfl⟩, ?_⟩
    ⟨_, rfl, rfl⟩ ⟨_, rfl, rfl⟩ ⟨_, rfl, rfl⟩ ?_⟩
  · exact ⟨_, _, ⟨_, rfl, rfl⟩, _, _, ⟨_, rfl, rfl⟩, ⟨_, rfl, rfl⟩, ⟨_, rfl, rfl⟩, ⟨_, rfl, rfl⟩,
      ⟨_, rfl, rfl⟩, ⟨_, rfl, rfl⟩⟩
  · exact .cons ⟨⟨_, rfl, rfl⟩, ⟨_, rfl, rfl⟩⟩ .nil

theorem ResponseLine.isResponse_sampleError :
    (Record.error "JSON>\t".toList).IsResponse (.object sampleError) := by
  refine ⟨⟨_, rfl, rfl⟩, _, ⟨_, rfl, rfl⟩, .error ?_ ⟨_, rfl, rfl⟩ ⟨_, rfl, rfl⟩⟩
  rintro ⟨_, ⟨⟩, h⟩
  cases h

theorem ResponseLine.regular_sampleGoal : (Json.object sampleGoal).Regular := by
  have hshort : ∀ n ≤ 40, (Text.ofNat n).length ≤ IntegerFault.digitLimit := by decide
  simp [sampleGoal, hshort]

theorem ResponseLine.regular_sampleError : (Json.object sampleError).Regular := by
  have hdouble : (Binary64.finite false 6755399441055744 (-52)).IsDouble := by decide
  simp [sampleError, hdouble]

/-- An output with a goal behind a prompt, a line that is no JSON value, a list and an error. -/
def ResponseLine.samples : List ResponseLine :=
  [.record (.goal 0 (some ⟨3, 5, 3, 4, by decide⟩) "𝔸 →\nSet".toList [("x\"".toList, "ℕ".toList)])
      ResponseLine.sampleGoal [] (some []) "\r".toList,
    .other "Checking A (A.agda).".toList, .other "JSON> []".toList,
    .record (.error "JSON>\t".toList) ResponseLine.sampleError " ".toList none []]

/-- Arrays within each other, `n + 1` of them. -/
def ResponseLine.arrays : Nat → Json
  | 0 => .array []
  | n + 1 => .array [arrays n]

theorem ResponseLine.regular_arrays : ∀ n : Nat, (arrays n).Regular
  | 0 => .array nofun
  | n + 1 => .array (List.forall_mem_singleton.2 (regular_arrays n))

theorem ResponseLine.nesting_arrays : ∀ n : Nat, (arrays n).nesting = n + 1
  | 0 => rfl
  | n + 1 => by
    rw [arrays, Json.nesting, Json.itemsNesting, Json.itemsNesting, nesting_arrays n, Nat.max_eq_left]
    exact Nat.zero_le _

/-- The members of an error beside arrays within each other, `n + 1` of them. -/
def ResponseLine.deepError (n : Nat) : Members :=
  [("kind".toList, .string "DisplayInfo".toList),
   ("info".toList, .object
     [("kind".toList, .string "Error".toList),
      ("error".toList, .object [("message".toList, .string "m".toList)])]),
   ("deep".toList, arrays n)]

/-- The line of an error that stands beside more arrays within each other than levels are read. -/
def ResponseLine.deepLine : ResponseLine :=
  .record (.error "m".toList) (deepError Json.Levels.usual.count) [] none []

theorem ResponseLine.valid_deepLine : deepLine.Valid .usual := by
  refine ⟨⟨⟨_, rfl, rfl⟩, _, ⟨_, rfl, rfl⟩, .error ?_ ⟨_, rfl, rfl⟩ ⟨_, rfl, rfl⟩⟩, ?_, by decide,
    by decide, by decide⟩
  · rintro ⟨_, ⟨⟩, h⟩
    cases h
  · simp [deepError, regular_arrays]

theorem ResponseLine.lt_nesting_deepLine : Json.Levels.usual.count < deepLine.nesting := by
  show _ < (Json.object (deepError _)).nesting
  simp only [deepError, Json.nesting, Json.membersNesting, nesting_arrays]
  omega

end AgdaFrontEnd
