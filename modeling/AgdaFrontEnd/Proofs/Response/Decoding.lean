import AgdaFrontEnd.Proofs.Json.Faults
import AgdaFrontEnd.Proofs.Response.JsonRoundTrip

/-!
# What decoding gives

Every line of an output that carries an object gives one record, unless one line stops the decoding:
a whole number on it has too many digits, or an array or object on it stands deeper than values are
read, or it is a goal with an infinite number in the place of an integer.  Then no line of the output
gives a record.

* `Record.carried?`: the object that a line carries.
* `Record.GivenUp`: a line that stops the reading of the objects.
* `Record.Describes`: a record of an object, or the object that fits no record.
* `Record.decode_outcome`: what decoding an output gives.
* `Record.decode_stopped`: each of the three faults keeps an error on another line from being seen.
-/

namespace AgdaFrontEnd.Record

/-! ## Objects on lines -/

section Lines

variable (levels : Json.Levels)

/-- The object that a line carries. -/
def carried? (line : Text) : Option Members :=
  match Json.ofText levels (payload line) with
  | .ok (.object members) => some members
  | _ => none

/-- The line is given up: for a whole number with too many digits, which stands on it, or for its depth,
as it opens more arrays and objects than there are levels. -/
inductive GivenUp : DecodeFault → Text → Prop where
  | overlong {count : Nat} {line : Text}
      (read : Json.ofText levels (payload line) = .error (.tooManyDigits count))
      (stands : Json.HasOverlong count (payload line)) :
      GivenUp (.integer (.tooManyDigits count)) line
  | tooDeep {container : Json.Container} {line : Text}
      (read : Json.ofText levels (payload line) = .error (.tooDeep container))
      (opens : Json.OpensMore levels.count (payload line)) : GivenUp (.tooDeep container) line

/-- A line is given up, or it is passed on with the object that it carries. -/
theorem objectOf_cases (line : Text) :
    (∃ fault, GivenUp levels fault line ∧ objectOf levels line = .error fault) ∨
      (∀ fault, ¬ GivenUp levels fault line) ∧ objectOf levels line = .ok (carried? levels line) := by
  have hnot {r : Except Json.Fault Json} (hr : Json.ofText levels (payload line) = r)
      (hlong : ∀ count, r ≠ .error (.tooManyDigits count)) (hdeep : ∀ c, r ≠ .error (.tooDeep c)) :
      ∀ fault, ¬ GivenUp levels fault line := by
    rintro _ (⟨read, -⟩ | ⟨read, -⟩)
    · exact hlong _ (hr.symm.trans read)
    · exact hdeep _ (hr.symm.trans read)
  unfold carried?
  rw [objectOf_eq]
  cases hread : Json.ofText levels (payload line) with
  | ok v => exact .inr ⟨hnot hread nofun nofun, by cases v <;> rfl⟩
  | error fault =>
    cases fault with
    | malformed => exact .inr ⟨hnot hread nofun nofun, rfl⟩
    | tooManyDigits count => exact .inl ⟨_, .overlong hread (Json.ofText_tooManyDigits hread), rfl⟩
    | tooDeep c => exact .inl ⟨_, .tooDeep hread (Json.ofText_tooDeep hread), rfl⟩

/-- What becomes of lines: the objects that they carry, or the fault of one of them. -/
theorem objectsOfLines_outcome : ∀ ls : List Text,
    match objectsOfLines levels ls with
    | .ok os => (∀ line ∈ ls, ∀ fault, ¬ GivenUp levels fault line) ∧ os = ls.filterMap (carried? levels)
    | .error fault => ∃ line ∈ ls, GivenUp levels fault line
  | [] => ⟨nofun, rfl⟩
  | l :: ls => by
    have ih := objectsOfLines_outcome ls
    rw [objectsOfLines]
    rcases objectOf_cases levels l with ⟨fault, hup, hl⟩ | ⟨hread, hl⟩
    · rw [hl]
      exact ⟨l, .head _, hup⟩
    · rw [hl, ok_bind]
      cases hls : objectsOfLines levels ls with
      | ok os =>
        rw [hls] at ih
        obtain ⟨hrest, rfl⟩ := ih
        refine ⟨List.forall_mem_cons.2 ⟨hread, hrest⟩, ?_⟩
        rw [List.filterMap_cons]
        cases carried? levels l <;> rfl
      | error fault =>
        rw [hls] at ih
        obtain ⟨line, hline, hup⟩ := ih
        exact ⟨line, .tail _ hline, hup⟩

end Lines

/-! ## Records of objects -/

/-- The record of an object: one whose shape the object has, or none of them does and the object is
kept. -/
def Describes : Record → Members → Prop
  | .unrecognized kept _, raw => KeptAs raw kept ∧ ∀ r, ¬ Fits r (.object raw)
  | r, raw => Fits r (.object raw)

theorem describes_of_classify {raw : Members} {r : Record} (h : classify raw = .ok r) :
    Describes r raw := by
  have houtcome := outcome_classify raw
  rw [h] at houtcome
  cases r with
  | unrecognized kept reason => exact ⟨houtcome, not_fits_of_unrecognized h⟩
  | _ => exact houtcome

theorem classify_eq_error_iff {raw : Members} {fault : DecodeFault} :
    classify raw = .error fault ↔ fault = .infinite ∧ InfiniteNumber (.object raw) := by
  constructor
  · intro h
    have houtcome := outcome_classify raw
    rw [h] at houtcome
    exact houtcome
  · rintro ⟨rfl, h⟩
    exact h.classify_eq

/-! ## Outputs -/

/-- **Decoding an output gives one record for each line that carries an object**, in order, and it
fails in three cases only: at a line on which a whole number has more digits than are read, at a line
on which an array or object stands deeper than values are read, and at a goal with an infinite number
in the place of an integer. -/
theorem decode_outcome (levels : Json.Levels) (output : Text) :
    match decode levels output with
    | .ok records =>
      (∀ line ∈ output.lines, ∀ fault, ¬ GivenUp levels fault line) ∧
        (∀ line ∈ output.lines, ∀ raw ∈ carried? levels line, ¬ InfiniteNumber (.object raw)) ∧
        List.Forall₂ Describes records (output.lines.filterMap (carried? levels))
    | .error .infinite =>
      (∀ line ∈ output.lines, ∀ fault, ¬ GivenUp levels fault line) ∧
        ∃ line ∈ output.lines, ∃ raw ∈ carried? levels line, InfiniteNumber (.object raw)
    | .error fault => ∃ line ∈ output.lines, GivenUp levels fault line := by
  have hlines := objectsOfLines_outcome levels output.lines
  cases hobjects : objectsOfLines levels output.lines with
  | error fault =>
    rw [hobjects] at hlines
    have hdecode : decode levels output = .error fault := by
      rw [decode, objects, hobjects]
      rfl
    rw [hdecode]
    cases fault with
    | infinite =>
      obtain ⟨line, hline, hup⟩ := hlines
      cases hup
    | integer | tooDeep => exact hlines
  | ok os =>
    rw [hobjects] at hlines
    obtain ⟨hread, rfl⟩ := hlines
    have hdecode : decode levels output =
        (output.lines.filterMap (carried? levels)).mapM classify := by
      rw [decode, objects, hobjects]
      rfl
    rw [hdecode]
    cases hrecords : (output.lines.filterMap (carried? levels)).mapM classify with
    | ok records =>
      refine ⟨hread, ?_, (mapM_eq_ok_iff.1 hrecords).imp fun _ _ => describes_of_classify⟩
      intro line hline raw hraw hinfinite
      obtain ⟨r, hr⟩ := exists_of_mapM_eq_ok hrecords raw (List.mem_filterMap.2 ⟨line, hline, hraw⟩)
      rw [hinfinite.classify_eq] at hr
      cases hr
    | error fault =>
      obtain ⟨raw, hraw, h⟩ := exists_of_mapM_eq_error hrecords
      obtain ⟨rfl, hinfinite⟩ := classify_eq_error_iff.1 h
      obtain ⟨line, hline, hcarried⟩ := List.mem_filterMap.1 hraw
      exact ⟨hread, line, hline, raw, hcarried, hinfinite⟩

/-! ## A line that stops the decoding -/

/-- An output is decoded by its lines. -/
theorem decode_unlines (levels : Json.Levels) {ls : List Text} (hne : ls ≠ [])
    (h : ∀ l ∈ ls, '\n' ∉ l) :
    decode levels (Text.unlines ls) = objectsOfLines levels ls >>= fun os => os.mapM classify := by
  rw [decode, objects, Text.lines_unlines hne h]

/-- The members of a sample of an error. -/
def errorSample : Members :=
  [("kind".toList, .string "DisplayInfo".toList),
   ("info".toList, .object
     [("kind".toList, .string "Error".toList),
      ("error".toList, .object [("message".toList, .string "A.agda:1,1-2".toList)])])]

/-- The members of a sample of a goal whose number is infinite. -/
def infiniteSample : Members :=
  [("kind".toList, .string "DisplayInfo".toList),
   ("info".toList, .object
     [("kind".toList, .string "GoalSpecific".toList),
      ("interactionPoint".toList, .object [("id".toList, .float (.infinite false))]),
      ("goalInfo".toList, .object [("type".toList, .string "Set".toList)])])]

/-- A line with a number of more digits than are read. -/
def overlongSample : Text := List.replicate 4301 '1'

theorem classify_errorSample : classify errorSample = .ok (.error "A.agda:1,1-2".toList) := by
  refine Fits.classify_eq (.error ⟨_, rfl, rfl⟩ ⟨_, rfl, rfl⟩ ?_ ⟨_, rfl, rfl⟩ (.inl ⟨_, rfl, rfl⟩))
  rintro ⟨_, ⟨⟩, h⟩
  cases h

theorem classify_infiniteSample : classify infiniteSample = .error .infinite :=
  InfiniteNumber.classify_eq ⟨⟨_, rfl, rfl⟩, _, ⟨_, rfl, rfl⟩, ⟨_, rfl, rfl⟩,
    _, _, ⟨_, rfl, rfl⟩, ⟨_, rfl, rfl⟩, .inl ⟨false, _, rfl, rfl⟩⟩

/-- A line that starts with more brackets than there are levels. -/
def deepSample : Text := List.replicate (Json.Levels.usual.count + 1) '['

/-- The payload of a line of one character is the line. -/
theorem payload_replicate {c : Char} (hc : isBlank c = false) (hp : c ≠ 'J') (n : Nat) :
    payload (List.replicate (n + 1) c) = List.replicate (n + 1) c := by
  have hsolid : Text.IsSolid (List.replicate (n + 1) c) :=
    ⟨⟨c, _, List.replicate_succ, hc⟩, ⟨_, c, List.replicate_succ', hc⟩⟩
  have hstrip : Text.strip (List.replicate (n + 1) c) = List.replicate (n + 1) c := by
    simpa using Text.strip_of_margins (a := []) (b := []) nofun hsolid nofun
  have hprompt : Text.dropPrefix? (List.replicate (n + 1) c) prompt = none := by
    rw [List.replicate_succ]
    exact if_neg (Ne.symm hp)
  rw [payload, hstrip, hprompt]

theorem objectOf_overlongSample :
    objectOf .usual overlongSample = .error (.integer (.tooManyDigits 4301)) := by
  have hlength : overlongSample.length = 4301 := List.length_replicate
  have hwhole : Json.IsWhole overlongSample :=
    ⟨fun c hc => by rw [List.eq_of_mem_replicate hc]; decide,
      .inr ⟨'1', _, List.replicate_succ, by decide⟩⟩
  have hpayload : payload overlongSample = overlongSample := payload_replicate (by decide) (by decide) _
  rw [objectOf_eq, hpayload, Json.ofText_of_isWhole .usual hwhole (by rw [hlength]; decide), hlength]

theorem objectOf_deepSample : objectOf .usual deepSample = .error (.tooDeep .array) := by
  have hpayload : payload deepSample = deepSample := payload_replicate (by decide) (by decide) _
  have hread := Json.ofText_openings .usual []
  rw [List.append_nil, ← deepSample] at hread
  rw [objectOf_eq, hpayload, hread]

/-- An error on a line is seen, but not beside a line with an infinite number in the place of an
integer, with a number that has too many digits, or with too many brackets. -/
theorem decode_stopped :
    decode .usual (Text.unlines [(Json.object errorSample).toText .oneLine]) =
        .ok [.error "A.agda:1,1-2".toList] ∧
      decode .usual (Text.unlines [(Json.object infiniteSample).toText .oneLine,
        (Json.object errorSample).toText .oneLine]) = .error .infinite ∧
      decode .usual (Text.unlines [overlongSample, (Json.object errorSample).toText .oneLine]) =
        .error (.integer (.tooManyDigits 4301)) ∧
      decode .usual (Text.unlines [deepSample, (Json.object errorSample).toText .oneLine]) =
        .error (.tooDeep .array) := by
  have herror := objectOf_toText .usual (show (Json.object errorSample).Regular by simp [errorSample])
  have hinfinite := objectOf_toText .usual (show (Json.object infiniteSample).Regular by
    simp [infiniteSample, Binary64.IsDouble])
  have hline (v : Json) := Json.newline_not_mem_toText v
  have hlong : '\n' ∉ overlongSample := fun h => absurd (List.eq_of_mem_replicate h) (by decide)
  have hdeep : '\n' ∉ deepSample := fun h => absurd (List.eq_of_mem_replicate h) (by decide)
  refine ⟨?_, ?_, ?_, ?_⟩
  · rw [decode_unlines .usual (by simp) (by simp [hline]), objectsOfLines, herror]
    show [errorSample].mapM classify = _
    rw [List.mapM_cons, classify_errorSample]
    rfl
  · rw [decode_unlines .usual (by simp) (by simp [hline]), objectsOfLines, hinfinite, objectsOfLines, herror]
    show [infiniteSample, errorSample].mapM classify = _
    rw [List.mapM_cons, classify_infiniteSample]
    rfl
  · rw [decode_unlines .usual (by simp) (by simp [hline, hlong]), objectsOfLines, objectOf_overlongSample]
    rfl
  · rw [decode_unlines .usual (by simp) (by simp [hline, hdeep]), objectsOfLines, objectOf_deepSample]
    rfl

end AgdaFrontEnd.Record
