import AgdaFrontEnd.CommandLine.Run
import AgdaFrontEnd.Proofs.Tools

/-!
# What a request of the command line comes to

A request comes to an exit code, or a failure escapes.  The failures of the prover and of the arguments
do not escape: they are told on the error output.  What is written for a check depends on its report
alone, and only after the check anything is printed.

* `CommandLine.reported`: what becomes of a failure.
* `CommandLine.printing`: what printing texts comes to; the output may refuse one of them.
* `CommandLine.written`: what is written for the report of a check.
* `CommandLine.concluded`: what a request for a check comes to, by what the check comes to.
* `CommandLine.run_asked`: the run of a request for a check.
* `CommandLine.run_of_arguments`: the run of the program is that of the request that its arguments make.
-/

namespace AgdaFrontEnd.CommandLine

variable (prover : Option Text)

/-! ## Failures -/

/-- What the outcome of a request becomes, and what is written for it: the failures of the prover and
of the arguments are told. -/
def reported (request : Request) : Except Failure Nat → Except Failure Nat × Journal
  | .ok code => (.ok code, [])
  | .error f =>
    if f.isReported then (.ok 1, [.complained (failureText request f ++ ['\n'])]) else (.error f, [])

theorem run_performReported (request : Request) (w : World) :
    (performReported prover request).run w =
      ((reported request ((perform prover request).run w).1).1,
        { ((perform prover request).run w).2 with
          journal := ((perform prover request).run w).2.journal ++
            (reported request ((perform prover request).run w).1).2 }) := by
  unfold performReported
  rw [ExceptT.run_mk]
  rcases (perform prover request).run w with ⟨f | code, w'⟩
  · dsimp only [reported]
    cases f.isReported with
    | true => rfl
    | false => simp
  · simp [reported]

/-- A request that ends without a code, or with one of zero and one, comes to such a one. -/
theorem reported_eq_ok {request : Request} {r : Except Failure Nat} {code : Nat}
    (hr : ∀ n, r = .ok n → n = 0 ∨ n = 1) (h : (reported request r).1 = .ok code) :
    code = 0 ∨ code = 1 := by
  cases r with
  | ok n =>
    exact hr code h
  | error f =>
    rw [reported] at h
    cases hf : f.isReported with
    | true =>
      rw [hf] at h
      exact .inr (Except.ok.inj h).symm
    | false =>
      rw [hf] at h
      cases h

/-- A failure that is told is no success. -/
theorem reported_eq_zero_iff {request : Request} {r : Except Failure Nat} :
    (reported request r).1 = .ok 0 ↔ r = .ok 0 := by
  cases r with
  | ok n => rfl
  | error f => cases hf : f.isReported <;> simp [reported, hf]

/-! ## Printing -/

section Printing

variable (s : Surroundings)

/-- Why the output refuses one of the texts: the first that it does not take. -/
def refusal? (ts : List Text) : Option Text := ts.findSome? s.outputFault

/-- What printing texts one after another comes to before the code is given, and what is printed. -/
def printing (code : Nat) : List Text → Except Failure Nat × Journal
  | [] => (.ok code, [])
  | t :: ts =>
    match s.outputFault t with
    | some wording => (.error (.unencodable wording), [])
    | none => ((printing code ts).1, .printed (t ++ ['\n']) :: (printing code ts).2)

theorem printing_of_refusal_eq_none {code : Nat} : ∀ {ts : List Text}, refusal? s ts = none →
    printing s code ts = (.ok code, ts.map fun t => .printed (t ++ ['\n']))
  | [], _ => rfl
  | t :: ts, h => by
    rw [refusal?, List.findSome?_cons] at h
    cases ht : s.outputFault t with
    | some wording =>
      rw [ht] at h
      cases h
    | none =>
      rw [ht] at h
      rw [printing, ht, printing_of_refusal_eq_none h]
      rfl

theorem printing_of_refusal {code : Nat} {wording : Text} : ∀ {ts : List Text},
    refusal? s ts = some wording → (printing s code ts).1 = .error (.unencodable wording)
  | [], h => by cases h
  | t :: ts, h => by
    rw [refusal?, List.findSome?_cons] at h
    cases ht : s.outputFault t with
    | some wording' =>
      rw [ht] at h
      rw [printing, ht]
      exact congrArg (Except.error ∘ Failure.unencodable) (Option.some.inj h)
    | none =>
      rw [ht] at h
      rw [printing, ht]
      exact printing_of_refusal h

/-- Printing comes to its end exactly if the output refuses none of the texts. -/
theorem printing_eq_ok_iff {code n : Nat} {ts : List Text} :
    (printing s code ts).1 = .ok n ↔ refusal? s ts = none ∧ code = n := by
  cases h : refusal? s ts with
  | none => simp [printing_of_refusal_eq_none s h]
  | some wording => simp [printing_of_refusal s h]

theorem isOutput_of_mem_printing {code : Nat} {e : Event} : ∀ {ts : List Text},
    e ∈ (printing s code ts).2 → e.IsOutput
  | [], h => by cases h
  | t :: ts, h => by
    rw [printing] at h
    split at h
    · cases h
    · rcases List.mem_cons.1 h with rfl | h
      · trivial
      · exact isOutput_of_mem_printing h

end Printing

theorem run_print (t : Text) (w : World) : (Act.print t).run w =
    match w.surroundings.outputFault t with
    | some wording => (.error (.unencodable wording), w)
    | none => (.ok (), { w with journal := w.journal ++ [.printed (t ++ ['\n'])] }) := by
  unfold Act.print
  rw [run_bind_ok (run_get w)]
  cases w.surroundings.outputFault t <;> rfl

/-- Prints texts one after another, and gives the code. -/
def printAll (code : Nat) : List Text → Act Nat
  | [] => return code
  | t :: ts => do
    Act.print t
    printAll code ts

theorem run_printAll (code : Nat) : ∀ (ts : List Text) (w : World),
    (printAll code ts).run w = ((printing w.surroundings code ts).1,
      { w with journal := w.journal ++ (printing w.surroundings code ts).2 })
  | [], w => by
    rw [printing, List.append_nil]
    rfl
  | t :: ts, w => by
    have ht := run_print t w
    rw [printAll, printing]
    cases hfault : w.surroundings.outputFault t with
    | some wording =>
      rw [hfault] at ht
      rw [run_bind_error ht, List.append_nil]
    | none =>
      rw [hfault] at ht
      rw [run_bind_ok ht, run_printAll code ts]
      simp

/-! ## Checks -/

/-- The texts that are printed for a report without errors.  Before a result the report is printed only
if it has blocks. -/
def texts (evaluate : Bool) (r : Report) : List Text :=
  if evaluate then (if r.blocks.isEmpty then [] else [r.text]) ++ [Tools.shownResult r]
  else [r.text]

/-- What the report of a check comes to, and what is written for it.  The report of a failed check is
complained. -/
def written (s : Surroundings) (evaluate : Bool) (r : Report) : Except Failure Nat × Journal :=
  if r.failed then (.ok 1, [.complained (r.text ++ ['\n'])]) else printing s 0 (texts evaluate r)

section Written

variable {s : Surroundings} {evaluate : Bool} {r : Report}

theorem isOutput_of_mem_written {e : Event} (h : e ∈ (written s evaluate r).2) : e.IsOutput := by
  unfold written at h
  split at h
  · rw [List.mem_singleton.1 h]
    trivial
  · exact isOutput_of_mem_printing s h

theorem written_of_failed (h : r.failed = true) :
    written s evaluate r = (.ok 1, [.complained (r.text ++ ['\n'])]) := if_pos h

theorem written_of_passed (h : r.failed = false) :
    written s evaluate r = printing s 0 (texts evaluate r) := if_neg (by simp [h])

/-- What is printed if nothing is refused. -/
theorem stdout_printed (ts : List Text) :
    Journal.stdout (ts.map fun t => .printed (t ++ ['\n'])) = ts.flatMap fun t => t ++ ['\n'] := by
  rw [Journal.stdout, List.flatMap_map]

theorem texts_run : (texts true r).flatMap (fun t => t ++ ['\n']) =
    (if r.blocks = [] then [] else r.text ++ ['\n']) ++ (Tools.shownResult r ++ ['\n']) := by
  unfold texts
  cases r.blocks <;> simp

theorem texts_check : (texts false r).flatMap (fun t => t ++ ['\n']) = r.text ++ ['\n'] := by
  simp [texts]

end Written

/-- The request for a check, or for an evaluation. -/
def asked (evaluate : Bool) (o : CheckOptions) : Request := if evaluate then .run o else .check o

/-- What a request for a check comes to, and what is written for it, by what the check comes to. -/
def concluded (s : Surroundings) (evaluate : Bool) (o : CheckOptions) : Except Failure Report →
    Except Failure Nat × Journal
  | .ok r => written s evaluate r
  | .error f => reported (asked evaluate o) (.error f)

/-- What is written for a report is no failure of the prover or of the arguments. -/
theorem reported_written (request : Request) (s : Surroundings) (evaluate : Bool) (r : Report) :
    reported request (written s evaluate r).1 = ((written s evaluate r).1, []) := by
  cases hr : r.failed with
  | true =>
    rw [written_of_failed hr]
    rfl
  | false =>
    rw [written_of_passed hr]
    cases h : refusal? s (texts evaluate r) with
    | none =>
      rw [printing_of_refusal_eq_none s h]
      rfl
    | some wording =>
      rw [printing_of_refusal s h]
      rfl

theorem run_check_ok {o : CheckOptions} {evaluate : Bool} {w w' : World} {r : Report}
    (h : (Tools.checkFile prover o.path (modeOf o evaluate)).run w = (.ok r, w')) :
    (check prover o evaluate).run w = ((written w'.surroundings evaluate r).1,
      { w' with journal := w'.journal ++ (written w'.surroundings evaluate r).2 }) := by
  unfold check
  rw [run_bind_ok h]
  cases hr : r.failed with
  | true =>
    rw [written_of_failed hr]
    rfl
  | false =>
    have hprints : ∀ a : Act Nat, a = printAll 0 (texts evaluate r) →
        a.run w' = ((written w'.surroundings evaluate r).1,
          { w' with journal := w'.journal ++ (written w'.surroundings evaluate r).2 }) := by
      rintro _ rfl
      rw [run_printAll, written_of_passed hr]
    refine hprints _ ?_
    unfold texts
    cases evaluate with
    | false => rfl
    | true => cases r.blocks.isEmpty <;> rfl

/-- **A request for a check** comes to what the check comes to, and nothing is printed before. -/
theorem run_asked (evaluate : Bool) (o : CheckOptions) (w : World) : ∃ w',
    (Tools.checkFile prover o.path (modeOf o evaluate)).run w =
        (Tools.checkedBy prover (modeOf o evaluate) w o.path, w') ∧ w.Silent w' ∧
      (performReported prover (asked evaluate o)).run w =
        ((concluded w.surroundings evaluate o
            (Tools.checkedBy prover (modeOf o evaluate) w o.path)).1,
          { w' with journal := w'.journal ++ (concluded w.surroundings evaluate o
              (Tools.checkedBy prover (modeOf o evaluate) w o.path)).2 }) := by
  obtain ⟨w', hrun, hsilent⟩ := Tools.run_checkFile prover o.path (modeOf o evaluate) w
  refine ⟨w', hrun, hsilent, ?_⟩
  have hperform : perform prover (asked evaluate o) = check prover o evaluate := by
    cases evaluate <;> rfl
  rw [run_performReported, hperform]
  cases hr : Tools.checkedBy prover (modeOf o evaluate) w o.path with
  | error f =>
    have hcheck : (check prover o evaluate).run w = (.error f, w') := run_bind_error (hr ▸ hrun) _
    rw [hcheck]
    rfl
  | ok r =>
    rw [run_check_ok prover (hr ▸ hrun), hsilent.surroundings, reported_written, List.append_nil]
    rfl

theorem isOutput_of_mem_reported {request : Request} {r : Except Failure Nat} {e : Event}
    (h : e ∈ (reported request r).2) : e.IsOutput := by
  unfold reported at h
  repeat' split at h
  all_goals simp at h
  rw [h]
  trivial

theorem isOutput_of_mem_concluded {s : Surroundings} {evaluate : Bool} {o : CheckOptions}
    {r : Except Failure Report} {e : Event} (h : e ∈ (concluded s evaluate o r).2) : e.IsOutput := by
  cases r with
  | ok r => exact isOutput_of_mem_written h
  | error f => exact isOutput_of_mem_reported h

/-! ## Arguments -/

/-- The world once detailed logging is switched on, if it is wanted. -/
def logging (verbose : Bool) (w : World) : World :=
  if verbose then { w with journal := w.journal ++ [.detailed] } else w

/-- What is entered in the journal for that. -/
def logged (verbose : Bool) : Journal := if verbose then [.detailed] else []

theorem journal_logging (verbose : Bool) (w : World) :
    (logging verbose w).journal = w.journal ++ logged verbose := by
  cases verbose with
  | false => exact (List.append_nil _).symm
  | true => rfl

theorem disk_logging (verbose : Bool) (w : World) : (logging verbose w).disk = w.disk := by
  cases verbose <;> rfl

theorem surroundings_logging (verbose : Bool) (w : World) :
    (logging verbose w).surroundings = w.surroundings := by
  cases verbose <;> rfl

theorem checkedBy_logging (mode : Mode) (verbose : Bool) (w : World) (argument : Option Text) :
    Tools.checkedBy prover mode (logging verbose w) argument =
      Tools.checkedBy prover mode w argument := by
  cases verbose <;> rfl

/-- **The run of the program** is that of the request that its arguments make. -/
theorem run_of_arguments {args : List Text} {verbose : Bool} {request : Request}
    (h : Invocation.ofArguments args = .ok ⟨prover, verbose, some request⟩) (w : World) :
    (run args).run w = (performReported prover request).run (logging verbose w) := by
  unfold run
  rw [h]
  cases verbose with
  | false => rfl
  | true => exact run_bind_ok (Act.run_note _ w) _

end AgdaFrontEnd.CommandLine
