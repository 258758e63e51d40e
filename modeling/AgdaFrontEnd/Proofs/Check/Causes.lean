import AgdaFrontEnd.Proofs.Check.Verdict

/-!
# Why a step of a check fails

* `Setting.QueryFault`: why a query fails: the prover does not start, or does not get its input, or its
  changes of files are refused, or it ends with another code than zero, or its answer is not decoded.
* `Setting.Fails.cause`: why a step fails.
-/

namespace AgdaFrontEnd

namespace Checking.Setting

/-! ## Queries -/

/-- Why a query with a payload fails. -/
inductive QueryFault (c : Setting) (payload : Text) : Failure → Prop
  /-- The prover does not start. -/
  | start {fault : StartFault} (h : c.script.startFault? c.program (c.command payload) = some fault) :
    QueryFault c payload (.notStarted c.program fault.reason)
  /-- The process does not get its input. -/
  | input {fault : InputFault} (h : c.script.inputFault? (c.command payload) = some fault) :
    QueryFault c payload (.ofInput fault)
  /-- A change of files is refused. -/
  | effects {d d' : Disk} {fault : DiskFault}
    (h : (Effect.performAll d.home (c.script.ruleFor (c.command payload)).effects).run d =
      (.error fault, d')) : QueryFault c payload (.disk fault)
  /-- The process ends with another code than zero. -/
  | exit (stderr : Text) (h : (c.script.ruleFor (c.command payload)).exitCode ≠ 0) :
    QueryFault c payload (.exited (c.script.ruleFor (c.command payload)).exitCode stderr)
  /-- The answer is not decoded. -/
  | answer (fault : DecodeFault) : QueryFault c payload (.decode fault)

variable {c : Setting} {d d' : Disk} {payload : Text} {f : Failure}

theorem queryFault_of_reply (h : (c.reply d payload).1 = .error f) : c.QueryFault payload f := by
  unfold reply Script.reply Script.exchange at h
  split at h
  · rename_i fault hstart
    cases h
    exact .start hstart
  · split at h
    · rename_i fault hinput
      cases h
      exact .input hinput
    · split at h
      · rename_i fault d' heffects
        cases h
        exact .effects heffects
      · unfold Rule.answer at h
        split at h
        · cases h
        · rename_i hexit
          cases h
          exact .exit _ hexit

theorem queryFault_of_query {decode : Json.Levels → Dialect → Text → Except Failure α}
    (hdecode : ∀ levels dialect t f, decode levels dialect t = .error f → ∃ fault, f = .decode fault)
    (h : c.query payload decode d = (.error f, d')) : c.QueryFault payload f := by
  have hresult : (c.reply d payload).1.bind (decode c.levels c.dialect) = .error f := (Prod.mk.inj h).1
  cases hr : (c.reply d payload).1 with
  | error e =>
    rw [hr] at hresult
    cases hresult
    exact queryFault_of_reply hr
  | ok t =>
    rw [hr] at hresult
    obtain ⟨fault, rfl⟩ := hdecode _ _ _ _ hresult
    exact .answer fault

theorem decode_of_extract {levels : Json.Levels} {dialect : Dialect} {x : Extractor} {output : Text}
    {hole : Option Int} (h : extract levels dialect x output hole = .error f) : ∃ fault, f = .decode fault := by
  unfold extract at h
  dsimp only at h
  split at h
  · exact ⟨_, (Except.error.inj h).symm⟩
  · split at h
    · cases h
    · exact ⟨_, (Except.error.inj h).symm⟩

theorem decode_of_resultOf {levels : Json.Levels} {dialect : Dialect} {output : Text}
    (h : resultOf levels dialect output = .error f) : ∃ fault, f = .decode fault := by
  unfold resultOf at h
  split at h
  · split at h
    · cases h
    · exact ⟨_, (Except.error.inj h).symm⟩
  · cases h

theorem queryFault_of_ask {hole : Option Int} {x : Extractor}
    (h : c.ask payload hole x d = (.error f, d')) : c.QueryFault payload f :=
  queryFault_of_query (fun _ _ _ _ => decode_of_extract) h

theorem queryFault_of_evaluation (h : c.evaluation d = (.error f, d')) :
    c.QueryFault (Command.compute Command.entryPoint) f :=
  queryFault_of_query (fun _ _ _ _ => decode_of_resultOf) h

end Checking.Setting

namespace Checking.Setting

/-! ## Steps -/

/-- Why a step of a check fails: a query, or reading. -/
inductive StepFault (c : Setting) : Step → Failure → Prop
  | load (h : c.QueryFault (Command.load c.file.toText) f) : StepFault c .load f
  | source (h : f.IsOfReading) : StepFault c .source f
  | hole (o : Hole) (h : c.QueryFault (Command.goal o.id o.hint) f) : StepFault c (.hole k) f
  | evaluation (h : c.QueryFault (Command.compute Command.entryPoint) f) : StepFault c .evaluation f
  | blocks (h : f.IsOfReading) : StepFault c .blocks f

variable {c : Setting} {d : Disk} {step : Step} {f : Failure}

/-- **Why a step of a check fails.** -/
theorem Fails.cause (h : c.Fails d step f) : c.StepFault step f := by
  cases h with
  | load h => exact .load (queryFault_of_ask h)
  | source _ h => exact .source (Disk.isOfReading_of_source h)
  | @hole _ _ _ _ _ _ o _ _ h => exact .hole o (queryFault_of_ask h)
  | evaluation _ _ h => exact .evaluation (queryFault_of_evaluation h)
  | blocks _ h => exact .blocks ((onlyReads_blocks _ _ _).isOfReading _ _ h)

theorem QueryFault.input_of_ofInput {payload : Text} {fault : InputFault}
    (h : c.QueryFault payload (.ofInput fault)) :
    c.script.inputFault? (c.command payload) = some fault := by
  generalize hf : Failure.ofInput fault = f at h
  cases h with
  | @input fault' h =>
    obtain rfl : fault = fault' := by cases fault <;> cases fault' <;> cases hf <;> rfl
    exact h
  | _ => cases fault <;> cases hf

/-- A check breaks off at a process that does not get its input just if there is a command that is not
taken so. -/
theorem StepFault.exists_inputFault {fault : InputFault} (h : c.StepFault step (.ofInput fault)) :
    ∃ payload, c.script.inputFault? (c.command payload) = some fault := by
  have hreading : ¬ (Failure.ofInput fault).IsOfReading := by cases fault <;> exact id
  cases h with
  | load h => exact ⟨_, h.input_of_ofInput⟩
  | source h => exact absurd h hreading
  | hole _ h => exact ⟨_, h.input_of_ofInput⟩
  | evaluation h => exact ⟨_, h.input_of_ofInput⟩
  | blocks h => exact absurd h hreading

end Checking.Setting

end AgdaFrontEnd
