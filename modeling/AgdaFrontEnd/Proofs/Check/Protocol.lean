import AgdaFrontEnd.Proofs.Check.Course

/-!
# The protocol of a check

The commands that a check hands to its session are known beforehand: they load the file, ask for the
goal at each hole of the text that the load has left, and evaluate the entry point if that is wanted.

* `Checker.check_protocol`: a check goes along this plan until it is done or a step fails; its stage
  tells how far it came.
-/

namespace AgdaFrontEnd

namespace Checking.Setting.Step

theorem commands_prefix (plan : List Text) (step : Step) : step.commands plan <+: plan := by
  cases step with
  | load => exact List.take_prefix 1 plan
  | source => exact List.take_prefix 1 plan
  | hole k => exact List.take_prefix (k + 2) plan
  | evaluation => exact List.prefix_refl plan
  | blocks => exact List.prefix_refl plan

theorem stage_ne_reported (mode : Mode) (step : Step) : step.stage mode ≠ .reported := by
  cases step with
  | blocks => cases h : mode.evaluate <;> simp [stage, h]
  | _ => simp [stage]

end Checking.Setting.Step

namespace Checker

/-- The setting of a check that a checker makes. -/
def setting (k : Checker) (w : World) (file : Path) (mode : Mode) : Checking.Setting :=
  .of (k.sessionFor mode) w file mode

theorem run_check (file : Path) (mode : Mode) (k : Checker) (w : World) :
    (check file mode).run k w =
      ((((Checking.check file mode).run k.stage (k.sessionFor mode) w).1.1.1,
        ⟨k.session.map fun _ => ((Checking.check file mode).run k.stage (k.sessionFor mode) w).1.2,
          ((Checking.check file mode).run k.stage (k.sessionFor mode) w).1.1.2⟩),
        ((Checking.check file mode).run k.stage (k.sessionFor mode) w).2) := rfl

theorem returns_of_check {file : Path} {mode : Mode} {k k' : Checker} {w w' : World} {r : Report}
    (h : (check file mode).run k w = ((.ok r, k'), w')) :
    (k.setting w file mode).Returns w.disk r w'.disk := by
  rw [run_check] at h
  rcases Checking.run_check file mode k.stage (k.sessionFor mode) w with
    ⟨report, s', w'', hrun, hr, -⟩ | ⟨step, f, s', w'', hrun, -, -⟩
  · rw [hrun] at h
    cases h
    exact hr
  · rw [hrun] at h
    cases h

/-- **A check follows its plan.**  The commands handed out are a first part of the plan.  If the
check returns they are all of it, and the stage is the last one.  If it fails, it fails at a step
before which all has gone well; no command follows those of the step, and the stage is the one
reached before it. -/
theorem check_protocol (k : Checker) (file : Path) (mode : Mode) (w : World) :
    ∃ r k' w' sent, (check file mode).run k w = ((r, k'), w') ∧
      w'.journal.commands = w.journal.commands ++ sent ∧
      sent <+: (k.setting w file mode).plan w.disk ∧
      (∀ report, r = .ok report →
        sent = (k.setting w file mode).plan w.disk ∧ k'.stage = .reported) ∧
      (∀ f, r = .error f → ∃ step, (k.setting w file mode).Fails w.disk step f ∧
        sent = step.commands ((k.setting w file mode).plan w.disk) ∧
        k'.stage = step.stage mode ∧ k'.stage ≠ .reported) := by
  rw [run_check]
  rcases Checking.run_check file mode k.stage (k.sessionFor mode) w with
    ⟨report, s', w', hrun, -, hf⟩ | ⟨step, f, s', w', hrun, hfail, hf⟩
  · rw [hrun]
    refine ⟨_, _, _, _, rfl, hf.commands, List.prefix_refl _, ?_, ?_⟩
    · exact fun _ _ => ⟨rfl, rfl⟩
    · intro f h
      cases h
  · rw [hrun]
    refine ⟨_, _, _, _, rfl, hf.commands, step.commands_prefix _, ?_, ?_⟩
    · intro report h
      cases h
    · intro f' h
      cases h
      exact ⟨step, hfail, rfl, rfl, step.stage_ne_reported mode⟩

/-- A file with two holes.  The process for the second one does not take its input. -/
def Sample.twoHoles : World where
  disk := { entries := [([['a']], .file (Utf8.encode "{!!} {!!}".toList))] }
  script := { rules := [{ pattern := "Normalised 1".toList, inputFault := some (.notTaken "gone".toList) }] }

/-- The same file.  No process starts for the evaluation. -/
def Sample.noEvaluation : World :=
  { twoHoles with
    script := { rules := [{ pattern := "Cmd_compute".toList, startFault := some (.words "full".toList) }] } }

-- Late commands may fail in ways in which the ones before them did not.
example : (((check ⟨.root, [['a']]⟩ { evaluate := true }).run {} Sample.twoHoles).1.1.map fun _ => ()) =
      .error (.brokenPipe "gone".toList) ∧
    ((check ⟨.root, [['a']]⟩ { evaluate := true }).run {} Sample.twoHoles).1.2.stage = .loaded ∧
    ((check ⟨.root, [['a']]⟩ { evaluate := true }).run {} Sample.twoHoles).2.journal.commands.length = 3 ∧
    (((check ⟨.root, [['a']]⟩ { evaluate := true }).run {} Sample.noEvaluation).1.1.map fun _ => ()) =
      .error (.notStarted "agda".toList "full".toList) ∧
    ((check ⟨.root, [['a']]⟩ { evaluate := true }).run {} Sample.noEvaluation).1.2.stage = .queried := by
  decide +kernel

end Checker

end AgdaFrontEnd
