import AgdaFrontEnd.Proofs.Check.Parts
import AgdaFrontEnd.Proofs.Check.Protocol
import AgdaFrontEnd.Proofs.Session.Numbering

/-!
# Checks after other checks

A checker keeps its session and its stage from one request to the next.  Of all that earlier requests
did, successful or not, only the count of commands is left in the session, and a check begins at the
first stage whatever the stage was before.  So a check comes to the same as that of a new checker.

* `Checking.Shifts`: an activity to which it does not matter where numbers start.
* `Checking.shifts_check`: a check is one, since all its parts are.
* `Checker.Errand`: a request, and the world in which it is served.
* `Checker.serveAll_keeps`: what is left of errands in a checker.
* `Checker.check_after_errands`: a check after errands comes to the same as one by a new checker.
-/

namespace AgdaFrontEnd

namespace Checking

/-! ## Numbers do not matter -/

/-- With later numbers the activity comes to the same, and leaves the same but for later numbers. -/
def Shifts (a : Checking α) : Prop :=
  ∀ t s w j m n, a.run t (s.shift m n) (w.shift j m n) =
    (((a.run t s w).1.1, (a.run t s w).1.2.shift m n), (a.run t s w).2.shift j m n)

/-- One such activity after another. -/
theorem Shifts.bind {a : Checking α} {f : α → Checking β} (ha : Shifts a) (hf : ∀ x, Shifts (f x)) :
    Shifts (a >>= f) := by
  intro t s w j m n
  have hshift := ha t s w j m n
  rcases hrun : a.run t s w with ⟨⟨⟨r, t'⟩, s'⟩, w'⟩
  rw [hrun] at hshift
  cases r with
  | error e => rw [run_bind_error hshift, run_bind_error hrun]
  | ok x => rw [run_bind_ok hshift, run_bind_ok hrun, hf x]

/-- Where numbers start does not matter to any part of a check. -/
theorem closed_shifts : Closed Shifts where
  pure := fun _ _ _ _ _ _ _ => rfl
  throw := fun _ _ _ _ _ _ _ => rfl
  bind := Shifts.bind
  enter := fun _ _ _ _ _ _ _ => rfl
  dialect := fun _ _ _ _ _ _ => rfl
  levels := fun _ _ _ _ _ _ => rfl
  inWorld := fun ha t s w j m n => by rw [run_inWorld, run_inWorld, ha.run_shift]
  send := fun _ _ _ t s w j m n => by
    rw [run_talking, run_talking, Session.sendPayload, Session.send_shift]

variable (file : Path) (mode : Mode)

/-- **Where numbers start does not matter to a check.** -/
theorem shifts_check : Shifts (check file mode) := closed_shifts.check file mode

/-- The stage before a check does not matter to it. -/
theorem check_stage (t t' : Stage) (s : Session) (w : World) :
    (check file mode).run t s w = (check file mode).run t' s w := rfl

/-- The world without a journal, and with the first process still to come. -/
def bare (w : World) : World := { w with journal := [], next := 0 }

theorem shift_bare (w : World) (j : Journal) (m n : Nat) :
    (bare w).shift j m n = { w with journal := j, next := n } := by
  simp [bare, World.shift]

/-- What a check does is followed in the session and the world. -/
theorem exists_follows_check (t : Stage) (s : Session) (w : World) : ∃ cs d,
    Session.Follows s w cs d ((check file mode).run t s w).1.2 ((check file mode).run t s w).2 := by
  rcases run_check file mode t s w with ⟨_, _, _, hrun, -, hf⟩ | ⟨_, _, _, _, hrun, -, hf⟩
  all_goals
    rw [hrun]
    exact ⟨_, _, hf⟩

theorem exists_follows_load (t : Stage) (s : Session) (w : World) : ∃ cs d,
    Session.Follows s w cs d ((load file mode).run t s w).1.2 ((load file mode).run t s w).2 ∧
      ((load file mode).run t s w).1.1.2 = t := by
  obtain ⟨r, s', w', hrun, -, hf⟩ :=
    run_ask file mode t s w (Command.load file.toText) none Extractor.empty
  unfold load
  cases r with
  | error f =>
    rw [run_bind_error hrun]
    exact ⟨_, _, hf, rfl⟩
  | ok x =>
    rw [run_bind_ok hrun]
    exact ⟨_, _, hf, rfl⟩

end Checking

namespace Session

/-- The session but for the count of its commands. -/
def uncounted (s : Session) : Session := { s with sent := 0 }

/-- A new session of the same kind. -/
def renewed (s : Session) : Session := { s with sent := 0, process := none }

theorem shift_zero {s : Session} (h : s.process = none) (n : Nat) : s.shift 0 n = s := by
  obtain ⟨program, args, dialect, quiet, sent, process⟩ := s
  cases h
  rfl

/-- An idle session is a new one after some commands. -/
theorem eq_shift_renewed {s : Session} (h : s.process = none) (n : Nat) :
    s = s.renewed.shift s.sent n := by
  obtain ⟨program, args, dialect, quiet, sent, process⟩ := s
  cases h
  simp [renewed, shift]

end Session

namespace Checker

/-! ## Errands -/

/-- A request to a checker, and the world in which it is served. -/
inductive Errand where
  | check (file : Path) (mode : Mode) (w : World)
  | load (file : Path) (mode : Mode) (w : World)

/-- The checker after an errand, whatever it came to. -/
def serveErrand (k : Checker) : Errand → Checker
  | .check file mode w => ((check file mode).run k w).1.2
  | .load file mode w => ((load file mode).run k w).1.2

/-- The checker after errands, one after another.  Each of them may find another world. -/
def serveAll (k : Checker) (es : List Errand) : Checker := es.foldl serveErrand k

/-- A new checker of the same kind, with a new session of its own if it has one. -/
def renewed (k : Checker) : Checker := ⟨k.session.map Session.renewed, .idle⟩

/-- No process of the checker's session is at work. -/
def IsIdle (k : Checker) : Prop := ∀ s, k.session = some s → s.process = none

/-- An errand leaves the checker idle, and of the same kind. -/
theorem serveErrand_keeps {k : Checker} (hk : k.IsIdle) (e : Errand) :
    (serveErrand k e).IsIdle ∧ (serveErrand k e).renewed = k.renewed := by
  have hkeeps : ∀ (mode : Mode) (w w' : World) (stage : Stage) (s' : Session) (cs : List Text)
      (d : Disk), Session.Follows (k.sessionFor mode) w cs d s' w' →
      IsIdle ⟨k.session.map fun _ => s', stage⟩ ∧
        renewed ⟨k.session.map fun _ => s', stage⟩ = k.renewed := by
    intro mode w w' stage s' cs d hf
    obtain ⟨_ | s, t⟩ := k
    · exact ⟨nofun, rfl⟩
    · have hs : s.process = none := hk s rfl
      refine ⟨fun s₁ h => ?_, ?_⟩
      · cases h
        exact hf.idle hs
      · rw [hf.eq_shift hs 0]
        rfl
  cases e with
  | check file mode w =>
    obtain ⟨cs, d, hf⟩ := Checking.exists_follows_check file mode k.stage (k.sessionFor mode) w
    exact hkeeps mode w _ _ _ cs d hf
  | load file mode w =>
    obtain ⟨cs, d, hf, -⟩ := Checking.exists_follows_load file mode k.stage (k.sessionFor mode) w
    exact hkeeps mode w _ _ _ cs d hf

/-- **What is left of errands** in a checker: it is idle, and of the same kind. -/
theorem serveAll_keeps {k : Checker} (hk : k.IsIdle) (es : List Errand) :
    (serveAll k es).IsIdle ∧ (serveAll k es).renewed = k.renewed := by
  induction es generalizing k with
  | nil => exact ⟨hk, rfl⟩
  | cons e es ih =>
    obtain ⟨hidle, hrenewed⟩ := serveErrand_keeps hk e
    obtain ⟨hidle', hrenewed'⟩ := ih hidle
    exact ⟨hidle', hrenewed'.trans hrenewed⟩

/-- The sessions of checkers of one kind differ in their counts only. -/
theorem exists_sessionFor_eq {k : Checker} (hk : k.IsIdle) (mode : Mode) :
    ∃ m, ∀ n, k.sessionFor mode = (k.renewed.sessionFor mode).shift m n := by
  obtain ⟨_ | s, t⟩ := k
  · exact ⟨0, fun n => rfl⟩
  · exact ⟨s.sent, Session.eq_shift_renewed (hk s rfl)⟩

/-! ## Checks after errands -/

/-- Two checks come to the same, one in the world `w`, the other where the journal was `j` and the next
process has the number `n`. -/
structure SameCourse (w : World) (j : Journal) (n : Nat)
    (a b : (Except Failure Report × Checker) × World) : Prop where
  /-- They return the same report, or fail alike. -/
  outcome : a.1.1 = b.1.1
  stage : a.1.2.stage = b.1.2.stage
  /-- The sessions differ in their counts only. -/
  session : a.1.2.session.map Session.uncounted = b.1.2.session.map Session.uncounted
  disk : a.2.disk = b.2.disk
  script : a.2.script = b.2.script
  /-- They hand out the same commands. -/
  commands : ∃ cs, a.2.journal.commands = w.journal.commands ++ cs ∧
    b.2.journal.commands = j.commands ++ cs
  /-- The same is entered in the journals, but for numbers. -/
  events : ∃ (evs : Journal) (m : Nat), a.2.journal = w.journal ++ evs.map (Event.shift m w.next) ∧
    b.2.journal = j ++ evs.map (Event.shift 0 n)

/-- A check by a checker whose session is `s` with later numbers. -/
theorem run_check_shift (file : Path) {mode : Mode} {k : Checker} {s : Session} {m n : Nat}
    (hs : k.sessionFor mode = s.shift m n) (w : World) (j : Journal) {r : Except Failure Report}
    {stage : Stage} {s' : Session} {w' : World}
    (hrun : (Checking.check file mode).run .idle s (Checking.bare w) = (((r, stage), s'), w')) :
    (check file mode).run k { w with journal := j, next := n } =
      ((r, ⟨k.session.map fun _ => s'.shift m n, stage⟩), w'.shift j m n) := by
  have hshift := Checking.shifts_check file mode .idle s (Checking.bare w) j m n
  rw [hrun, Checking.shift_bare, Checking.check_stage file mode .idle k.stage] at hshift
  rw [run_check, hs, hshift]

theorem sessionFor_renewed_process (k : Checker) (mode : Mode) :
    (k.renewed.sessionFor mode).process = none := by
  obtain ⟨_ | s, t⟩ := k <;> rfl

theorem isSome_session_of_renewed {k k' : Checker} (h : k.renewed = k'.renewed) :
    k.session.isSome = k'.renewed.session.isSome := by
  rw [← h, renewed, Option.isSome_map]

/-- Sessions that were idle before the same check differ in their counts only after it. -/
theorem uncounted_session {o o' : Option Session} (ho : o.isSome = o'.isSome) {s : Session}
    (hs : s.process = none) (m n m' n' : Nat) :
    (o.map fun _ => s.shift m n).map Session.uncounted =
      (o'.map fun _ => s.shift m' n').map Session.uncounted := by
  have hshift : ∀ m n, (s.shift m n).uncounted = s.uncounted := by
    intro m n
    rw [Session.uncounted, Session.shift, hs]
    simp [Session.uncounted, hs]
  cases o <;> cases o' <;> simp_all

theorem sameCourse_renewed {k k' : Checker} {mode : Mode} {m : Nat} (hk : k.renewed = k'.renewed)
    (hm : ∀ n, k.sessionFor mode = (k'.renewed.sessionFor mode).shift m n) (file : Path) (w : World)
    (j : Journal) (n : Nat) : SameCourse w j n ((check file mode).run k w)
      ((check file mode).run k'.renewed { w with journal := j, next := n }) := by
  obtain ⟨cs, d, hf⟩ := Checking.exists_follows_check file mode .idle (k'.renewed.sessionFor mode)
    (Checking.bare w)
  rcases hrun : (Checking.check file mode).run .idle (k'.renewed.sessionFor mode) (Checking.bare w)
    with ⟨⟨⟨r, stage⟩, s'⟩, w'⟩
  rw [hrun] at hf
  have hidle := sessionFor_renewed_process k' mode
  have hold := run_check_shift file (hm w.next) w w.journal hrun
  have hfresh := run_check_shift file (Session.shift_zero hidle n).symm w j hrun
  have hworld : { w with journal := w.journal, next := w.next } = w := rfl
  rw [hworld] at hold
  rw [hold, hfresh]
  exact {
    outcome := rfl
    stage := rfl
    session := uncounted_session (isSome_session_of_renewed hk) (hf.idle hidle) _ _ _ _
    disk := rfl
    script := rfl
    commands := ⟨w'.journal.commands, by
      simp only [World.shift, Journal.commands_append, Journal.commands_map_shift, and_self]⟩
    events := ⟨w'.journal, m, rfl, rfl⟩ }

/-- **A check does not depend on the errands before it.**  After any errands, whatever became of them, a
check by an idle checker comes to the same as that of a new one of the same kind in the same file
system, where processes behave alike.  Loading does not change the stage. -/
theorem check_after_errands {k : Checker} (hk : k.IsIdle) (es : List Errand) (file : Path)
    (mode : Mode) (w : World) (j : Journal) (n : Nat) :
    SameCourse w j n ((check file mode).run (serveAll k es) w)
      ((check file mode).run k.renewed { w with journal := j, next := n }) ∧
    ∀ (k' : Checker) (file' : Path) (mode' : Mode) (w' : World),
      ((load file' mode').run k' w').1.2.stage = k'.stage := by
  refine ⟨?_, fun k' file' mode' w' => ?_⟩
  · obtain ⟨hidle, hrenewed⟩ := serveAll_keeps hk es
    generalize serveAll k es = k₁ at hidle hrenewed
    obtain ⟨m, hm⟩ := exists_sessionFor_eq hidle mode
    rw [hrenewed] at hm
    exact sameCourse_renewed hrenewed hm file w j n
  · obtain ⟨_, _, -, hstage⟩ :=
      Checking.exists_follows_load file' mode' k'.stage (k'.sessionFor mode') w'
    exact hstage

/-- A checker that has been used before: its session was given two commands. -/
def usedChecker : Checker := ⟨some { Session.new none none .json true with sent := 2 }, .evaluated⟩

/-- Errands of which one finds no program, and one a process that takes no input. -/
def failingErrands (file : Path) : List Errand :=
  [.check file {} { script := { startFaults := [(Session.defaultProgram, .words "gone".toList)] } },
    .load file {} { script := { inputFault := some "Broken pipe".toList } },
    .check file {} {}]

theorem check_after_errands_sample : usedChecker.IsIdle ∧
    SameCourse {} [] 7
      ((check (Path.ofText "A.agda".toList) {}).run
        (serveAll usedChecker (failingErrands (Path.ofText "A.agda".toList))) {})
      ((check (Path.ofText "A.agda".toList) {}).run usedChecker.renewed { next := 7 }) := by
  have hidle : usedChecker.IsIdle := by
    rintro s h
    cases h
    rfl
  exact ⟨hidle, (check_after_errands hidle (failingErrands _) _ {} {} [] 7).1⟩

end Checker

end AgdaFrontEnd
