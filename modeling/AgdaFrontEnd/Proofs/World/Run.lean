import AgdaFrontEnd.Proofs.Computation
import AgdaFrontEnd.World.Basic

/-!
# How activities in the world run

* `Act.run_note`, `Act.run_look`, `Act.run_change`: what single steps do.
* `Act.Reads`: an activity whose outcome depends on the file system alone, and that does nothing but
  take notes about files.  `Act.Reads.bind` puts two of them together.
* `Act.OnlyReads`: a reading activity that fails by reading only.
* `Act.onlyReads_readSource`: reading a source is such an activity, and `Disk.source` its outcome.
-/

namespace AgdaFrontEnd

/-! ## Notes and failures -/

/-- The event is a note about files: nothing was printed, and no process is concerned. -/
def Event.IsNote : Event → Prop
  | .counted _ _ | .unreadable _ _ | .batchFailed _ _ => True
  | _ => False

/-- The failure is one of reading. -/
def Failure.IsOfReading : Failure → Prop
  | .disk _ | .undecodable _ => True
  | _ => False

namespace Journal

@[simp] theorem commands_append (j k : Journal) : commands (j ++ k) = commands j ++ commands k :=
  List.filterMap_append

theorem commands_cons (e : Event) (j : Journal) : commands (e :: j) = commands [e] ++ commands j :=
  commands_append [e] j

theorem commands_eq_nil {j : Journal} (h : ∀ e ∈ j, ∀ n t, e ≠ .command n t) : commands j = [] := by
  refine List.filterMap_eq_nil_iff.2 fun e he => ?_
  cases e with
  | command n t => exact absurd rfl (h _ he n t)
  | _ => rfl

theorem commands_notes {j : Journal} (h : ∀ e ∈ j, e.IsNote) : commands j = [] := by
  refine commands_eq_nil fun e he n t heq => ?_
  have := h e he
  rw [heq] at this
  exact this

end Journal

namespace Act

/-! ## Single steps -/

@[simp] theorem run_note (e : Event) (w : World) :
    (note e).run w = (.ok (), { w with journal := w.journal ++ [e] }) := rfl

theorem run_start (argv : List Text) (directory : Option Path) (w : World) :
    (start argv directory).run w = (.ok w.next,
      { w with next := w.next + 1, journal := w.journal ++ [.started w.next argv directory] }) := rfl

theorem run_look (f : Disk → Except DiskFault α) (w : World) :
    (look f).run w = ((f w.disk).mapError .disk, w) := by
  unfold look
  rw [run_bind_ok (run_get w)]
  cases f w.disk <;> rfl

theorem run_change (c : Change Unit) (w : World) :
    (change c).run w = ((c.run w.disk).1.mapError .disk, { w with disk := (c.run w.disk).2 }) := rfl

theorem run_perform (base : Path) (es : List Effect) (w : World) :
    (perform base es).run w = (((Effect.performAll base es).run w.disk).1.mapError .disk,
      { w with disk := ((Effect.performAll base es).run w.disk).2 }) := rfl

/-! ## Activities that only read -/

/-- The activity does nothing but take notes.  Its outcome and the notes depend on the file system
alone. -/
def Reads (a : Act α) : Prop :=
  ∀ d, ∃ r notes, (∀ e ∈ notes, Event.IsNote e) ∧
    ∀ w : World, w.disk = d → a.run w = (r, { w with journal := w.journal ++ notes })

theorem reads_pure (x : α) : Reads (pure x) :=
  fun _ => ⟨.ok x, [], by simp, fun w _ => by simp⟩

theorem reads_look (f : Disk → Except DiskFault α) : Reads (look f) := by
  refine fun d => ⟨(f d).mapError .disk, [], by simp, fun w hw => ?_⟩
  subst hw
  rw [run_look, List.append_nil]

/-- One reading activity after another is a reading activity. -/
theorem Reads.bind {a : Act α} {f : α → Act β} (ha : Reads a) (hf : ∀ x, Reads (f x)) :
    Reads (a >>= f) := by
  intro d
  obtain ⟨r, notes, hn, hr⟩ := ha d
  cases r with
  | error e => exact ⟨.error e, notes, hn, fun w hw => run_bind_error (hr w hw) f⟩
  | ok x =>
    obtain ⟨r', notes', hn', hr'⟩ := hf x d
    refine ⟨r', notes ++ notes', fun e he => ?_, fun w hw => ?_⟩
    · exact (List.mem_append.1 he).elim (hn e) (hn' e)
    · rw [run_bind_ok (hr w hw), hr' { w with journal := w.journal ++ notes } hw, List.append_assoc]

/-- What a reading activity comes to on a file system. -/
def outcomeOn (a : Act α) (d : Disk) : Except Failure α := (a.run { disk := d }).1

/-- In all worlds with the same file system a reading activity comes to its outcome there and takes the
same notes. -/
theorem Reads.exists_notes {a : Act α} (ha : Reads a) (d : Disk) :
    ∃ notes, (∀ e ∈ notes, Event.IsNote e) ∧ ∀ w : World, w.disk = d →
      a.run w = (a.outcomeOn d, { w with journal := w.journal ++ notes }) := by
  obtain ⟨r, notes, hn, hr⟩ := ha d
  have ho : a.outcomeOn d = r := by rw [outcomeOn, hr { disk := d } rfl]
  exact ⟨notes, hn, ho ▸ hr⟩

/-- A reading activity comes to its outcome on the file system, and only takes notes. -/
theorem Reads.run_eq {a : Act α} (ha : Reads a) (w : World) :
    ∃ notes, (∀ e ∈ notes, Event.IsNote e) ∧
      a.run w = (a.outcomeOn w.disk, { w with journal := w.journal ++ notes }) := by
  obtain ⟨notes, hn, h⟩ := ha.exists_notes w.disk
  exact ⟨notes, hn, h w rfl⟩

/-- The outcome of one reading activity after another. -/
theorem Reads.outcomeOn_bind {a : Act α} {f : α → Act β} (ha : Reads a) (hf : ∀ x, Reads (f x))
    (d : Disk) : (a >>= f).outcomeOn d = (a.outcomeOn d).bind fun x => (f x).outcomeOn d := by
  obtain ⟨notes, -, h⟩ := ha.run_eq { disk := d }
  cases hr : a.outcomeOn d with
  | error e =>
    rw [hr] at h
    rw [outcomeOn, run_bind_error h]
    rfl
  | ok x =>
    rw [hr] at h
    obtain ⟨_, -, h'⟩ := (hf x).run_eq { disk := d, journal := [] ++ notes }
    rw [outcomeOn, run_bind_ok h, h']
    rfl

/-! ## Failures of reading -/

/-- The activity only reads, and whatever it fails with is a failure of reading. -/
structure OnlyReads (a : Act α) : Prop where
  reads : Reads a
  isOfReading : ∀ d f, a.outcomeOn d = .error f → f.IsOfReading

theorem onlyReads_pure (x : α) : OnlyReads (pure x) := ⟨reads_pure x, nofun⟩

theorem onlyReads_look (f : Disk → Except DiskFault α) : OnlyReads (look f) := by
  refine ⟨reads_look f, fun d e h => ?_⟩
  rw [outcomeOn, run_look] at h
  cases hf : f d with
  | ok x =>
    rw [hf] at h
    cases h
  | error fault =>
    rw [hf] at h
    cases h
    trivial

theorem OnlyReads.bind {a : Act α} {f : α → Act β} (ha : OnlyReads a) (hf : ∀ x, OnlyReads (f x)) :
    OnlyReads (a >>= f) := by
  refine ⟨ha.reads.bind fun x => (hf x).reads, fun d e h => ?_⟩
  rw [ha.reads.outcomeOn_bind fun x => (hf x).reads] at h
  cases hx : a.outcomeOn d with
  | error e' =>
    rw [hx] at h
    cases h
    exact ha.isOfReading d e hx
  | ok x =>
    rw [hx] at h
    exact (hf x).isOfReading d e h

end Act

/-! ## Sources -/

/-- The text of a source as far as it can be read: that of a file which the system refuses is empty;
a path that is none, and bytes that are no text, are failures. -/
def Disk.source (d : Disk) (p : Path) : Except Failure Text :=
  match d.readText p with
  | .ok t => .ok t
  | .error (.disk .nullCharacter) => .error (.disk .nullCharacter)
  | .error (.disk _) => .ok []
  | .error (.undecodable fault) => .error (.undecodable fault)

theorem Disk.isOfReading_of_source {d : Disk} {p : Path} {f : Failure} (h : d.source p = .error f) :
    f.IsOfReading := by
  unfold source at h
  split at h <;> cases h <;> trivial

namespace Act

/-- Reading a source comes to `Disk.source`, and what it notes is told by the file system. -/
theorem exists_run_readSource (p : Path) (d : Disk) :
    ∃ notes, (∀ e ∈ notes, Event.IsNote e) ∧ ∀ w : World, w.disk = d →
      (readSource p).run w = (d.source p, { w with journal := w.journal ++ notes }) := by
  unfold readSource Disk.source
  cases hr : d.readText p with
  | ok t =>
    refine ⟨[], by simp, ?_⟩
    rintro w rfl
    rw [run_bind_ok (run_get w), hr]
    simp
  | error fault =>
    cases fault with
    | undecodable fault =>
      refine ⟨[], by simp, ?_⟩
      rintro w rfl
      rw [run_bind_ok (run_get w), hr]
      simp
    | disk fault =>
      by_cases hnull : fault = .nullCharacter
      · subst hnull
        refine ⟨[], by simp, ?_⟩
        rintro w rfl
        rw [run_bind_ok (run_get w), hr]
        simp
      · refine ⟨[.unreadable p.toText fault.message], by simp [Event.IsNote], ?_⟩
        rintro w rfl
        rw [run_bind_ok (run_get w), hr]
        cases fault with
        | nullCharacter => exact absurd rfl hnull
        | _ => exact run_bind_ok (run_note _ w) _

theorem run_readSource (p : Path) (w : World) :
    ∃ notes, (∀ e ∈ notes, Event.IsNote e) ∧
      (readSource p).run w = (w.disk.source p, { w with journal := w.journal ++ notes }) := by
  obtain ⟨notes, hn, h⟩ := exists_run_readSource p w.disk
  exact ⟨notes, hn, h w rfl⟩

theorem reads_readSource (p : Path) : Reads (readSource p) :=
  fun d => ⟨d.source p, exists_run_readSource p d⟩

theorem onlyReads_readSource (p : Path) : OnlyReads (readSource p) := by
  refine ⟨reads_readSource p, fun d f h => ?_⟩
  obtain ⟨notes, -, hrun⟩ := run_readSource p { disk := d }
  rw [outcomeOn, hrun] at h
  exact Disk.isOfReading_of_source h

end Act

end AgdaFrontEnd
