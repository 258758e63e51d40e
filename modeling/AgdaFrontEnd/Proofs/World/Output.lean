import AgdaFrontEnd.Proofs.World.Run

/-!
# What a run adds to the journal

A run adds events to the journal and takes none away.  What can be observed of it is told by the
events that it has added.

* `World.since`: the events that were added since a world.
* `World.Silent`: nothing was printed since a world.
* `Journal.stdout_of_silent`, `Journal.stderrFrom_concat`, `Journal.starts_append_output`: what events
  show at the two outputs, and which processes they start.
-/

namespace AgdaFrontEnd

namespace Event

/-- A text is printed. -/
def IsPrinted : Event → Prop
  | .printed _ => True
  | _ => False

/-- A text goes to one of the two outputs. -/
def IsOutput : Event → Prop
  | .printed _ | .complained _ => True
  | _ => False

/-- A process gets its input. -/
def IsInput : Event → Prop
  | .input _ _ => True
  | _ => False

theorem IsNote.not_isPrinted {e : Event} (h : e.IsNote) : ¬ e.IsPrinted := by
  cases e <;> simp_all [IsNote, IsPrinted]

end Event

/-! ## Views of the journal -/

namespace Journal

@[simp] theorem stdout_append (j k : Journal) : stdout (j ++ k) = stdout j ++ stdout k :=
  List.flatMap_append

theorem stdout_of_silent {j : Journal} (h : ∀ e ∈ j, ¬ e.IsPrinted) : stdout j = [] := by
  refine List.flatMap_eq_nil_iff.2 fun e he => ?_
  cases e with
  | printed t => exact absurd trivial (h _ he)
  | _ => rfl

/-- A text that is complained last stands at the end of the error output. -/
theorem stderrFrom_concat (time t : Text) : ∀ (j : Journal) (details : Bool),
    stderrFrom time details (j ++ [.complained t]) = stderrFrom time details j ++ t
  | [], _ => List.append_nil t
  | e :: j, details => by
    have ih := stderrFrom_concat time t j
    cases e with
    | detailed => exact ih true
    | _ => simp only [List.cons_append, stderrFrom, ih, List.append_assoc]

theorem inputOf_append_output (process : Nat) (j : Journal) {outs : Journal}
    (h : ∀ e ∈ outs, e.IsOutput) : inputOf process (j ++ outs) = inputOf process j := by
  have hnone : inputOf process outs = none := by
    refine List.findSome?_eq_none_iff.2 fun e he => ?_
    cases e with
    | input p t => exact (h _ he).elim
    | _ => rfl
  have happend : inputOf process (j ++ outs) = (inputOf process j).or (inputOf process outs) :=
    List.findSome?_append
  rw [happend, hnone, Option.or_none]

/-- Output starts no process. -/
theorem starts_append_output (j : Journal) {outs : Journal} (h : ∀ e ∈ outs, e.IsOutput) :
    starts (j ++ outs) = starts j := by
  unfold starts
  rw [List.filterMap_append]
  refine (congr (congrArg HAppend.hAppend ?_) (List.filterMap_eq_nil_iff.2 ?_)).trans
    (List.append_nil _)
  · refine congrArg (List.filterMap · j) (funext fun e => ?_)
    cases e with
    | started p argv directory => simp only [inputOf_append_output p j h]
    | _ => rfl
  · intro e he
    cases e with
    | started p argv directory => exact (h _ he).elim
    | _ => rfl

/-- No process gets an input. -/
def Inputless (j : Journal) : Prop := ∀ e ∈ j, ¬e.IsInput

theorem Inputless.append {j k : Journal} (hj : j.Inputless) (hk : k.Inputless) :
    Inputless (j ++ k) := fun e he => (List.mem_append.1 he).elim (hj e) (hk e)

theorem Inputless.inputOf_eq_none {j : Journal} (h : j.Inputless) (process : Nat) :
    inputOf process j = none := by
  refine List.findSome?_eq_none_iff.2 fun e he => ?_
  cases e with
  | input p t => exact (h _ he trivial).elim
  | _ => rfl

/-- Where no process gets an input, the starts are told one by one. -/
theorem Inputless.starts_append {j k : Journal} (hj : j.Inputless) (hk : k.Inputless) :
    starts (j ++ k) = starts j ++ starts k := by
  unfold starts
  simp only [(hj.append hk).inputOf_eq_none, hj.inputOf_eq_none, hk.inputOf_eq_none]
  exact List.filterMap_append

end Journal

/-! ## Since a world -/

namespace World

/-- The events that were added since the world `w`. -/
def since (w w' : World) : Journal := w'.journal.drop w.journal.length

theorem since_eq {w w' : World} {es : Journal} (h : w'.journal = w.journal ++ es) :
    w.since w' = es := by
  rw [since, h, List.drop_left]

/-- Events were added since the world `w`, but nothing was printed, and the surroundings are the same. -/
structure Silent (w w' : World) : Prop where
  events : ∃ es, w'.journal = w.journal ++ es ∧ ∀ e ∈ es, ¬ e.IsPrinted
  surroundings : w'.surroundings = w.surroundings

theorem Silent.refl (w : World) : Silent w w := ⟨⟨[], by simp, by simp⟩, rfl⟩

theorem Silent.trans {w w' w'' : World} (h : Silent w w') (h' : Silent w' w'') : Silent w w'' := by
  obtain ⟨es, hes, hsilent⟩ := h.events
  obtain ⟨es', hes', hsilent'⟩ := h'.events
  refine ⟨⟨es ++ es', by rw [hes', hes, List.append_assoc], fun e he => ?_⟩,
    h'.surroundings.trans h.surroundings⟩
  exact (List.mem_append.1 he).elim (hsilent e) (hsilent' e)

end World

end AgdaFrontEnd
