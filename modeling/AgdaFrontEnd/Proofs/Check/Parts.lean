import AgdaFrontEnd.Proofs.Check.Course

/-!
# What a check is put together from

A check is put together from a few kinds of parts: handing a payload to the session, reading in the
world, entering a stage, and failing.  What all of these have, and what is kept where one part follows
another, a check has too.

* `Checking.Closed`: a property of all parts that is kept where one follows another.
* `Checking.Closed.check`, `Checking.Closed.load`: checks and loads have every such property.
-/

namespace AgdaFrontEnd

theorem Act.reads_note (e : Event) (h : e.IsNote) : Reads (note e) :=
  fun _ => ⟨.ok (), [e], fun _ he => List.mem_singleton.1 he ▸ h, fun w _ => run_note e w⟩

namespace Checking

/-- The parts of a check have the property `P`, and it is kept where one part follows another. -/
structure Closed (P : ∀ {α : Type}, Checking α → Prop) : Prop where
  pure : ∀ {α : Type} (x : α), P (Pure.pure x : Checking α)
  throw : ∀ {α : Type} (f : Failure), P (MonadExcept.throw f : Checking α)
  bind : ∀ {α β : Type} {a : Checking α} {f : α → Checking β}, P a → (∀ x, P (f x)) → P (a >>= f)
  enter : ∀ stage, P (Checking.enter stage)
  dialect : P Checking.dialect
  levels : P Checking.levels
  inWorld : ∀ {α : Type} {a : Act α}, a.Reads → P (Checking.inWorld a)
  send : ∀ file payload interactive, P (talking (Session.sendPayload file payload interactive))

namespace Closed

variable {P : ∀ {α : Type}, Checking α → Prop} (h : Closed P) (file : Path) (mode : Mode)

include h

theorem query {α : Type} (payload : Text) (decode : Json.Levels → Dialect → Text → Except Failure α) :
    P (Checking.query file mode payload decode) := by
  refine h.bind (h.send _ _ _) fun output => h.bind h.levels fun levels =>
    h.bind h.dialect fun dialect => ?_
  cases decode levels dialect output with
  | ok x => exact h.pure x
  | error f => exact h.throw f

theorem ask (payload : Text) (hole : Option Int) (x : Extractor) :
    P (Checking.ask file mode payload hole x) :=
  h.query file mode payload _

theorem askHoles : ∀ (hs : List Hole) (x : Extractor), P (Checking.askHoles file mode hs x)
  | [], x => h.pure x
  | _ :: hs, x => h.bind (h.ask file mode _ _ x) fun x => askHoles hs x

theorem source : P (Checking.source file) :=
  h.bind (h.inWorld (Act.reads_readSource file)) fun content =>
    h.bind (h.inWorld (Act.reads_note (.counted _ (Hole.scan content).length) trivial)) fun _ =>
      h.pure content

theorem result : P (Checking.result file mode) := by
  unfold Checking.result
  cases mode.evaluate with
  | false => exact h.pure none
  | true =>
    exact h.bind (h.query file mode _ resultOf) fun r =>
      h.bind (h.enter .evaluated) fun _ => h.pure (some r)

theorem report (content : Text) (x : Extractor) (result : Option Text) :
    P (Checking.report file content x result) :=
  h.bind (h.inWorld (onlyReads_blocks file content x.items).reads) fun _ =>
    h.bind (h.enter .reported) fun _ => h.pure _

/-- **A check has what its parts have.** -/
theorem check : P (Checking.check file mode) :=
  h.bind (h.enter .idle) fun _ =>
    h.bind (h.ask file mode _ none Extractor.empty) fun x =>
      h.bind (h.enter .loaded) fun _ =>
        h.bind (h.source file) fun content =>
          h.bind (h.askHoles file mode (Hole.scan content) x) fun x =>
            h.bind (h.enter .queried) fun _ =>
              h.bind (h.result file mode) fun result => h.report file content x result

theorem load : P (Checking.load file mode) :=
  h.bind (h.ask file mode _ none Extractor.empty) fun _ => h.pure _

end Closed

end Checking

end AgdaFrontEnd
