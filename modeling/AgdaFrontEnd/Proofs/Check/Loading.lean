import AgdaFrontEnd.Proofs.Batch
import AgdaFrontEnd.Proofs.Check.Composition
import AgdaFrontEnd.Proofs.Check.History
import AgdaFrontEnd.Proofs.Report.Feeds

/-!
# Loading and checking

Loading a file is how a check begins.  What a load tells are the first errors that the check reports;
the answers about holes come behind them, and what they repeat is left out.

* `Finding.items_starts`, `Extractor.Holds.items_starts`: items of more findings begin with those of the
  first ones.
* `Checking.Setting.Opened.items_starts`: what a check has collected begins with what the load gave.
* `Checking.exists_blocks_of_filterMap`: the blocks of some of the items, in their order.
* `Checking.Setting.ShowsLoad`: how the messages of a load show in a report.
* `Checker.load_agrees_with_check`: loading and checking agree.
-/

namespace AgdaFrontEnd

/-! ## Items that came first -/

theorem Finding.items_starts {fs gs : List Finding} {is js : List Item}
    (h : List.Forall₂ (fun f i => item f = .ok i) fs is)
    (h' : List.Forall₂ (fun f i => item f = .ok i) (fs ++ gs) js) : is <+: js := by
  induction h generalizing js with
  | nil => exact List.nil_prefix
  | cons hi _ ih =>
    cases h' with
    | cons hj hjs =>
      obtain rfl := Except.ok.inj (hi.symm.trans hj)
      exact List.cons_prefix_cons.2 ⟨rfl, ih hjs⟩

theorem Extractor.Holds.items_starts {x y : Extractor} {fs gs : List Finding} (hx : x.Holds fs)
    (hy : y.Holds (fs ++ gs)) : x.items <+: y.items := by
  have hitems := hy.items
  rw [Finding.firsts, Finding.firstsAfter_append] at hitems
  exact Finding.items_starts hx.items hitems

theorem Extractor.diagnostics_starts {x y : Extractor} (h : x.items <+: y.items) :
    x.diagnostics <+: y.diagnostics := by
  obtain ⟨is, his⟩ := h
  unfold diagnostics
  rw [← his, List.filterMap_append]
  exact List.prefix_append _ _

/-- A report has failed just if there is an error among its items. -/
theorem Extractor.any_isDiagnostic_iff (x : Extractor) :
    x.items.any Checking.isDiagnostic = true ↔ x.diagnostics ≠ [] := by
  unfold diagnostics
  rw [List.any_eq_true, ne_eq, List.filterMap_eq_nil_iff]
  constructor
  · rintro ⟨i, hi, hd⟩ hnone
    cases i with
    | goal g => cases hd
    | diagnostic e => exact nomatch hnone _ hi
  · intro h
    by_contra hall
    refine h fun i hi => ?_
    cases i with
    | goal g => rfl
    | diagnostic e => exact absurd ⟨_, hi, rfl⟩ hall

namespace Checking

/-- The blocks of the errors among items, in their order. -/
theorem exists_blocks_of_diagnostics {file : Path} {content : Text} {d : Disk} {x : Extractor}
    {bs : List Text} (h : (blocks file content x.items).outcomeOn d = .ok bs) :
    ∃ cs, cs.Sublist bs ∧
      List.Forall₂ (fun e b => (e.block .terminal file (some content)).outcomeOn d = .ok b)
        x.diagnostics cs := by
  obtain ⟨is, seen⟩ := x
  have hblocks := forall₂_block h
  clear h
  dsimp only at hblocks
  induction hblocks with
  | nil => exact ⟨[], .slnil, .nil⟩
  | @cons i b is bs hb _ ih =>
    obtain ⟨cs, hsub, hcs⟩ := ih
    cases i with
    | goal g => exact ⟨cs, hsub.cons b, hcs⟩
    | diagnostic e => exact ⟨b :: cs, hsub.cons_cons b, .cons hb hcs⟩

namespace Setting

variable {c : Setting} {d d' d₁ : Disk} {content : Text} {x x₁ : Extractor}

/-- What a check has collected begins with what the load gave. -/
theorem Opened.items_starts {hs : List Hole} (h : c.Opened d content x₁ d₁)
    (ha : c.askHoles hs x₁ d₁ = (.ok x, d')) : x₁.items <+: x.items := by
  obtain ⟨fs, -, hx₁⟩ := holds_ask Extractor.holds_empty h.load
  obtain ⟨gs, -, hx⟩ := holds_askHoles hx₁ ha
  exact hx₁.items_starts hx

/-- How the messages `ms` of a load, which leaves the file system `d₁`, show in a report: `x₁` is the
extractor after the load, and `x` the one that the check fills. -/
structure ShowsLoad (c : Setting) (d : Disk) (ms : List Text) (d₁ : Disk) (r : Report) (d' : Disk)
    (content : Text) (x₁ x : Extractor) : Prop where
  opened : c.Opened d content x₁ d₁
  finished : c.Finished d content x r.result d'
  blocks : (Checking.blocks c.file content x.items).outcomeOn d' = .ok r.blocks
  /-- The messages are those of the errors that were collected first. -/
  messages : ms = x₁.diagnostics.map (·.message)
  first : x₁.diagnostics <+: x.diagnostics
  /-- Each of these errors has a block of its own. -/
  shown : ∃ bs, bs.Sublist r.blocks ∧
    List.Forall₂ (fun e b => (e.block .terminal c.file (some content)).outcomeOn d' = .ok b)
      x₁.diagnostics bs
  failed : ms ≠ [] → r.failed = true
  withoutHoles : Hole.scan content = [] → (r.failed = true ↔ ms ≠ [])

/-- The report of a check shows what its load gave. -/
theorem Returns.showsLoad {r : Report} (h : c.Returns d r d') (hl : c.load d = (.ok x₁, d₁)) :
    ∃ content x, c.ShowsLoad d (x₁.diagnostics.map (·.message)) d₁ r d' content x₁ x := by
  obtain ⟨content, x, hfinished, hb, hfail⟩ := h
  obtain ⟨d₂, hasked, -⟩ := id hfinished
  obtain ⟨y, d₃, hopen, ha⟩ := hasked
  obtain ⟨hy, rfl⟩ := Prod.mk.inj (hl.symm.trans hopen.load)
  obtain rfl := Except.ok.inj hy
  have hfirst := Extractor.diagnostics_starts (hopen.items_starts ha)
  have hfailed : r.failed = true ↔ x.diagnostics ≠ [] := by
    rw [hfail, x.any_isDiagnostic_iff]
  have hmessages : x₁.diagnostics.map (·.message) ≠ [] ↔ x₁.diagnostics ≠ [] :=
    not_congr List.map_eq_nil_iff
  refine ⟨content, x, hopen, hfinished, hb, rfl, hfirst, ?_, fun hne => ?_, fun hnone => ?_⟩
  · obtain ⟨cs, hsub, hcs⟩ := exists_blocks_of_diagnostics hb
    have htake := List.forall₂_take x₁.diagnostics.length hcs
    refine ⟨cs.take x₁.diagnostics.length, (List.take_sublist _ _).trans hsub, ?_⟩
    rwa [← List.prefix_iff_eq_take.1 hfirst] at htake
  · exact hfailed.2 fun hnil => hmessages.1 hne (List.prefix_nil.1 (hnil ▸ hfirst))
  · rw [hnone] at ha
    obtain rfl : x₁ = x := Except.ok.inj (Prod.mk.inj ha).1
    rw [hfailed, hmessages]

end Setting

end Checking

namespace Checker

/-- Sessions of one kind make the same setting. -/
theorem setting_of_renewed {k k' : Checker} {mode : Mode}
    (h : (k'.sessionFor mode).renewed = (k.sessionFor mode).renewed) (w : World) (file : Path) :
    k'.setting w file mode = k.setting w file mode := by
  have hprogram : (k'.sessionFor mode).program = (k.sessionFor mode).program := by
    show (k'.sessionFor mode).renewed.program = _
    rw [h]
    rfl
  have hdialect : (k'.sessionFor mode).dialect = (k.sessionFor mode).dialect := by
    show (k'.sessionFor mode).renewed.dialect = _
    rw [h]
    rfl
  rw [setting, setting, Checking.Setting.of, Checking.Setting.of, hprogram, hdialect]

/-- **Loading and checking agree.**  From the same world, with sessions of one kind: the messages that a
load returns are those of the errors that the check collects first, and they show in its report; if
the load fails the check fails alike. -/
theorem load_agrees_with_check {k k' : Checker} {mode : Mode}
    (hk : (k'.sessionFor mode).renewed = (k.sessionFor mode).renewed) (file : Path) (w : World) :
    (∀ ms k₁ w₁ r k₂ w₂, (load file mode).run k w = ((.ok ms, k₁), w₁) →
      (check file mode).run k' w = ((.ok r, k₂), w₂) →
      ∃ content x₁ x,
        (k'.setting w file mode).ShowsLoad w.disk ms w₁.disk r w₂.disk content x₁ x) ∧
    ∀ f k₁ w₁, (load file mode).run k w = ((.error f, k₁), w₁) →
      ∃ k₂ w₂, (check file mode).run k' w = ((.error f, k₂), w₂) := by
  obtain ⟨o, k₀, w₀, hload, ho, -⟩ := k.run_load file mode w
  rw [← setting_of_renewed hk] at ho
  rw [hload]
  cases o with
  | error f =>
    obtain ⟨k₂, w₂, hcheck, -, -⟩ := check_course k' file mode w
    rw [Checking.Setting.report_eq_error_iff.2 ⟨_, .load ho⟩] at hcheck
    refine ⟨fun _ _ _ _ _ _ h => (nomatch h), fun f' k₁ w₁ h => ?_⟩
    cases h
    exact ⟨k₂, w₂, hcheck⟩
  | ok x₁ =>
    refine ⟨fun ms k₁ w₁ r k₂ w₂ h hcheck => ?_, fun _ _ _ h => (nomatch h)⟩
    cases h
    obtain ⟨content, x, h⟩ := (returns_of_check hcheck).showsLoad ho
    exact ⟨content, x₁, x, h⟩

section

open Sample

/-- A checker with a session for the textual dialect that has been used before. -/
def Sample.checker : Checker :=
  ⟨some { Session.new none none .text false with sent := 2 }, .reported⟩

theorem load_agrees_with_check_sample :
    (checker.sessionFor mode).renewed = (Checker.sessionFor {} mode).renewed ∧
    ∃ k₁ w₁ r k₂ w₂, (load file mode).run {} world = ((.ok [['E']], k₁), w₁) ∧
      (check file mode).run checker world = ((.ok r, k₂), w₂) ∧
      ∃ content x₁ x, (checker.setting world file mode).ShowsLoad world.disk [['E']] w₁.disk r w₂.disk
        content x₁ x := by
  have hkind : (checker.sessionFor mode).renewed = (Checker.sessionFor {} mode).renewed := rfl
  have hload : ((load file mode).run {} world).1.1.toOption = some [['E']] := by decide +kernel
  have hcheck : (((check file mode).run checker world).1.1.toOption.map (·.failed)) = some true := by
    decide +kernel
  rcases h : (load file mode).run {} world with ⟨⟨_ | ms, k₁⟩, w₁⟩
  · rw [h] at hload
    cases hload
  rcases h₂ : (check file mode).run checker world with ⟨⟨_ | r, k₂⟩, w₂⟩
  · rw [h₂] at hcheck
    cases hcheck
  rw [h] at hload
  obtain rfl : ms = [['E']] := Option.some.inj hload
  exact ⟨hkind, k₁, w₁, r, k₂, w₂, rfl, rfl,
    (load_agrees_with_check hkind file world).1 _ k₁ w₁ r k₂ w₂ h h₂⟩

end

end Checker

end AgdaFrontEnd
