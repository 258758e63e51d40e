import AgdaFrontEnd.Check
import AgdaFrontEnd.Proofs.Computation
import Mathlib.Data.List.Forall2

/-!
# Findings

An answer tells goals and messages of errors, in order.  An extractor that is fed with answers holds
an item for every goal, and one for every message where it came for the first time.

* `Finding`: a goal or the message of an error; `Finding.decode`: those of an answer.
* `Finding.firsts`: findings without the messages that came before.
* `Extractor.Holds`: the extractor holds the items of findings.
* `Checking.extract_eq`: in either dialect the findings of an answer are added to an extractor.
* `Checking.holds_extract`: an answer adds its findings to those that an extractor holds.
-/

namespace AgdaFrontEnd

/-- What an answer tells about a source: a goal, or the message of an error. -/
inductive Finding where
  | goal (g : Goal)
  | message (m : Text)
  deriving DecidableEq, Repr

namespace Finding

/-- The finding is the message of an error. -/
def isMessage : Finding → Bool
  | message _ => true
  | goal _ => false

/-- What a record tells. -/
def ofRecord? : Record → Option Finding
  | .goal id range type entries => some (goal ⟨some id, range, type, entries⟩)
  | .error m => some (message m)
  | .normalForm _ => none
  | .unrecognized _ _ => none

/-- What a unit of the textual dialect tells; a goal is the one of the given hole. -/
def ofAction? (hole : Option Int) (u : InfoAction) : Option Finding :=
  if u.title.hasWord Extractor.errorWord then some (message u.body)
  else (Goal.ofDisplay? hole u.body).map goal

/-- What an answer tells, in order. -/
def decode (levels : Json.Levels) (dialect : Dialect) (hole : Option Int) (output : Text) :
    Except DecodeFault (List Finding) :=
  match dialect with
  | .json => (Record.decode levels output).map fun records => records.filterMap ofRecord?
  | .text => .ok ((InfoAction.parse output).filterMap (ofAction? hole))

/-- The item that a finding is reported as. -/
def item : Finding → Except IntegerFault Item
  | goal g => .ok (.goal g)
  | message m => (Diagnostic.ofMessage m).map .diagnostic

theorem item_message_eq_ok_iff {m : Text} {i : Item} :
    (message m).item = .ok i ↔ ∃ d, Diagnostic.ofMessage m = .ok d ∧ i = .diagnostic d := by
  rw [item]
  cases Diagnostic.ofMessage m with
  | error e => exact ⟨nofun, nofun⟩
  | ok d =>
    constructor
    · intro h
      cases h
      exact ⟨d, rfl, rfl⟩
    · rintro ⟨_, ⟨⟩, rfl⟩
      rfl

/-! ## First occurrences -/

/-- The findings without every message that came before it, where `before` came before them all. -/
def firstsAfter (before : List Finding) : List Finding → List Finding
  | [] => []
  | f :: fs =>
    if f.isMessage ∧ f ∈ before then firstsAfter (before ++ [f]) fs
    else f :: firstsAfter (before ++ [f]) fs

/-- The findings without every message that came before it. -/
def firsts (fs : List Finding) : List Finding := firstsAfter [] fs

theorem firstsAfter_append : ∀ (before fs gs : List Finding),
    firstsAfter before (fs ++ gs) = firstsAfter before fs ++ firstsAfter (before ++ fs) gs
  | before, [], gs => by simp [firstsAfter]
  | before, f :: fs, gs => by
    have ih := firstsAfter_append (before ++ [f]) fs gs
    rw [List.append_assoc, List.singleton_append] at ih
    rw [List.cons_append, firstsAfter, firstsAfter]
    split
    · exact ih
    · rw [ih, List.cons_append]

theorem firsts_concat (fs : List Finding) (f : Finding) :
    firsts (fs ++ [f]) = firsts fs ++ if f.isMessage ∧ f ∈ fs then [] else [f] := by
  rw [firsts, firstsAfter_append]
  rfl

/-- Nothing is told for the first time only if nothing is told. -/
theorem firsts_eq_nil {fs : List Finding} : firsts fs = [] ↔ fs = [] := by
  cases fs with
  | nil => simp [firsts, firstsAfter]
  | cons f fs => simp [firsts, firstsAfter]

theorem mem_firstsAfter {f : Finding} : ∀ {before fs : List Finding},
    f ∈ firstsAfter before fs → f ∈ fs
  | _, [], h => h
  | before, g :: fs, h => by
    rw [firstsAfter] at h
    split at h
    · exact .tail _ (mem_firstsAfter h)
    · rcases List.mem_cons.1 h with rfl | h
      · exact .head _
      · exact .tail _ (mem_firstsAfter h)

theorem mem_firstsAfter_or {f : Finding} : ∀ {before fs : List Finding},
    f ∈ fs → f ∈ firstsAfter before fs ∨ f ∈ before
  | before, g :: fs, h => by
    rw [firstsAfter]
    rcases List.mem_cons.1 h with rfl | h
    · split
      · rename_i hg
        exact .inr hg.2
      · exact .inl (.head _)
    · have hor : f ∈ firstsAfter (before ++ [g]) fs ∨ f ∈ before ++ [g] := mem_firstsAfter_or h
      rcases hor with h | h
      · split
        · exact .inl h
        · exact .inl (.tail _ h)
      · rcases List.mem_append.1 h with h | h
        · exact .inr h
        · rw [List.mem_singleton.1 h]
          split
          · rename_i hg
            exact .inr hg.2
          · exact .inl (.head _)

/-- Leaving out what came before leaves nothing out altogether. -/
theorem mem_firsts {f : Finding} {fs : List Finding} : f ∈ firsts fs ↔ f ∈ fs :=
  ⟨mem_firstsAfter, fun h => (mem_firstsAfter_or h).elim id fun h => absurd h List.not_mem_nil⟩

end Finding

/-! ## Extractors -/

namespace Extractor

/-- Collects a finding. -/
def feedFinding : Finding → Feed Unit
  | .goal g => add (.goal g)
  | .message m => addMessage m

/-- Collects findings. -/
def feedFindings : List Finding → Feed Unit
  | [] => return
  | f :: fs => do
    feedFinding f
    feedFindings fs

theorem feedRecords_eq : ∀ records : List Record,
    feedRecords records = feedFindings (records.filterMap Finding.ofRecord?)
  | [] => rfl
  | r :: rs => by
    rw [feedRecords, feedRecords_eq rs, List.filterMap_cons]
    cases r <;> simp [feedRecord, Finding.ofRecord?, feedFindings, feedFinding]

theorem feedActions_eq (hole : Option Int) : ∀ units : List InfoAction,
    feedActions hole units = feedFindings (units.filterMap (Finding.ofAction? hole))
  | [] => rfl
  | u :: us => by
    rw [feedActions, feedActions_eq hole us, List.filterMap_cons]
    unfold feedAction Finding.ofAction?
    split
    · simp [feedFindings, feedFinding]
    · cases Goal.ofDisplay? hole u.body <;> simp [feedFindings, feedFinding]

/-- The extractor holds the items of findings: it has seen their messages, and its items are those
of the findings that came for the first time. -/
structure Holds (x : Extractor) (fs : List Finding) : Prop where
  seen : ∀ m, m ∈ x.seen ↔ .message m ∈ fs
  items : List.Forall₂ (fun f i => Finding.item f = .ok i) (Finding.firsts fs) x.items

theorem holds_empty : Holds empty [] where
  seen := fun m => by simp [empty]
  items := .nil

theorem run_addMessage (m : Text) (x : Extractor) : (addMessage m).run x =
    if m ∈ x.seen then (.ok (), x)
    else match Diagnostic.ofMessage m with
      | .ok d => (.ok (), ⟨x.items ++ [.diagnostic d], m :: x.seen⟩)
      | .error e => (.error e, { x with seen := m :: x.seen }) := by
  have hrun : (addMessage m).run x =
      (if m ∈ x.seen then pure () else do
        modify fun x => { x with seen := m :: x.seen }
        let d ← liftM (Diagnostic.ofMessage m)
        add (.diagnostic d) : Feed Unit).run x := rfl
  rw [hrun]
  split
  · rfl
  · cases Diagnostic.ofMessage m <;> rfl

/-- A finding is added to those that an extractor holds. -/
theorem holds_feedFinding {x x' : Extractor} {fs : List Finding} {f : Finding} (h : Holds x fs)
    (hr : (feedFinding f).run x = (.ok (), x')) : Holds x' (fs ++ [f]) := by
  cases f with
  | goal g =>
    have hx : x' = { x with items := x.items ++ [.goal g] } := (Prod.mk.inj hr).2.symm
    subst hx
    constructor
    · intro m
      simpa using h.seen m
    · rw [Finding.firsts_concat]
      exact List.rel_append h.items (.cons rfl .nil)
  | message m =>
    rw [feedFinding, run_addMessage] at hr
    split at hr
    · rename_i hm
      obtain rfl : x = x' := (Prod.mk.inj hr).2
      constructor
      · intro n
        rw [h.seen, List.mem_append, List.mem_singleton, Finding.message.injEq]
        exact ⟨.inl, fun hn => hn.elim id fun hn => hn ▸ (h.seen m).1 hm⟩
      · rw [Finding.firsts_concat, if_pos ⟨rfl, (h.seen m).1 hm⟩, List.append_nil]
        exact h.items
    · rename_i hm
      cases hd : Diagnostic.ofMessage m with
      | error e =>
        rw [hd] at hr
        cases hr
      | ok d =>
        rw [hd] at hr
        have hx : x' = ⟨x.items ++ [.diagnostic d], m :: x.seen⟩ := (Prod.mk.inj hr).2.symm
        subst hx
        constructor
        · intro n
          rw [List.mem_cons, h.seen, List.mem_append, List.mem_singleton, Finding.message.injEq]
          exact or_comm
        · rw [Finding.firsts_concat, if_neg fun hn => hm ((h.seen m).2 hn.2)]
          exact List.rel_append h.items (.cons (Finding.item_message_eq_ok_iff.2 ⟨d, hd, rfl⟩) .nil)

/-- Findings are added to those that an extractor holds. -/
theorem holds_feedFindings : ∀ {gs : List Finding} {x x' : Extractor} {fs : List Finding},
    Holds x fs → (feedFindings gs).run x = (.ok (), x') → Holds x' (fs ++ gs)
  | [], x, x', fs, h, hr => by
    obtain rfl : x = x' := (Prod.mk.inj hr).2
    rwa [List.append_nil]
  | g :: gs, x, x', fs, h, hr => by
    rcases hg : (feedFinding g).run x with ⟨e | _, y⟩
    · rw [feedFindings, run_bind_error hg] at hr
      cases hr
    · rw [feedFindings, run_bind_ok hg] at hr
      have hrest := holds_feedFindings (holds_feedFinding h hg) hr
      rwa [List.append_assoc, List.singleton_append] at hrest

end Extractor

namespace Checking

/-- What an answer tells is added to an extractor, in either dialect. -/
theorem extract_eq (levels : Json.Levels) (dialect : Dialect) (x : Extractor) (output : Text)
    (hole : Option Int) : extract levels dialect x output hole =
      match Finding.decode levels dialect hole output with
      | .error fault => .error (.decode fault)
      | .ok fs =>
        match (Extractor.feedFindings fs).run x with
        | (.ok (), x) => .ok x
        | (.error fault, _) => .error (.decode (.integer fault)) := by
  unfold extract
  cases dialect with
  | text =>
    dsimp only [Finding.decode]
    rw [Extractor.feedActions_eq]
    rfl
  | json =>
    dsimp only [Finding.decode]
    cases Record.decode levels output with
    | error fault => rfl
    | ok records =>
      dsimp only [Except.map]
      rw [Extractor.feedRecords_eq]
      rfl

/-- **An answer adds its findings** to those that an extractor holds. -/
theorem holds_extract {levels : Json.Levels} {dialect : Dialect} {x x' : Extractor} {output : Text}
    {hole : Option Int} {fs : List Finding} (h : x.Holds fs)
    (he : extract levels dialect x output hole = .ok x') :
    ∃ gs, Finding.decode levels dialect hole output = .ok gs ∧ x'.Holds (fs ++ gs) := by
  rw [extract_eq] at he
  split at he
  · cases he
  · rename_i gs hgs
    split at he
    · rename_i y hr
      cases he
      exact ⟨gs, hgs, Extractor.holds_feedFindings h hr⟩
    · cases he

end Checking

end AgdaFrontEnd
