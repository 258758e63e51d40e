import AgdaFrontEnd.Proofs.Report.Findings
import Mathlib.Data.List.Induction
import Mathlib.Logic.Relation

/-!
# Feeding an extractor in portions

An extractor is fed with portions: records, or units of the textual dialect that answer a question
about a hole.  What it holds in the end depends on the responses and their order, and not on how
they were put into portions.

* `Portion`: what an extractor is fed with at a time; `Response`: one response of a portion.
* `Extractor.feedAll`: one portion after another; `feedAll_eq` says that this is to feed what the
  responses tell.
* `Portion.Regrouped`: portions that were cut or joined.
* `Finding.messages_firsts`, `Finding.goals_firsts`: what leaving out repetitions leaves.
* `Extractor.holdings_of_portions`: what an extractor holds after any portions.
-/

namespace AgdaFrontEnd

/-! ## Portions -/

/-- What an extractor is fed with at a time. -/
inductive Portion where
  | records (rs : List Record)
  | actions (hole : Option Int) (us : List InfoAction)

/-- One response.  A unit of the textual dialect comes with the hole that was asked about. -/
inductive Response where
  | record (r : Record)
  | action (hole : Option Int) (u : InfoAction)

namespace Response

/-- What a response tells. -/
def finding? : Response → Option Finding
  | record r => Finding.ofRecord? r
  | action hole u => Finding.ofAction? hole u

/-- The response is a goal: a record of one, or a unit that is no error and in which a line starts
with one of the words of a display. -/
def isGoal : Response → Bool
  | record (.goal ..) => true
  | record _ => false
  | action _ u =>
    !u.title.hasWord Extractor.errorWord &&
      u.body.lines.any fun l => l.startsWith Goal.goalWord || l.startsWith Goal.haveWord

end Response

namespace Portion

/-- The responses in a portion. -/
def responses : Portion → List Response
  | records rs => rs.map .record
  | actions hole us => us.map (.action hole)

/-- What portions tell, in order. -/
def findings (ps : List Portion) : List Finding := (ps.flatMap responses).filterMap Response.finding?

/-- One portion was cut into two; `before` and `after` are the portions around it. -/
inductive Cut : List Portion → List Portion → Prop
  | records (before after : List Portion) (rs rs' : List Record) :
    Cut (before ++ records (rs ++ rs') :: after) (before ++ records rs :: records rs' :: after)
  | actions (before after : List Portion) (hole : Option Int) (us us' : List InfoAction) :
    Cut (before ++ actions hole (us ++ us') :: after)
      (before ++ actions hole us :: actions hole us' :: after)

/-- Portions were cut, and neighbours of one dialect and one hole joined, any number of times. -/
def Regrouped : List Portion → List Portion → Prop := Relation.EqvGen Cut

theorem Cut.responses_eq {ps qs : List Portion} (h : Cut ps qs) :
    ps.flatMap responses = qs.flatMap responses := by
  cases h <;> simp [responses]

/-- Regrouping keeps the responses and their order. -/
theorem Regrouped.responses_eq {ps qs : List Portion} (h : Regrouped ps qs) :
    ps.flatMap responses = qs.flatMap responses := by
  induction h with
  | rel ps qs hcut => exact hcut.responses_eq
  | refl ps => rfl
  | symm ps qs _ ih => exact ih.symm
  | trans ps qs rs _ _ ih ih' => exact ih.trans ih'

end Portion

/-! ## Feeding -/

namespace Extractor

/-- Collects what a portion holds. -/
def feedPortion : Portion → Feed Unit
  | .records rs => feedRecords rs
  | .actions hole us => feedActions hole us

/-- Collects what portions hold, one after another. -/
def feedAll : List Portion → Feed Unit
  | [] => return
  | p :: ps => do
    feedPortion p
    feedAll ps

theorem feedFindings_append : ∀ fs gs : List Finding,
    feedFindings (fs ++ gs) = (do feedFindings fs; feedFindings gs)
  | [], gs => by simp [feedFindings]
  | f :: fs, gs => by
    rw [List.cons_append, feedFindings, feedFindings, feedFindings_append fs gs, bind_assoc]

theorem feedPortion_eq (p : Portion) :
    feedPortion p = feedFindings (p.responses.filterMap Response.finding?) := by
  cases p with
  | records rs =>
    rw [feedPortion, feedRecords_eq, Portion.responses, List.filterMap_map]
    rfl
  | actions hole us =>
    rw [feedPortion, feedActions_eq, Portion.responses, List.filterMap_map]
    rfl

/-- **To feed portions is to feed what their responses tell.** -/
theorem feedAll_eq : ∀ ps : List Portion, feedAll ps = feedFindings (Portion.findings ps)
  | [] => rfl
  | p :: ps => by
    rw [feedAll, feedPortion_eq, feedAll_eq ps, ← feedFindings_append, Portion.findings,
      Portion.findings, List.flatMap_cons, List.filterMap_append]

/-- Feeding does not depend on how responses are put into portions. -/
theorem feedAll_regrouped {ps qs : List Portion} (h : Portion.Regrouped ps qs) :
    feedAll ps = feedAll qs := by
  rw [feedAll_eq, feedAll_eq, Portion.findings, Portion.findings, h.responses_eq]

end Extractor

/-! ## What leaving out repetitions leaves -/

namespace Finding

/-- The message of a finding that is one. -/
def message? : Finding → Option Text
  | message m => some m
  | goal _ => none

/-- The goal of a finding that is one. -/
def goal? : Finding → Option Goal
  | goal g => some g
  | message _ => none

/-- The messages among findings, in order. -/
def messages (fs : List Finding) : List Text := fs.filterMap message?

/-- The goals among findings, in order. -/
def goals (fs : List Finding) : List Goal := fs.filterMap goal?

theorem messages_append (fs gs : List Finding) : messages (fs ++ gs) = messages fs ++ messages gs :=
  List.filterMap_append

theorem goals_append (fs gs : List Finding) : goals (fs ++ gs) = goals fs ++ goals gs :=
  List.filterMap_append

theorem mem_messages {m : Text} {fs : List Finding} : m ∈ messages fs ↔ message m ∈ fs := by
  constructor
  · intro h
    obtain ⟨f, hf, hm⟩ := List.mem_filterMap.1 h
    cases f with
    | goal g => cases hm
    | message m' =>
      cases hm
      exact hf
  · intro h
    exact List.mem_filterMap.2 ⟨message m, h, rfl⟩

theorem eraseDups_concat (ts : List Text) (t : Text) :
    (ts ++ [t]).eraseDups = ts.eraseDups ++ if t ∈ ts then [] else [t] := by
  rw [List.eraseDups_append]
  by_cases h : t ∈ ts
  · simp [List.removeAll, h]
  · simp [List.removeAll, h, List.eraseDups_cons]

/-- The messages that came for the first time are the messages without their repetitions. -/
theorem messages_firsts (fs : List Finding) : messages (firsts fs) = (messages fs).eraseDups := by
  induction fs using List.reverseRecOn with
  | nil => rfl
  | append_singleton fs f ih =>
    rw [firsts_concat, messages_append, messages_append, ih]
    cases f with
    | goal g =>
      have hone : messages [goal g] = [] := rfl
      simp [isMessage, hone]
    | message m =>
      have hone : messages [message m] = [m] := rfl
      have hnone : messages [] = [] := rfl
      rw [hone, eraseDups_concat]
      by_cases hm : message m ∈ fs <;> simp [isMessage, hm, hone, hnone, mem_messages]

/-- No goal is left out. -/
theorem goals_firsts (fs : List Finding) : goals (firsts fs) = goals fs := by
  induction fs using List.reverseRecOn with
  | nil => rfl
  | append_singleton fs f ih =>
    rw [firsts_concat, goals_append, goals_append, ih]
    cases f with
    | goal g => simp [isMessage]
    | message m => by_cases hm : message m ∈ fs <;> simp [isMessage, hm, goals, goal?]

end Finding

/-! ## Items of findings -/

namespace Item

/-- The goal of an item that is one. -/
def goal? : Item → Option Goal
  | goal g => some g
  | diagnostic _ => none

/-- The message of an item that is an error. -/
def message? : Item → Option Text
  | goal _ => none
  | diagnostic d => some d.message

end Item

theorem Extractor.messages_diagnostics (x : Extractor) :
    x.diagnostics.map (·.message) = x.items.filterMap Item.message? := by
  rw [diagnostics, List.map_filterMap]
  congr 1
  funext i
  cases i <;> rfl

theorem Diagnostic.message_of_ofMessage {m : Text} {d : Diagnostic} (h : ofMessage m = .ok d) :
    d.message = m := by
  unfold ofMessage at h
  cases hl : Location.ofMessage m with
  | error e =>
    rw [hl] at h
    cases h
  | ok range =>
    rw [hl] at h
    cases h
    rfl

namespace Finding

theorem item_eq_ok {f : Finding} {i : Item} (h : f.item = .ok i) :
    i.goal? = f.goal? ∧ i.message? = f.message? := by
  cases f with
  | goal g =>
    cases h
    exact ⟨rfl, rfl⟩
  | message m =>
    obtain ⟨d, hd, rfl⟩ := item_message_eq_ok_iff.1 h
    exact ⟨rfl, congrArg some (Diagnostic.message_of_ofMessage hd)⟩

/-- The items of findings hold their goals and messages, in order. -/
theorem of_items {fs : List Finding} {is : List Item}
    (h : List.Forall₂ (fun f i => item f = .ok i) fs is) :
    is.filterMap Item.goal? = goals fs ∧ is.filterMap Item.message? = messages fs := by
  induction h with
  | nil => exact ⟨rfl, rfl⟩
  | cons hi _ ih =>
    obtain ⟨hg, hm⟩ := item_eq_ok hi
    obtain ⟨ihg, ihm⟩ := ih
    simp only [goals, messages, List.filterMap_cons, hg, hm]
    rw [ihg, ihm]
    exact ⟨rfl, rfl⟩

end Finding

/-! ## Goals among responses -/

theorem Goal.isSome_ofDisplay? (id : Option Int) (body : Text) :
    (ofDisplay? id body).isSome =
      body.lines.any fun l => l.startsWith goalWord || l.startsWith haveWord := by
  unfold ofDisplay?
  dsimp only
  split
  · rename_i h
    rw [h]
    rfl
  · rename_i h
    rw [Bool.not_eq_true] at h
    rw [h]
    rfl

/-- A response is a goal just if it tells one. -/
theorem Response.isGoal_eq (r : Response) :
    r.isGoal = (r.finding?.bind Finding.goal?).isSome := by
  cases r with
  | record r => cases r <;> rfl
  | action hole u =>
    rw [isGoal, finding?, Finding.ofAction?, ← Goal.isSome_ofDisplay? hole]
    cases u.title.hasWord Extractor.errorWord with
    | true => rfl
    | false => cases Goal.ofDisplay? hole u.body <;> rfl

theorem Portion.length_goals (rs : List Response) :
    (Finding.goals (rs.filterMap Response.finding?)).length = rs.countP Response.isGoal := by
  rw [Finding.goals, List.filterMap_filterMap, List.length_filterMap_eq_countP]
  exact List.countP_congr fun r _ => by rw [r.isGoal_eq]

/-! ## Whole runs -/

/-- After portions that were all taken in, the extractor holds what their responses tell. -/
theorem Extractor.holds_feedAll {ps : List Portion} {x : Extractor}
    (h : (feedAll ps).run empty = (.ok (), x)) : x.Holds (Portion.findings ps) := by
  rw [feedAll_eq] at h
  exact holds_feedFindings holds_empty h

/-- **What an extractor holds after any portions**, if it could take in all of them.  Its errors are
those that were told, each where it came for the first time, whatever portions and dialects they came
in.  Its goals are all that were told, and there is one for each response that is a goal.  Its items are
these goals and errors in the order in which they were told.  Regrouping the portions makes no
difference. -/
theorem Extractor.holdings_of_portions {ps : List Portion} {x : Extractor}
    (h : (feedAll ps).run empty = (.ok (), x)) :
    x.diagnostics.map (·.message) = (Finding.messages (Portion.findings ps)).eraseDups ∧
      x.items.filterMap Item.goal? = Finding.goals (Portion.findings ps) ∧
      x.items.countP (Option.isSome ∘ Item.goal?) =
        (ps.flatMap Portion.responses).countP Response.isGoal ∧
      List.Forall₂ (fun f i => Finding.item f = .ok i) (Finding.firsts (Portion.findings ps))
        x.items ∧
      ∀ qs, Portion.Regrouped ps qs → (feedAll qs).run empty = (.ok (), x) := by
  have hitems := (holds_feedAll h).items
  obtain ⟨hgoals, hmessages⟩ := Finding.of_items hitems
  rw [Finding.goals_firsts] at hgoals
  refine ⟨?_, hgoals, ?_, hitems, ?_⟩
  · rw [messages_diagnostics, hmessages, Finding.messages_firsts]
  · have hlength := congrArg List.length hgoals
    rw [List.length_filterMap_eq_countP] at hlength
    exact hlength.trans (Portion.length_goals _)
  · intro qs hqs
    rw [← feedAll_regrouped hqs]
    exact h

/-- Portions in which a message comes three times, in both dialects, and a goal twice. -/
def Portion.samples : List Portion :=
  [.records [.goal 0 none "Nat".toList [], .error "A.agda:3,5-8".toList],
    .actions (some 1) [⟨InfoAction.plain, ["*Error*".toList, "A.agda:3,5-8".toList]⟩,
      ⟨InfoAction.plain, ["*Goal type etc.*".toList, "Goal: Set\nHave: Nat".toList]⟩],
    .records [.error "B.agda".toList, .goal 0 none "Nat".toList [], .error "A.agda:3,5-8".toList]]

/-- What the extractor holds after the samples. -/
def Extractor.sampleHoldings : Extractor where
  items := [.goal ⟨some 0, none, "Nat".toList, []⟩,
    .diagnostic ⟨"A.agda:3,5-8".toList, "A.agda".toList, some ⟨3, 5, 3, 8, by decide⟩⟩,
    .goal ⟨some 1, none, "Set".toList, []⟩, .diagnostic ⟨"B.agda".toList, "B.agda".toList, none⟩,
    .goal ⟨some 0, none, "Nat".toList, []⟩]
  seen := ["B.agda".toList, "A.agda:3,5-8".toList]

/-- The samples are taken in. -/
theorem Extractor.holdings_of_portions_samples :
    (feedAll Portion.samples).run empty = (.ok (), sampleHoldings) ∧
      sampleHoldings.diagnostics.map (·.message) =
        (Finding.messages (Portion.findings Portion.samples)).eraseDups := by
  have h : (feedAll Portion.samples).run empty = (.ok (), sampleHoldings) := by rfl
  exact ⟨h, (holdings_of_portions h).1⟩

end AgdaFrontEnd
