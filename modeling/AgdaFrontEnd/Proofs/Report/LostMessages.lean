import AgdaFrontEnd.Proofs.Location
import AgdaFrontEnd.Proofs.Report.Feeds
import Mathlib.Data.List.ReduceOption

/-!
# Messages that are lost

A message counts as seen before its place is read.  If the place cannot be read, the feed fails: the
message has been seen then, and there is no error for it.  It is lost, for it is passed over from
then on.

* `Extractor.feedEach`: one portion after another, each whatever became of those before it.
* `Portion.Loses`: the message that a portion loses, by the outcome of its feed.
* `Extractor.Accounts`: an extractor has seen the messages of its errors and the lost ones.
* `Extractor.seen_of_feedEach`: so it is after any feeds, and a message is lost just if a feed failed.
* `Extractor.message_lost`: a message that is lost.
-/

namespace AgdaFrontEnd

/-! ## Feeds that may fail -/

/-- The message that a portion loses: the one at which its feed failed, and none if the feed did not
fail. -/
inductive Portion.Loses (p : Portion) : Except IntegerFault Unit → Option Text → Prop
  | none : Loses p (.ok ()) none
  | some {m : Text} {fault : IntegerFault} (told : m ∈ Finding.messages (findings [p]))
      (unread : Location.ofMessage m = .error fault) : Loses p (.error fault) (some m)

namespace Extractor

/-- Collects what portions hold, one after another and each whatever became of those before it; the
outcome of each. -/
def feedEach : List Portion → StateM Extractor (List (Except IntegerFault Unit))
  | [] => return []
  | p :: ps => do
    let r ← (feedPortion p).run
    let rs ← feedEach ps
    return r :: rs

/-- The messages of the errors that an extractor holds. -/
def messages (x : Extractor) : List Text := x.diagnostics.map (·.message)

theorem messages_add_goal (x : Extractor) (g : Goal) :
    messages { x with items := x.items ++ [.goal g] } = x.messages := by
  simp [messages, messages_diagnostics, Item.message?]

theorem messages_add_diagnostic (x : Extractor) (d : Diagnostic) (seen : List Text) :
    messages ⟨x.items ++ [.diagnostic d], seen⟩ = x.messages ++ [d.message] := by
  simp [messages, messages_diagnostics, Item.message?]

/-! ## What an extractor has seen -/

/-- The extractor has seen the messages of its errors and the lost ones.  The places of the former
can be read, those of the latter cannot. -/
structure Accounts (x : Extractor) (lost : List Text) : Prop where
  seen : ∀ m, m ∈ x.seen ↔ m ∈ x.messages ∨ m ∈ lost
  read : ∀ m ∈ x.messages, ∃ range, Location.ofMessage m = .ok range
  unread : ∀ m ∈ lost, ∃ fault, Location.ofMessage m = .error fault
  nodup : lost.Nodup

theorem accounts_empty : Accounts empty [] := ⟨by simp [empty, messages, diagnostics], nofun, nofun, .nil⟩

/-- A lost message is that of no error. -/
theorem Accounts.not_mem {x : Extractor} {lost : List Text} (h : Accounts x lost) {m : Text}
    (hm : m ∈ lost) : m ∉ x.messages := by
  intro hx
  obtain ⟨fault, hfault⟩ := h.unread m hm
  obtain ⟨range, hrange⟩ := h.read m hx
  rw [hfault] at hrange
  cases hrange

theorem accounts_add_goal {x : Extractor} {lost : List Text} (h : Accounts x lost) (g : Goal) :
    Accounts { x with items := x.items ++ [.goal g] } lost where
  seen := by
    intro m
    rw [messages_add_goal]
    exact h.seen m
  read := by
    intro m hm
    rw [messages_add_goal] at hm
    exact h.read m hm
  unread := h.unread
  nodup := h.nodup

theorem accounts_add_diagnostic {x : Extractor} {lost : List Text} (h : Accounts x lost) {m : Text}
    {range : Option SourceRange} (hm : Location.ofMessage m = .ok range) (file : Text) :
    Accounts ⟨x.items ++ [.diagnostic ⟨m, file, range⟩], m :: x.seen⟩ lost where
  seen := by
    intro n
    rw [messages_add_diagnostic, List.mem_cons, h.seen, List.mem_append, List.mem_singleton]
    tauto
  read := by
    intro n hn
    rw [messages_add_diagnostic, List.mem_append, List.mem_singleton] at hn
    rcases hn with hn | rfl
    · exact h.read n hn
    · exact ⟨range, hm⟩
  unread := h.unread
  nodup := h.nodup

theorem accounts_lose {x : Extractor} {lost : List Text} (h : Accounts x lost) {m : Text}
    {fault : IntegerFault} (hm : Location.ofMessage m = .error fault) (hnew : m ∉ lost) :
    Accounts { x with seen := m :: x.seen } (lost ++ [m]) where
  seen := by
    intro n
    show n ∈ m :: x.seen ↔ n ∈ x.messages ∨ n ∈ lost ++ [m]
    rw [List.mem_cons, h.seen, List.mem_append, List.mem_singleton]
    tauto
  read := h.read
  unread := by
    intro n hn
    rw [List.mem_append, List.mem_singleton] at hn
    rcases hn with hn | rfl
    · exact h.unread n hn
    · exact ⟨fault, hm⟩
  nodup := (List.perm_append_singleton m lost).nodup_iff.2 (List.nodup_cons.2 ⟨hnew, h.nodup⟩)

/-- **A finding keeps the account**: the feed succeeds and nothing is lost, or it fails at a message
that is lost then. -/
theorem accounts_feedFinding {x : Extractor} {lost : List Text} (h : Accounts x lost) (f : Finding) :
    ((feedFinding f).run x).1 = .ok () ∧ Accounts ((feedFinding f).run x).2 lost ∨
      ∃ m fault, f = .message m ∧ Location.ofMessage m = .error fault ∧
        ((feedFinding f).run x).1 = .error fault ∧
        Accounts ((feedFinding f).run x).2 (lost ++ [m]) := by
  cases f with
  | goal g => exact .inl ⟨rfl, accounts_add_goal h g⟩
  | message m =>
    rw [feedFinding, run_addMessage]
    split
    · exact .inl ⟨rfl, h⟩
    · rename_i hm
      rw [h.seen, not_or] at hm
      unfold Diagnostic.ofMessage
      cases hl : Location.ofMessage m with
      | ok range => exact .inl ⟨rfl, accounts_add_diagnostic h hl _⟩
      | error fault => exact .inr ⟨m, fault, rfl, hl, rfl, accounts_lose h hl hm.2⟩

/-- Findings keep the account up to the first one at which the feed fails. -/
theorem accounts_feedFindings : ∀ (fs : List Finding) {x : Extractor} {lost : List Text},
    Accounts x lost →
      ((feedFindings fs).run x).1 = .ok () ∧ Accounts ((feedFindings fs).run x).2 lost ∨
        ∃ m fault, m ∈ Finding.messages fs ∧ Location.ofMessage m = .error fault ∧
          ((feedFindings fs).run x).1 = .error fault ∧
          Accounts ((feedFindings fs).run x).2 (lost ++ [m])
  | [], x, lost, h => .inl ⟨rfl, h⟩
  | f :: fs, x, lost, h => by
    have hstep := accounts_feedFinding h f
    rw [feedFindings]
    rcases hf : (feedFinding f).run x with ⟨r, y⟩
    rw [hf] at hstep
    rcases hstep with ⟨hr, hy⟩ | ⟨m, fault, rfl, hm, hr, hy⟩
    · obtain rfl : r = .ok () := hr
      rw [run_bind_ok hf]
      rcases accounts_feedFindings fs hy with hrest | ⟨m, fault, hmem, hrest⟩
      · exact .inl hrest
      · have hmem' : m ∈ Finding.messages (f :: fs) :=
          Finding.mem_messages.2 (.tail _ (Finding.mem_messages.1 hmem))
        exact .inr ⟨m, fault, hmem', hrest⟩
    · obtain rfl : r = .error fault := hr
      rw [run_bind_error hf]
      exact .inr ⟨m, fault, Finding.mem_messages.2 (.head _), hm, rfl, hy⟩

/-- A portion keeps the account. -/
theorem accounts_feedPortion (p : Portion) {x : Extractor} {lost : List Text} (h : Accounts x lost) :
    ∃ l, p.Loses ((feedPortion p).run x).1 l ∧
      Accounts ((feedPortion p).run x).2 (lost ++ l.toList) := by
  have hp : p.responses.filterMap Response.finding? = Portion.findings [p] := by
    rw [Portion.findings, List.flatMap_singleton]
  rw [feedPortion_eq, hp]
  rcases accounts_feedFindings (Portion.findings [p]) h with ⟨hr, hx⟩ | ⟨m, fault, hmem, hm, hr, hx⟩
  · rw [hr]
    exact ⟨none, .none, by simpa using hx⟩
  · rw [hr]
    exact ⟨some m, .some hmem hm, hx⟩

theorem feedEach_cons (p : Portion) (ps : List Portion) (x : Extractor) :
    (feedEach (p :: ps)).run x =
      (((feedPortion p).run x).1 :: ((feedEach ps).run ((feedPortion p).run x).2).1,
        ((feedEach ps).run ((feedPortion p).run x).2).2) := rfl

/-- Portions keep the account, whatever becomes of each of them. -/
theorem accounts_feedEach : ∀ (ps : List Portion) {x : Extractor} {lost : List Text},
    Accounts x lost → ∃ ls : List (Option Text),
      ((feedEach ps).run x).1.length = ps.length ∧
      List.Forall₂ (fun (pr : Portion × Except IntegerFault Unit) l => pr.1.Loses pr.2 l)
        (ps.zip ((feedEach ps).run x).1) ls ∧
      Accounts ((feedEach ps).run x).2 (lost ++ ls.reduceOption)
  | [], x, lost, h => ⟨[], rfl, .nil, (List.append_nil lost).symm ▸ h⟩
  | p :: ps, x, lost, h => by
    obtain ⟨l, hl, hx⟩ := accounts_feedPortion p h
    obtain ⟨ls, hlength, hls, hxs⟩ := accounts_feedEach ps hx
    rw [feedEach_cons]
    refine ⟨l :: ls, by simp [hlength], .cons hl hls, ?_⟩
    rw [List.append_assoc] at hxs
    cases l <;> simpa using hxs

/-! ## After any feeds -/

/-- Just the feeds that fail lose messages. -/
theorem forall_ok_iff {prs : List (Portion × Except IntegerFault Unit)} {ls : List (Option Text)}
    (h : List.Forall₂ (fun pr l => pr.1.Loses pr.2 l) prs ls) :
    (∀ m, some m ∉ ls) ↔ ∀ r ∈ prs.map (·.2), r = .ok () := by
  induction h with
  | nil => simp
  | @cons pr l _ _ hl _ ih =>
    obtain ⟨p, r⟩ := pr
    rw [List.map_cons, List.forall_mem_cons, ← ih]
    cases hl with
    | none => simp
    | @some m fault told unread => exact ⟨fun h => absurd (.head _) (h m), fun h => nomatch h.1⟩

/-- The place of a message that a portion loses has a number with too many digits. -/
theorem exists_isOverlong {prs : List (Portion × Except IntegerFault Unit)} {ls : List (Option Text)}
    (h : List.Forall₂ (fun pr l => pr.1.Loses pr.2 l) prs ls) {m : Text} (hm : some m ∈ ls) :
    ∃ l, Location.find? (m.upTo '\n') = some l ∧ ∃ ds ∈ l.numbers, Location.IsOverlong ds := by
  induction h with
  | nil => cases hm
  | @cons pr l _ _ hl _ ih =>
    obtain ⟨p, r⟩ := pr
    rcases List.mem_cons.1 hm with rfl | hm
    · cases hl with
      | some told unread =>
        obtain ⟨l, hfind, ds, hds, -⟩ := Location.ofMessage_eq_error_iff.1 unread
        exact ⟨l, hfind, ds, List.mem_of_find?_eq_some hds, by simpa using List.find?_some hds⟩
    · exact ih hm

/-- A message is passed over just if it has been seen. -/
theorem run_addMessage_eq_self_iff {m : Text} {x : Extractor} :
    (addMessage m).run x = (.ok (), x) ↔ m ∈ x.seen := by
  rw [run_addMessage]
  split
  · rename_i hm
    exact ⟨fun _ => hm, fun _ => rfl⟩
  · rename_i hm
    refine ⟨fun h => ?_, fun h => absurd h hm⟩
    cases hd : Diagnostic.ofMessage m with
    | ok d =>
      rw [hd] at h
      have hseen := congrArg seen (Prod.mk.inj h).2
      exact absurd (congrArg List.length hseen) (by simp)
    | error fault =>
      rw [hd] at h
      cases (Prod.mk.inj h).1

/-- **What an extractor has seen after any feeds**, some of which may have failed: the messages of the
errors that it holds, and those that were lost.  Each feed that failed has lost one message, whose
place has a number with too many digits, and the others have lost none.  A message is passed over
just if there is an error for it or it is lost.  So an extractor has seen nothing but the messages of
its errors just if no feed has failed. -/
theorem seen_of_feedEach (ps : List Portion) :
    ∃ x rs, (feedEach ps).run empty = (rs, x) ∧ rs.length = ps.length ∧ ∃ ls : List (Option Text),
      List.Forall₂ (fun (pr : Portion × Except IntegerFault Unit) l => pr.1.Loses pr.2 l)
        (ps.zip rs) ls ∧
      ls.reduceOption.Nodup ∧
      (∀ m, some m ∈ ls → m ∉ x.messages ∧ ∃ l, Location.find? (m.upTo '\n') = some l ∧
        ∃ ds ∈ l.numbers, Location.IsOverlong ds) ∧
      (∀ m, m ∈ x.seen ↔ m ∈ x.messages ∨ some m ∈ ls) ∧
      (∀ m, (addMessage m).run x = (.ok (), x) ↔ m ∈ x.messages ∨ some m ∈ ls) ∧
      ((∀ m, m ∈ x.seen ↔ m ∈ x.messages) ↔ ∀ r ∈ rs, r = .ok ()) := by
  obtain ⟨ls, hlength, hls, hx⟩ := accounts_feedEach ps accounts_empty
  rw [List.nil_append] at hx
  rcases hrun : (feedEach ps).run empty with ⟨rs, x⟩
  rw [hrun] at hlength hls hx
  dsimp only at hlength hls hx
  have hlost (m : Text) : m ∈ ls.reduceOption ↔ some m ∈ ls := List.reduceOption_mem_iff
  have hseen (m : Text) : m ∈ x.seen ↔ m ∈ x.messages ∨ some m ∈ ls := by rw [hx.seen, hlost]
  have hnone := forall_ok_iff hls
  rw [List.map_snd_zip (Nat.le_of_eq hlength)] at hnone
  refine ⟨x, rs, rfl, hlength, ls, hls, hx.nodup, fun m hm => ?_, hseen, fun m => ?_, ?_⟩
  · exact ⟨hx.not_mem ((hlost m).2 hm), exists_isOverlong hls hm⟩
  · rw [run_addMessage_eq_self_iff, hseen]
  · rw [← hnone]
    constructor
    · intro h m hm
      exact hx.not_mem ((hlost m).2 hm) ((h m).1 ((hseen m).2 (.inr hm)))
    · intro h m
      rw [hseen]
      exact ⟨fun hm => hm.resolve_right (h m), .inl⟩

/-! ## A message that is lost -/

/-- A message whose line has more digits than are read. -/
def overlongMessage : Text := "A.agda:".toList ++ (List.replicate 4301 '9' ++ ",1-2".toList)

theorem ofMessage_overlongMessage :
    Location.ofMessage overlongMessage = .error (.tooManyDigits 4301) := by
  have hdigits : ∀ c ∈ List.replicate 4301 '9', isDigit c = true := by
    intro c hc
    rw [List.eq_of_mem_replicate hc]
    decide
  have hlength : (List.replicate 4301 '9').length = 4301 := List.length_replicate
  have hfile : ∀ c ∈ "A.agda:".toList, isDigit c = false ∧ c ≠ '\n' :=
    List.forall_iff_forall_mem.1 (by decide)
  have hcolumn : ∀ c ∈ ['1'], isDigit c = true := List.forall_mem_singleton.2 (by decide)
  have hend : ∀ c ∈ ['2'], isDigit c = true := List.forall_mem_singleton.2 (by decide)
  have h := Location.ofMessage_line hfile hdigits (by rw [hlength]; decide) hcolumn (by decide) hend
    (by decide)
  rw [hlength] at h
  exact h

/-- A feed fails at a message, no error is kept for it, and the next feed passes it over. -/
theorem message_lost :
    (feedEach [.records [.error overlongMessage], .records [.error overlongMessage]]).run empty =
        ([.error (.tooManyDigits 4301), .ok ()], ⟨[], [overlongMessage]⟩) ∧
      ¬ ∀ ps m, m ∈ ((feedEach ps).run empty).2.seen ↔ m ∈ ((feedEach ps).run empty).2.messages := by
  have hdiagnostic : Diagnostic.ofMessage overlongMessage = .error (.tooManyDigits 4301) := by
    rw [Diagnostic.ofMessage, ofMessage_overlongMessage]
    rfl
  have hfirst : (feedPortion (.records [.error overlongMessage])).run empty =
      (.error (.tooManyDigits 4301), ⟨[], [overlongMessage]⟩) := by
    have hnew : overlongMessage ∉ empty.seen := List.not_mem_nil
    refine run_bind_error ?_ _
    rw [feedRecord, run_addMessage, if_neg hnew, hdiagnostic]
    rfl
  have hsecond : (feedPortion (.records [.error overlongMessage])).run ⟨[], [overlongMessage]⟩ =
      (.ok (), ⟨[], [overlongMessage]⟩) := by
    have hkept : (feedRecord (.error overlongMessage)).run ⟨[], [overlongMessage]⟩ =
        (.ok (), ⟨[], [overlongMessage]⟩) := by
      rw [feedRecord, run_addMessage, if_pos (List.mem_singleton.2 rfl)]
    exact run_bind_ok hkept _
  have hrun : (feedEach [.records [.error overlongMessage], .records [.error overlongMessage]]).run
      empty = ([.error (.tooManyDigits 4301), .ok ()], ⟨[], [overlongMessage]⟩) := by
    rw [feedEach_cons, hfirst, feedEach_cons, hsecond]
    rfl
  refine ⟨hrun, fun h => ?_⟩
  have hm := (h [.records [.error overlongMessage], .records [.error overlongMessage]]
    overlongMessage).1 (by rw [hrun]; exact .head _)
  rw [hrun] at hm
  cases hm

end Extractor

end AgdaFrontEnd
