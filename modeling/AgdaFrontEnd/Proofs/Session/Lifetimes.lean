import AgdaFrontEnd.Proofs.Session.Line
import AgdaFrontEnd.Proofs.World.Lifetimes

/-!
# The processes of a session

A command that is answered, with whatever exit code, leaves no process behind: the process has ended,
and its exit code was taken note of.  A process that does not take its input, or that is stopped by
the file system in what it does, is let go as it is: nobody waits for it, and the session counts as
free.

* `Session.brokeOff`: the outcome of a command whose process was let go.
* `Session.leftFrom_told`: what a command leaves.
* `Line.Fits`: one request at most has the session, and a process is at work only for this one.
* `Line.Accounted.makeMove`, `Line.Accounted.runMoves`: the processes that are left are those that were
  let go, and the one at work.
* `Line.processes_left`: what is left of the processes of a session.
-/

namespace AgdaFrontEnd

open Journal (IsLast AtMost leftFrom)

/-- The failure of a command whose process was let go before it ended. -/
def Failure.breaksOff : Failure → Bool
  | .brokenPipe _ | .unencodable _ | .disk _ => true
  | _ => false

namespace Session

/-- The outcome of a command whose process was let go before it ended. -/
def brokeOff : Except Failure Text → Bool
  | .error f => f.breaksOff
  | .ok _ => false

/-- A process does not come to its end. -/
def Breaks (script : Script) (d : Disk) (command : Text) : Prop :=
  script.inputFault? command ≠ none ∨
    ∃ fault d', (Effect.performAll d.home (script.ruleFor command).effects).run d = (.error fault, d')

/-! ## What a command leaves -/

theorem brokeOff_answer (r : Rule) : brokeOff r.answer = false := by
  unfold Rule.answer
  split <;> rfl

theorem breaksOff_ofInput (fault : InputFault) : (Failure.ofInput fault).breaksOff = true := by
  cases fault <;> rfl

theorem brokeOff_exchange_iff (script : Script) (d : Disk) (command : Text) :
    brokeOff (script.exchange d command).1 = true ↔ Breaks script d command := by
  unfold Script.exchange Breaks
  cases script.inputFault? command with
  | some fault => simp [brokeOff, breaksOff_ofInput]
  | none =>
    rcases (Effect.performAll d.home (script.ruleFor command).effects).run d with ⟨fault | _, d'⟩
    · exact iff_of_true rfl (.inr ⟨fault, d', rfl⟩)
    · refine iff_of_false (by simp [brokeOff_answer]) ?_
      rintro (h | ⟨fault, d'', h⟩)
      · exact h rfl
      · cases h

/-- A command is broken off if its process starts and does not come to its end. -/
theorem brokeOff_reply_iff (script : Script) (program : Text) (d : Disk) (command : Text) :
    brokeOff (script.reply program d command).1 = true ↔
      script.startFault? program command = none ∧ Breaks script d command := by
  unfold Script.reply
  cases script.startFault? program command with
  | some fault => simp [brokeOff, Failure.breaksOff]
  | none => simp [brokeOff_exchange_iff]

theorem isIdle_heard (quiet : Bool) (ps : List Text) : ∀ e ∈ ps.flatMap (heard quiet), e.IsIdle := by
  intro e he
  obtain ⟨p, -, hp⟩ := List.mem_flatMap.1 he
  unfold heard at hp
  split at hp
  · cases hp
  · rcases List.mem_cons.1 hp with rfl | hp
    · trivial
    · split at hp
      · cases hp
      · rw [List.mem_singleton.1 hp]
        trivial

variable {last? : Event → Option Nat} {ps : List Nat}

/-- A started process is left if it is let go, and otherwise its last event comes. -/
theorem leftFrom_entries (h : IsLast last?) (script : Script) (quiet : Bool) (process : Nat) (d : Disk)
    (command : Text) : leftFrom last? ps (entries script quiet process d command) =
      if brokeOff (script.exchange d command).1 then ps else ps.erase process := by
  unfold entries Script.exchange
  cases script.inputFault? command with
  | some fault =>
    dsimp only
    rw [brokeOff, breaksOff_ofInput]
    rfl
  | none =>
    dsimp only
    rw [Journal.leftFrom_cons, Journal.leftAfter_of_isIdle h (e := .input process command) trivial]
    rcases (Effect.performAll d.home (script.ruleFor command).effects).run d with ⟨fault | _, d'⟩
    · rfl
    · dsimp only
      rw [Journal.leftFrom_append, Journal.leftFrom_of_isIdle h (isIdle_heard quiet _), h.ends,
        brokeOff_answer]
      rfl

theorem started_entries (script : Script) (quiet : Bool) (process : Nat) (d : Disk) (command : Text) :
    Journal.started (entries script quiet process d command) = [] := by
  refine List.filterMap_eq_nil_iff.2 fun e he => ?_
  have hidle : e.IsIdle ∨ e.start? = none := by
    unfold entries at he
    split at he
    · cases he
    · rcases List.mem_cons.1 he with rfl | he
      · exact .inr rfl
      split at he
      · cases he
      rcases List.mem_append.1 he with he | he
      · exact .inl (isIdle_heard quiet _ e he)
      · right
        rcases List.mem_pair.1 he with rfl | rfl <;> rfl
  rcases hidle with hidle | hstart
  · cases e <;> first | rfl | cases hidle
  · exact hstart

theorem started_told (script : Script) (s : Session) (next : Nat) (d : Disk) (command : Text) :
    Journal.started (told script s next d command) =
      if script.startFault? s.program command = none then [next] else [] := by
  unfold told
  rw [Journal.started_cons]
  cases script.startFault? s.program command with
  | some fault => rfl
  | none =>
    show Journal.started (.started next (s.program :: s.args) none :: _) = [next]
    rw [Journal.started_cons, started_entries]
    rfl

/-- **A command leaves its process just if it is broken off.** -/
theorem leftFrom_told (h : IsLast last?) (script : Script) (s : Session) (next : Nat) (d : Disk)
    (command : Text) : leftFrom last? [] (told script s next d command) =
      if brokeOff (script.reply s.program d command).1 then [next] else [] := by
  unfold told Script.reply
  rw [Journal.leftFrom_cons,
    Journal.leftAfter_of_isIdle h (e := .command (s.sent + 1) command) trivial]
  cases script.startFault? s.program command with
  | some fault => rfl
  | none =>
    show leftFrom last? [] (.started next (s.program :: s.args) none :: _) = _
    rw [Journal.leftFrom_cons]
    show leftFrom last? [next] (entries script s.quiet next d command) = _
    rw [leftFrom_entries h, List.erase_cons_head]

end Session

/-- The request has the session. -/
def Phase.Holds : Phase → Prop
  | .admitted | .running _ => True
  | .away | .waiting | .ended _ => False

/-- The request ended with the outcome of a command whose process was let go. -/
def Phase.brokeOff : Phase → Bool
  | .ended r => Session.brokeOff r
  | .away | .waiting | .admitted | .running _ => false

namespace Line

/-! ## One request has the session -/

/-- How many requests were broken off. -/
def brokenOff (l : Line) : Nat := (l.requests.map (·.phase.brokeOff.toNat)).sum

theorem brokenOff_move {l : Line} {i : Nat} {old : Phase} (h : l.phase? i = some old) (phase : Phase) :
    (l.move i phase).brokenOff + old.brokeOff.toNat = l.brokenOff + phase.brokeOff.toNat := by
  obtain ⟨r, hr, rfl⟩ := Option.map_eq_some_iff.1 h
  exact sum_modify hr

/-- One request at most has the session, and a process is at work only for this one. -/
structure Fits (l : Line) (process : Option Nat) : Prop where
  holder : ∀ i phase, l.phase? i = some phase → phase.Holds → l.holder = some i
  queue : ∀ i ∈ l.waiting, l.phase? i = some .waiting
  nodup : l.waiting.Nodup
  process : ∀ p, process = some p ↔ ∃ i, l.phase? i = some (.running p)

variable {l : Line} {i j : Nat} {phase old : Phase} {process : Option Nat}

theorem phase?_eq_of_move (h : l.phase? i = some old) {phase' : Phase}
    (hj : (l.move i phase).phase? j = some phase') :
    i = j ∧ phase' = phase ∨ i ≠ j ∧ l.phase? j = some phase' := by
  by_cases hij : i = j
  · subst hij
    rw [phase?_move_self h] at hj
    exact .inl ⟨rfl, (Option.some.inj hj).symm⟩
  · rw [phase?_move_of_ne l phase hij] at hj
    exact .inr ⟨hij, hj⟩

namespace Fits

/-- Nobody else has the session. -/
theorem eq_of_holds (h : l.Fits process) (hi : l.phase? i = some old) (hold : old.Holds)
    (hj : l.phase? j = some phase) (hphase : phase.Holds) : i = j :=
  Option.some.inj ((h.holder i old hi hold).symm.trans (h.holder j phase hj hphase))

/-- A request in another phase does not wait. -/
theorem ne_of_mem_waiting (h : l.Fits process) (hi : l.phase? i = some old) (hold : old ≠ .waiting)
    (hj : j ∈ l.waiting) : i ≠ j := by
  rintro rfl
  exact hold (Option.some.inj (hi.symm.trans (h.queue i hj)))

/-- If the request that has the session is admitted only, no process is at work. -/
theorem process_eq_none (h : l.Fits process) (hi : l.phase? i = some .admitted) : process = none := by
  refine Option.eq_none_iff_forall_ne_some.2 fun p hp => ?_
  obtain ⟨j, hj⟩ := (h.process p).1 hp
  obtain rfl := h.eq_of_holds hi trivial hj trivial
  rw [hi] at hj
  cases hj

/-- A process is at work for the same requests if a request moves for which none is before or after. -/
theorem process_move (h : l.Fits process) (hi : l.phase? i = some old) (hold : ∀ p, old ≠ .running p)
    (hphase : ∀ p, phase ≠ .running p) (p : Nat) :
    process = some p ↔ ∃ j, (l.move i phase).phase? j = some (.running p) := by
  rw [h.process p]
  constructor
  · rintro ⟨j, hj⟩
    have hij : i ≠ j := by
      rintro rfl
      rw [hi] at hj
      exact hold p (Option.some.inj hj)
    exact ⟨j, (phase?_move_of_ne l phase hij).trans hj⟩
  · rintro ⟨j, hj⟩
    rcases phase?_eq_of_move hi hj with ⟨-, heq⟩ | ⟨-, hj⟩
    · exact absurd heq.symm (hphase p)
    · exact ⟨j, hj⟩

/-- A request that comes has the session or waits. -/
theorem arrive (h : l.Fits process) (hi : l.phase? i = some .away) : (l.arrive i).Fits process := by
  have hother : ∀ j ∈ l.waiting, i ≠ j := fun j => h.ne_of_mem_waiting hi nofun
  have hqueue : ∀ (phase : Phase), ∀ j ∈ l.waiting, (l.move i phase).phase? j = some .waiting :=
    fun phase j hj => (phase?_move_of_ne l phase (hother j hj)).trans (h.queue j hj)
  unfold Line.arrive
  cases hholder : l.holder with
  | none =>
    refine ⟨fun j phase hj hphase => ?_, hqueue .admitted, h.nodup, h.process_move hi nofun nofun⟩
    rcases phase?_eq_of_move hi hj with ⟨rfl, -⟩ | ⟨-, hj⟩
    · rfl
    · rw [h.holder j phase hj hphase] at hholder
      cases hholder
  | some k =>
    refine ⟨fun j phase hj hphase => ?_, fun j hj => ?_, ?_, h.process_move hi nofun nofun⟩
    · rcases phase?_eq_of_move hi hj with ⟨-, rfl⟩ | ⟨-, hj⟩
      · cases hphase
      · exact h.holder j phase hj hphase
    · rcases List.mem_append.1 hj with hj | hj
      · exact hqueue .waiting j hj
      · rw [List.mem_singleton.1 hj]
        exact phase?_move_self hi
    · rw [← List.concat_eq_append]
      exact h.nodup.concat fun hj => hother i hj rfl

/-- A process starts for the request that has the session. -/
theorem start (h : l.Fits process) (hi : l.phase? i = some .admitted) (p : Nat) :
    (l.move i (.running p)).Fits (some p) where
  holder := fun j phase hj hphase => by
    rcases phase?_eq_of_move hi hj with ⟨rfl, -⟩ | ⟨-, hj⟩
    · exact h.holder i _ hi trivial
    · exact h.holder j phase hj hphase
  queue := fun j hj => by
    exact (phase?_move_of_ne l _ (h.ne_of_mem_waiting hi nofun hj)).trans (h.queue j hj)
  nodup := h.nodup
  process := fun q => by
    constructor
    · intro hq
      cases hq
      exact ⟨i, phase?_move_self hi⟩
    · rintro ⟨j, hj⟩
      rcases phase?_eq_of_move hi hj with ⟨-, heq⟩ | ⟨hij, hj⟩
      · cases heq
        rfl
      · exact absurd (h.eq_of_holds hi trivial hj trivial) hij

/-- If nobody has the session, it goes to the next request in line. -/
theorem passOn (hnobody : ∀ j phase, l.phase? j = some phase → ¬ phase.Holds)
    (hqueue : ∀ j ∈ l.waiting, l.phase? j = some .waiting) (hnodup : l.waiting.Nodup) :
    l.passOn.Fits none ∧ l.passOn.brokenOff = l.brokenOff := by
  unfold Line.passOn
  cases hnext : l.waiting with
  | nil =>
    refine ⟨⟨fun j phase hj hphase => absurd hphase (hnobody j phase hj), nofun, .nil, fun p => ?_⟩, rfl⟩
    exact iff_of_false nofun fun ⟨j, hj⟩ => hnobody j _ hj trivial
  | cons j js =>
    rw [hnext] at hqueue hnodup
    obtain ⟨hfirst, hjs⟩ := List.nodup_cons.1 hnodup
    have hj : l.phase? j = some .waiting := hqueue j (.head js)
    refine ⟨⟨fun k phase hk hphase => ?_, fun k hk => ?_, hjs, fun p => ?_⟩, brokenOff_move hj .admitted⟩
    · rcases phase?_eq_of_move hj hk with ⟨rfl, -⟩ | ⟨-, hk⟩
      · rfl
      · exact absurd hphase (hnobody k phase hk)
    · have hjk : j ≠ k := fun hjk => hfirst (hjk ▸ hk)
      exact (phase?_move_of_ne _ _ hjk).trans (hqueue k (.tail j hk))
    · refine iff_of_false nofun fun ⟨k, hk⟩ => ?_
      rcases phase?_eq_of_move hj hk with ⟨-, heq⟩ | ⟨-, hk⟩
      · cases heq
      · exact hnobody k _ hk trivial

/-- The request that has the session leaves it to the next one. -/
theorem leave (h : l.Fits process) (hi : l.phase? i = some old) (hold : old.Holds)
    (r : Except Failure Text) :
    (l.leave i r).Fits none ∧ (l.leave i r).brokenOff = l.brokenOff + (Session.brokeOff r).toNat := by
  have hnobody : ∀ j phase, (l.move i (.ended r)).phase? j = some phase → ¬ phase.Holds := by
    intro j phase hj hphase
    rcases phase?_eq_of_move hi hj with ⟨-, rfl⟩ | ⟨hij, hj⟩
    · exact hphase
    · exact hij (h.eq_of_holds hi hold hj hphase)
  have hqueue : ∀ j ∈ l.waiting, (l.move i (.ended r)).phase? j = some .waiting := by
    intro j hj
    have hij : i ≠ j := h.ne_of_mem_waiting hi (by rintro rfl; exact hold) hj
    exact (phase?_move_of_ne l _ hij).trans (h.queue j hj)
  have hcount : (l.move i (.ended r)).brokenOff = l.brokenOff + (Session.brokeOff r).toNat := by
    have hmove := brokenOff_move hi (.ended r)
    have hzero : old.brokeOff = false := by cases old <;> first | rfl | cases hold
    rw [hzero] at hmove
    exact hmove
  obtain ⟨hfits, hsame⟩ := passOn hnobody hqueue h.nodup
  exact ⟨hfits, hsame.trans hcount⟩

end Fits

theorem brokenOff_arrive (hi : l.phase? i = some .away) : (l.arrive i).brokenOff = l.brokenOff := by
  unfold arrive
  cases l.holder with
  | none => exact brokenOff_move hi .admitted
  | some _ => exact brokenOff_move hi .waiting

/-! ## What the journal tells -/

/-- How the session and the world stand with a line: since the journal had all but `news`, the processes
`left` were let go, and the one at work is left besides. -/
structure Accounted (l : Line) (s : Session) (w : World) (news : Journal) (left : List Nat) : Prop where
  fits : l.Fits s.process
  journal : ∀ last?, IsLast last? → leftFrom last? [] news = left ++ s.process.toList
  length : left.length = l.brokenOff
  nodup : (left ++ s.process.toList).Nodup
  lt : ∀ p ∈ left ++ s.process.toList, p < w.next
  most : ∀ last?, IsLast last? → AtMost last? (l.brokenOff + 1) [] news

namespace Accounted

variable {l' : Line} {s s' : Session} {w w' : World} {news more : Journal} {left : List Nat} {p : Nat}
  {c : Text}

/-- A command is handed out, and no process starts for it. -/
theorem refused (h : Accounted l s w news left) (hi : l.phase? i = some .admitted) {f : Failure}
    (hf : f.breaksOff = false) (hs : s'.process = s.process) (hw : w'.next = w.next)
    (hmore : ∀ e ∈ more, e.IsIdle) : Accounted (l.leave i (.error f)) s' w' (news ++ more) left := by
  have hnone : s.process = none := h.fits.process_eq_none hi
  obtain ⟨hfits, hcount⟩ := h.fits.leave hi trivial (.error f)
  have hsame : (l.leave i (.error f)).brokenOff = l.brokenOff := by
    rw [hcount]
    simp [Session.brokeOff, hf]
  have hjournal : ∀ last?, IsLast last? →
      leftFrom last? [] (news ++ more) = left ++ s.process.toList := fun last? hlast => by
    rw [Journal.leftFrom_append, Journal.leftFrom_of_isIdle hlast hmore, h.journal last? hlast]
  have hstarted : Journal.started more = [] := List.filterMap_eq_nil_iff.2 fun e he => by
    have hidle := hmore e he
    cases e <;> first | rfl | cases hidle
  refine ⟨hs.trans hnone ▸ hfits, hs ▸ hjournal, h.length.trans hsame.symm, hs ▸ h.nodup,
    hs ▸ hw ▸ h.lt, fun last? hlast => ?_⟩
  rw [hsame]
  refine (h.most last? hlast).append (Journal.atMost_of_started ?_)
  rw [h.journal last? hlast, hnone, hstarted, Option.toList_none, List.append_nil, h.length]
  exact Nat.le_succ _

/-- A process starts for a command. -/
theorem launched (h : Accounted l s w news left) (hi : l.phase? i = some .admitted)
    (hs : s'.process = some w.next) (hw : w'.next = w.next + 1) (n : Nat) (argv : List Text) :
    Accounted (l.move i (.running w.next)) s' w'
      (news ++ [.command n c, .started w.next argv none]) left := by
  have hnone : s.process = none := h.fits.process_eq_none hi
  have hjournal := h.journal
  have hnodup := h.nodup
  have hlt := h.lt
  rw [hnone, Option.toList_none, List.append_nil] at hjournal hnodup hlt
  have hsame : (l.move i (.running w.next)).brokenOff = l.brokenOff := brokenOff_move hi _
  have hnew : w.next ∉ left := fun hmem => Nat.lt_irrefl _ (hlt _ hmem)
  refine ⟨hs ▸ h.fits.start hi w.next, fun last? hlast => ?_, h.length.trans hsame.symm, ?_, ?_,
    fun last? hlast => ?_⟩
  · have hcommand : Journal.leftAfter last? left (.command n c) = left :=
      Journal.leftAfter_of_isIdle hlast trivial
    rw [Journal.leftFrom_append, hjournal last? hlast, Journal.leftFrom_cons, hcommand, hs]
    rfl
  · rw [hs, Option.toList_some, ← List.concat_eq_append]
    exact hnodup.concat hnew
  · intro p hp
    rw [hs, Option.toList_some, List.mem_append, List.mem_singleton] at hp
    rcases hp with hp | rfl
    · exact hw ▸ Nat.lt_succ_of_lt (hlt p hp)
    · exact hw ▸ Nat.lt_succ_self _
  · rw [hsame]
    refine (h.most last? hlast).append (Journal.atMost_of_started ?_)
    rw [hjournal last? hlast, h.length]
    exact Nat.le_refl _

/-- The process at work comes to its end or is let go. -/
theorem finished (h : Accounted l s w news left) (hi : l.phase? i = some (.running p))
    (hs : s'.process = none) (hw : w'.next = w.next) {r : Except Failure Text}
    (hmore : ∀ last?, IsLast last? → ∀ ps, leftFrom last? ps more =
      if Session.brokeOff r then ps else ps.erase p)
    (hstarted : Journal.started more = []) :
    Accounted (l.leave i r) s' w' (news ++ more)
      (if Session.brokeOff r then left ++ [p] else left) := by
  have hp : s.process = some p := (h.fits.process p).2 ⟨i, hi⟩
  have hjournal := h.journal
  have hnodup := h.nodup
  have hlt := h.lt
  rw [hp, Option.toList_some] at hjournal hnodup hlt
  have hother : p ∉ left := fun hmem => List.disjoint_of_nodup_append hnodup hmem (.head _)
  have herase : (left ++ [p]).erase p = left := by
    rw [List.erase_append_right _ hother, List.erase_cons_head, List.append_nil]
  obtain ⟨hfits, hcount⟩ := h.fits.leave hi trivial r
  have hsub : ∀ q ∈ (if Session.brokeOff r then left ++ [p] else left), q ∈ left ++ [p] := by
    intro q hq
    split at hq
    · exact hq
    · exact List.mem_append_left _ hq
  refine ⟨hs ▸ hfits, fun last? hlast => ?_, ?_, ?_, fun q hq => ?_, fun last? hlast => ?_⟩
  · rw [Journal.leftFrom_append, hjournal last? hlast, hmore last? hlast, herase, hs,
      Option.toList_none, List.append_nil]
  · rw [hcount, ← h.length]
    cases Session.brokeOff r with
    | true => exact List.length_append
    | false => rfl
  · rw [hs, Option.toList_none, List.append_nil]
    split
    · exact hnodup
    · exact List.Nodup.of_append_left hnodup
  · rw [hs, Option.toList_none, List.append_nil] at hq
    exact hw ▸ hlt q (hsub q hq)
  · have hle : l.brokenOff + 1 ≤ (l.leave i r).brokenOff + 1 := by omega
    refine ((h.most last? hlast).append (Journal.atMost_of_started ?_)).mono hle
    rw [hjournal last? hlast, hstarted, List.length_append, h.length]
    exact Nat.le_refl _

/-- **A turn keeps account of the processes.** -/
theorem turn (h : Accounted l s w news left) (i : Nat) : ∃ l' s' w' more left',
    l.turn i s w = ((l', s'), w') ∧ w'.journal = w.journal ++ more ∧
      Accounted l' s' w' (news ++ more) left' := by
  have hstay : ∀ {l' : Line}, l'.Fits s.process → l'.brokenOff = l.brokenOff →
      Accounted l' s w (news ++ []) left := fun hfits hsame =>
    ⟨hfits, by rw [List.append_nil]; exact h.journal, h.length.trans hsame.symm, h.nodup, h.lt,
      by rw [List.append_nil, hsame]; exact h.most⟩
  rcases hreq : l.requests[i]? with _ | ⟨c, phase⟩
  · exact ⟨l, s, w, [], left, turn_none hreq, (List.append_nil _).symm, hstay h.fits rfl⟩
  have hi : l.phase? i = some phase := by
    rw [phase?, hreq]
    rfl
  cases phase with
  | away =>
    exact ⟨_, s, w, [], left, turn_away hreq, (List.append_nil _).symm,
      hstay (h.fits.arrive hi) (brokenOff_arrive hi)⟩
  | waiting => exact ⟨l, s, w, [], left, turn_waiting hreq, (List.append_nil _).symm, hstay h.fits rfl⟩
  | ended r => exact ⟨l, s, w, [], left, turn_ended hreq, (List.append_nil _).symm, hstay h.fits rfl⟩
  | admitted =>
    have hlaunch := Session.run_launch_eq c s w
    cases hfault : w.script.startFault? s.program c with
    | some fault =>
      rw [hfault] at hlaunch
      refine ⟨_, _, _, _, left, turn_not_launched hreq hlaunch, rfl, h.refused hi rfl rfl rfl ?_⟩
      exact List.forall_mem_singleton.2 trivial
    | none =>
      rw [hfault] at hlaunch
      exact ⟨_, _, _, _, left, turn_launched hreq hlaunch, List.append_assoc .., h.launched hi rfl rfl _ _⟩
  | running p =>
    have hconverse := Session.run_converse p c s w
    rw [Session.run_exchange_eq] at hconverse
    refine ⟨_, _, _, _, _, turn_running hreq hconverse, rfl, h.finished hi ?_ ?_ ?_ ?_⟩
    · rfl
    · rfl
    · exact fun last? hlast ps => Session.leftFrom_entries hlast ..
    · exact Session.started_entries ..

theorem makeMove (h : Accounted l s w news left) (m : Move) : ∃ l' s' w' more left',
    l.makeMove m s w = ((l', s'), w') ∧ w'.journal = w.journal ++ more ∧
      Accounted l' s' w' (news ++ more) left' := by
  cases m with
  | turn i => exact h.turn i
  | elsewhere script disk =>
    refine ⟨l, s, { w with script, disk }, [], left, rfl, (List.append_nil _).symm, ?_⟩
    rw [List.append_nil]
    exact ⟨h.fits, h.journal, h.length, h.nodup, h.lt, h.most⟩

/-- **Moves keep account of the processes.** -/
theorem runMoves : ∀ (moves : List Move) {l : Line} {s : Session} {w : World} {news : Journal}
    {left : List Nat}, Accounted l s w news left → ∃ l' s' w' more left',
      l.runMoves moves s w = ((l', s'), w') ∧ w'.journal = w.journal ++ more ∧
        Accounted l' s' w' (news ++ more) left'
  | [], l, s, w, news, left, h => by
    refine ⟨l, s, w, [], left, rfl, (List.append_nil _).symm, ?_⟩
    rwa [List.append_nil]
  | m :: ms, l, s, w, news, left, h => by
    obtain ⟨l₁, s₁, w₁, more₁, left₁, hmove, hjournal₁, h₁⟩ := h.makeMove m
    obtain ⟨l₂, s₂, w₂, more₂, left₂, hmoves, hjournal₂, h₂⟩ := runMoves ms h₁
    refine ⟨l₂, s₂, w₂, more₁ ++ more₂, left₂, (runMoves_cons hmove ms).trans hmoves, ?_, ?_⟩
    · rw [hjournal₂, hjournal₁, List.append_assoc]
    · rwa [← List.append_assoc]

end Accounted

/-- At first nobody has come, and no process is left. -/
theorem accounted_ofCommands (cs : List Text) {s : Session} (hs : s.process = none) (w : World) :
    Accounted (ofCommands cs) s w [] [] := by
  have haway : ∀ i phase, (ofCommands cs).phase? i = some phase → phase = .away := by
    intro i phase hi
    rw [phase?, ofCommands, List.getElem?_map, Option.map_map, Option.map_eq_some_iff] at hi
    obtain ⟨c, -, heq⟩ := hi
    exact heq.symm
  have hzero : (ofCommands cs).brokenOff = 0 := by
    rw [brokenOff, ofCommands, List.map_map]
    show (cs.map fun _ => 0).sum = 0
    simp
  refine ⟨⟨fun i phase hi hphase => ?_, List.forall_mem_nil _, .nil, fun p => ?_⟩, fun _ _ => ?_,
    hzero.symm, ?_, ?_, fun last? _ => ?_⟩
  · rw [haway i phase hi] at hphase
    exact hphase.elim
  · rw [hs]
    refine iff_of_false (Option.some_ne_none p).symm ?_
    rintro ⟨i, hi⟩
    cases haway i _ hi
  · rw [hs]
    rfl
  · rw [hs]
    exact .nil
  · rw [hs]
    exact List.forall_mem_nil _
  · exact Journal.atMost_of_started (Nat.zero_le _)

/-- **What is left of the processes of a session.**  A command leaves a process that has not ended, and
whose exit code nobody will take note of, exactly if its process started and was let go; the session
counts as free all the same.  However requests take turns while programs and files change, as many
processes are left as requests were broken off, besides the one at work, and never more than that. -/
theorem processes_left {s : Session} (hs : s.process = none) (w : World) :
    (∀ command, ∃ (r : Except Failure Text) (s' : Session) (w' : World) (news : Journal),
      (Session.send command).run s w = ((r, s'), w') ∧ w'.journal = w.journal ++ news ∧
      news.started = (if w.script.startFault? s.program command = none then [w.next] else []) ∧
      news.alive = (if Session.brokeOff r then [w.next] else []) ∧
      news.uncollected = (if Session.brokeOff r then [w.next] else []) ∧
      (Session.brokeOff r = true ↔
        w.script.startFault? s.program command = none ∧ Session.Breaks w.script w.disk command) ∧
      s'.isRunning = false) ∧
    ∀ (cs : List Text) (moves : List Move),
      ∃ (l : Line) (s' : Session) (w' : World) (news : Journal) (left : List Nat),
        (ofCommands cs).runMoves moves s w = ((l, s'), w') ∧ w'.journal = w.journal ++ news ∧
        news.alive = left ++ s'.process.toList ∧ news.uncollected = left ++ s'.process.toList ∧
        left.length = l.brokenOff ∧
        (∀ p, s'.process = some p ↔ ∃ i, l.phase? i = some (.running p)) ∧
        ∀ early : Journal, early <+: news → early.alive.length ≤ l.brokenOff + 1 := by
  constructor
  · intro command
    have hsend := Session.run_send_eq command s w
    refine ⟨_, _, _, _, hsend, rfl, Session.started_told .., ?_, ?_, Session.brokeOff_reply_iff .., ?_⟩
    · exact Session.leftFrom_told Journal.isLast_exit? ..
    · exact Session.leftFrom_told Journal.isLast_collection? ..
    · rw [Session.isRunning, Session.process_send hs hsend]
      rfl
  · intro cs moves
    obtain ⟨l, s', w', news, left, hmoves, hjournal, h⟩ :=
      (accounted_ofCommands cs hs w).runMoves moves
    exact ⟨l, s', w', news, left, hmoves, hjournal, h.journal _ Journal.isLast_exit?,
      h.journal _ Journal.isLast_collection?, h.length, h.fits.process,
      h.most _ Journal.isLast_exit?⟩

namespace Sample

/-- No process takes its input. -/
def deaf : World where
  script := { inputFault := some "pipe gone".toList }

/-- The first request is broken off; then processes take their input, and one starts for the second. -/
def moves : List Move :=
  [.turn 0, .turn 0, .turn 0, .elsewhere {} {}, .turn 1, .turn 1]

end Sample

theorem processes_left_deaf : Sample.session.process = none ∧
    ∃ (l : Line) (s' : Session) (w' : World) (left : List Nat),
      (ofCommands Sample.commands).runMoves Sample.moves Sample.session Sample.deaf =
        ((l, s'), w') ∧
      w'.journal.alive = [1, 2] ∧ w'.journal.alive = left ++ s'.process.toList ∧
      s'.process = some 2 ∧ left.length = 1 := by
  obtain ⟨-, hline⟩ := processes_left (s := Sample.session) rfl Sample.deaf
  obtain ⟨l, s', w', news, left, hmoves, hjournal, halive, -, hlength, -⟩ :=
    hline Sample.commands Sample.moves
  have hnews : w'.journal = news := hjournal
  have hworld : w' = ((ofCommands Sample.commands).runMoves Sample.moves Sample.session
    Sample.deaf).2 := congrArg Prod.snd hmoves.symm
  have hsession : s' = ((ofCommands Sample.commands).runMoves Sample.moves Sample.session
    Sample.deaf).1.2 := congrArg (·.1.2) hmoves.symm
  have hline : l = ((ofCommands Sample.commands).runMoves Sample.moves Sample.session
    Sample.deaf).1.1 := congrArg (·.1.1) hmoves.symm
  refine ⟨rfl, l, s', w', left, hmoves, ?_, hnews ▸ halive, ?_, ?_⟩
  · rw [hworld]
    rfl
  · rw [hsession]
    rfl
  · rw [hlength, hline]
    rfl

/-- Two commands that come together leave two processes alive, and the session counts as free. -/
theorem sendTogether_leaves_processes :
    (Session.sendTogether ["a".toList, "b".toList] Sample.session Sample.deaf).1.2.isRunning = false ∧
      (Session.sendTogether ["a".toList, "b".toList] Sample.session Sample.deaf).2.journal.alive =
        [1, 2] ∧
      (Session.sendTogether ["a".toList, "b".toList] Sample.session Sample.deaf).2.journal.uncollected =
        [1, 2] := by
  decide +kernel

end Line

end AgdaFrontEnd
