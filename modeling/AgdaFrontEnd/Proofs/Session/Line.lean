import AgdaFrontEnd.Proofs.Session.Serving
import Mathlib.Algebra.GroupWithZero.Nat
import Mathlib.Data.List.Nodup

/-!
# Requests in line are served one after another

Whatever the schedule, and whatever becomes of programs and files in the meantime, the requests that
are over are the first ones of those that have come, and the session and the world are as if their
commands had been given one after another, with the same changes in between; a process is at work at
most for the next request in line.

* `Line.Move`, `Line.runMoves`: turns of requests, while programs and files change in between.
* `Line.Stands`, `Line.Attends`: how a line stands, and the session and the world with it.
* `Line.Serves.makeMove`, `Line.Serves.runMoves`: one move, and so any number of them, keep the line so.
* `Line.steps`: how many steps lie behind the requests; a turn of a request that moves adds one at
  least, so enough turns bring the line to its end.
* `Line.runMoves_serial`: requests that come together are served one after another.
-/

namespace AgdaFrontEnd

/-- How many steps lie behind a request in a phase. -/
def Phase.steps : Phase → Nat
  | .away => 0
  | .waiting | .admitted => 1
  | .running _ => 2
  | .ended _ => 3

theorem Phase.steps_le (phase : Phase) : phase.steps ≤ 3 := by
  cases phase <;> simp [steps]

/-- A request in this phase moves on when it is its turn. -/
def Phase.Moves : Phase → Prop
  | .waiting | .ended _ => False
  | .away | .admitted | .running _ => True

namespace Line

/-! ## Phases of requests -/

/-- The phase of a request. -/
def phase? (l : Line) (i : Nat) : Option Phase := l.requests[i]?.map (·.phase)

theorem commands_move (l : Line) (i : Nat) (phase : Phase) :
    (l.move i phase).requests.map (·.command) = l.requests.map (·.command) := by
  refine List.ext_getElem? fun j => ?_
  rw [List.getElem?_map, List.getElem?_map, move, List.getElem?_modify]
  cases l.requests[j]? with
  | none => split <;> rfl
  | some r => split <;> rfl

theorem phase?_move_self {l : Line} {i : Nat} {phase : Phase} {old : Phase}
    (h : l.phase? i = some old) : (l.move i phase).phase? i = some phase := by
  obtain ⟨r, hr, -⟩ := Option.map_eq_some_iff.1 h
  rw [phase?, move, List.getElem?_modify, hr]
  simp

theorem phase?_move_of_ne (l : Line) {i j : Nat} (phase : Phase) (h : i ≠ j) :
    (l.move i phase).phase? j = l.phase? j := by
  simp [phase?, move, h]

/-! ## Steps -/

/-- The request moves on when it is its turn. -/
def Moves (l : Line) (i : Nat) : Prop := ∃ phase, l.phase? i = some phase ∧ phase.Moves

/-- A process works for the request. -/
def Works (l : Line) (i : Nat) : Prop := ∃ p, l.phase? i = some (.running p)

/-- How many steps lie behind the requests. -/
def steps (l : Line) : Nat := (l.requests.map (·.phase.steps)).sum

theorem sum_modify {r : Pending} {f : Pending → Pending} {g : Pending → Nat} :
    ∀ {rs : List Pending} {i : Nat}, rs[i]? = some r →
      ((rs.modify i f).map g).sum + g r = (rs.map g).sum + g (f r)
  | q :: rs, 0, h => by
    cases h
    simp only [List.modify_zero_cons, List.map_cons, List.sum_cons]
    omega
  | q :: rs, i + 1, h => by
    have ih := sum_modify (f := f) (g := g) (show rs[i]? = some r from h)
    simp only [List.modify_succ_cons, List.map_cons, List.sum_cons]
    omega

theorem steps_move {l : Line} {i : Nat} {old : Phase} (h : l.phase? i = some old) (phase : Phase) :
    (l.move i phase).steps + old.steps = l.steps + phase.steps := by
  obtain ⟨r, hr, rfl⟩ := Option.map_eq_some_iff.1 h
  exact sum_modify hr

theorem sum_steps_le : ∀ rs : List Pending, (rs.map (·.phase.steps)).sum ≤ 3 * rs.length
  | [] => Nat.le_refl 0
  | r :: rs => by
    have hr := r.phase.steps_le
    have ih := sum_steps_le rs
    simp only [List.map_cons, List.sum_cons, List.length_cons]
    omega

theorem steps_le (l : Line) : l.steps ≤ 3 * l.requests.length := sum_steps_le l.requests

/-- All requests are over. -/
def IsOver (l : Line) : Prop := ∀ i < l.requests.length, ∃ r, l.phase? i = some (.ended r)

/-! ## Turns -/

section Turns

variable {l : Line} {i : Nat} {c : Text} {s s' : Session} {w w' : World}

theorem turn_none (h : l.requests[i]? = none) : l.turn i s w = ((l, s), w) := by
  rw [turn, h]
  rfl

theorem turn_away (h : l.requests[i]? = some ⟨c, .away⟩) : l.turn i s w = ((l.arrive i, s), w) := by
  rw [turn, h]
  rfl

theorem turn_waiting (h : l.requests[i]? = some ⟨c, .waiting⟩) : l.turn i s w = ((l, s), w) := by
  rw [turn, h]
  rfl

theorem turn_ended {r : Except Failure Text} (h : l.requests[i]? = some ⟨c, .ended r⟩) :
    l.turn i s w = ((l, s), w) := by
  rw [turn, h]
  rfl

theorem turn_launched {p : Nat} (h : l.requests[i]? = some ⟨c, .admitted⟩)
    (hl : (Session.launch c).run s w = ((.ok p, s'), w')) :
    l.turn i s w = ((l.move i (.running p), s'), w') := by
  rw [turn, h]
  exact bind_apply₂ hl _

theorem turn_not_launched {f : Failure} (h : l.requests[i]? = some ⟨c, .admitted⟩)
    (hl : (Session.launch c).run s w = ((.error f, s'), w')) :
    l.turn i s w = ((l.leave i (.error f), s'), w') := by
  rw [turn, h]
  exact bind_apply₂ hl _

theorem turn_running {p : Nat} {r : Except Failure Text} (h : l.requests[i]? = some ⟨c, .running p⟩)
    (hc : (Session.converse p c).run s w = ((r, s'), w')) :
    l.turn i s w = ((l.leave i r, s'), w') := by
  rw [turn, h]
  exact bind_apply₂ hc _

theorem runTurns_cons {l' : Line} (h : l.turn i s w = ((l', s'), w')) (is : List Nat) :
    l.runTurns (i :: is) s w = l'.runTurns is s' w' := by
  rw [runTurns]
  exact bind_apply₂ h _

end Turns

/-! ## Moves -/

/-- A move of a line: a request has its turn, or programs and files become others in between. -/
inductive Move
  | turn (i : Nat)
  | elsewhere (script : Script) (disk : Disk)

namespace Move

/-- The request that has its turn. -/
def turn? : Move → Option Nat
  | .turn i => some i
  | .elsewhere .. => none

/-- What programs and files become. -/
def change? : Move → Option (Script × Disk)
  | .turn _ => none
  | .elsewhere script disk => some (script, disk)

end Move

/-- Makes a move. -/
def makeMove (l : Line) : Move → StateT Session (StateM World) Line
  | .turn i => l.turn i
  | .elsewhere script disk => fun s w => ((l, s), { w with script, disk })

/-- Moves one after another. -/
def runMoves (l : Line) : List Move → StateT Session (StateM World) Line
  | [] => return l
  | m :: ms => do (← l.makeMove m).runMoves ms

theorem runMoves_cons {m : Move} {l l' : Line} {s s' : Session} {w w' : World}
    (h : l.makeMove m s w = ((l', s'), w')) (ms : List Move) :
    l.runMoves (m :: ms) s w = l'.runMoves ms s' w' := by
  rw [runMoves]
  exact bind_apply₂ h _

theorem runMoves_append : ∀ (ms : List Move) {l l' : Line} {s s' : Session} {w w' : World},
    l.runMoves ms s w = ((l', s'), w') → ∀ more, l.runMoves (ms ++ more) s w = l'.runMoves more s' w'
  | [], l, l', s, s', w, w', h, more => by
    cases h
    rfl
  | m :: ms, l, l', s, s', w, w', h, more => by
    rcases hmove : l.makeMove m s w with ⟨⟨l₁, s₁⟩, w₁⟩
    rw [runMoves_cons hmove] at h
    rw [List.cons_append, runMoves_cons hmove, runMoves_append ms h]

/-- Turns by a schedule are moves. -/
theorem runMoves_turn : ∀ (schedule : List Nat) (l : Line) (s : Session) (w : World),
    l.runMoves (schedule.map .turn) s w = l.runTurns schedule s w
  | [], _, _, _ => rfl
  | i :: is, l, s, w => by
    rcases hturn : l.turn i s w with ⟨⟨l', s'⟩, w'⟩
    have hmove : l.makeMove (.turn i) s w = ((l', s'), w') := hturn
    rw [List.map_cons, runMoves_cons hmove, runTurns_cons hturn, runMoves_turn is]

/-! ## How a line stands -/

/-- Requests in the order in which they came. -/
structure InOrder (n : Nat) (order : List Nat) : Prop where
  nodup : order.Nodup
  lt : ∀ i ∈ order, i < n

theorem InOrder.concat {n i : Nat} {order : List Nat} (h : InOrder n order) (hn : i < n)
    (hi : i ∉ order) : InOrder n (order ++ [i]) where
  nodup := by
    rw [← List.concat_eq_append]
    exact h.nodup.concat hi
  lt := by
    intro j hj
    rcases List.mem_append.1 hj with hj | hj
    · exact h.lt j hj
    · rwa [List.mem_singleton.1 hj]

section Standing

variable (cs : List Text)

/-- How a line stands in which the requests `done` are over, with the outcomes `rs`, and the requests
`rest` are still to be served, both in the order in which they came. -/
structure Stands (rs : List (Except Failure Text)) (l : Line) (done rest : List Nat) : Prop where
  commands : l.requests.map (·.command) = cs
  order : InOrder cs.length (done ++ rest)
  /-- The others have not come yet. -/
  away : ∀ i < cs.length, i ∉ done ++ rest → l.phase? i = some .away
  ended : done.map l.phase? = rs.map fun r => some (.ended r)
  waiting : ∀ i ∈ rest.tail, l.phase? i = some .waiting
  /-- The first of the rest has the session. -/
  holder : l.holder = rest.head?
  queue : l.waiting = rest.tail

variable (s₀ : Session) (w₀ : World)

/-- The state of the session and the world, when there were these changes so far: it is the one after
the requests that are over, or after the start of a process for the first of the rest, and after the
changes since. -/
inductive Attends (l : Line) (vs : List Service) (changes : List (Script × Disk)) :
    (rest : List Nat) → Session → World → Prop
  | free {after : List (Script × Disk)} (hc : changes = changesOf vs ++ after) :
    Attends l vs changes [] (serveAll cs vs s₀ w₀).1.2 ((serveAll cs vs s₀ w₀).2.changed after)
  | admitted {i : Nat} {js : List Nat} {after : List (Script × Disk)}
    (hc : changes = changesOf vs ++ after) (h : l.phase? i = some .admitted) :
    Attends l vs changes (i :: js) (serveAll cs vs s₀ w₀).1.2 ((serveAll cs vs s₀ w₀).2.changed after)
  | running {i p : Nat} {js : List Nat} {before amid : List (Script × Disk)} {s : Session} {w : World}
    (hc : changes = changesOf vs ++ (before ++ amid)) (h : l.phase? i = some (.running p))
    (hl : (Session.launch (commandOf cs i)).run (serveAll cs vs s₀ w₀).1.2
      ((serveAll cs vs s₀ w₀).2.changed before) = ((.ok p, s), w)) :
    Attends l vs changes (i :: js) s (w.changed amid)

/-- A line serves its requests one after another: `vs` are over and have the outcomes that they have if
they are served so, and the session and the world are as they are after that. -/
structure Serves (l : Line) (vs : List Service) (changes : List (Script × Disk)) (rest : List Nat)
    (s : Session) (w : World) : Prop where
  stands : Stands cs (serveAll cs vs s₀ w₀).1.1 l (requestsOf vs) rest
  attends : Attends cs s₀ w₀ l vs changes rest s w

variable {cs s₀ w₀} {l : Line} {rs : List (Except Failure Text)} {done rest js : List Nat} {i j : Nat}
  {r : Except Failure Text} {vs : List Service} {changes : List (Script × Disk)}
  {s : Session} {w : World}

variable (cs s₀ w₀) in
/-- At first nobody has come. -/
theorem serves_ofCommands : Serves cs s₀ w₀ (ofCommands cs) [] [] [] s₀ w₀ where
  stands :=
    { commands := by
        rw [ofCommands, List.map_map]
        exact List.map_id cs
      order := ⟨.nil, nofun⟩
      away := fun i hi _ => by
        rw [phase?, ofCommands, List.getElem?_map, List.getElem?_eq_getElem hi]
        rfl
      ended := rfl
      waiting := nofun
      holder := rfl
      queue := rfl }
  attends := .free rfl

namespace Stands

/-- A request with its command. -/
theorem request (h : Stands cs rs l done rest) {phase : Phase} (hi : l.phase? i = some phase) :
    l.requests[i]? = some ⟨commandOf cs i, phase⟩ := by
  obtain ⟨r, hr, rfl⟩ := Option.map_eq_some_iff.1 hi
  have hc : cs[i]? = some r.command := by
    rw [← h.commands, List.getElem?_map, hr]
    rfl
  rw [hr, commandOf, List.getD_eq_getElem?_getD, hc]
  rfl

theorem request_eq_none (h : Stands cs rs l done rest) (hi : ¬ i < cs.length) :
    l.requests[i]? = none := by
  rw [← h.commands, List.length_map] at hi
  exact List.getElem?_eq_none (Nat.le_of_not_lt hi)

theorem phase?_of_mem_done (h : Stands cs rs l done rest) (hi : i ∈ done) :
    ∃ r, l.phase? i = some (.ended r) := by
  have hmem : l.phase? i ∈ done.map l.phase? := List.mem_map_of_mem hi
  rw [h.ended] at hmem
  obtain ⟨r, -, hr⟩ := List.mem_map.1 hmem
  exact ⟨r, hr.symm⟩

/-! ## One request moves -/

/-- Those that are over stay as they are if another request moves. -/
theorem ended_move (h : Stands cs rs l done rest) (hi : i ∉ done) (phase : Phase) :
    done.map (l.move i phase).phase? = rs.map fun r => some (.ended r) := by
  rw [← h.ended]
  exact List.map_congr_left fun j hj => phase?_move_of_ne l phase fun hij => hi (hij ▸ hj)

/-- Those that have not come do not move with one that has. -/
theorem away_move (h : Stands cs rs l done rest) (hi : i ∈ done ++ rest) (phase : Phase) :
    ∀ j < cs.length, j ∉ done ++ rest → (l.move i phase).phase? j = some .away := by
  intro j hj hmem
  have hij : i ≠ j := fun hij => hmem (hij ▸ hi)
  exact (phase?_move_of_ne l _ hij).trans (h.away j hj hmem)

/-- A request that comes is the last of the rest. -/
theorem arrive (h : Stands cs rs l done rest) (hn : i < cs.length) (hi : i ∉ done ++ rest) :
    Stands cs rs (l.arrive i) done (rest ++ [i]) := by
  have haway : l.phase? i = some .away := h.away i hn hi
  have hdone : i ∉ done := fun hd => hi (List.mem_append_left _ hd)
  have horder : InOrder cs.length (done ++ (rest ++ [i])) := by
    rw [← List.append_assoc]
    exact h.order.concat hn hi
  have hothers : ∀ phase, ∀ j < cs.length, j ∉ done ++ (rest ++ [i]) →
      (l.move i phase).phase? j = some .away := by
    intro phase j hj hmem
    rw [← List.append_assoc, List.mem_append, not_or, List.mem_singleton] at hmem
    rw [phase?_move_of_ne l phase fun hij => hmem.2 hij.symm]
    exact h.away j hj hmem.1
  cases rest with
  | nil =>
    have harrive : l.arrive i = { l.move i .admitted with holder := some i } := by
      rw [Line.arrive, h.holder]
      rfl
    rw [harrive]
    exact
      { commands := (commands_move l i _).trans h.commands
        order := horder
        away := hothers .admitted
        ended := h.ended_move hdone _
        waiting := nofun
        holder := rfl
        queue := h.queue }
  | cons k ks =>
    have harrive : l.arrive i = { l.move i .waiting with waiting := l.waiting ++ [i] } := by
      rw [Line.arrive, h.holder]
      rfl
    rw [harrive]
    exact
      { commands := (commands_move l i _).trans h.commands
        order := horder
        away := hothers .waiting
        ended := h.ended_move hdone _
        waiting := by
          intro j hj
          rcases List.mem_append.1 hj with hj | hj
          · have hij : i ≠ j := fun hij => hi (hij ▸ List.mem_append_right _ (.tail _ hj))
            exact (phase?_move_of_ne l _ hij).trans (h.waiting j hj)
          · rw [List.mem_singleton.1 hj]
            exact phase?_move_self haway
        holder := h.holder
        queue := congrArg (· ++ [i]) h.queue }

section First

variable (h : Stands cs rs l done (i :: js))

include h

theorem first_not_mem_done : i ∉ done :=
  fun hd => List.disjoint_of_nodup_append h.order.nodup hd (.head _)

theorem first_not_mem_tail : i ∉ js :=
  (List.nodup_cons.1 (List.Nodup.of_append_right h.order.nodup)).1

theorem still_waiting (phase : Phase) : ∀ j ∈ js, (l.move i phase).phase? j = some .waiting := by
  intro j hj
  have hij : i ≠ j := fun hij => h.first_not_mem_tail (hij ▸ hj)
  exact (phase?_move_of_ne l _ hij).trans (h.waiting j hj)

/-- The first of the rest moves. -/
theorem move_first (phase : Phase) : Stands cs rs (l.move i phase) done (i :: js) where
  commands := (commands_move l i _).trans h.commands
  order := h.order
  away := h.away_move (List.mem_append_right _ (.head _)) _
  ended := h.ended_move h.first_not_mem_done _
  waiting := h.still_waiting _
  holder := h.holder
  queue := h.queue

/-- The first of the rest is over, and the session is for the next one. -/
theorem end_first {phase : Phase} (hi : l.phase? i = some phase) :
    Stands cs (rs ++ [r]) { l.move i (.ended r) with holder := js.head?, waiting := js.tail }
      (done ++ [i]) js := by
  have hmoved : (l.move i (.ended r)).phase? i = some (.ended r) := phase?_move_self hi
  have horder := h.order
  have haway := h.away_move (List.mem_append_right _ (.head js)) (.ended r)
  rw [List.append_cons] at horder haway
  exact
    { commands := (commands_move l i _).trans h.commands
      order := horder
      away := haway
      ended := by
        have hended := h.ended_move h.first_not_mem_done (.ended r)
        rw [List.map_append, List.map_append]
        exact congrArg₂ (· ++ ·) hended (congrArg (fun p => [p]) hmoved)
      waiting := fun j hj => h.still_waiting (.ended r) j (List.mem_of_mem_tail hj)
      holder := rfl
      queue := rfl }

/-- The first of the rest leaves the session to the next one. -/
theorem leave {phase : Phase} (hi : l.phase? i = some phase) (r : Except Failure Text) :
    Stands cs (rs ++ [r]) (l.leave i r) (done ++ [i]) js ∧
      (∀ j ∈ js.head?, (l.leave i r).phase? j = some .admitted) ∧
      (l.leave i r).steps + phase.steps = l.steps + 3 := by
  have hend := h.end_first hi (r := r)
  have hsteps := steps_move hi (.ended r)
  have hqueue : (l.move i (.ended r)).waiting = js := h.queue
  cases js with
  | nil =>
    have hleave : l.leave i r = { l.move i (.ended r) with holder := none, waiting := [] } := by
      rw [Line.leave, passOn, hqueue]
    rw [hleave]
    exact ⟨hend, nofun, hsteps⟩
  | cons j js =>
    have hleave : l.leave i r =
        { l.move i (.ended r) with holder := some j, waiting := js }.move j .admitted := by
      rw [Line.leave, passOn, hqueue]
      rfl
    have hwaiting : (l.move i (.ended r)).phase? j = some .waiting :=
      h.still_waiting _ j (.head _)
    have hadmitted := steps_move hwaiting .admitted
    rw [hleave]
    refine ⟨hend.move_first .admitted, fun k hk => ?_,
      (congrArg (· + phase.steps) (Nat.add_right_cancel hadmitted)).trans hsteps⟩
    cases hk
    exact phase?_move_self hwaiting

end First

end Stands

/-! ## A turn -/

/-- The requests that have come, with one that may come now. -/
def come (n : Nat) (order : List Nat) (i : Nat) : List Nat :=
  if i < n ∧ i ∉ order then order ++ [i] else order

theorem phase?_arrive_of_ne (l : Line) (h : i ≠ j) : (l.arrive i).phase? j = l.phase? j := by
  unfold arrive
  split <;> exact phase?_move_of_ne l _ h

theorem steps_arrive (haway : l.phase? i = some .away) : (l.arrive i).steps = l.steps + 1 := by
  unfold arrive
  split <;> exact steps_move haway _

theorem not_moves {phase : Phase} (h : l.phase? i = some phase) (hphase : ¬ phase.Moves) :
    ¬ l.Moves i := by
  rintro ⟨phase', h', hm⟩
  rw [h] at h'
  cases h'
  exact hphase hm

/-- The arrival of a request is nothing to the session and the world. -/
theorem Attends.arrive (ha : Attends cs s₀ w₀ l vs changes rest s w) (haway : l.phase? i = some .away)
    (hi : i ∉ rest) (hholder : l.holder = rest.head?) :
    Attends cs s₀ w₀ (l.arrive i) vs changes (rest ++ [i]) s w := by
  cases ha with
  | free hc =>
    have hadmitted : (l.arrive i).phase? i = some .admitted := by
      rw [Line.arrive, hholder]
      exact phase?_move_self haway
    exact .admitted hc hadmitted
  | @admitted k ks _ hc h =>
    have hne : i ≠ k := fun hik => hi (hik ▸ .head _)
    exact .admitted hc ((phase?_arrive_of_ne l hne).trans h)
  | @running k p ks _ _ _ _ hc h hl =>
    have hne : i ≠ k := fun hik => hi (hik ▸ .head _)
    exact .running hc ((phase?_arrive_of_ne l hne).trans h) hl

namespace Serves

/-- The first of the rest is over. -/
theorem leave (h : Serves cs s₀ w₀ l vs changes (i :: js) s w) {phase : Phase}
    (hi : l.phase? i = some phase) {before amid : List (Script × Disk)}
    (hc : changes = changesOf vs ++ (before ++ amid)) {r : Except Failure Text} {s' : Session}
    {w' : World} (hserve : Session.sendAmid amid (commandOf cs i) (serveAll cs vs s₀ w₀).1.2
      ((serveAll cs vs s₀ w₀).2.changed before) = ((r, s'), w')) :
    Serves cs s₀ w₀ (l.leave i r) (vs ++ [⟨before, i, amid⟩]) changes js s' w' ∧
      (l.leave i r).steps + phase.steps = l.steps + 3 := by
  have hserved : serveAll cs (vs ++ [⟨before, i, amid⟩]) s₀ w₀ =
      (((serveAll cs vs s₀ w₀).1.1 ++ [r], s'), w') :=
    serveAll_concat (v := ⟨before, i, amid⟩) hserve rfl
  have hchanges : changes = changesOf (vs ++ [⟨before, i, amid⟩]) ++ [] := by
    rw [changesOf_append, List.append_nil, hc, changesOf, changesOf, List.flatMap_singleton]
  obtain ⟨hstands, hnext, hsteps⟩ := h.stands.leave hi r
  refine ⟨⟨?_, ?_⟩, hsteps⟩
  · rw [hserved, requestsOf_append]
    exact hstands
  · have hstate : Attends cs s₀ w₀ (l.leave i r) (vs ++ [⟨before, i, amid⟩]) changes js
        (serveAll cs (vs ++ [⟨before, i, amid⟩]) s₀ w₀).1.2
        ((serveAll cs (vs ++ [⟨before, i, amid⟩]) s₀ w₀).2.changed []) := by
      cases js with
      | nil => exact .free hchanges
      | cons j js => exact .admitted hchanges (hnext j rfl)
    rw [hserved] at hstate
    exact hstate

/-- The first of the rest starts its process or is over. -/
theorem turn_first (h : Serves cs s₀ w₀ l vs changes (i :: js) s w) :
    ∃ l' s' w' vs' rest', l.turn i s w = ((l', s'), w') ∧
      (requestsOf vs' = requestsOf vs ++ [i] ∧ rest' = js ∨
        vs' = vs ∧ rest' = i :: js ∧ l.phase? i = some .admitted ∧ l'.Works i) ∧
      Serves cs s₀ w₀ l' vs' changes rest' s' w' ∧ l.steps < l'.steps := by
  have hrequests : ∀ before amid : List (Script × Disk),
      requestsOf (vs ++ [⟨before, i, amid⟩]) = requestsOf vs ++ [i] :=
    fun _ _ => requestsOf_append ..
  cases h.attends with
  | @admitted _ _ after hc hi =>
    rcases hl : (Session.launch (commandOf cs i)).run (serveAll cs vs s₀ w₀).1.2
      ((serveAll cs vs s₀ w₀).2.changed after) with ⟨⟨f | p, s'⟩, w'⟩
    · obtain ⟨hserves, hsteps⟩ := h.leave hi
        (show changes = changesOf vs ++ (after ++ []) by rwa [List.append_nil])
        (Session.sendAmid_of_launch_error hl)
      exact ⟨_, s', w', _, js, turn_not_launched (h.stands.request hi) hl,
        .inl ⟨hrequests .., rfl⟩, hserves, by simp only [Phase.steps] at hsteps; omega⟩
    · have hsteps := steps_move hi (.running p)
      have hp : (l.move i (.running p)).phase? i = some (.running p) := phase?_move_self hi
      have hattends : Attends cs s₀ w₀ (l.move i (.running p)) vs changes (i :: js) s'
          (w'.changed []) := .running (by rwa [List.append_nil]) hp hl
      exact ⟨_, s', w', vs, i :: js, turn_launched (h.stands.request hi) hl,
        .inr ⟨rfl, rfl, hi, p, hp⟩, ⟨h.stands.move_first _, hattends⟩,
        by simp only [Phase.steps] at hsteps; omega⟩
  | @running _ p _ before amid s₁ w₁ hc hi hl =>
    rcases hconverse : (Session.converse p (commandOf cs i)).run s (w₁.changed amid)
      with ⟨⟨r, s'⟩, w'⟩
    obtain ⟨hserves, hsteps⟩ := h.leave hi hc ((Session.sendAmid_of_launch_ok hl).trans hconverse)
    exact ⟨_, s', w', _, js, turn_running (h.stands.request hi) hconverse,
      .inl ⟨hrequests .., rfl⟩, hserves, by simp only [Phase.steps] at hsteps; omega⟩

/-- **A turn keeps the line in order.**  A new request joins the end of the line; the first one of the
rest starts its process or is over; nobody else moves. -/
theorem turn (h : Serves cs s₀ w₀ l vs changes rest s w) (i : Nat) :
    ∃ l' s' w' vs' rest', l.turn i s w = ((l', s'), w') ∧
      requestsOf vs' ++ rest' = come cs.length (requestsOf vs ++ rest) i ∧
      Serves cs s₀ w₀ l' vs' changes rest' s' w' ∧
      (l.steps < l'.steps ∨ (l' = l ∧ s' = s ∧ w' = w) ∧ ¬ l.Moves i) := by
  have hstands := h.stands
  by_cases hn : i < cs.length
  · by_cases hi : i ∈ requestsOf vs ++ rest
    · have hcome : come cs.length (requestsOf vs ++ rest) i = requestsOf vs ++ rest :=
        if_neg fun hc => hc.2 hi
      rw [hcome]
      rcases List.mem_append.1 hi with hdone | hrest
      · obtain ⟨r, hr⟩ := hstands.phase?_of_mem_done hdone
        exact ⟨l, s, w, vs, rest, turn_ended (hstands.request hr), rfl, h,
          .inr ⟨⟨rfl, rfl, rfl⟩, not_moves hr id⟩⟩
      · cases hrest with
        | head js =>
          obtain ⟨l', s', w', vs', rest', hturn, hfirst, h', hsteps⟩ := h.turn_first
          refine ⟨l', s', w', vs', rest', hturn, ?_, h', .inl hsteps⟩
          rcases hfirst with ⟨hvs, rfl⟩ | ⟨rfl, rfl, -⟩
          · rw [hvs]
            exact (List.append_cons ..).symm
          · rfl
        | tail k hjs =>
          have hwaiting := hstands.waiting i hjs
          exact ⟨l, s, w, vs, _, turn_waiting (hstands.request hwaiting), rfl, h,
            .inr ⟨⟨rfl, rfl, rfl⟩, not_moves hwaiting id⟩⟩
    · have hcome : come cs.length (requestsOf vs ++ rest) i = requestsOf vs ++ (rest ++ [i]) := by
        rw [come, if_pos ⟨hn, hi⟩, List.append_assoc]
      have haway := hstands.away i hn hi
      have harrive : Serves cs s₀ w₀ (l.arrive i) vs changes (rest ++ [i]) s w :=
        ⟨hstands.arrive hn hi,
          h.attends.arrive haway (fun hr => hi (List.mem_append_right _ hr)) hstands.holder⟩
      rw [hcome]
      exact ⟨l.arrive i, s, w, vs, rest ++ [i], turn_away (hstands.request haway), rfl, harrive,
        .inl (by rw [steps_arrive haway]; exact Nat.lt_succ_self _)⟩
  · have hcome : come cs.length (requestsOf vs ++ rest) i = requestsOf vs ++ rest :=
      if_neg fun hc => hn hc.1
    have hnone := hstands.request_eq_none hn
    refine ⟨l, s, w, vs, rest, turn_none hnone, hcome.symm, h, .inr ⟨⟨rfl, rfl, rfl⟩, ?_⟩⟩
    rintro ⟨phase, hphase, -⟩
    rw [phase?, hnone] at hphase
    cases hphase

/-! ## Moves keep the line -/

/-- If programs and files change, the session and the world are as they are after that change. -/
theorem elsewhere (h : Serves cs s₀ w₀ l vs changes rest s w) (script : Script) (disk : Disk) :
    Serves cs s₀ w₀ l vs (changes ++ [(script, disk)]) rest s { w with script, disk } := by
  refine ⟨h.stands, ?_⟩
  cases h.attends with
  | @free after hc =>
    have hstate : Attends cs s₀ w₀ l vs (changes ++ [(script, disk)]) []
        (serveAll cs vs s₀ w₀).1.2 ((serveAll cs vs s₀ w₀).2.changed (after ++ [(script, disk)])) :=
      .free (by rw [hc, List.append_assoc])
    rwa [World.changed_append] at hstate
  | @admitted i js after hc hi =>
    have hstate : Attends cs s₀ w₀ l vs (changes ++ [(script, disk)]) (i :: js)
        (serveAll cs vs s₀ w₀).1.2 ((serveAll cs vs s₀ w₀).2.changed (after ++ [(script, disk)])) :=
      .admitted (by rw [hc, List.append_assoc]) hi
    rwa [World.changed_append] at hstate
  | @running i p js before amid s w hc hi hl =>
    have hstate : Attends cs s₀ w₀ l vs (changes ++ [(script, disk)]) (i :: js) s
        (w.changed (amid ++ [(script, disk)])) :=
      .running (by rw [hc, List.append_assoc, List.append_assoc]) hi hl
    rwa [World.changed_append] at hstate

/-- **A move keeps the line in order.** -/
theorem makeMove (h : Serves cs s₀ w₀ l vs changes rest s w) (m : Move) :
    ∃ l' s' w' vs' rest', l.makeMove m s w = ((l', s'), w') ∧
      requestsOf vs' ++ rest' = m.turn?.toList.foldl (come cs.length) (requestsOf vs ++ rest) ∧
      Serves cs s₀ w₀ l' vs' (changes ++ m.change?.toList) rest' s' w' ∧
      (l.steps < l'.steps ∨ l' = l ∧ ∀ i ∈ m.turn?, ¬ l.Moves i) := by
  cases m with
  | turn i =>
    obtain ⟨l', s', w', vs', rest', hturn, hcome, h', hsteps⟩ := h.turn i
    refine ⟨l', s', w', vs', rest', hturn, hcome, ?_, hsteps.imp_right fun hstays => ⟨hstays.1.1, ?_⟩⟩
    · exact (List.append_nil changes).symm ▸ h'
    · rintro _ ⟨⟩
      exact hstays.2
  | elsewhere script disk =>
    exact ⟨l, s, _, vs, rest, rfl, rfl, h.elsewhere script disk, .inr ⟨rfl, nofun⟩⟩

/-- **Moves keep the line in order**, and bring it on if a request that moves has a turn. -/
theorem runMoves : ∀ (moves : List Move) {l : Line} {vs : List Service}
    {changes : List (Script × Disk)} {rest : List Nat} {s : Session} {w : World},
    Serves cs s₀ w₀ l vs changes rest s w →
      ∃ l' s' w' vs' rest', l.runMoves moves s w = ((l', s'), w') ∧
        requestsOf vs' ++ rest' =
          (moves.filterMap Move.turn?).foldl (come cs.length) (requestsOf vs ++ rest) ∧
        Serves cs s₀ w₀ l' vs' (changes ++ moves.filterMap Move.change?) rest' s' w' ∧
        l.steps ≤ l'.steps ∧ ∀ i ∈ moves.filterMap Move.turn?, l.Moves i → l.steps < l'.steps
  | [], l, vs, changes, rest, s, w, h =>
    ⟨l, s, w, vs, rest, rfl, rfl, (List.append_nil changes).symm ▸ h, Nat.le_refl _, nofun⟩
  | m :: ms, l, vs, changes, rest, s, w, h => by
    obtain ⟨l₁, s₁, w₁, vs₁, rest₁, hmove, hcome, h₁, hsteps⟩ := h.makeMove m
    obtain ⟨l₂, s₂, w₂, vs₂, rest₂, hmoves, hcomes, h₂, hle, hlt⟩ := runMoves ms h₁
    have hturns : (m :: ms).filterMap Move.turn? = m.turn?.toList ++ ms.filterMap Move.turn? := by
      cases m <;> rfl
    have hchanges : (m :: ms).filterMap Move.change? =
        m.change?.toList ++ ms.filterMap Move.change? := by
      cases m <;> rfl
    refine ⟨l₂, s₂, w₂, vs₂, rest₂, (runMoves_cons hmove ms).trans hmoves, ?_, ?_, ?_⟩
    · rw [hcomes, hcome, hturns, List.foldl_append]
    · rw [hchanges, ← List.append_assoc]
      exact h₂
    · rcases hsteps with hsteps | ⟨rfl, hrests⟩
      · exact ⟨by omega, fun j _ _ => by omega⟩
      · refine ⟨hle, fun j hj hm => ?_⟩
        rw [hturns, List.mem_append, Option.mem_toList] at hj
        exact hlt j (hj.resolve_left fun hj => hrests j hj hm) hm

/-- Turns are moves without changes. -/
theorem runTurns (schedule : List Nat) (h : Serves cs s₀ w₀ l vs changes rest s w) :
    ∃ l' s' w' vs' rest', l.runTurns schedule s w = ((l', s'), w') ∧
      requestsOf vs' ++ rest' = schedule.foldl (come cs.length) (requestsOf vs ++ rest) ∧
      Serves cs s₀ w₀ l' vs' changes rest' s' w' ∧
      ∀ i ∈ schedule, l.Moves i → l.steps < l'.steps := by
  obtain ⟨l', s', w', vs', rest', hmoves, hcome, h', -, hlt⟩ := h.runMoves (schedule.map .turn)
  have hturns : (schedule.map Move.turn).filterMap Move.turn? = schedule := by
    rw [List.filterMap_map]
    exact List.filterMap_some
  have hchanges : (schedule.map Move.turn).filterMap Move.change? = [] := by
    rw [List.filterMap_map]
    exact List.filterMap_eq_nil_iff.2 fun _ _ => rfl
  rw [hturns] at hcome hlt
  rw [hchanges, List.append_nil] at h'
  exact ⟨l', s', w', vs', rest', (runMoves_turn ..).symm.trans hmoves, hcome, h', hlt⟩

end Serves

/-! ## The end of a line -/

theorem Stands.length_requests (h : Stands cs rs l done rest) : l.requests.length = cs.length := by
  rw [← h.commands, List.length_map]

/-- A process works for the first of the rest only. -/
theorem Stands.head_of_works (h : Stands cs rs l done rest) (hi : l.Works i) : rest.head? = some i := by
  obtain ⟨p, hp⟩ := hi
  have hn : i < cs.length := by
    by_contra hn
    rw [phase?, h.request_eq_none hn] at hp
    cases hp
  have hcome : i ∈ done ++ rest := by
    by_contra hcome
    rw [h.away i hn hcome] at hp
    cases hp
  rcases List.mem_append.1 hcome with hdone | hrest
  · obtain ⟨r, hr⟩ := h.phase?_of_mem_done hdone
    rw [hr] at hp
    cases hp
  · cases hrest with
    | head js => rfl
    | tail k hjs =>
      rw [h.waiting i hjs] at hp
      cases hp

/-- As long as requests are left in line, the first of them moves on when it is its turn. -/
theorem Serves.moves_first (h : Serves cs s₀ w₀ l vs changes (i :: js) s w) : l.Moves i := by
  cases h.attends with
  | admitted _ hi => exact ⟨_, hi, trivial⟩
  | running _ hi _ => exact ⟨_, hi, trivial⟩

theorem not_isOver (hn : i < l.requests.length) (hi : l.Moves i) : ¬ l.IsOver := by
  intro hover
  obtain ⟨r, hr⟩ := hover i hn
  exact not_moves hr id hi

/-- As long as a request is not over, some request moves on when it is its turn. -/
theorem Serves.exists_moves (h : Serves cs s₀ w₀ l vs changes rest s w) (hover : ¬ l.IsOver) :
    ∃ i < cs.length, l.Moves i := by
  cases rest with
  | nil =>
    rw [IsOver, h.stands.length_requests] at hover
    push Not at hover
    obtain ⟨i, hn, hi⟩ := hover
    have hdone : i ∉ requestsOf vs ++ [] := by
      intro hd
      rw [List.append_nil] at hd
      obtain ⟨r, hr⟩ := h.stands.phase?_of_mem_done hd
      exact hi r hr
    exact ⟨i, hn, _, h.stands.away i hn hdone, trivial⟩
  | cons i js => exact ⟨i, h.stands.order.lt i (List.mem_append_right _ (.head _)), h.moves_first⟩

/-- If all requests are over, nobody is left in line, and each has had its turn once. -/
theorem Serves.perm_of_isOver (h : Serves cs s₀ w₀ l vs changes rest s w) (hover : l.IsOver) :
    rest = [] ∧ (requestsOf vs).Perm (List.range cs.length) := by
  have horder := h.stands.order
  have hrest : rest = [] := by
    cases rest with
    | nil => rfl
    | cons i js =>
      have hn := horder.lt i (List.mem_append_right _ (.head _))
      rw [← h.stands.length_requests] at hn
      exact absurd hover (not_isOver hn h.moves_first)
  subst hrest
  rw [List.append_nil] at horder
  refine ⟨rfl, (List.perm_ext_iff_of_nodup horder.nodup List.nodup_range).2 fun i => ?_⟩
  rw [List.mem_range]
  refine ⟨horder.lt i, fun hn => ?_⟩
  by_contra hi
  rw [← h.stands.length_requests] at hn
  have haway : l.phase? i = some .away :=
    h.stands.away i (h.stands.length_requests ▸ hn) (by rwa [List.append_nil])
  exact not_isOver hn ⟨_, haway, trivial⟩ hover

theorem runTurns_append (is : List Nat) {l' : Line} {s' : Session} {w' : World}
    (h : l.runTurns is s w = ((l', s'), w')) (js : List Nat) :
    l.runTurns (is ++ js) s w = l'.runTurns js s' w' := by
  rw [← runMoves_turn] at h
  rw [← runMoves_turn, ← runMoves_turn, List.map_append, runMoves_append _ h]

/-- If all requests are over, turns change nothing. -/
theorem IsOver.runTurns (hover : l.IsOver) : ∀ schedule : List Nat,
    l.runTurns schedule s w = ((l, s), w)
  | [] => rfl
  | i :: is => by
    have hturn : l.turn i s w = ((l, s), w) := by
      by_cases hi : i < l.requests.length
      · obtain ⟨r, hr⟩ := hover i hi
        obtain ⟨⟨c, _⟩, hq, rfl⟩ := Option.map_eq_some_iff.1 hr
        exact turn_ended hq
      · exact turn_none (List.getElem?_eq_none (Nat.le_of_not_lt hi))
    rw [runTurns_cons hturn]
    exact hover.runTurns is

/-- Rounds in which every request has a turn bring the line on, one step at least in each, until all
requests are over. -/
theorem Serves.runRounds : ∀ (m : Nat) {l : Line} {vs : List Service} {rest : List Nat} {s : Session}
    {w : World}, Serves cs s₀ w₀ l vs changes rest s w →
      ∃ l' s' w', l.runTurns (List.replicate m (List.range cs.length)).flatten s w = ((l', s'), w') ∧
        l'.requests.length = cs.length ∧ (l'.IsOver ∨ l.steps + m ≤ l'.steps)
  | 0, l, vs, rest, s, w, h => ⟨l, s, w, rfl, h.stands.length_requests, .inr (Nat.le_refl _)⟩
  | m + 1, l, vs, rest, s, w, h => by
    obtain ⟨l₁, s₁, w₁, vs₁, rest₁, hround, -, h₁, hlt⟩ := h.runTurns (List.range cs.length)
    rw [List.replicate_succ, List.flatten_cons]
    by_cases hover : l.IsOver
    · exact ⟨l, s, w, hover.runTurns _, h.stands.length_requests, .inl hover⟩
    · obtain ⟨i, hn, hi⟩ := h.exists_moves hover
      have hstep := hlt i (List.mem_range.2 hn) hi
      obtain ⟨l₂, s₂, w₂, hrounds, hlength, hend⟩ := Serves.runRounds m h₁
      refine ⟨l₂, s₂, w₂, (runTurns_append _ hround _).trans hrounds, hlength, hend.imp_right fun _ => ?_⟩
      omega

/-- When all requests are over, the session has counted every command and is free. -/
theorem Serves.isOver_counts (h : Serves cs s₀ w₀ l vs changes rest s w) (hs : s₀.process = none)
    (hover : l.IsOver) : l.holder = none ∧ s.sent = s₀.sent + cs.length ∧ s.process = none ∧
      s.isRunning = false := by
  obtain ⟨rfl, hperm⟩ := h.perm_of_isOver hover
  obtain ⟨hsent, hprocess⟩ := serveAll_counts (show serveAll cs vs s₀ w₀ = ((_, _), _) from rfl)
  have hlength : vs.length = cs.length := by
    rw [← List.length_range (n := cs.length), ← hperm.length_eq, requestsOf, List.length_map]
  rw [hlength] at hsent
  cases h.attends with
  | free =>
    have hnone := hprocess hs
    refine ⟨h.stands.holder, hsent, hnone, ?_⟩
    rw [Session.isRunning, hnone]
    rfl

end Standing

/-- Rounds in which `n` requests have their turns, so many that all will be over. -/
def enoughRounds (n : Nat) : List Nat := (List.replicate (3 * n + 1) (List.range n)).flatten

/-- **Requests that come together are served one after another.**  However the requests take turns, and
whatever becomes of programs and files in between, in the order in which they came some are over, with
the outcomes that they have if their commands are given one after another with the same changes in
between, and a process is at work at most for the next one.  When all are over, the session has counted
every command, no process is left, and the session is free; and all are over when they have had turns
enough. -/
theorem runMoves_serial (cs : List Text) (moves : List Move) {s : Session} (hs : s.process = none)
    (w : World) : ∃ l s' w' vs rest, (ofCommands cs).runMoves moves s w = ((l, s'), w') ∧
      requestsOf vs ++ rest = (moves.filterMap Move.turn?).foldl (come cs.length) [] ∧
      Stands cs (serveAll cs vs s w).1.1 l (requestsOf vs) rest ∧
      Attends cs s w l vs (moves.filterMap Move.change?) rest s' w' ∧
      (changesOf vs = [] →
        serveAll cs vs s w = Session.sendAll ((requestsOf vs).map (commandOf cs)) s w) ∧
      (∀ i, l.Works i → rest.head? = some i) ∧
      (l.IsOver → rest = [] ∧ (requestsOf vs).Perm (List.range cs.length) ∧ l.holder = none ∧
        s'.sent = s.sent + cs.length ∧ s'.process = none ∧ s'.isRunning = false) ∧
      ∃ l₁ s₁ w₁, (ofCommands cs).runMoves (moves ++ (enoughRounds cs.length).map .turn) s w =
        ((l₁, s₁), w₁) ∧ l₁.IsOver := by
  obtain ⟨l, s', w', vs, rest, hmoves, hcome, h, -⟩ := (serves_ofCommands cs s w).runMoves moves
  refine ⟨l, s', w', vs, rest, hmoves, hcome, h.stands, h.attends, fun hc => serveAll_eq_sendAll hc s w,
    fun i => h.stands.head_of_works, fun hover => ?_, ?_⟩
  · obtain ⟨hrest, hperm⟩ := h.perm_of_isOver hover
    exact ⟨hrest, hperm, h.isOver_counts hs hover⟩
  · obtain ⟨l₁, s₁, w₁, hrounds, hlength, hend⟩ := h.runRounds (3 * cs.length + 1)
    rw [← runMoves_turn] at hrounds
    refine ⟨l₁, s₁, w₁, (runMoves_append moves hmoves _).trans hrounds, hend.resolve_right ?_⟩
    have hle := l₁.steps_le
    omega

namespace Sample

def session : Session := Session.new none none .json true

def commands : List Text := [['a'], ['b'], ['c']]

/-- No process starts for the first command, and the one for the second command does not take its
input. -/
def world : World where
  script := { rules := [{ pattern := ['a'], startFault := some (.words "no memory".toList) },
    { pattern := ['b'], inputFault := some (.notTaken "pipe gone".toList) }] }

/-- The last request comes first.  While a process is at work for it, the program becomes one that ends
with code one, and then what it was. -/
def mixed : List Move :=
  [.turn 2, .turn 2, .turn 0, .elsewhere { rules := [{ pattern := [], exitCode := 1 }] } {}, .turn 2,
    .elsewhere world.script {}, .turn 1, .turn 0, .turn 1, .turn 1]

end Sample

theorem runMoves_serial_mixed : Sample.session.process = none ∧
    ∃ l s' w' vs rest,
      (ofCommands Sample.commands).runMoves Sample.mixed Sample.session Sample.world =
        ((l, s'), w') ∧
      requestsOf vs ++ rest = [2, 0, 1] ∧
      Stands Sample.commands (serveAll Sample.commands vs Sample.session Sample.world).1.1 l
        (requestsOf vs) rest ∧
      l.outcomes = [some (.error (.notStarted Session.defaultProgram "no memory".toList)),
        some (.error (.brokenPipe "pipe gone".toList)), some (.error (.exited 1 []))] ∧
      s'.sent = 3 ∧ s'.process = none := by
  obtain ⟨l, s', w', vs, rest, hmoves, hcome, hstands, -⟩ :=
    runMoves_serial Sample.commands Sample.mixed (s := Sample.session) rfl Sample.world
  have hline : l = ((ofCommands Sample.commands).runMoves Sample.mixed Sample.session
    Sample.world).1.1 := congrArg (·.1.1) hmoves.symm
  have hsession : s' = ((ofCommands Sample.commands).runMoves Sample.mixed Sample.session
    Sample.world).1.2 := congrArg (·.1.2) hmoves.symm
  refine ⟨rfl, l, s', w', vs, rest, hmoves, hcome, hstands, ?_, ?_, ?_⟩
  · rw [hline]
    decide +kernel
  · rw [hsession]
    decide +kernel
  · rw [hsession]
    decide +kernel

end Line

end AgdaFrontEnd
