import AgdaFrontEnd.Proofs.Session.Reply
import AgdaFrontEnd.Proofs.Utf8.Replacement

/-!
# Error output in pieces

The error output of a process comes in reads that are cut anywhere, also inside a character.  What is
forwarded of it does not depend on the cuts: a read gives the text of the bytes that it makes whole,
and what is kept back when the output ends is forwarded then.

* `Listening`: one turn after another reads, decodes and forwards, until an empty read finds nothing
  kept back.
* `Listening.run_eq`: listening comes to an end, and what it forwards.
* `Session.Pieces`: the pieces that reads are forwarded in, told by the bytes.
* `Session.forwards_all_error_output`: the pieces are together the text of all bytes, however these
  are cut, and they are what is written and what a failure carries.
-/

namespace AgdaFrontEnd

/-- The texts written to the error output, in order. -/
def Journal.complaints (j : Journal) : List Text :=
  j.filterMap fun
    | .complained t => some t
    | _ => none

@[simp] theorem Journal.complaints_append (j k : Journal) :
    complaints (j ++ k) = complaints j ++ complaints k :=
  List.filterMap_append

/-! ## Turns -/

/-- A listener to error output: the reads that are still to come, the decoder, and the pieces that
were forwarded. -/
structure Listening where
  ahead : List Bytes
  decoder : Utf8.Decoder := .between
  forwarded : List Text := []

namespace Listening

/-- What a read is decoded to.  An empty one ends the bytes. -/
def decoded (d : Utf8.Decoder) (read : Bytes) : Text × Utf8.Decoder :=
  if read.isEmpty then (d.flush, .between) else d.feed read

/-- One turn.  When the output has ended all reads are empty; the first one that decodes to nothing is
the last one. -/
def turn (quiet : Bool) (l : Listening) : Act (Option Listening) := do
  let read := l.ahead.headD []
  let (piece, decoder) := decoded l.decoder read
  if piece.isEmpty then
    return if read.isEmpty then none else some { l with ahead := l.ahead.tail, decoder }
  Session.hear quiet piece
  return some ⟨l.ahead.tail, decoder, l.forwarded ++ [piece]⟩

/-- Turns one after another, at most `n` of them, and the pieces if they came to an end. -/
def run (quiet : Bool) : (n : Nat) → Listening → Act (Option (List Text))
  | 0, _ => return none
  | n + 1, l => do
    match ← l.turn quiet with
    | none => return some l.forwarded
    | some l => run quiet n l

end Listening

namespace Session

/-- The pieces that are forwarded; an empty one is passed over. -/
def spoken (pieces : List Text) : List Text := pieces.filter (!·.isEmpty)

theorem spoken_append (ps ps' : List Text) : spoken (ps ++ ps') = spoken ps ++ spoken ps' :=
  List.filter_append ps ps'

theorem spoken_cons (p : Text) (ps : List Text) : spoken (p :: ps) = spoken [p] ++ spoken ps :=
  spoken_append [p] ps

theorem flatten_spoken : ∀ ps : List Text, (spoken ps).flatten = ps.flatten
  | [] => rfl
  | p :: ps => by
    rw [spoken_cons, List.flatten_append, flatten_spoken ps, List.flatten_cons]
    cases p <;> simp [spoken]

/-- What is written for pieces: each behind the mark, or nothing at all. -/
theorem complaints_heard (quiet : Bool) : ∀ ps : List Text,
    Journal.complaints (ps.flatMap (heard quiet)) =
      if quiet then [] else (spoken ps).map (forwardMark ++ ·)
  | [] => by cases quiet <;> rfl
  | p :: ps => by
    have ih := complaints_heard quiet ps
    rw [List.flatMap_cons, Journal.complaints_append, ih, spoken_cons, List.map_append]
    cases p <;> cases quiet <;> rfl

end Session

namespace Listening

section Turns

variable (quiet : Bool) (l : Listening) {l' : Listening} {w w' : World}

theorem run_succ_of_none (n : Nat) (h : (l.turn quiet).run w = (.ok none, w')) :
    (run quiet (n + 1) l).run w = (.ok (some l.forwarded), w') :=
  run_bind_ok h _

theorem run_succ_of_some (n : Nat) (h : (l.turn quiet).run w = (.ok (some l'), w')) :
    (run quiet (n + 1) l).run w = (run quiet n l').run w' :=
  run_bind_ok h _

end Turns

section Turns

variable (quiet : Bool) (d : Utf8.Decoder) (ps : List Text) (w : World)

/-- The turn that ends the listening. -/
theorem turn_end (h : d.flush = []) : (turn quiet ⟨[], d, ps⟩).run w = (.ok none, w) := by
  unfold turn decoded
  simp [h]

/-- The turn that forwards what is kept back when the output ends. -/
theorem turn_flush (h : d.flush ≠ []) : (turn quiet ⟨[], d, ps⟩).run w =
    (.ok (some ⟨[], .between, ps ++ [d.flush]⟩),
      { w with journal := w.journal ++ Session.heard quiet d.flush }) := by
  unfold turn decoded
  simp only [List.headD_nil, List.isEmpty_nil, if_true, List.isEmpty_iff, if_neg h]
  exact run_bind_ok (Session.run_hear quiet d.flush w) _

/-- A turn that forwards what a read makes whole. -/
theorem turn_read (r : Bytes) (rs : List Bytes) (h : r ≠ []) :
    (turn quiet ⟨r :: rs, d, ps⟩).run w =
      (.ok (some ⟨rs, (d.feed r).2, ps ++ Session.spoken [(d.feed r).1]⟩),
        { w with journal := w.journal ++ Session.heard quiet (d.feed r).1 }) := by
  unfold turn decoded
  simp only [List.headD_cons, List.isEmpty_iff, if_neg h]
  cases hp : (d.feed r).1 with
  | nil => simp [Session.heard, Session.spoken]
  | cons c cs => exact run_bind_ok (Session.run_hear quiet (c :: cs) w) _

end Turns

/-- **Listening comes to an end**: each read takes one turn, and two more turns at most forward what is
kept back and find that nothing is left. -/
theorem run_eq (quiet : Bool) {reads : List Bytes} (hreads : ∀ r ∈ reads, r ≠ [])
    (d : Utf8.Decoder) (ps : List Text) (w : World) {n : Nat} (hn : reads.length + 2 ≤ n) :
    (run quiet n ⟨reads, d, ps⟩).run w =
      (.ok (some (ps ++ Session.spoken (Session.pieces d reads))),
        { w with
          journal := w.journal ++ (Session.pieces d reads).flatMap (Session.heard quiet) }) := by
  induction reads generalizing d ps w n with
  | nil =>
    obtain ⟨n, rfl⟩ : ∃ m, n = m + 2 := ⟨n - 2, (Nat.sub_add_cancel hn).symm⟩
    by_cases h : d.flush = []
    · rw [run_succ_of_none quiet _ _ (turn_end quiet d ps w h)]
      simp [Session.pieces, Session.spoken, Session.heard, h]
    · have hend : Utf8.Decoder.between.flush = [] := rfl
      rw [run_succ_of_some quiet _ _ (turn_flush quiet d ps w h),
        run_succ_of_none quiet _ _ (turn_end quiet _ _ _ hend)]
      simp [Session.pieces, Session.spoken, h]
  | cons r rs ih =>
    obtain ⟨n, rfl⟩ : ∃ m, n = m + 1 := ⟨n - 1, (Nat.sub_add_cancel (by omega)).symm⟩
    have hr : r ≠ [] := hreads r List.mem_cons_self
    have hrs : ∀ r ∈ rs, r ≠ [] := fun r' h => hreads r' (List.mem_cons_of_mem r h)
    rw [run_succ_of_some quiet _ _ (turn_read quiet d ps w r rs hr),
      ih hrs _ _ _ (Nat.le_of_succ_le_succ hn), Session.pieces, List.flatMap_cons,
      Session.spoken_cons _ (Session.pieces _ rs), List.append_assoc, List.append_assoc]

end Listening

/-! ## Pieces -/

namespace Session

/-- The pieces that reads are decoded to before the output ends, told by the bytes: each read gives the
text of what it makes whole of all bytes up to then.  The bytes `q` are kept back at the end. -/
structure Pieces (reads : List Bytes) (early : List Text) (q : Bytes) : Prop where
  length : early.length = reads.length
  upTo : ∀ k, ∃ whole rest, Utf8.KeepsBack (reads.take k).flatten whole rest ∧
    (early.take k).flatten = Utf8.decodeLossy whole
  keepsBack : ∃ whole, Utf8.KeepsBack reads.flatten whole q

/-- The pieces that come before the output ends. -/
def early (d : Utf8.Decoder) : List Bytes → List Text
  | [] => []
  | r :: rs => (d.feed r).1 :: early (d.feed r).2 rs

theorem pieces_eq : ∀ (d : Utf8.Decoder) (reads : List Bytes),
    pieces d reads = early d reads ++ [(d.feed reads.flatten).2.flush]
  | _, [] => rfl
  | d, r :: rs => by
    rw [pieces, early, pieces_eq, List.flatten_cons, Utf8.Decoder.feed_append]
    rfl

theorem length_early : ∀ (d : Utf8.Decoder) (reads : List Bytes),
    (early d reads).length = reads.length
  | _, [] => rfl
  | d, r :: rs => congrArg (· + 1) (length_early (d.feed r).2 rs)

theorem flatten_take_early : ∀ (d : Utf8.Decoder) (reads : List Bytes) (k : Nat),
    ((early d reads).take k).flatten = (d.feed (reads.take k).flatten).1
  | _, [], k => by simp [early, Utf8.Decoder.feed]
  | _, _ :: _, 0 => rfl
  | d, r :: rs, k + 1 => by
    rw [early, List.take_succ_cons, List.take_succ_cons, List.flatten_cons, List.flatten_cons,
      Utf8.Decoder.feed_append, flatten_take_early]

/-- The pieces of reads, and what is kept back behind them. -/
theorem exists_pieces (reads : List Bytes) : ∃ early q, Pieces reads early q ∧
    spoken (pieces .between reads) = spoken early ++ if q = [] then [] else [Utf8.decodeLossy q] := by
  obtain ⟨whole, q, hq, -, hflush⟩ := Utf8.keepsBack_feed reads.flatten
  refine ⟨early .between reads, q, ⟨length_early _ _, fun k => ?_, whole, hq⟩, ?_⟩
  · obtain ⟨whole, rest, hrest, hwhole, -⟩ := Utf8.keepsBack_feed (reads.take k).flatten
    exact ⟨whole, rest, hrest, by rw [flatten_take_early, hwhole]⟩
  · rw [pieces_eq, spoken_append, hflush]
    by_cases hnil : q = []
    · subst hnil
      rfl
    · rw [if_neg hnil]
      simp [spoken, Utf8.decodeLossy_eq_nil, hnil]

/-- All pieces together are the text of all bytes. -/
theorem flatten_pieces (reads : List Bytes) :
    (pieces .between reads).flatten = Utf8.decodeLossy reads.flatten := by
  have htake := flatten_take_early .between reads reads.length
  rw [List.take_of_length_le (length_early _ _).le, List.take_length] at htake
  rw [pieces_eq, List.flatten_append, htake, Utf8.decodeLossy]
  simp

end Session

/-! ## The error output of a process -/

theorem flatten_cutReads (n : Nat) : ∀ (fuel : Nat) (bs : Bytes), bs.length ≤ fuel →
    (cutReads n fuel bs).flatten = bs
  | 0, bs, h => by
    rw [List.length_eq_zero_iff.1 (Nat.le_zero.1 h)]
    rfl
  | fuel + 1, [], _ => rfl
  | fuel + 1, b :: bs, h => by
    have hdrop : ((b :: bs).drop (n + 1)).length ≤ fuel := by
      rw [List.length_drop]
      omega
    rw [cutReads, if_neg (by simp), List.flatten_cons, flatten_cutReads n fuel _ hdrop,
      List.take_append_drop]

theorem ne_nil_of_mem_cutReads (n : Nat) : ∀ (fuel : Nat) (bs : Bytes), ∀ r ∈ cutReads n fuel bs, r ≠ []
  | 0, _, r, h => by cases h
  | fuel + 1, [], r, h => by cases h
  | fuel + 1, b :: bs, r, h => by
    rw [cutReads, if_neg (by simp)] at h
    rcases List.mem_cons.1 h with rfl | h
    · exact List.cons_ne_nil b (bs.take n)
    · exact ne_nil_of_mem_cutReads n fuel _ r h

namespace Rule

/-- The reads bring in all of the error output. -/
theorem flatten_reads (r : Rule) : r.reads.flatten = r.stderr.flatten := by
  have hpieces : ∀ bss : List Bytes,
      (bss.flatMap fun bs => cutReads (readSize - 1) bs.length bs).flatten = bss.flatten := by
    intro bss
    induction bss with
    | nil => rfl
    | cons bs bss ih =>
      rw [List.flatMap_cons, List.flatten_append, flatten_cutReads _ _ _ le_rfl, ih,
        List.flatten_cons]
  exact hpieces r.stderr

theorem ne_nil_of_mem_reads (rule : Rule) : ∀ r ∈ rule.reads, r ≠ [] := by
  intro r hr
  obtain ⟨bs, -, hbs⟩ := List.mem_flatMap.1 hr
  exact ne_nil_of_mem_cutReads _ _ bs r hbs

/-- What a process answers depends on the bytes of its error output, not on the pieces in which it is
written. -/
theorem answer_eq (r : Rule) : r.answer =
    if r.exitCode = 0 then .ok (Utf8.decodeLossy r.stdout)
    else .error (.exited r.exitCode (Utf8.decodeLossy r.stderr.flatten)) := by
  rw [answer, Session.flatten_pieces, flatten_reads]

/-- Pieces that are no longer than a read are read as they are written. -/
theorem reads_eq_stderr {rule : Rule} (h : ∀ bs ∈ rule.stderr, bs ≠ [] ∧ bs.length ≤ readSize) :
    rule.reads = rule.stderr := by
  have hcut : ∀ bs : Bytes, bs ≠ [] → bs.length ≤ readSize →
      cutReads (readSize - 1) bs.length bs = [bs] := by
    intro bs hne hlen
    obtain ⟨n, hn⟩ : ∃ n, bs.length = n + 1 := ⟨bs.length - 1, by
      have := List.length_pos_iff.2 hne
      omega⟩
    have hsize : readSize - 1 + 1 = readSize := rfl
    rw [hn, cutReads, if_neg (by simpa using hne), hsize, List.take_of_length_le hlen,
      List.drop_of_length_le hlen]
    cases n <;> rfl
  have hall : ∀ bss : List Bytes, (∀ bs ∈ bss, bs ≠ [] ∧ bs.length ≤ readSize) →
      (bss.flatMap fun bs => cutReads (readSize - 1) bs.length bs) = bss := by
    intro bss hbss
    induction bss with
    | nil => rfl
    | cons bs bss ih =>
      obtain ⟨hne, hlen⟩ := hbss bs List.mem_cons_self
      rw [List.flatMap_cons, hcut bs hne hlen, ih fun bs h => hbss bs (List.mem_cons_of_mem _ h)]
      rfl
  exact hall rule.stderr h

end Rule

namespace Session

/-- The process that is started for a command takes it, and runs to its end. -/
structure RunsToEnd (s : Session) (command : Text) (w : World) : Prop where
  starts : w.script.startFault? s.program command = none
  takesInput : w.script.inputFault? command = none
  changes : ((Effect.performAll w.disk.home (w.script.ruleFor command).effects).run w.disk).1 = .ok ()

section RunsToEnd

variable {s : Session} {command : Text} {w : World} (h : RunsToEnd s command w)

include h

theorem RunsToEnd.reply_eq :
    (w.script.reply s.program w.disk command).1 = (w.script.ruleFor command).answer := by
  have hchanges := h.changes
  unfold Script.reply Script.exchange
  rw [h.starts, h.takesInput]
  dsimp only
  rcases hd : (Effect.performAll w.disk.home (w.script.ruleFor command).effects).run w.disk with
    ⟨r, d⟩
  rw [hd] at hchanges
  cases hchanges
  rfl

theorem RunsToEnd.told_eq : told w.script s w.next w.disk command =
    [.command (s.sent + 1) command, .started w.next (s.program :: s.args) none,
      .input w.next command] ++
    (pieces .between (w.script.ruleFor command).reads).flatMap (heard s.quiet) ++
    [.exited w.next (w.script.ruleFor command).exitCode, .collected w.next] := by
  have hchanges := h.changes
  unfold told entries
  rw [h.starts, h.takesInput]
  rcases hd : (Effect.performAll w.disk.home (w.script.ruleFor command).effects).run w.disk with
    ⟨r, d⟩
  rw [hd] at hchanges
  cases hchanges
  simp

end RunsToEnd

/-- What comes of error output that is forwarded in the pieces `ps`. -/
structure Forwards (quiet : Bool) (reads : List Bytes) (ps : List Text) : Prop where
  /-- Listening comes to an end, with these pieces. -/
  listens : ∀ n w, reads.length + 2 ≤ n → (Listening.run quiet n { ahead := reads }).run w =
    (.ok (some ps), { w with journal := w.journal ++ ps.flatMap (heard quiet) })
  forwards : ∀ w, (forward quiet .between reads).run w =
    (.ok ps.flatten, { w with journal := w.journal ++ ps.flatMap (heard quiet) })
  /-- Together they are the text of all bytes. -/
  text : ps.flatten = Utf8.decodeLossy reads.flatten
  replaced : Utf8.Replaced reads.flatten ps.flatten
  /-- Each piece is written behind the mark. -/
  complaints : Journal.complaints (ps.flatMap (heard quiet)) =
    if quiet then [] else ps.map (forwardMark ++ ·)
  /-- A command whose process has this error output: a failure carries the text. -/
  sends : ∀ (s : Session) (command : Text) (w : World), s.quiet = quiet →
    (w.script.ruleFor command).reads = reads → RunsToEnd s command w →
    ∃ s' w', (send command).run s w =
        ((if (w.script.ruleFor command).exitCode = 0 then
            .ok (Utf8.decodeLossy (w.script.ruleFor command).stdout)
          else .error (.exited (w.script.ruleFor command).exitCode ps.flatten), s'), w') ∧
      w'.journal.complaints = w.journal.complaints ++
        if quiet then [] else ps.map (forwardMark ++ ·)

theorem complaints_told {s : Session} {command : Text} {w : World} (h : RunsToEnd s command w) :
    Journal.complaints (told w.script s w.next w.disk command) = if s.quiet then []
      else (spoken (pieces .between (w.script.ruleFor command).reads)).map (forwardMark ++ ·) := by
  rw [h.told_eq, Journal.complaints_append, Journal.complaints_append, complaints_heard]
  exact List.append_nil _

theorem flatMap_heard_spoken (quiet : Bool) : ∀ ps : List Text,
    (spoken ps).flatMap (heard quiet) = ps.flatMap (heard quiet)
  | [] => rfl
  | p :: ps => by
    rw [spoken_cons, List.flatMap_append, flatMap_heard_spoken quiet ps, List.flatMap_cons]
    cases p <;> simp [spoken, heard]

theorem forwards_spoken (quiet : Bool) {reads : List Bytes} (hreads : ∀ r ∈ reads, r ≠ []) :
    Forwards quiet reads (spoken (pieces .between reads)) where
  listens := by
    intro n w hn
    rw [flatMap_heard_spoken]
    exact Listening.run_eq quiet hreads .between [] w hn
  forwards := by
    intro w
    rw [flatMap_heard_spoken, flatten_spoken]
    exact run_forward quiet reads .between w
  text := by rw [flatten_spoken, flatten_pieces]
  replaced := by
    rw [Utf8.replaced_iff, flatten_spoken, flatten_pieces]
  complaints := by
    rw [flatMap_heard_spoken, complaints_heard]
  sends := by
    rintro s command w rfl rfl h
    have hsend := run_send_eq command s w
    rw [h.reply_eq, Rule.answer, ← flatten_spoken (pieces .between _)] at hsend
    refine ⟨_, _, hsend, ?_⟩
    rw [Journal.complaints_append, complaints_told h]

/-- The error output of every process is read in such a way. -/
theorem forwards_reads (quiet : Bool) (rule : Rule) :
    Forwards quiet rule.reads (spoken (pieces .between rule.reads)) :=
  forwards_spoken quiet rule.ne_nil_of_mem_reads

/-- **Error output is forwarded whole, wherever its bytes are cut.**  Each read gives the text of what
it makes whole; what is kept back at the end is forwarded once, as a piece of its own. -/
theorem forwards_all_error_output (quiet : Bool) {reads : List Bytes} (hreads : ∀ r ∈ reads, r ≠ []) :
    ∃ early q, Pieces reads early q ∧
      Forwards quiet reads (spoken early ++ if q = [] then [] else [Utf8.decodeLossy q]) := by
  obtain ⟨early, q, hpieces, hspoken⟩ := exists_pieces reads
  exact ⟨early, q, hpieces, hspoken ▸ forwards_spoken quiet hreads⟩

/-- Reads that cut a character of three bytes, and that end behind the first two bytes of a surrogate's
form. -/
def cutReadsSample : List Bytes := [[0xE2], [0x82, 0xAC], [0x41, 0xED], [0xA0]]

/-- A world in which every process writes these reads and fails. -/
def cutWorldSample : World := { script := { rules := [{ stderr := cutReadsSample, exitCode := 1 }] } }

/-- A session in such a world. -/
def cutSessionSample : Session := Session.new none none .json false

theorem forwards_all_error_output_sample :
    (∀ r ∈ cutReadsSample, r ≠ []) ∧ RunsToEnd cutSessionSample [] cutWorldSample ∧
    ∃ early q, Pieces cutReadsSample early q ∧
      Forwards false cutReadsSample (spoken early ++ if q = [] then [] else [Utf8.decodeLossy q]) ∧
      ∃ s' w', (send []).run cutSessionSample cutWorldSample =
        ((.error (.exited 1 "€A\uFFFD\uFFFD".toList), s'), w') := by
  have hreads : ∀ r ∈ cutReadsSample, r ≠ [] := by decide
  have hrule : (cutWorldSample.script.ruleFor []).reads = cutReadsSample :=
    Rule.reads_eq_stderr (by decide)
  have hend : RunsToEnd cutSessionSample [] cutWorldSample := ⟨rfl, rfl, rfl⟩
  obtain ⟨early, q, hpieces, h⟩ := forwards_all_error_output false hreads
  obtain ⟨s', w', hsend, -⟩ := h.sends cutSessionSample [] cutWorldSample rfl hrule hend
  have htext : Utf8.decodeLossy cutReadsSample.flatten = "€A\uFFFD\uFFFD".toList := by decide +kernel
  have hexit : (cutWorldSample.script.ruleFor []).exitCode = 1 := rfl
  rw [h.text, htext, hexit, if_neg (by decide)] at hsend
  exact ⟨hreads, hend, early, q, hpieces, h, s', w', hsend⟩

end Session

end AgdaFrontEnd
