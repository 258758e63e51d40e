import AgdaFrontEnd.Command
import AgdaFrontEnd.Proofs.Response.Quoted
import AgdaFrontEnd.Proofs.Text.Decimal

/-!
# Commands are lossless

A command stands on one line, whatever the texts in it hold, and all that went into it can be read
off it again.

* `Command.Query`: what a command asks for, with its payload and the text in it.
* `Quoted.escapeAll_eq`: escaping is five replacements, one after another.
* `Command.outside_payload`: a payload is scanned as the one field in it.
* `Command.envelope_lossless`: what a command looks like, what a scan of it finds, and that
  different commands look different.
-/

namespace AgdaFrontEnd

/-! ## Escaping by replacement -/

/-- The text with every `c` replaced by a word. -/
def Text.replace (c : Char) (word t : Text) : Text := t.flatMap fun d => if d = c then word else [d]

namespace Quoted

/-- Escaping is five replacements, one after another.  The backslash comes first: the others
write backslashes of their own. -/
theorem escapeAll_eq (t : Text) :
    escapeAll t =
      Text.replace '\r' ['\\', 'r'] (Text.replace '\t' ['\\', 't'] (Text.replace '\n' ['\\', 'n']
        (Text.replace '"' ['\\', '"'] (Text.replace '\\' ['\\', '\\'] t)))) := by
  simp only [escapeAll, Text.replace, List.flatMap_assoc]
  refine congrArg (t.flatMap ·) (funext fun c => ?_)
  unfold escape
  split
  case h_6 hb hq hn ht hr =>
    have hb' : ¬ c = '\\' := hb
    have hq' : ¬ c = '"' := hq
    have hn' : ¬ c = '\n' := hn
    have ht' : ¬ c = '\t' := ht
    have hr' : ¬ c = '\r' := hr
    simp [hb', hq', hn', ht', hr']
  all_goals decide

/-! ## Words between fields -/

/-- The characters of the text neither open nor close anything. -/
def IsPlain (t : Text) : Prop := ∀ c ∈ t, c ≠ '"' ∧ c ≠ '(' ∧ c ≠ ')'

instance (t : Text) : Decidable (IsPlain t) := List.decidableBAll _ t

theorem IsPlain.append {s t : Text} (hs : IsPlain s) (ht : IsPlain t) : IsPlain (s ++ t) := by
  intro c hc
  rcases List.mem_append.1 hc with hc | hc
  · exact hs c hc
  · exact ht c hc

/-- Plain words are passed over. -/
theorem IsPlain.outside {t : Text} (h : IsPlain t) (depth : Int) (r : Text) :
    outside depth (t ++ r) = outside depth r := by
  induction t with
  | nil => rfl
  | cons c t ih =>
    obtain ⟨hq, ho, hc⟩ := h c (.head _)
    rw [List.cons_append, outside_blank hq ho hc]
    exact ih fun d hd => h d (.tail _ hd)

/-- Behind plain words, a written field is read. -/
theorem IsPlain.outside_write {t : Text} (h : IsPlain t) (depth : Int) (field r : Text) :
    Quoted.outside depth (t ++ (write field ++ r)) = (Quoted.outside depth r).cons field := by
  rw [h.outside, Quoted.outside_write]

end Quoted

namespace Command

/-- What a command asks for. -/
inductive Query where
  | load (file : Text)
  | goal (id : Int) (hint : Text)
  | compute (expr : Text)
  deriving DecidableEq, Repr

/-- The kinds of queries; one about a hole names the hole. -/
inductive Query.Kind where
  | load
  | goal (id : Int)
  | compute
  deriving DecidableEq, Repr

namespace Query

/-- The payload of a query. -/
def payload : Query → Text
  | load file => Command.load file
  | goal id hint => Command.goal id hint
  | compute expr => Command.compute expr

/-- The kind of a query. -/
def kind : Query → Kind
  | load _ => .load
  | goal id _ => .goal id
  | compute _ => .compute

/-- The text in a query; a hint is taken without the blanks around it. -/
def argument : Query → Text
  | load file => file
  | goal _ hint => hint.strip
  | compute expr => expr

end Query

/-! ## Scanning -/

theorem isPlain_ofInt (n : Int) : Quoted.IsPlain (Text.ofInt n) := by
  intro c hc
  rcases Text.mem_ofInt hc with rfl | hd
  · decide
  · refine ⟨?_, ?_, ?_⟩ <;> rintro rfl <;> exact absurd hd (by decide)

theorem isPlain_highlighting (interactive : Bool) : Quoted.IsPlain (highlighting interactive) := by
  cases interactive <;> decide

/-- A payload is scanned as the one field in it. -/
theorem outside_payload (depth : Int) (q : Query) (r : Text) :
    Quoted.outside depth (q.payload ++ r) = (Quoted.outside depth r).cons q.argument := by
  cases q with
  | load file =>
    have hword : Quoted.IsPlain "Cmd_load ".toList := by decide
    have hend : Quoted.IsPlain " []".toList := by decide
    unfold Query.payload load
    rw [List.append_assoc, List.append_assoc, hword.outside_write, hend.outside]
    rfl
  | goal id hint =>
    have hword : Quoted.IsPlain "Cmd_goal_type_context_infer Normalised ".toList := by decide
    have hrange : Quoted.IsPlain " noRange ".toList := by decide
    have hid := (hword.append (isPlain_ofInt id)).append hrange
    unfold Query.payload goal
    rw [List.append_assoc, hid.outside_write]
    rfl
  | compute expr =>
    have hword : Quoted.IsPlain "Cmd_compute_toplevel DefaultCompute ".toList := by decide
    unfold Query.payload compute
    rw [List.append_assoc, hword.outside_write]
    rfl

/-- **A scan of a command finds its file and the text in its query**, and the command is complete. -/
theorem scan_envelope (file : Text) (q : Query) (interactive : Bool) :
    Quoted.scan (envelope file q.payload interactive) = ⟨[file, q.argument], true⟩ := by
  have hword : Quoted.IsPlain "IOTCM ".toList := by decide
  have hmode : Quoted.IsPlain ([' '] ++ highlighting interactive) :=
    .append (by decide) (isPlain_highlighting interactive)
  have hopen (r : Text) : Quoted.outside 0 (" Direct (".toList ++ r) = Quoted.outside 1 r := by
    simp [Quoted.outside]
  have hclose : Quoted.outside 1 ")\nx\n".toList = ⟨[], true⟩ := by
    decide
  have hshape : envelope file q.payload interactive =
      "IOTCM ".toList ++ (Quoted.write file ++ (([' '] ++ highlighting interactive) ++
        (" Direct (".toList ++ (q.payload ++ ")\nx\n".toList)))) := by
    unfold envelope
    simp only [List.append_assoc]
  rw [Quoted.scan, hshape, hword.outside_write, hmode.outside, hopen, outside_payload, hclose]
  rfl

/-! ## One line -/

/-- The text holds no line feed, no tab and no carriage return. -/
def IsFlat (t : Text) : Prop := '\n' ∉ t ∧ '\t' ∉ t ∧ '\r' ∉ t

instance (t : Text) : Decidable (IsFlat t) := inferInstanceAs (Decidable (_ ∧ _))

theorem IsFlat.append {s t : Text} (hs : IsFlat s) (ht : IsFlat t) : IsFlat (s ++ t) := by
  obtain ⟨hn, htab, hr⟩ := hs
  obtain ⟨hn', htab', hr'⟩ := ht
  simp [IsFlat, hn, htab, hr, hn', htab', hr']

theorem isFlat_write (t : Text) : IsFlat (Quoted.write t) :=
  ⟨Quoted.not_mem_write (.inl rfl) t, Quoted.not_mem_write (.inr (.inl rfl)) t,
    Quoted.not_mem_write (.inr (.inr rfl)) t⟩

theorem isFlat_ofInt (n : Int) : IsFlat (Text.ofInt n) := by
  refine ⟨?_, ?_, ?_⟩ <;> intro h <;> rcases Text.mem_ofInt h with h | h <;> exact absurd h (by decide)

theorem isFlat_payload (q : Query) : IsFlat q.payload := by
  cases q with
  | load file =>
    have hword : IsFlat "Cmd_load ".toList := by decide
    have hend : IsFlat " []".toList := by decide
    exact (hword.append (isFlat_write file)).append hend
  | goal id hint =>
    have hword : IsFlat "Cmd_goal_type_context_infer Normalised ".toList := by decide
    have hrange : IsFlat " noRange ".toList := by decide
    exact ((hword.append (isFlat_ofInt id)).append hrange).append (isFlat_write hint.strip)
  | compute expr =>
    have hword : IsFlat "Cmd_compute_toplevel DefaultCompute ".toList := by decide
    exact hword.append (isFlat_write expr)

/-- **A command is one line**, whatever the texts in it hold, and the line that ends the input. -/
theorem envelope_eq_line (file : Text) (q : Query) (interactive : Bool) :
    ∃ line, envelope file q.payload interactive = line ++ "\nx\n".toList ∧ IsFlat line := by
  have hword : IsFlat "IOTCM ".toList := by decide
  have hblank : IsFlat [' '] := by decide
  have hmode : IsFlat (highlighting interactive) := by cases interactive <;> decide
  have hdirect : IsFlat " Direct (".toList := by decide
  have hclose : IsFlat ")".toList := by decide
  have hhead := (((hword.append (isFlat_write file)).append hblank).append hmode).append hdirect
  refine ⟨_, ?_, (hhead.append (isFlat_payload q)).append hclose⟩
  unfold envelope
  simp only [List.append_assoc]
  rfl

/-! ## Different commands -/

/-- The letter that tells the payloads of different kinds apart. -/
def Query.Kind.letter : Query.Kind → Char
  | load => 'l'
  | goal _ => 'g'
  | compute => 'c'

theorem payload_letter (q : Query) : q.payload[4]? = some q.kind.letter := by
  cases q <;> rfl

theorem payload_ne {q q' : Query} (h : q.kind.letter ≠ q'.kind.letter) : q.payload ≠ q'.payload := by
  intro heq
  have hfifth := congrArg (·[4]?) heq
  simp only [payload_letter, Option.some.injEq] at hfifth
  exact h hfifth

theorem argument_eq_of_payload {q q' : Query} (h : q.payload = q'.payload) :
    q.argument = q'.argument := by
  have hq := outside_payload 0 q []
  rw [h, outside_payload] at hq
  exact (List.cons.inj (congrArg Quoted.Scan.fields hq)).1.symm

theorem goal_id_eq {id id' : Int} {hint hint' : Text} (h : goal id hint = goal id' hint')
    (hhint : hint.strip = hint'.strip) : id = id' := by
  unfold goal at h
  rw [hhint] at h
  exact Text.ofInt_injective
    (List.append_cancel_left (List.append_cancel_right (List.append_cancel_right h)))

/-- Payloads are equal if their kinds, with the holes in them, and their texts are. -/
theorem payload_eq_iff {q q' : Query} :
    q.payload = q'.payload ↔ q.kind = q'.kind ∧ q.argument = q'.argument := by
  constructor
  · intro h
    have harg := argument_eq_of_payload h
    have hletter : q.kind.letter = q'.kind.letter := not_imp_not.1 payload_ne h
    refine ⟨?_, harg⟩
    cases q <;> cases q'
    case load.load | compute.compute => rfl
    case goal.goal id hint id' hint' => rw [Query.kind, Query.kind, goal_id_eq h harg]
    all_goals simp [Query.kind, Query.Kind.letter] at hletter
  · rintro ⟨hkind, harg⟩
    cases q <;> cases q' <;> cases hkind
    case load.load.refl => exact congrArg load harg
    case compute.compute.refl => exact congrArg compute harg
    case goal.goal.refl id hint hint' =>
      have hhint : hint.strip = hint'.strip := harg
      show goal id hint = goal id hint'
      unfold goal
      rw [hhint]

theorem envelope_eq_iff {file file' : Text} {q q' : Query} {interactive interactive' : Bool} :
    envelope file q.payload interactive = envelope file' q'.payload interactive' ↔
      file = file' ∧ interactive = interactive' ∧ q.kind = q'.kind ∧ q.argument = q'.argument := by
  constructor
  · intro h
    have hscan := scan_envelope file q interactive
    rw [h, scan_envelope] at hscan
    obtain rfl : file' = file := (List.cons.inj (congrArg Quoted.Scan.fields hscan)).1
    unfold envelope at h
    simp only [List.append_assoc, List.append_cancel_left_eq] at h
    obtain rfl : interactive = interactive' := by
      cases interactive <;> cases interactive'
      case false.false | true.true => rfl
      all_goals exact absurd (List.cons.inj h).1 (by decide)
    simp only [List.append_cancel_left_eq, List.append_cancel_right_eq] at h
    exact ⟨rfl, rfl, payload_eq_iff.1 h⟩
  · rintro ⟨rfl, rfl, hq⟩
    rw [payload_eq_iff.2 hq]

/-- **Commands are lossless and cannot be broken out of.**  A command is one line and the line that
ends the input, whatever the texts in it hold; a scan of it finds its file and the text in its
query; and commands are equal only if all that went into them is. -/
theorem envelope_lossless (file : Text) (q : Query) (interactive : Bool) :
    (∃ line, envelope file q.payload interactive = line ++ "\nx\n".toList ∧ '\n' ∉ line) ∧
      (envelope file q.payload interactive).count '\n' = 2 ∧
      '\t' ∉ envelope file q.payload interactive ∧ '\r' ∉ envelope file q.payload interactive ∧
      Quoted.scan (envelope file q.payload interactive) = ⟨[file, q.argument], true⟩ ∧
      ∀ (file' : Text) (q' : Query) (interactive' : Bool),
        envelope file q.payload interactive = envelope file' q'.payload interactive' ↔
          file = file' ∧ interactive = interactive' ∧ q.kind = q'.kind ∧
            q.argument = q'.argument := by
  obtain ⟨line, hline, hn, ht, hr⟩ := envelope_eq_line file q interactive
  refine ⟨⟨line, hline, hn⟩, ?_, ?_, ?_, scan_envelope file q interactive,
    fun file' q' interactive' => envelope_eq_iff⟩
  · rw [hline, List.count_append, List.count_eq_zero_of_not_mem hn]
    decide
  · simp [hline, ht]
  · simp [hline, hr]

end Command

end AgdaFrontEnd
