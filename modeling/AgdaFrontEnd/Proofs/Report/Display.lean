import AgdaFrontEnd.Proofs.Report.Findings
import AgdaFrontEnd.Proofs.Text.Margins
import AgdaFrontEnd.Proofs.Text.Occurrence

/-!
# Displays of goals

The textual dialect displays a goal in lines: its type, the type of the hint, a divider, and the names
in scope, with blank lines anywhere.  The goal of such a display is read back as it was, whatever
colons, dashes and words the types have, and names may consist of colons and dashes.

* `Goal.IsOnOneLine`, `Goal.IsName`, `Goal.IsRule`: types, names and dividers that can be displayed.
* `Goal.Display`: what is displayed; `Goal.Display.lines`: its lines.
* `Goal.DisplayLine.ofText_goal`, `Goal.DisplayLine.ofText_hint`, `Goal.DisplayLine.ofText_entry`,
  `Goal.DisplayLine.ofText_rule`, `Goal.DisplayLine.ofText_blank`: what the lines say.
* `Goal.Spaced`: lines with blank lines anywhere; `Goal.Spaced.filterMap_ofText`: these say nothing.
* `Goal.Display.read_back`: feeding a display adds its goal.
-/

namespace AgdaFrontEnd

namespace Goal

/-! ## What can be displayed -/

/-- A text on one line without blanks around it. -/
structure IsOnOneLine (t : Text) : Prop where
  newline_not_mem : '\n' ∉ t
  strip_eq : t.strip = t

/-- A name without blanks that does not start as one of the lines with types does. -/
structure IsName (t : Text) : Prop where
  ne_nil : t ≠ []
  not_blank : ∀ c ∈ t, isBlank c = false
  not_goal : ¬ goalWord <+: t
  not_have : ¬ haveWord <+: t

/-- A line of dashes, equals signs and underscores. -/
structure IsRule (l : Text) : Prop where
  ne_nil : l ≠ []
  drawn : ∀ c ∈ l, c ∈ ['—', '─', '-', '=', '_']

/-- What the textual dialect displays about a hole. -/
structure Display where
  type : Text
  hint : Option Text
  divider : Option Text
  context : List (Text × Text)
  type_onOneLine : IsOnOneLine type
  hint_onOneLine : ∀ t ∈ hint, IsOnOneLine t
  divider_isRule : ∀ l ∈ divider, IsRule l
  context_fits : ∀ e ∈ context, IsName e.1 ∧ IsOnOneLine e.2

/-- The line of an entry. -/
def entryLine (e : Text × Text) : Text := e.1 ++ " : ".toList ++ e.2

/-- The lines of a display. -/
def Display.lines (d : Display) : List Text :=
  ("Goal: ".toList ++ d.type) :: (d.hint.toList.map ("Have: ".toList ++ ·) ++ d.divider.toList ++
    d.context.map entryLine)

instance (t : Text) : Decidable (IsOnOneLine t) :=
  decidable_of_iff ('\n' ∉ t ∧ t.strip = t)
    ⟨fun ⟨hn, hs⟩ => ⟨hn, hs⟩, fun h => ⟨h.newline_not_mem, h.strip_eq⟩⟩

instance (t : Text) : Decidable (IsName t) :=
  decidable_of_iff (t ≠ [] ∧ t.any isBlank = false ∧ ¬ goalWord <+: t ∧ ¬ haveWord <+: t)
    ⟨fun ⟨hne, hb, hg, hh⟩ => ⟨hne, by simpa using hb, hg, hh⟩,
      fun h => ⟨h.ne_nil, by simpa using h.not_blank, h.not_goal, h.not_have⟩⟩

instance (l : Text) : Decidable (IsRule l) :=
  decidable_of_iff (l ≠ [] ∧ l ⊆ ['—', '─', '-', '=', '_'])
    ⟨fun ⟨hne, hd⟩ => ⟨hne, fun _ hc => hd hc⟩, fun h => ⟨h.ne_nil, h.drawn⟩⟩

section Lines

variable {n t l : Text}

theorem IsName.strip_eq (h : IsName n) : n.strip = n := by
  have hsolid : n.IsSolid := by
    refine ⟨?_, ?_⟩
    · obtain ⟨c, r, rfl⟩ := List.exists_cons_of_ne_nil h.ne_nil
      exact ⟨c, r, rfl, h.not_blank c (.head _)⟩
    · obtain ⟨r, c, hn⟩ := (List.eq_nil_or_concat n).resolve_left h.ne_nil
      rw [List.concat_eq_append] at hn
      exact ⟨r, c, hn, h.not_blank c (by simp [hn])⟩
  have hstrip := Text.strip_of_margins (a := []) (b := []) (by simp) hsolid (by simp)
  simpa using hstrip

theorem IsName.space_not_mem (h : IsName n) : ' ' ∉ n := by
  intro hm
  have hspace : isBlank ' ' = true := by decide
  rw [h.not_blank ' ' hm] at hspace
  cases hspace

/-- An entry does not start with a word that its name does not start with. -/
theorem not_startsWith {w : Text} (hw : ' ' ∉ w) (hn : ¬ w <+: n) (r : Text) :
    ¬ Text.startsWith (n ++ ' ' :: r) w = true := by
  intro hstart
  obtain ⟨s, hs⟩ := Text.startsWith_iff.1 hstart
  exact hn (Text.prefix_of_append_cons hw hs)

theorem strip_cons_space (ht : IsOnOneLine t) : Text.strip (' ' :: t) = t := by
  have hspace : isBlank ' ' = true := by decide
  have hleft : Text.stripLeft (' ' :: t) = Text.stripLeft t :=
    Text.stripLeft_append (m := [' ']) (by simp [hspace]) t
  rw [Text.strip, hleft]
  exact ht.strip_eq

/-! ## What lines say -/

namespace DisplayLine

theorem ofText_blank (h : Text.IsMargin l) : ofText l = divider := by
  have hdivider : isDivider l = true :=
    List.all_eq_true.2 fun c hc => by simp [isDividing, (h c hc).1]
  rw [ofText, if_pos hdivider]

theorem ofText_rule (h : IsRule l) : ofText l = divider := by
  have hdivider : isDivider l = true := List.all_eq_true.2 fun c hc => by
    have hc := h.drawn c hc
    simp only [List.mem_cons, List.not_mem_nil, or_false] at hc
    rcases hc with rfl | rfl | rfl | rfl | rfl <;> decide
  rw [ofText, if_pos hdivider]

/-- A line with a character that dividers are not drawn with is none. -/
theorem not_isDivider {c : Char} (hm : c ∈ l) (hc : isDividing c = false) : ¬ isDivider l = true := by
  intro h
  rw [List.all_eq_true.1 h c hm] at hc
  cases hc

theorem ofText_goal (ht : IsOnOneLine t) : ofText ("Goal: ".toList ++ t) = expected t := by
  have hdivider : ¬ isDivider ("Goal: ".toList ++ t) = true :=
    not_isDivider (c := ':') (by simp) (by decide)
  have hstart : Text.startsWith ("Goal: ".toList ++ t) goalWord = true := rfl
  have hafter : Text.after? ':' ("Goal: ".toList ++ t) = some (' ' :: t) := rfl
  rw [ofText, if_neg hdivider, if_pos hstart, hafter]
  exact congrArg expected (strip_cons_space ht)

theorem ofText_hint (t : Text) : ofText ("Have: ".toList ++ t) = hinted := by
  have hdivider : ¬ isDivider ("Have: ".toList ++ t) = true :=
    not_isDivider (c := ':') (by simp) (by decide)
  have hgoal : ¬ Text.startsWith ("Have: ".toList ++ t) goalWord = true := nofun
  have hstart : Text.startsWith ("Have: ".toList ++ t) haveWord = true := rfl
  rw [ofText, if_neg hdivider, if_neg hgoal, if_pos hstart]

/-- The first colon between blanks in the line of an entry is the one behind its name. -/
theorem ofText_entry (hn : IsName n) (ht : IsOnOneLine t) : ofText (entryLine (n, t)) = entry n t := by
  have hline : entryLine (n, t) = n ++ ' ' :: ':' :: ' ' :: t := by simp [entryLine]
  have hdivider : ¬ isDivider (entryLine (n, t)) = true :=
    not_isDivider (c := ':') (by simp [hline]) (by decide)
  have hgoal := not_startsWith (by decide) hn.not_goal (':' :: ' ' :: t)
  have hhave := not_startsWith (by decide) hn.not_have (':' :: ' ' :: t)
  have hsplit : (entryLine (n, t)).splitAt? " : ".toList = some (n, t) := by
    rw [hline]
    exact Text.splitAt?_append (w := [':', ' ']) hn.space_not_mem t
  rw [← hline] at hgoal hhave
  rw [ofText, if_neg hdivider, if_neg hgoal, if_neg hhave, hsplit]
  dsimp only
  rw [hn.strip_eq, ht.strip_eq]

end DisplayLine

end Lines

/-! ## Blank lines -/

/-- `Spaced ls ms`: the lines `ms` are `ls` with blank lines anywhere. -/
inductive Spaced : List Text → List Text → Prop
  | nil : Spaced [] []
  | blank {l : Text} {ls ms : List Text} (hl : l.IsMargin) (h : Spaced ls ms) : Spaced ls (l :: ms)
  | line {l : Text} {ls ms : List Text} (h : Spaced ls ms) : Spaced (l :: ls) (l :: ms)

namespace Spaced

variable {ls ms : List Text}

theorem sublist (h : Spaced ls ms) : ls.Sublist ms := by
  induction h with
  | nil => exact .slnil
  | blank _ _ ih => exact ih.cons _
  | line _ ih => exact ih.cons_cons _

/-- No line feed comes in with blank lines. -/
theorem newline_not_mem (h : Spaced ls ms) (hls : ∀ l ∈ ls, '\n' ∉ l) : ∀ l ∈ ms, '\n' ∉ l := by
  induction h with
  | nil => exact hls
  | blank hl _ ih => exact List.forall_mem_cons.2 ⟨hl.not_mem, ih hls⟩
  | line _ ih =>
    obtain ⟨hl, hls⟩ := List.forall_mem_cons.1 hls
    exact List.forall_mem_cons.2 ⟨hl, ih hls⟩

/-- **Blank lines say nothing.** -/
theorem filterMap_ofText (h : Spaced ls ms) {f : DisplayLine → Option α} (hf : f .divider = none) :
    (ms.map DisplayLine.ofText).filterMap f = (ls.map DisplayLine.ofText).filterMap f := by
  induction h with
  | nil => rfl
  | blank hl _ ih => rw [List.map_cons, DisplayLine.ofText_blank hl, List.filterMap_cons, hf, ih]
  | line _ ih => rw [List.map_cons, List.filterMap_cons, ih, List.map_cons, List.filterMap_cons]

end Spaced

/-! ## Reading displays -/

namespace Display

variable (d : Display)

theorem newline_not_mem_lines : ∀ l ∈ d.lines, '\n' ∉ l := by
  intro l hl
  simp only [lines, List.mem_cons, List.mem_append, List.mem_map, Option.mem_toList] at hl
  rcases hl with rfl | (⟨t, ht, rfl⟩ | hl) | ⟨e, he, rfl⟩
  · simp [d.type_onOneLine.newline_not_mem]
  · simp [(d.hint_onOneLine t ht).newline_not_mem]
  · intro hm
    exact absurd ((d.divider_isRule l hl).drawn _ hm) (by decide)
  · obtain ⟨hn, ht⟩ := d.context_fits e he
    have hname : '\n' ∉ e.1 := fun hm => absurd (hn.not_blank _ hm) (by decide)
    simp [entryLine, hname, ht.newline_not_mem]

/-- What the lines of a display say, one by one. -/
theorem map_ofText_lines : d.lines.map DisplayLine.ofText =
    .expected d.type :: (d.hint.toList.map (fun _ => .hinted) ++
      d.divider.toList.map (fun _ => .divider) ++ d.context.map fun e => .entry e.1 e.2) := by
  have hhint : (d.hint.toList.map ("Have: ".toList ++ ·)).map DisplayLine.ofText =
      d.hint.toList.map fun _ => .hinted := by
    rw [List.map_map]
    exact List.map_congr_left fun t _ => DisplayLine.ofText_hint t
  have hdivider : d.divider.toList.map DisplayLine.ofText = d.divider.toList.map fun _ => .divider :=
    List.map_congr_left fun l hl =>
      DisplayLine.ofText_rule (d.divider_isRule l (Option.mem_toList.1 hl))
  have hcontext : (d.context.map entryLine).map DisplayLine.ofText =
      d.context.map fun e => .entry e.1 e.2 := by
    rw [List.map_map]
    exact List.map_congr_left fun e he =>
      DisplayLine.ofText_entry (d.context_fits e he).1 (d.context_fits e he).2
  rw [lines, List.map_cons, DisplayLine.ofText_goal d.type_onOneLine, List.map_append,
    List.map_append, hhint, hdivider, hcontext]

theorem expected_lines :
    (d.lines.map DisplayLine.ofText).filterMap DisplayLine.expected? = [d.type] := by
  have hcontext : (d.context.map fun e => DisplayLine.entry e.1 e.2).filterMap DisplayLine.expected? =
      [] := by
    rw [List.filterMap_map]
    exact List.filterMap_eq_nil_iff.2 fun e _ => rfl
  rw [map_ofText_lines, List.filterMap_cons, List.filterMap_append, hcontext]
  cases d.hint <;> cases d.divider <;> rfl

theorem inScope_lines :
    (d.lines.map DisplayLine.ofText).filterMap DisplayLine.inScope? = d.context := by
  have hcontext : (d.context.map fun e => DisplayLine.entry e.1 e.2).filterMap DisplayLine.inScope? =
      d.context := by
    rw [List.filterMap_map]
    exact List.filterMap_some
  rw [map_ofText_lines, List.filterMap_cons, List.filterMap_append, hcontext]
  cases d.hint <;> cases d.divider <;> rfl

variable {d} {ls : List Text}

/-- The goal of a display. -/
theorem ofDisplay?_unlines (h : Spaced d.lines ls) (id : Option Int) :
    ofDisplay? id (Text.unlines ls) = some ⟨id, none, d.type, d.context⟩ := by
  have hgoal : "Goal: ".toList ++ d.type ∈ ls := h.sublist.subset (.head _)
  have hlines : (Text.unlines ls).lines = ls :=
    Text.lines_unlines (List.ne_nil_of_mem hgoal) (h.newline_not_mem d.newline_not_mem_lines)
  have hany : (ls.any fun l => l.startsWith goalWord || l.startsWith haveWord) = true :=
    List.any_eq_true.2 ⟨_, hgoal, rfl⟩
  unfold ofDisplay?
  dsimp only
  rw [hlines, if_pos hany, h.filterMap_ofText rfl, h.filterMap_ofText rfl, expected_lines,
    inScope_lines]
  rfl

/-- **A display is read back.**  A unit that is no error and whose body is a display, with blank lines
anywhere, adds the goal displayed, for the given hole, and nothing else. -/
theorem read_back {u : InfoAction} (htitle : ¬ Extractor.errorWord <:+: u.title)
    (hls : Spaced d.lines ls) (hbody : u.body = Text.unlines ls) (hole : Option Int) (x : Extractor) :
    (Extractor.feedActions hole [u]).run x =
      (.ok (), { x with items := x.items ++ [.goal ⟨hole, none, d.type, d.context⟩] }) := by
  have htitle' : ¬ u.title.hasWord Extractor.errorWord = true := mt Text.hasWord_iff.1 htitle
  have hfeed : Extractor.feedAction hole u =
      Extractor.add (.goal ⟨hole, none, d.type, d.context⟩) := by
    rw [Extractor.feedAction, if_neg htitle', hbody, ofDisplay?_unlines hls]
  rw [Extractor.feedActions, hfeed]
  rfl

/-- A display with colons, dashes and the words of a display where they mislead. -/
def misleading : Display where
  type := "Goal : (a : A) ─ Have: B".toList
  hint := some [':']
  divider := some "—─-=_".toList
  context := [([':'], "x : y".toList), (['—'], []), ("Go".toList, "al : -".toList)]
  type_onOneLine := by decide +kernel
  hint_onOneLine := by decide +kernel
  divider_isRule := by decide +kernel
  context_fits := by decide +kernel

/-- Its lines with three blank ones. -/
def misleadingLines : List Text :=
  [[], "Goal: Goal : (a : A) ─ Have: B".toList, "Have: :".toList, "—─-=_".toList, "\t ".toList,
    ": : x : y".toList, "— : ".toList, "Go : al : -".toList, []]

/-- The unit that displays it. -/
def misleadingUnit : InfoAction :=
  ⟨InfoAction.plain, ["*Goal type etc.*".toList, Text.unlines misleadingLines]⟩

theorem read_back_misleading : (Extractor.feedActions (some 2) [misleadingUnit]).run Extractor.empty =
    (.ok (), ⟨[.goal ⟨some 2, none, "Goal : (a : A) ─ Have: B".toList,
      [([':'], "x : y".toList), (['—'], []), ("Go".toList, "al : -".toList)]⟩], []⟩) := by
  have htitle : ¬ Extractor.errorWord <:+: misleadingUnit.title := by decide +kernel
  have hlines : misleading.lines = ["Goal: Goal : (a : A) ─ Have: B".toList, "Have: :".toList,
      "—─-=_".toList, ": : x : y".toList, "— : ".toList, "Go : al : -".toList] := by decide +kernel
  have hspaced : Spaced misleading.lines misleadingLines := by
    rw [hlines]
    exact .blank (by decide) (.line (.line (.line (.blank (by decide) (.line (.line (.line
      (.blank (by decide) .nil))))))))
  exact read_back htitle hspaced rfl (some 2) Extractor.empty

end Display

end Goal

end AgdaFrontEnd
