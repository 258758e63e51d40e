import AgdaFrontEnd.CommandLine.Options

/-!
# How arguments are read

Arguments are told apart first, and taken one by one then.  A text that does not start like an option
is a positional argument, whatever stands before it.

* `Grammar.parse_concat`: reading arguments with a positional one at their end.
* `Grammar.consume_flag`: a flag is taken by itself.
* `Invocation.ofArguments_concat`: reading a command with a file behind its options.
-/

namespace AgdaFrontEnd

namespace Grammar

variable (g : Grammar) {t : Text}

theorem classify_of_head (h : t.head? ≠ some '-') : g.classify t = .ok (.plain t) := by
  unfold classify
  split
  · simp at h
  · rfl

theorem classifyAll_concat (h : t.head? ≠ some '-') : ∀ {ts : List Text} {as : List Argument},
    endMark ∉ ts → g.classifyAll ts = .ok as → g.classifyAll (ts ++ [t]) = .ok (as ++ [.plain t])
  | [], as, _, has => by
    have hmark : t ≠ endMark := by
      rintro rfl
      exact h rfl
    cases has
    rw [List.nil_append, classifyAll, if_neg hmark, classify_of_head g h]
    rfl
  | s :: ts, as, hts, has => by
    have hs : s ≠ endMark := fun heq => hts (heq ▸ .head ts)
    rw [classifyAll, if_neg hs] at has
    rw [List.cons_append, classifyAll, if_neg hs]
    cases ha : g.classify s with
    | error e =>
      rw [ha] at has
      cases has
    | ok a =>
      rw [ha] at has
      cases hrest : g.classifyAll ts with
      | error e =>
        rw [hrest] at has
        cases has
      | ok as' =>
        rw [hrest] at has
        cases has
        rw [classifyAll_concat h (fun hm => hts (.tail _ hm)) hrest]
        rfl

/-- **A text that does not start like an option** is a positional argument behind the others. -/
theorem parse_concat (h : t.head? ≠ some '-') {ts : List Text} {as : List Argument}
    (hts : endMark ∉ ts) (has : g.classifyAll ts = .ok as) :
    g.parse (ts ++ [t]) = g.consume (as ++ [.plain t]) {} := by
  rw [parse, classifyAll_concat g h hts has]
  rfl

/-- A flag is taken by itself. -/
theorem consume_flag {names : List Text} {name : Text} (as : List Argument) (p : Parsed) :
    g.consume (.option ⟨names, .flag⟩ name none t :: as) p =
      g.consume as { p with given := (names.head?.getD [], none) :: p.given } := by
  rw [consume]
  rfl

end Grammar

/-- **A command with a file behind its options** is read by the grammar of the command, if the name of
the file does not start like an option. -/
theorem Invocation.ofArguments_concat {name file : Text} {ts : List Text} {g : Grammar}
    {request : Parsed → Request} {as bs : List Argument} {p : Parsed} (h : file.head? ≠ some '-')
    (hmark : Grammar.endMark ∉ name :: ts)
    (hname : List.lookup name CommandLine.commands = some (g, request))
    (htop : CommandLine.top.classifyAll (name :: ts) = .ok as)
    (hcommand : CommandLine.top.consume (as ++ [.plain file]) {} =
      .ok { positional := some (some name), rest := ts ++ [file] })
    (hoptions : g.classifyAll ts = .ok bs) (hread : g.consume (bs ++ [.plain file]) {} = .ok p)
    (hextras : p.extras = []) :
    ofArguments (name :: (ts ++ [file])) = .ok ⟨none, false, some (request p)⟩ := by
  have hparse := (CommandLine.top.parse_concat h hmark htop).trans hcommand
  have hrest := (g.parse_concat h (fun hm => hmark (.tail _ hm)) hoptions).trans hread
  rw [List.cons_append] at hparse
  unfold ofArguments
  rw [hparse]
  simp only [bind, Except.bind, Option.join_some, hname, hrest, pure, Except.pure, hextras]
  rfl

end AgdaFrontEnd
