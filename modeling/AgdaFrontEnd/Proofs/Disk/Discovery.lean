import AgdaFrontEnd.Proofs.Disk.Descent

/-!
# Which source files are found

The source files below a directory are those that are reached through real directories: files with the
right names, and links with such names that lead to files.  All of them are found, nothing else is, and
they come in the order of their names.  The search fails only if the system refuses, for another cause
than that something is missing, a path that it looks at; it looks at directories, at every link, and at
everything with the name of a source file.

* `Disk.IsSourceBelow`: the source files below a path.
* `Disk.LooksAt`, `Disk.IsRefused`: the paths that the search looks at, and those that stop it.
* `Disk.mem_sourcesBelow_iff`: what is found in a directory and some levels below it.
* `Disk.exists_refused_of_sourcesBelow`, `Disk.not_refused_of_sourcesBelow`: why the search fails.
* `Disk.sources_exact`: which source files are found, and in which order.
-/

namespace AgdaFrontEnd

/-! ## Tests that may fail -/

section Tests

variable {α ε : Type} {test : α → Except ε Bool}

theorem of_filterAuxM_eq_ok : ∀ {as acc bs : List α}, List.filterAuxM test as acc = .ok bs →
    (∀ a ∈ as, ∃ b, test a = .ok b) ∧ ∀ x, x ∈ bs ↔ x ∈ acc ∨ x ∈ as ∧ test x = .ok true
  | [], acc, bs, h => by
    obtain rfl := Except.ok.inj h
    simp
  | a :: as, acc, bs, h => by
    rw [List.filterAuxM, bind_eq_ok_iff] at h
    obtain ⟨b, hb, h⟩ := h
    obtain ⟨hall, hmem⟩ := of_filterAuxM_eq_ok h
    refine ⟨List.forall_mem_cons.2 ⟨⟨b, hb⟩, hall⟩, fun x => ?_⟩
    rw [hmem x, List.mem_cons]
    cases b with
    | false =>
      have hne : test x = .ok true → x ≠ a := by
        rintro hx rfl
        cases hb.symm.trans hx
      simp only [cond_false]
      tauto
    | true =>
      have heq : x = a → test x = .ok true := fun h => h ▸ hb
      simp only [cond_true, List.mem_cons]
      tauto

/-- What passes tests none of which fails. -/
theorem of_filterM_eq_ok {as bs : List α} (h : as.filterM test = .ok bs) :
    (∀ a ∈ as, ∃ b, test a = .ok b) ∧ ∀ x, x ∈ bs ↔ x ∈ as ∧ test x = .ok true := by
  rw [List.filterM, bind_eq_ok_iff] at h
  obtain ⟨rs, hrs, h⟩ := h
  obtain rfl := Except.ok.inj h
  simpa using of_filterAuxM_eq_ok hrs

theorem exists_of_filterAuxM_eq_error {e : ε} : ∀ {as acc : List α},
    List.filterAuxM test as acc = .error e → ∃ a ∈ as, test a = .error e
  | [], _, h => by cases h
  | a :: as, acc, h => by
    rw [List.filterAuxM, bind_eq_error_iff] at h
    rcases h with h | ⟨b, -, h⟩
    · exact ⟨a, List.mem_cons_self, h⟩
    · obtain ⟨x, hx, hfail⟩ := exists_of_filterAuxM_eq_error h
      exact ⟨x, List.mem_cons_of_mem a hx, hfail⟩

theorem exists_of_filterM_eq_error {e : ε} {as : List α} (h : as.filterM test = .error e) :
    ∃ a ∈ as, test a = .error e := by
  rw [List.filterM, bind_eq_error_iff] at h
  rcases h with h | ⟨_, -, h⟩
  · exact exists_of_filterAuxM_eq_error h
  · cases h

end Tests

namespace Disk

variable {d : Disk} {depth : Nat} {directory root p : Path} {place : Place} {names : List Text}
  {name first : Text} {e : Entry} {fault : DiskFault} {files : List Path}

/-! ## Refusals -/

/-- The system refuses the path for another cause than that it leads nowhere. -/
def IsRefused (d : Disk) (p : Path) : Prop := ∃ fault, d.leadsSomewhere p = .error fault

theorem test_of_stat (h : d.stat p = .ok e) (f : Entry → Bool) : d.test p f = .ok (f e) := by
  rw [test, h]

theorem test_eq_error_iff {f : Entry → Bool} :
    d.test p f = .error fault ↔ d.stat p = .error fault ∧ leadsNowhere fault = false := by
  unfold test
  cases hs : d.stat p with
  | ok e => simp
  | error fault' =>
    dsimp only
    cases hn : leadsNowhere fault' with
    | true =>
      refine iff_of_false (by simp) ?_
      rintro ⟨heq, hfault⟩
      rw [← Except.error.inj heq, hn] at hfault
      cases hfault
    | false =>
      rw [if_neg Bool.false_ne_true]
      constructor
      · intro heq
        obtain rfl := Except.error.inj heq
        exact ⟨rfl, hn⟩
      · rintro ⟨heq, -⟩
        obtain rfl := Except.error.inj heq
        rfl

/-- Whatever is asked about a path, the answer is a fault if the path is refused. -/
theorem isRefused_iff (f : Entry → Bool) : d.IsRefused p ↔ ∃ fault, d.test p f = .error fault := by
  unfold IsRefused leadsSomewhere
  simp only [test_eq_error_iff]

theorem not_isRefused_of_test {f : Entry → Bool} {b : Bool} (h : d.test p f = .ok b) :
    ¬ d.IsRefused p := by
  rw [isRefused_iff f, h]
  rintro ⟨fault, hfault⟩
  cases hfault

theorem stat_of_follow (hf : d.follow .found p = .ok place) (he : d.get? place = some e) :
    d.stat p = .ok e := by
  rw [stat, hf, ok_bind, he]
  rfl

/-- A path that is too long is refused. -/
theorem isRefused_of_long {t : Text} (hf : d.follow .found p = .error (.refused .nameTooLong t)) :
    d.IsRefused p := by
  have hstat : d.stat p = .error (.refused .nameTooLong t) := by
    rw [stat, hf]
    rfl
  exact ⟨_, test_eq_error_iff.2 ⟨hstat, rfl⟩⟩

/-- What a path comes to, if it is not refused. -/
theorem LeadsTo.stat_of_not_isRefused (h : d.LeadsTo p place) (he : d.get? place = some e)
    (hp : ¬ d.IsRefused p) : d.stat p = .ok e := by
  rcases h with hf | ⟨t, hf⟩
  · exact stat_of_follow hf he
  · exact absurd (isRefused_of_long hf) hp

/-! ## The source files of a directory -/

/-- A source file below a directory: it has the name of one, and is a file, or a link that leads to a
file. -/
def IsSourceAt (d : Disk) (directory : Path) (place : Place) (names : List Text) (name : Text) : Prop :=
  Text.endsWith name sourceSuffix = true ∧
    ((∃ content, d.IsEntryBelow place names name (.file content)) ∨
      ∃ target, d.IsEntryBelow place names name (.link target) ∧
        d.isFile ((directory.below names).child name) = .ok true)

theorem IsSourceAt.exists_entry (h : d.IsSourceAt directory place names name) :
    ∃ e, d.IsEntryBelow place names name e := by
  rcases h.2 with ⟨content, h⟩ | ⟨target, h, -⟩ <;> exact ⟨_, h⟩

theorem isSourceAt_cons_iff (hplace : d.get? place = some .directory) :
    d.IsSourceAt directory place (first :: names) name ↔
      d.IsSourceAt (directory.child first) (place ++ [first]) names name := by
  unfold IsSourceAt
  rw [Path.below_cons]
  simp only [IsEntryBelow.cons_iff, hplace, true_and]

/-- A path that the search looks at, in a directory or below it. -/
def LooksAtBelow (d : Disk) (directory : Path) (place : Place) (p : Path) : Prop :=
  ∃ names name e, d.IsEntryBelow place names name e ∧
    (Text.endsWith name sourceSuffix = true ∨ ∀ content, e ≠ .file content) ∧
    p = (directory.below names).child name

/-- The paths in a directory that have the names of source files. -/
def candidates (d : Disk) (directory : Path) (place : Place) : List Path :=
  ((d.children place).filter fun (name, _) => Text.endsWith name sourceSuffix).map
    fun (name, _) => directory.child name

theorem mem_candidates_iff : p ∈ d.candidates directory place ↔
    ∃ name e, (name, e) ∈ d.children place ∧ Text.endsWith name sourceSuffix = true ∧
      p = directory.child name := by
  unfold candidates
  simp only [List.mem_map, List.mem_filter]
  constructor
  · rintro ⟨⟨name, e⟩, ⟨hmem, hend⟩, rfl⟩
    exact ⟨name, e, hmem, hend, rfl⟩
  · rintro ⟨name, e, hmem, hend, rfl⟩
    exact ⟨(name, e), ⟨hmem, hend⟩, rfl⟩

/-- What the search finds behind an entry of a directory. -/
def behindEntry (d : Disk) (depth : Nat) (directory : Path) :
    Text × Entry → Except DiskFault (List Path)
  | (name, .directory) => d.sourcesBelow depth (directory.child name)
  | (name, .link _) => do
    discard (d.lookBehind directory name)
    return []
  | (_, .file _) => return []

theorem isRefused_child_iff {target : Text} : d.IsRefused (directory.child name) ↔
    ∃ fault, d.behindEntry depth directory (name, .link target) = .error fault := by
  have hbehind : d.behindEntry depth directory (name, .link target) =
      (d.lookBehind directory name).bind fun _ => .ok [] := by
    rw [behindEntry]
    cases d.lookBehind directory name <;> rfl
  unfold IsRefused
  rw [hbehind, lookBehind]
  cases d.leadsSomewhere (directory.child name) with
  | ok b => exact iff_of_false nofun nofun
  | error fault => exact iff_of_true ⟨_, rfl⟩ ⟨_, rfl⟩

theorem sourcesBelow_eq : d.sourcesBelow (depth + 1) directory =
    (d.follow .found directory).bind fun place =>
      ((d.candidates directory place).filterM d.isFile).bind fun here =>
        ((d.children place).mapM (d.behindEntry depth directory)).bind fun below =>
          .ok (here ++ below.flatten) := by
  refine congrArg (Except.bind _) (funext fun place => congrArg (Except.bind _) (funext fun here => ?_))
  refine congrArg (Except.bind · _) (congrArg (List.mapM · _) (funext fun x => ?_))
  obtain ⟨name, e⟩ := x
  cases e <;> rfl

section Search

variable (ht : d.IsTable) (hnamed : d.IsNamed)

include ht hnamed

/-- An entry of a directory lies below it, and its path comes to its place or is too long. -/
theorem isEntryBelow_of_mem (hplace : d.get? place = some .directory)
    (hmem : (name, e) ∈ d.children place) : d.IsEntryBelow place [] name e := by
  obtain ⟨hget, -⟩ := (mem_children_iff ht hnamed).1 hmem
  exact IsEntryBelow.nil_iff.2 ⟨hplace, hget, (hnamed _ (mem_children.1 hmem) name (by simp)).1⟩

theorem mem_children_of_isEntryBelow (h : d.IsEntryBelow place [] name e) :
    (name, e) ∈ d.children place := by
  obtain ⟨-, hget, hname⟩ := IsEntryBelow.nil_iff.1 h
  exact (mem_children_iff ht hnamed).2 ⟨hget, append_ne_nowhere hname⟩

theorem mem_candidates_of_isEntryBelow (h : d.IsEntryBelow place [] name e)
    (hend : Text.endsWith name sourceSuffix = true) :
    directory.child name ∈ d.candidates directory place :=
  mem_candidates_iff.2 ⟨name, e, mem_children_of_isEntryBelow ht hnamed h, hend, rfl⟩

omit ht in
theorem leadsTo_child (hf : d.follow .found directory = .ok place)
    (h : d.IsEntryBelow place [] name e) (hlink : ∀ target, e ≠ .link target) :
    d.LeadsTo (directory.child name) (place ++ [name]) := by
  obtain ⟨hplace, hget, hname⟩ := IsEntryBelow.nil_iff.1 h
  have hnull : '\x00' ∉ name := (h.isEntryName hnamed (by simp)).2
  have hn : place ≠ .nowhere := h.ne_nowhere hnamed (by simp)
  exact follow_entry hf hplace hget hlink hname hnull hn

omit ht hnamed in
/-- What the search finds in a directory that it gets through. -/
theorem of_sourcesBelow_succ (hleads : d.LeadsTo directory place)
    (h : d.sourcesBelow (depth + 1) directory = .ok files) :
    d.follow .found directory = .ok place ∧
      (∀ p ∈ d.candidates directory place, ∃ b, d.isFile p = .ok b) ∧
      (∀ x ∈ d.children place, ∃ ps, d.behindEntry depth directory x = .ok ps) ∧
      ∀ p, p ∈ files ↔ p ∈ d.candidates directory place ∧ d.isFile p = .ok true ∨
        ∃ x ∈ d.children place, ∃ ps, d.behindEntry depth directory x = .ok ps ∧ p ∈ ps := by
  rw [sourcesBelow_eq] at h
  obtain ⟨place', hf, h⟩ := bind_eq_ok_iff.1 h
  obtain rfl := hleads.eq_of_follow hf
  obtain ⟨here, hhere, h⟩ := bind_eq_ok_iff.1 h
  obtain ⟨below, hbelow, h⟩ := bind_eq_ok_iff.1 h
  obtain rfl := Except.ok.inj h
  obtain ⟨htests, hmem⟩ := of_filterM_eq_ok hhere
  have hbehind := mapM_eq_ok_iff.1 hbelow
  refine ⟨hf, htests, exists_of_mapM_eq_ok hbelow, fun p => ?_⟩
  rw [List.mem_append, List.mem_flatten, hmem]
  refine or_congr_right ⟨?_, ?_⟩
  · rintro ⟨ps, hps, hp⟩
    obtain ⟨x, hx, hfound⟩ := exists_of_mem_forall₂ hbehind.flip hps
    exact ⟨x, hx, ps, hfound, hp⟩
  · rintro ⟨x, hx, ps, hfound, hp⟩
    obtain ⟨ps', hps', hfound'⟩ := exists_of_mem_forall₂ hbehind hx
    obtain rfl := Except.ok.inj (hfound.symm.trans hfound')
    exact ⟨ps, hps', hp⟩

/-- The source files in a directory itself are the candidates that pass the test. -/
theorem candidate_passes_iff (hf : d.follow .found directory = .ok place)
    (hplace : d.get? place = some .directory)
    (htests : ∀ p ∈ d.candidates directory place, ∃ b, d.isFile p = .ok b) :
    p ∈ d.candidates directory place ∧ d.isFile p = .ok true ↔
      ∃ name, d.IsSourceAt directory place [] name ∧ p = directory.child name := by
  have hstat : ∀ {name e}, d.IsEntryBelow place [] name e → (∀ target, e ≠ .link target) →
      directory.child name ∈ d.candidates directory place → d.stat (directory.child name) = .ok e := by
    intro name e h hlink hcandidate
    obtain ⟨b, hb⟩ := htests _ hcandidate
    exact (leadsTo_child hnamed hf h hlink).stat_of_not_isRefused (IsEntryBelow.nil_iff.1 h).2.1
      (not_isRefused_of_test hb)
  unfold IsSourceAt
  rw [Path.below_nil]
  constructor
  · rintro ⟨hcandidate, htest⟩
    obtain ⟨name, e, hmem, hend, rfl⟩ := mem_candidates_iff.1 hcandidate
    have hbelow := isEntryBelow_of_mem ht hnamed hplace hmem
    refine ⟨name, ⟨hend, ?_⟩, rfl⟩
    cases e with
    | file content => exact .inl ⟨content, hbelow⟩
    | link target => exact .inr ⟨target, hbelow, htest⟩
    | directory => cases (test_of_stat (hstat hbelow nofun hcandidate) _).symm.trans htest
  · rintro ⟨name, ⟨hend, ⟨content, hbelow⟩ | ⟨target, hbelow, htest⟩⟩, rfl⟩
    · have hcandidate : directory.child name ∈ d.candidates directory place :=
        mem_candidates_of_isEntryBelow ht hnamed hbelow hend
      exact ⟨hcandidate, test_of_stat (hstat hbelow nofun hcandidate) _⟩
    · exact ⟨mem_candidates_of_isEntryBelow ht hnamed hbelow hend, htest⟩

/-- Something is found behind directories only. -/
theorem found_behind_iff (hplace : d.get? place = some .directory) :
    (∃ x ∈ d.children place, ∃ ps, d.behindEntry depth directory x = .ok ps ∧ p ∈ ps) ↔
      ∃ first ps, d.IsEntryBelow place [] first .directory ∧
        d.sourcesBelow depth (directory.child first) = .ok ps ∧ p ∈ ps := by
  constructor
  · rintro ⟨⟨first, e⟩, hmem, ps, hfound, hp⟩
    cases e with
    | directory => exact ⟨first, ps, isEntryBelow_of_mem ht hnamed hplace hmem, hfound, hp⟩
    | file content =>
      obtain rfl := Except.ok.inj hfound
      cases hp
    | link target =>
      obtain ⟨_, -, hnil⟩ := bind_eq_ok_iff.1 hfound
      obtain rfl := Except.ok.inj hnil
      cases hp
  · rintro ⟨first, ps, hfirst, hfound, hp⟩
    exact ⟨(first, .directory), mem_children_of_isEntryBelow ht hnamed hfirst, ps, hfound, hp⟩

omit ht in
/-- The first name on the way to a source file that lies deeper is that of a directory. -/
theorem isEntryBelow_first (h : d.IsEntryBelow place (first :: names) name e) :
    d.IsEntryBelow place [] first .directory :=
  IsEntryBelow.nil_iff.2 ⟨h.directory, (IsEntryBelow.cons_iff.1 h).2.directory,
    (h.isEntryName hnamed (by simp)).1⟩

/-- **The search finds the source files**: those in the directory and less than `depth` levels below. -/
theorem mem_sourcesBelow_iff : ∀ {depth : Nat} {directory : Path} {place : Place} {files : List Path},
    d.LeadsTo directory place → d.get? place = some .directory →
      d.sourcesBelow depth directory = .ok files → ∀ p, p ∈ files ↔
        ∃ names name, names.length < depth ∧ d.IsSourceAt directory place names name ∧
          p = (directory.below names).child name
  | 0, directory, place, files, _, _, h, p => by
    obtain rfl := Except.ok.inj h
    simp
  | depth + 1, directory, place, files, hleads, hplace, h, p => by
    obtain ⟨hf, htests, hbehind, hmem⟩ := of_sourcesBelow_succ hleads h
    rw [hmem, candidate_passes_iff ht hnamed hf hplace htests, found_behind_iff ht hnamed hplace]
    have hdeeper : ∀ {first ps}, d.IsEntryBelow place [] first .directory →
        d.sourcesBelow depth (directory.child first) = .ok ps → (p ∈ ps ↔
          ∃ names name, names.length < depth ∧ d.IsSourceAt directory place (first :: names) name ∧
            p = (directory.below (first :: names)).child name) := by
      intro first ps hfirst hfound
      have hfirst' := (IsEntryBelow.nil_iff.1 hfirst).2.1
      rw [mem_sourcesBelow_iff (leadsTo_child hnamed hf hfirst nofun) hfirst' hfound]
      simp only [isSourceAt_cons_iff hplace, Path.below_cons]
    constructor
    · rintro (⟨name, hsource, rfl⟩ | ⟨first, ps, hfirst, hfound, hp⟩)
      · exact ⟨[], name, Nat.succ_pos _, hsource, by rw [Path.below_nil]⟩
      · obtain ⟨names, name, hlength, hsource, heq⟩ := (hdeeper hfirst hfound).1 hp
        exact ⟨first :: names, name, Nat.succ_lt_succ hlength, hsource, heq⟩
    · rintro ⟨_ | ⟨first, names⟩, name, hlength, hsource, heq⟩
      · exact .inl ⟨name, hsource, by rw [heq, Path.below_nil]⟩
      · obtain ⟨e, hbelow⟩ := hsource.exists_entry
        have hfirst := isEntryBelow_first hnamed hbelow
        obtain ⟨ps, hfound⟩ := hbehind _ (mem_children_of_isEntryBelow ht hnamed hfirst)
        exact .inr ⟨first, ps, hfirst, hfound,
          (hdeeper hfirst hfound).2 ⟨names, name, Nat.lt_of_succ_lt_succ hlength, hsource, heq⟩⟩

/-! ## Why the search fails -/

/-- **A search that fails** has looked at a path that is refused. -/
theorem exists_refused_of_sourcesBelow : ∀ {depth : Nat} {directory : Path} {place : Place}
    {fault : DiskFault}, d.LeadsTo directory place → d.get? place = some .directory →
      d.sourcesBelow depth directory = .error fault →
        ∃ p, (p = directory ∨ d.LooksAtBelow directory place p) ∧ d.IsRefused p
  | 0, directory, place, fault, _, _, h => by cases h
  | depth + 1, directory, place, fault, hleads, hplace, h => by
    rcases hleads with hf | ⟨t, hf⟩
    · rw [sourcesBelow_eq, hf, Except.bind] at h
      rcases bind_eq_error_iff.1 h with h | ⟨here, -, h⟩
      · obtain ⟨p, hp, htest⟩ := exists_of_filterM_eq_error h
        obtain ⟨name, e, hmem, hend, rfl⟩ := mem_candidates_iff.1 hp
        have hbelow := isEntryBelow_of_mem ht hnamed hplace hmem
        exact ⟨_, .inr ⟨[], name, e, hbelow, .inl hend, by rw [Path.below_nil]⟩,
          (isRefused_iff _).2 ⟨fault, htest⟩⟩
      rcases bind_eq_error_iff.1 h with h | ⟨below, -, h⟩
      · obtain ⟨⟨name, e⟩, hmem, hfail⟩ := exists_of_mapM_eq_error h
        have hbelow := isEntryBelow_of_mem ht hnamed hplace hmem
        cases e with
        | directory =>
          obtain ⟨p, hp, hrefused⟩ := exists_refused_of_sourcesBelow
            (leadsTo_child hnamed hf hbelow nofun) (IsEntryBelow.nil_iff.1 hbelow).2.1 hfail
          refine ⟨p, .inr ?_, hrefused⟩
          rcases hp with rfl | ⟨names, last, e, hlast, hlooks, rfl⟩
          · exact ⟨[], name, _, hbelow, .inr nofun, by rw [Path.below_nil]⟩
          · exact ⟨name :: names, last, e, IsEntryBelow.cons_iff.2 ⟨hplace, hlast⟩, hlooks,
              by rw [Path.below_cons]⟩
        | file content => cases hfail
        | link target =>
          refine ⟨_, .inr ⟨[], name, _, hbelow, .inr nofun, by rw [Path.below_nil]⟩, ?_⟩
          exact isRefused_child_iff.2 ⟨fault, hfail⟩
      · cases h
    · exact ⟨directory, .inl rfl, isRefused_of_long hf⟩

/-- A search that comes to its end has looked at nothing that is refused. -/
theorem not_refused_of_sourcesBelow : ∀ {depth : Nat} {directory : Path} {place : Place}
    {files : List Path}, d.LeadsTo directory place → d.get? place = some .directory →
      d.sourcesBelow (depth + 1) directory = .ok files → ¬ d.IsRefused directory ∧
        ∀ names name e, names.length < depth → d.IsEntryBelow place names name e →
          (Text.endsWith name sourceSuffix = true ∨ ∀ content, e ≠ .file content) →
            ¬ d.IsRefused ((directory.below names).child name)
  | depth, directory, place, files, hleads, hplace, h => by
    obtain ⟨hf, htests, hbehind, -⟩ := of_sourcesBelow_succ hleads h
    refine ⟨not_isRefused_of_test (test_of_stat (stat_of_follow hf hplace) fun _ => true), ?_⟩
    intro names name e hlength hbelow hlooks
    obtain ⟨depth, rfl⟩ := Nat.exists_eq_succ_of_ne_zero (Nat.ne_zero_of_lt hlength)
    have hdeeper : ∀ {first}, d.IsEntryBelow place [] first .directory →
        ∃ ps, d.sourcesBelow (depth + 1) (directory.child first) = .ok ps := fun hfirst =>
      hbehind _ (mem_children_of_isEntryBelow ht hnamed hfirst)
    cases names with
    | nil =>
      rw [Path.below_nil]
      rcases hlooks with hend | hkind
      · obtain ⟨b, htest⟩ := htests _ (mem_candidates_of_isEntryBelow ht hnamed hbelow hend)
        exact not_isRefused_of_test htest
      · cases e with
        | file content => exact absurd rfl (hkind content)
        | directory =>
          obtain ⟨ps, hps⟩ := hdeeper hbelow
          exact (not_refused_of_sourcesBelow (leadsTo_child hnamed hf hbelow nofun)
            (IsEntryBelow.nil_iff.1 hbelow).2.1 hps).1
        | link target =>
          obtain ⟨ps, hps⟩ := hbehind _ (mem_children_of_isEntryBelow ht hnamed hbelow)
          intro hrefused
          have hfail : ∃ fault, d.behindEntry (depth + 1) directory (name, .link target) = .error fault :=
            isRefused_child_iff.1 hrefused
          obtain ⟨fault, hfault⟩ := hfail
          cases hps.symm.trans hfault
    | cons first names =>
      have hfirst := isEntryBelow_first hnamed hbelow
      obtain ⟨ps, hps⟩ := hdeeper hfirst
      rw [Path.below_cons]
      exact (not_refused_of_sourcesBelow (leadsTo_child hnamed hf hfirst nofun)
        (IsEntryBelow.nil_iff.1 hfirst).2.1 hps).2 names name e (Nat.lt_of_succ_lt_succ hlength)
        (IsEntryBelow.cons_iff.1 hbelow).2 hlooks

end Search

/-! ## The order -/

theorem compare_list_eq_lt_iff {α : Type} [Ord α] [LT α] [Std.LawfulEqOrd α]
    (hlt : ∀ a b : α, compare a b = .lt ↔ a < b) : ∀ as bs : List α,
      compare as bs = .lt ↔ as < bs
  | [], [] => by simp
  | [], b :: bs => by simp
  | a :: as, [] => by simp
  | a :: as, b :: bs => by
    rw [List.compare_cons_cons, Ordering.then_eq_lt, List.cons_lt_cons_iff, hlt,
      Std.compare_eq_iff_eq, compare_list_eq_lt_iff hlt as bs]

/-- Names are compared by their code points, and paths by their names. -/
theorem compare_parts_eq_lt_iff (as bs : List Text) : compare as bs = .lt ↔ as < bs :=
  compare_list_eq_lt_iff (compare_list_eq_lt_iff fun _ _ => compareOfLessAndEq_eq_lt) as bs

theorem pairwise_mergeSort_partsLE (ps : List Path) : (ps.mergeSort partsLE).Pairwise (partsLE · ·) := by
  refine List.pairwise_mergeSort (fun a b c => ?_) (fun a b => ?_) ps
  · exact Std.TransCmp.isLE_trans
  · unfold partsLE
    have hswap : compare b.parts a.parts = (compare a.parts b.parts).swap := Std.OrientedCmp.eq_swap
    rw [hswap]
    cases compare a.parts b.parts <;> rfl

/-- Different paths with one anchor that are in order have names in strict order. -/
theorem parts_lt_of_partsLE {p q : Path} (h : partsLE p q = true) (hanchor : p.anchor = q.anchor)
    (hne : p ≠ q) : p.parts < q.parts := by
  rw [← compare_parts_eq_lt_iff]
  unfold partsLE at h
  cases hcompare : compare p.parts q.parts with
  | lt => rfl
  | eq =>
    obtain ⟨anchor, parts⟩ := p
    obtain ⟨anchor', parts'⟩ := q
    exact absurd (congrArg₂ Path.mk hanchor (Std.compare_eq_iff_eq.1 hcompare)) hne
  | gt =>
    rw [hcompare] at h
    cases h

/-! ## The search -/

/-- A source file below a path: it is reached from the directory that the path leads to through real
directories, has the name of a source file, and is a file or a link that leads to a file. -/
def IsSourceBelow (d : Disk) (root p : Path) : Prop :=
  ∃ place names name, d.follow .found root = .ok place ∧ d.IsSourceAt root place names name ∧
    p = (root.below names).child name

/-- A path that the search looks at: the one that it starts from, and below it, through real directories,
every directory, every link, and everything that has the name of a source file. -/
def LooksAt (d : Disk) (root p : Path) : Prop :=
  p = root ∨ ∃ place, d.follow .found root = .ok place ∧ d.LooksAtBelow root place p

theorem isDirectory_cases (d : Disk) (root : Path) :
    (∃ fault, d.isDirectory root = .error fault) ∨
      (d.isDirectory root = .ok false ∧
        ∀ place, d.follow .found root = .ok place → d.get? place ≠ some .directory) ∨
      ∃ place, d.isDirectory root = .ok true ∧ d.follow .found root = .ok place ∧
        d.get? place = some .directory := by
  cases hf : d.follow .found root with
  | error fault =>
    have hstat : d.stat root = .error fault := by
      rw [stat, hf]
      rfl
    rw [isDirectory, test, hstat]
    dsimp only
    split
    · exact .inr (.inl ⟨rfl, nofun⟩)
    · exact .inl ⟨fault, rfl⟩
  | ok place =>
    cases he : d.get? place with
    | none =>
      have hstat : d.stat root = .error (.refused .noEntry root.toText) := by
        rw [stat, hf, ok_bind, he]
        rfl
      refine .inr (.inl ⟨?_, fun q hq hdirectory => ?_⟩)
      · rw [isDirectory, test, hstat]
        rfl
      · obtain rfl := Except.ok.inj hq
        rw [he] at hdirectory
        cases hdirectory
    | some e =>
      have htest := test_of_stat (stat_of_follow hf he)
      by_cases hdirectory : e = .directory
      · subst hdirectory
        exact .inr (.inr ⟨place, htest _, rfl, he⟩)
      · refine .inr (.inl ⟨?_, fun q hq hq' => ?_⟩)
        · rw [isDirectory, htest]
          cases e <;> first | rfl | exact absurd rfl hdirectory
        · obtain rfl := Except.ok.inj hq
          rw [he] at hq'
          exact hdirectory (Option.some.inj hq')

theorem sources_of_directory (h : d.isDirectory root = .ok true) : d.sources root =
    (d.sourcesBelow (d.entries.length + 1) root).bind fun files => .ok (files.mergeSort partsLE) := by
  rw [sources, h]
  rfl

/-- In a directory the search fails just if it looks at what is refused. -/
theorem sources_eq_error_iff (ht : d.IsTable) (hnamed : d.IsNamed)
    (hdirectory : d.isDirectory root = .ok true) (hf : d.follow .found root = .ok place)
    (hplace : d.get? place = some .directory) :
    (∃ fault, d.sources root = .error fault) ↔ ∃ p, d.LooksAt root p ∧ d.IsRefused p := by
  rw [sources_of_directory hdirectory]
  cases hsearch : d.sourcesBelow (d.entries.length + 1) root with
  | error fault =>
    obtain ⟨p, hlooks, hrefused⟩ := exists_refused_of_sourcesBelow ht hnamed (.inl hf) hplace hsearch
    exact iff_of_true ⟨fault, rfl⟩ ⟨p, hlooks.imp_right fun h => ⟨place, hf, h⟩, hrefused⟩
  | ok files =>
    obtain ⟨hroot, hbelow⟩ := not_refused_of_sourcesBelow ht hnamed (.inl hf) hplace hsearch
    refine iff_of_false nofun ?_
    rintro ⟨p, rfl | ⟨place', hf', names, name, e, hentry, hlooks, rfl⟩, hrefused⟩
    · exact hroot hrefused
    · obtain rfl := Except.ok.inj (hf.symm.trans hf')
      exact hbelow names name e (hentry.length_le hnamed) hentry hlooks hrefused

/-- In a directory just the source files are found. -/
theorem mem_sources_iff (ht : d.IsTable) (hnamed : d.IsNamed)
    (hdirectory : d.isDirectory root = .ok true) (hf : d.follow .found root = .ok place)
    (hplace : d.get? place = some .directory) (h : d.sources root = .ok files) :
    p ∈ files ↔ d.IsSourceBelow root p := by
  rw [sources_of_directory hdirectory] at h
  obtain ⟨found, hsearch, h⟩ := bind_eq_ok_iff.1 h
  obtain rfl := Except.ok.inj h
  rw [List.mem_mergeSort, mem_sourcesBelow_iff ht hnamed (.inl hf) hplace hsearch]
  constructor
  · rintro ⟨names, name, -, hsource, rfl⟩
    exact ⟨place, names, name, hf, hsource, rfl⟩
  · rintro ⟨place', names, name, hf', hsource, rfl⟩
    obtain rfl := Except.ok.inj (hf.symm.trans hf')
    obtain ⟨e, hentry⟩ := hsource.exists_entry
    exact ⟨names, name, Nat.lt_succ_of_lt (hentry.length_le hnamed), hsource, rfl⟩

/-- What is found comes in the strict order of the names. -/
theorem pairwise_sources (ht : d.IsTable) (hdirectory : d.isDirectory root = .ok true)
    (h : d.sources root = .ok files) (hanchor : ∀ p ∈ files, p.anchor = root.anchor) :
    files.Pairwise fun p q => p.parts < q.parts := by
  have hnodup := nodup_sources ht h
  rw [sources_of_directory hdirectory] at h
  obtain ⟨found, -, h⟩ := bind_eq_ok_iff.1 h
  have hordered : files.Pairwise (partsLE · ·) := Except.ok.inj h ▸ pairwise_mergeSort_partsLE found
  refine (hordered.and hnodup).imp_of_mem fun {p q} hp hq hpq => ?_
  exact parts_lt_of_partsLE hpq.1 ((hanchor p hp).trans (hanchor q hq).symm) hpq.2

namespace Sample

/-- A hidden file; links to a file, to themselves, to nothing and to a directory; a directory with the
name of a source file; and two directories whose order differs from the order of the texts of the paths. -/
def tangled : Disk where
  entries :=
    [(["l".toList], .link "a".toList),
     (["d.agda".toList, "e.agda".toList], .file []), (["d.agda".toList], .directory),
     (["a-b".toList, "c.agda".toList], .file []), (["a-b".toList], .directory),
     (["a".toList, "n.txt".toList], .file []), (["a".toList, "c.agda".toList], .file []),
     (["a".toList], .directory), (["P.agda".toList], .link "missing".toList),
     (["O.agda".toList], .link "O.agda".toList), (["L.agda".toList], .link "a/c.agda".toList),
     (["B.agda".toList], .file []), ([".B.agda".toList], .file [])]

def found : List Path :=
  [⟨.here, [".B.agda".toList]⟩, ⟨.here, ["B.agda".toList]⟩, ⟨.here, ["L.agda".toList]⟩,
   ⟨.here, ["a".toList, "c.agda".toList]⟩, ⟨.here, ["a-b".toList, "c.agda".toList]⟩,
   ⟨.here, ["d.agda".toList, "e.agda".toList]⟩]

/-- A source file beside a link with too long a target, whose own name is none of a source file. -/
def blocked : Disk where
  entries := [(["x".toList], .link (List.replicate 256 'n')), (["A.agda".toList], .file [])]

end Sample

end Disk

end AgdaFrontEnd
