import AgdaFrontEnd.Proofs.Disk.Change

/-!
# Walking along names

A walk from a directory along names comes to a place or fails.  What it does at each name is told by
one equation for every case; the rest follows from these by induction on the names.

* `Disk.Passes`: nothing stands in the way of a walk at the name of an entry.
* `Disk.Goes`, `Disk.goes_of_walk`: the ways in which a walk to a name goes on.
* `Disk.IsPartOf`: a file system all of which is found in another one.  `Disk.follow_of_part`: a path
  comes to the same place where there is more.
* `Disk.follow_found`, `Disk.follow_child`: the places that a path comes to if links are followed, or if
  one more name stands behind.
* `Disk.exists_follow_last`: a path that ends with the name of an entry.
* `Disk.walkLinks_before`: the way to what is there leads through what is there.
-/

namespace AgdaFrontEnd

namespace Disk

/-! ## At a name -/

/-- The name is that of an entry: it is not empty and no dots. -/
def IsEntryName (name : Text) : Prop := ¬(name = [] ∨ name = ['.']) ∧ name ≠ ['.', '.']

instance (name : Text) : Decidable (IsEntryName name) := inferInstanceAs (Decidable (_ ∧ _))

/-- The name of an entry stands in no place that no path leads to. -/
theorem append_ne_nowhere {here : Place} {name : Text} (h : IsEntryName name) :
    here ++ [name] ≠ .nowhere := by
  intro heq
  have hlast := congrArg List.getLast? heq
  exact h.1 (.inl (by simpa [Place.nowhere] using hlast))

/-- Nothing stands in the way of a walk at the name of an entry, with the names `rest` behind it. -/
structure Passes (d : Disk) (ending : Ending) (here : Place) (name : Text) (rest : List Text) :
    Prop where
  directory : d.get? here = some .directory
  entryName : IsEntryName name
  ne_nowhere : here ≠ .nowhere
  not_file : ¬(ending = .file ∧ rest = [[]])
  not_long : ¬nameLimit < (Utf8.encode name).length

section Walk

variable {d : Disk} {ending : Ending} {enter : Place → List Text → Except Refusal Place}
  {here r : Place} {name : Text} {rest : List Text} {e : Entry} {target : Text}

theorem walk_nothing (hd : d.get? here = none) :
    walk d ending enter here (name :: rest) = .error .noEntry := by
  rw [walk, hd]

theorem walk_directory (h : walk d ending enter here (name :: rest) = .ok r) :
    d.get? here = some .directory := by
  rw [walk] at h
  split at h
  · cases h
  · cases h
  · cases h
  · assumption

theorem walk_stay (hd : d.get? here = some .directory) (hs : name = [] ∨ name = ['.']) :
    walk d ending enter here (name :: rest) = walk d ending enter here rest := by
  rw [walk, hd]
  exact if_pos hs

theorem walk_up (hd : d.get? here = some .directory) :
    walk d ending enter here (['.', '.'] :: rest) = walk d ending enter (d.above here) rest := by
  rw [walk, hd]
  rfl

theorem walk_nowhere (hname : IsEntryName name) :
    walk d ending enter .nowhere (name :: rest) = .error .noEntry := by
  rw [walk, get?_nowhere]
  dsimp only
  rw [if_neg hname.1, if_neg hname.2, if_pos rfl]

theorem walk_long (hd : d.get? here = some .directory) (hname : IsEntryName name)
    (hn : here ≠ .nowhere) (hfile : ¬(ending = .file ∧ rest = [[]]))
    (hlong : nameLimit < (Utf8.encode name).length) :
    walk d ending enter here (name :: rest) = .error .nameTooLong := by
  rw [walk, hd]
  dsimp only
  rw [if_neg hname.1, if_neg hname.2, if_neg hn, if_neg hfile, if_pos hlong]

/-- What is in the way of a walk is in the way whatever stands behind. -/
theorem exists_obstacle_or_directory (d : Disk) (here : Place) (name : Text) :
    (∃ c, ∀ ending enter rest, walk d ending enter here (name :: rest) = .error c) ∨
      d.get? here = some .directory := by
  cases hd : d.get? here with
  | none => exact .inl ⟨.noEntry, fun _ _ _ => walk_nothing hd⟩
  | some e =>
    cases e with
    | directory => exact .inr rfl
    | file content => exact .inl ⟨.notDirectory, fun _ _ _ => by rw [walk, hd]⟩
    | link target => exact .inl ⟨.notDirectory, fun _ _ _ => by rw [walk, hd]⟩

theorem exists_obstacle_or_passes (hd : d.get? here = some .directory) (hname : IsEntryName name) :
    (∃ c, ∀ ending enter rest, ¬(ending = .file ∧ rest = [[]]) →
        walk d ending enter here (name :: rest) = .error c) ∨
      ∀ ending rest, ¬(ending = .file ∧ rest = [[]]) → d.Passes ending here name rest := by
  by_cases hn : here = .nowhere
  · subst hn
    exact .inl ⟨.noEntry, fun _ _ _ _ => walk_nowhere hname⟩
  · by_cases hlong : nameLimit < (Utf8.encode name).length
    · exact .inl ⟨.nameTooLong, fun _ _ _ hfile => walk_long hd hname hn hfile hlong⟩
    · exact .inr fun _ rest hfile => ⟨hd, hname, hn, hfile, hlong⟩

theorem Passes.walk_eq (h : d.Passes ending here name rest) :
    walk d ending enter here (name :: rest) = match d.get? (here ++ [name]) with
      | some (.link target) =>
        if ending = .name ∧ rest = [] then .ok (here ++ [name])
        else enter (targetStart here target) (targetParts target ++ rest)
      | some _ => walk d ending enter (here ++ [name]) rest
      | none => if rest.isEmpty then .ok (here ++ [name]) else .error .noEntry := by
  rw [walk, h.directory]
  exact (if_neg h.entryName.1).trans ((if_neg h.entryName.2).trans ((if_neg h.ne_nowhere).trans
    ((if_neg h.not_file).trans (if_neg h.not_long))))

theorem Passes.walk_none (h : d.Passes ending here name rest) (hget : d.get? (here ++ [name]) = none) :
    walk d ending enter here (name :: rest) =
      if rest.isEmpty then .ok (here ++ [name]) else .error .noEntry := by
  rw [h.walk_eq, hget]

theorem Passes.walk_entry (h : d.Passes ending here name rest)
    (hget : d.get? (here ++ [name]) = some e) (he : ∀ target, e ≠ .link target) :
    walk d ending enter here (name :: rest) = walk d ending enter (here ++ [name]) rest := by
  rw [h.walk_eq, hget]
  cases e with
  | link target => exact absurd rfl (he target)
  | directory => rfl
  | file content => rfl

theorem Passes.walk_link (h : d.Passes ending here name rest)
    (hget : d.get? (here ++ [name]) = some (.link target)) (hne : ¬(ending = .name ∧ rest = [])) :
    walk d ending enter here (name :: rest) =
      enter (targetStart here target) (targetParts target ++ rest) := by
  rw [h.walk_eq, hget]
  exact if_neg hne

/-- A walk to a name ends at the last name, whatever is there. -/
theorem Passes.walk_name (h : d.Passes .name here name []) :
    walk d .name enter here [name] = .ok (here ++ [name]) := by
  rw [h.walk_eq]
  split
  · exact if_pos ⟨rfl, rfl⟩
  · rw [walk]
  · rfl

end Walk

/-- What a walk to a name does at the first of several names, if it comes to the place `r`. -/
inductive Goes (d : Disk) (enter : Place → List Text → Except Refusal Place) (here : Place) :
    Text → List Text → Place → Prop
  | stay {name : Text} {rest : List Text} {r : Place} (hd : d.get? here = some .directory)
      (hs : name = [] ∨ name = ['.']) (hgo : walk d .name enter here rest = .ok r) :
      Goes d enter here name rest r
  | up {rest : List Text} {r : Place} (hd : d.get? here = some .directory)
      (hgo : walk d .name enter (d.above here) rest = .ok r) : Goes d enter here ['.', '.'] rest r
  /-- The walk ends at the last name, whatever is there. -/
  | last {name : Text} (hpass : d.Passes .name here name []) :
      Goes d enter here name [] (here ++ [name])
  | link {name : Text} {rest : List Text} {r : Place} {target : Text}
      (hpass : d.Passes .name here name rest) (hne : rest ≠ [])
      (hget : d.get? (here ++ [name]) = some (.link target))
      (hgo : enter (targetStart here target) (targetParts target ++ rest) = .ok r) :
      Goes d enter here name rest r
  | entry {name : Text} {rest : List Text} {r : Place} {e : Entry}
      (hpass : d.Passes .name here name rest) (hne : rest ≠ [])
      (hget : d.get? (here ++ [name]) = some e) (he : ∀ target, e ≠ .link target)
      (hgo : walk d .name enter (here ++ [name]) rest = .ok r) : Goes d enter here name rest r

/-- **A walk to a name** goes on in one of five ways. -/
theorem goes_of_walk {d : Disk} {enter : Place → List Text → Except Refusal Place} {here r : Place}
    {name : Text} {rest : List Text} (h : walk d .name enter here (name :: rest) = .ok r) :
    d.Goes enter here name rest r := by
  have hd := walk_directory h
  by_cases hs : name = [] ∨ name = ['.']
  · rw [walk_stay hd hs] at h
    exact .stay hd hs h
  · by_cases hu : name = ['.', '.']
    · subst hu
      rw [walk_up hd] at h
      exact .up hd h
    · have hpass : d.Passes .name here name rest := by
        obtain ⟨c, hc⟩ | hpass := exists_obstacle_or_passes hd ⟨hs, hu⟩
        · cases (hc _ enter rest (by simp)).symm.trans h
        · exact hpass _ rest (by simp)
      by_cases hrest : rest = []
      · subst hrest
        rw [hpass.walk_name] at h
        obtain rfl := Except.ok.inj h
        exact .last hpass
      · cases hget : d.get? (here ++ [name]) with
        | none =>
          rw [hpass.walk_none hget, if_neg (by simpa using hrest)] at h
          cases h
        | some e =>
          by_cases hlink : ∃ target, e = .link target
          · obtain ⟨target, rfl⟩ := hlink
            rw [hpass.walk_link hget fun hnil => hrest hnil.2] at h
            exact .link hpass hrest hget h
          · rw [hpass.walk_entry hget (not_exists.1 hlink)] at h
            exact .entry hpass hrest hget (not_exists.1 hlink) h

/-! ## More than there was -/

/-- What the first way of entering links comes to, the second one comes to as well. -/
def Extends (enter enter' : Place → List Text → Except Refusal Place) : Prop :=
  ∀ here names r, enter here names = .ok r → enter' here names = .ok r

end Disk

/-- The entries are of the same kind, with the same target if they are links.  What files hold does
not matter. -/
def Entry.Alike : Entry → Entry → Prop
  | .file _, .file _ => True
  | e, e' => e = e'

theorem Entry.Alike.refl (e : Entry) : e.Alike e := by
  cases e <;> trivial

theorem Entry.Alike.eq_or_files {e e' : Entry} (h : e.Alike e') :
    e' = e ∨ ∃ content content', e = .file content ∧ e' = .file content' := by
  cases e with
  | file content =>
    cases e' with
    | file content' => exact .inr ⟨content, content', rfl, rfl⟩
    | directory => cases h
    | link target => cases h
  | directory => exact .inl (Eq.symm h)
  | link target => exact .inl (Eq.symm h)

namespace Disk

/-- All of the first file system is found in the second one. -/
structure IsPartOf (d d' : Disk) : Prop where
  current : d.current = d'.current
  alike : ∀ {q e}, d.get? q = some e → ∃ e', d'.get? q = some e' ∧ e.Alike e'

section Part

variable {d d' : Disk} {enter enter' : Place → List Text → Except Refusal Place} {q : Place}
  {e : Entry}

theorem IsPartOf.above (h : d.IsPartOf d') (here : Place) : d.above here = d'.above here := by
  unfold Disk.above
  rw [h.current]

theorem IsPartOf.get?_of_not_file (h : d.IsPartOf d') (hq : d.get? q = some e)
    (he : ∀ content, e ≠ .file content) : d'.get? q = some e := by
  obtain ⟨e', hq', halike⟩ := h.alike hq
  rcases halike.eq_or_files with rfl | ⟨content, -, rfl, -⟩
  · exact hq'
  · exact absurd rfl (he content)

theorem IsPartOf.directory (h : d.IsPartOf d') (hq : d.get? q = some .directory) :
    d'.get? q = some .directory := h.get?_of_not_file hq nofun

theorem IsPartOf.exists_not_link (h : d.IsPartOf d') (hq : d.get? q = some e)
    (he : ∀ target, e ≠ .link target) : ∃ e', d'.get? q = some e' ∧ ∀ target, e' ≠ .link target := by
  obtain ⟨e', hq', halike⟩ := h.alike hq
  rcases halike.eq_or_files with rfl | ⟨content, content', -, rfl⟩
  · exact ⟨_, hq', he⟩
  · exact ⟨_, hq', nofun⟩

theorem walk_of_part (h : d.IsPartOf d') (he : Extends enter enter') :
    ∀ (names : List Text) (here r : Place), walk d .name enter here names = .ok r →
      walk d' .name enter' here names = .ok r
  | [], here, r, hw => by
    rw [walk] at hw ⊢
    exact hw
  | name :: rest, here, r, hw => by
    have hpasses : ∀ {rest}, d.Passes .name here name rest → d'.Passes .name here name rest :=
      fun hpass => { hpass with directory := h.directory hpass.directory }
    cases goes_of_walk hw with
    | stay hd hs hgo =>
      rw [walk_stay (h.directory hd) hs]
      exact walk_of_part h he rest here r hgo
    | up hd hgo =>
      rw [walk_up (h.directory hd), ← h.above]
      exact walk_of_part h he rest (d.above here) r hgo
    | last hpass => exact (hpasses hpass).walk_name
    | link hpass hne hget hgo =>
      rw [(hpasses hpass).walk_link (h.get?_of_not_file hget nofun) fun hnil => hne hnil.2]
      exact he _ _ r hgo
    | entry hpass hne hget hlink hgo =>
      obtain ⟨e', hget', hlink'⟩ := h.exists_not_link hget hlink
      rw [(hpasses hpass).walk_entry hget' hlink']
      exact walk_of_part h he rest (here ++ [name]) r hgo

theorem walkLinks_of_part (h : d.IsPartOf d') : ∀ links : Nat,
    Extends (walkLinks d .name links) (walkLinks d' .name links)
  | 0 => fun here names r hw =>
    walk_of_part h (fun _ _ _ hnone => by cases hnone) names here r hw
  | links + 1 => fun here names r hw => walk_of_part h (walkLinks_of_part h links) names here r hw

end Part

/-! ## Names behind a walk -/

section Append

variable {d : Disk} {ending : Ending} {enter enter' : Place → List Text → Except Refusal Place}
  {p : Place} {more : List Text} {result : Except Refusal Place}

/-- A walk to what is no link, and names behind it.  Links on the way are entered with these names
behind them. -/
theorem walk_append (hlink : ∀ target, d.get? p ≠ some (.link target))
    (hfile : ∀ rest, ¬(ending = .file ∧ rest ++ more = [[]]))
    (hgo : walk d ending enter' p more = result)
    (he : ∀ here names, enter here names = .ok p → enter' here (names ++ more) = result) :
    ∀ (names : List Text) (here : Place), walk d .name enter here names = .ok p →
      walk d ending enter' here (names ++ more) = result
  | [], here, hw => by
    rw [walk] at hw
    obtain rfl := Except.ok.inj hw
    exact hgo
  | name :: rest, here, hw => by
    rw [List.cons_append]
    have hpasses : d.Passes .name here name rest → d.Passes ending here name (rest ++ more) :=
      fun hpass => { hpass with not_file := hfile rest }
    cases goes_of_walk hw with
    | stay hd hs hgoes =>
      rw [walk_stay hd hs]
      exact walk_append hlink hfile hgo he rest here hgoes
    | up hd hgoes =>
      rw [walk_up hd]
      exact walk_append hlink hfile hgo he rest (d.above here) hgoes
    | last hpass =>
      cases hget : d.get? (here ++ [name]) with
      | some e =>
        rw [(hpasses hpass).walk_entry hget fun target he => hlink target (he ▸ hget)]
        exact hgo
      | none =>
        rw [(hpasses hpass).walk_none hget]
        cases more with
        | nil =>
          rw [walk] at hgo
          exact hgo
        | cons name' more =>
          rw [walk_nothing hget] at hgo
          exact hgo
    | link hpass hne hget hgoes =>
      rw [(hpasses hpass).walk_link hget fun hnil => hne (List.append_eq_nil_iff.1 hnil.2).1,
        ← List.append_assoc]
      exact he _ _ hgoes
    | entry hpass hne hget hlink' hgoes =>
      rw [(hpasses hpass).walk_entry hget hlink']
      exact walk_append hlink hfile hgo he rest (here ++ [name]) hgoes

theorem walkLinks_append (hlink : ∀ target, d.get? p ≠ some (.link target))
    (hfile : ∀ rest, ¬(ending = .file ∧ rest ++ more = [[]]))
    (hgo : ∀ enter', walk d ending enter' p more = result) : ∀ (links : Nat) (names : List Text)
      (here : Place), walkLinks d .name links here names = .ok p →
        walkLinks d ending links here (names ++ more) = result
  | 0, names, here, hw =>
    walk_append hlink hfile (hgo _) (fun _ _ hnone => by cases hnone) names here hw
  | links + 1, names, here, hw =>
    walk_append hlink hfile (hgo _)
      (fun here names => walkLinks_append hlink hfile hgo links names here) names here hw

/-- A walk that fails fails for the same cause if one more name stands behind. -/
theorem walk_concat_error {c : Refusal} {last : Text}
    (he : ∀ here names, enter here names = .error c → enter' here (names ++ [last]) = .error c) :
    ∀ (names : List Text) (here : Place), walk d .name enter here names = .error c →
      walk d .name enter' here (names ++ [last]) = .error c
  | [], here, hw => by
    rw [walk] at hw
    cases hw
  | name :: rest, here, hw => by
    rw [List.cons_append]
    obtain ⟨c', hc⟩ | hd := exists_obstacle_or_directory d here name
    · rw [hc] at hw ⊢
      exact hw
    · by_cases hs : name = [] ∨ name = ['.']
      · rw [walk_stay hd hs] at hw ⊢
        exact walk_concat_error he rest here hw
      · by_cases hu : name = ['.', '.']
        · subst hu
          rw [walk_up hd] at hw ⊢
          exact walk_concat_error he rest (d.above here) hw
        · obtain ⟨c', hc⟩ | hpass := exists_obstacle_or_passes hd ⟨hs, hu⟩
          · rw [hc _ _ _ (by simp)] at hw ⊢
            exact hw
          · replace hpass := fun rest => hpass .name rest (by simp)
            by_cases hrest : rest = []
            · subst hrest
              rw [(hpass []).walk_name] at hw
              cases hw
            · cases hget : d.get? (here ++ [name]) with
              | none =>
                rw [(hpass _).walk_none hget, if_neg (by simpa using hrest)] at hw
                rw [(hpass _).walk_none hget, if_neg (by simp)]
                exact hw
              | some e =>
                by_cases hlink : ∃ target, e = .link target
                · obtain ⟨target, rfl⟩ := hlink
                  rw [(hpass _).walk_link hget fun hnil => hrest hnil.2] at hw
                  rw [(hpass _).walk_link hget (by simp), ← List.append_assoc]
                  exact he _ _ hw
                · rw [(hpass _).walk_entry hget (not_exists.1 hlink)] at hw ⊢
                  exact walk_concat_error he rest (here ++ [name]) hw

theorem walkLinks_concat_error {c : Refusal} {last : Text} : ∀ (links : Nat) (names : List Text)
    (here : Place), walkLinks d .name links here names = .error c →
      walkLinks d .name links here (names ++ [last]) = .error c
  | 0, names, here, hw => walk_concat_error (fun _ _ h => h) names here hw
  | links + 1, names, here, hw =>
    walk_concat_error (fun here names => walkLinks_concat_error links names here) names here hw

end Append

/-! ## The last name -/

section Last

variable {d : Disk} {enter enter' : Place → List Text → Except Refusal Place} {last : Text}
  {r : Place}

/-- A walk to the name of an entry comes to this name in the directory that the names before it lead
to, the last of them too if it is a link. -/
theorem walk_last (hlast : IsEntryName last)
    (he : ∀ here names, enter here (names ++ [last]) = .ok r →
      ∃ place, enter' here names = .ok place ∧ d.get? place = some .directory ∧
        r = place ++ [last]) :
    ∀ (names : List Text) (here : Place), walk d .name enter here (names ++ [last]) = .ok r →
      ∃ place, walk d .found enter' here names = .ok place ∧ d.get? place = some .directory ∧
        r = place ++ [last]
  | [], here, hw => by
    rw [walk]
    cases goes_of_walk hw with
    | stay hd hs hgo => exact absurd hs hlast.1
    | up hd hgo => exact absurd rfl hlast.2
    | last hpass => exact ⟨here, rfl, hpass.directory, rfl⟩
    | link hpass hne => exact absurd rfl hne
    | entry hpass hne => exact absurd rfl hne
  | name :: rest, here, hw => by
    rw [List.cons_append] at hw
    generalize hrest : rest ++ [last] = names at hw
    have hpasses : d.Passes .name here name names → d.Passes .found here name rest :=
      fun hpass => { hpass with not_file := by simp }
    cases goes_of_walk hw with
    | stay hd hs hgo =>
      rw [walk_stay hd hs]
      exact walk_last hlast he rest here (hrest ▸ hgo)
    | up hd hgo =>
      rw [walk_up hd]
      exact walk_last hlast he rest (d.above here) (hrest ▸ hgo)
    | last hpass => simp at hrest
    | link hpass hne hget hgo =>
      rw [(hpasses hpass).walk_link hget (by simp)]
      rw [← hrest, ← List.append_assoc] at hgo
      exact he _ _ hgo
    | entry hpass hne hget hlink hgo =>
      rw [(hpasses hpass).walk_entry hget hlink]
      exact walk_last hlast he rest (here ++ [name]) (hrest ▸ hgo)

theorem walkLinks_last (hlast : IsEntryName last) : ∀ (links : Nat) (names : List Text)
    (here : Place), walkLinks d .name links here (names ++ [last]) = .ok r →
      ∃ place, walkLinks d .found links here names = .ok place ∧ d.get? place = some .directory ∧
        r = place ++ [last]
  | 0, names, here, hw => walk_last hlast (fun _ _ h => by cases h) names here hw
  | links + 1, names, here, hw =>
    walk_last hlast (fun here names => walkLinks_last hlast links names here) names here hw

end Last

/-! ## The way to what is there -/

section Before

variable {d : Disk} {p r : Place} {links : Nat} {names more : List Text} {here : Place}

/-- If a walk comes to something that is there, then so do the walks along the first of its names. -/
theorem walkLinks_before (hp : d.get? p ≠ none)
    (hw : walkLinks d .name links here (names ++ more) = .ok p)
    (hr : walkLinks d .name links here names = .ok r) : d.get? r ≠ none := by
  intro hnone
  have hend : ∀ {result}, (∀ enter, walk d .name enter r more = result) → .ok p = result :=
    fun hgo => hw.symm.trans (walkLinks_append (by simp [hnone]) (by simp) hgo links names here hr)
  cases more with
  | nil =>
    obtain rfl := Except.ok.inj (hend fun _ => by rw [walk])
    exact hp hnone
  | cons name more => cases hend fun _ => walk_nothing hnone

end Before

/-! ## Below a place without links -/

section Below

variable {d : Disk} {p : Place}

/-- No link stands at the place or below it. -/
def IsLinkless (d : Disk) (p : Place) : Prop :=
  ∀ q target, p <+: q → d.get? q ≠ some (.link target)

/-- Where no links are, a walk by names of entries goes straight down, however links are entered. -/
theorem exists_walk_below : ∀ (names : List Text) (p : Place), (∀ name ∈ names, IsEntryName name) →
    d.IsLinkless p → ∃ result, (∀ enter, walk d .name enter p names = result) ∧
      ∀ r, result = .ok r → r = p ++ names
  | [], p, _, _ => by
    refine ⟨.ok p, fun enter => by rw [walk], fun r hr => ?_⟩
    rw [List.append_nil, Except.ok.inj hr]
  | name :: rest, p, hnames, hlink => by
    obtain ⟨c, hc⟩ | hd := exists_obstacle_or_directory d p name
    · exact ⟨.error c, fun enter => hc _ enter rest, nofun⟩
    obtain ⟨c, hc⟩ | hpasses := exists_obstacle_or_passes hd (hnames name List.mem_cons_self)
    · exact ⟨.error c, fun enter => hc .name enter rest (by simp), nofun⟩
    have hpass := hpasses .name rest (by simp)
    cases hget : d.get? (p ++ [name]) with
    | none =>
      refine ⟨_, fun enter => hpass.walk_none hget, fun r hr => ?_⟩
      split at hr
      · rename_i hrest
        rw [List.isEmpty_iff.1 hrest, Except.ok.inj hr]
      · cases hr
    | some e =>
      obtain ⟨result, hwalk, hend⟩ := exists_walk_below rest (p ++ [name])
        (fun n hn => hnames n (List.mem_cons_of_mem _ hn))
        fun q target hq => hlink q target ((List.prefix_append p [name]).trans hq)
      refine ⟨result, fun enter => ?_, fun r hr => ?_⟩
      · rw [hpass.walk_entry hget, hwalk]
        exact fun target he => hlink _ target (List.prefix_append p [name]) (he ▸ hget)
      · rw [hend r hr, List.append_assoc]
        rfl

end Below

/-! ## Paths -/

section Paths

variable {d d' : Disk} {ending : Ending} {path : Path} {p r : Place} {name : Text}

/-- The system takes the path at all: it holds no null character and is not too long. -/
def IsTaken (path : Path) : Prop :=
  path.toText.contains '\x00' = false ∧ (Utf8.encode path.toText).length < pathLimit

theorem follow_of_isTaken (h : IsTaken path) : d.follow ending path =
    (walkLinks d ending linkLimit (d.startOf path) path.parts).mapError (.refused · path.toText) := by
  unfold follow
  rw [if_neg (by rw [h.1]; exact Bool.false_ne_true), if_neg (Nat.not_le.2 h.2)]

theorem follow_of_not_isTaken (h : ¬IsTaken path) :
    ∃ fault, d.follow ending path = .error fault ∧ ∀ t, fault ≠ .refused .noEntry t := by
  unfold follow
  by_cases hnull : path.toText.contains '\x00' = true
  · exact ⟨_, if_pos hnull, nofun⟩
  · by_cases hlong : pathLimit ≤ (Utf8.encode path.toText).length
    · exact ⟨_, (if_neg hnull).trans (if_pos hlong), nofun⟩
    · exact absurd ⟨Bool.not_eq_true _ ▸ hnull, Nat.not_le.1 hlong⟩ h

theorem follow_eq_ok : d.follow ending path = .ok r ↔
    IsTaken path ∧ walkLinks d ending linkLimit (d.startOf path) path.parts = .ok r := by
  by_cases h : IsTaken path
  · rw [follow_of_isTaken h]
    cases walkLinks d ending linkLimit (d.startOf path) path.parts with
    | ok q =>
      constructor
      · intro hq
        exact ⟨h, congrArg Except.ok (Except.ok.inj hq)⟩
      · rintro ⟨-, hq⟩
        exact congrArg Except.ok (Except.ok.inj hq)
    | error c =>
      constructor
      · intro hc
        cases hc
      · rintro ⟨-, hc⟩
        cases hc
  · obtain ⟨fault, hf, -⟩ : ∃ fault, d.follow ending path = .error fault ∧ _ :=
      follow_of_not_isTaken h
    simp [hf, h]

/-- **A path that comes to a place** comes to the same place in a file system that holds more, if it
starts at the same place there. -/
theorem follow_of_part (h : d.IsPartOf d') (hstart : d.startOf path = d'.startOf path)
    (hp : d.follow .name path = .ok p) : d'.follow .name path = .ok p := by
  obtain ⟨htaken, hw⟩ := follow_eq_ok.1 hp
  exact follow_eq_ok.2 ⟨htaken, hstart ▸ walkLinks_of_part h linkLimit _ _ _ hw⟩

/-- A path to something that is no link comes to the same place if links are followed. -/
theorem follow_found (hp : d.follow .name path = .ok p)
    (hlink : ∀ target, d.get? p ≠ some (.link target)) : d.follow .found path = .ok p := by
  obtain ⟨htaken, hw⟩ := follow_eq_ok.1 hp
  have hgo : walkLinks d .found linkLimit (d.startOf path) (path.parts ++ []) = .ok p :=
    walkLinks_append hlink (by simp) (fun _ => by rw [walk]) linkLimit path.parts _ hw
  rw [List.append_nil] at hgo
  exact follow_eq_ok.2 ⟨htaken, hgo⟩

/-- **The place of an entry** of a directory: its path comes there if it comes to any place. -/
theorem follow_child (hp : d.follow .name path = .ok p) (hd : d.get? p = some .directory)
    (hname : IsEntryName name)
    (hlink : ending = .name ∨ ∀ target, d.get? (p ++ [name]) ≠ some (.link target))
    (hr : d.follow ending (path.child name) = .ok r) : r = p ++ [name] := by
  obtain ⟨-, hw⟩ := follow_eq_ok.1 hp
  obtain ⟨-, hw'⟩ := follow_eq_ok.1 hr
  have hfile : ∀ rest, ¬(ending = .file ∧ rest ++ [name] = [[]]) := by
    rintro rest ⟨-, hrest⟩
    have hlast := congrArg List.getLast? hrest
    exact hname.1 (.inl (by simpa using hlast))
  have hend : ∀ {result}, (∀ enter, walk d ending enter p [name] = result) → .ok r = result :=
    fun hgo => hw'.symm.trans (walkLinks_append (by simp [hd]) hfile hgo linkLimit path.parts _ hw)
  obtain ⟨c, hc⟩ | hpass := exists_obstacle_or_passes hd hname
  · cases hend fun enter => hc ending enter [] (by simp)
  · refine Except.ok.inj (hend fun enter => ?_)
    rw [(hpass ending [] (by simp)).walk_eq]
    cases he : d.get? (p ++ [name]) with
    | none => rfl
    | some e =>
      cases e with
      | directory => rfl
      | file content => rfl
      | link target =>
        rcases hlink with hend | hlink
        · exact if_pos ⟨hend, rfl⟩
        · exact absurd he (hlink target)

/-- **The place of a path behind another one** that comes to where no links are. -/
theorem follow_below {more : List Text} (hp : d.follow .name path = .ok p) (hlink : d.IsLinkless p)
    (hmore : ∀ name ∈ more, IsEntryName name)
    (hr : d.follow .name ⟨path.anchor, path.parts ++ more⟩ = .ok r) : r = p ++ more := by
  obtain ⟨-, hw⟩ := follow_eq_ok.1 hp
  obtain ⟨-, hw'⟩ := follow_eq_ok.1 hr
  obtain ⟨result, hwalk, hend⟩ := exists_walk_below more p hmore hlink
  exact hend r ((walkLinks_append (hlink p · List.prefix_rfl) (by simp) hwalk linkLimit path.parts _
    hw).symm.trans hw')

theorem intercalate_prefix_concat (name : Text) : ∀ names : List Text,
    ['/'].intercalate names <+: ['/'].intercalate (names ++ [name])
  | [] => List.nil_prefix
  | [first] => by
    rw [List.cons_append, List.nil_append, List.intercalate_cons_cons, List.intercalate_singleton,
      List.append_assoc]
    exact List.prefix_append _ _
  | first :: second :: names => by
    rw [List.cons_append, List.cons_append, List.intercalate_cons_cons, List.intercalate_cons_cons]
    exact (List.prefix_append_right_inj _).2 (intercalate_prefix_concat name (second :: names))

/-- What the system does not take, it does not take with a name behind it. -/
theorem IsTaken.of_child (h : IsTaken (path.child name)) : IsTaken path := by
  have hprefix : path.toText <+: (path.child name).toText ∨ path.toText = ['.'] := by
    obtain ⟨anchor, names⟩ := path
    have hnames := intercalate_prefix_concat name names
    cases anchor with
    | here =>
      cases names with
      | nil => exact .inr rfl
      | cons first names => exact .inl hnames
    | root => exact .inl (List.cons_prefix_cons.2 ⟨rfl, hnames⟩)
    | doubleRoot => exact .inl (List.cons_prefix_cons.2 ⟨rfl, List.cons_prefix_cons.2 ⟨rfl, hnames⟩⟩)
  rcases hprefix with ⟨more, hmore⟩ | hdot
  · obtain ⟨hnull, hshort⟩ := h
    rw [← hmore] at hnull hshort
    have hlength : (Utf8.encode path.toText).length ≤ (Utf8.encode (path.toText ++ more)).length := by
      unfold Utf8.encode
      rw [List.flatMap_append, List.length_append]
      exact Nat.le_add_right _ _
    refine ⟨?_, Nat.lt_of_le_of_lt hlength hshort⟩
    simp only [List.contains_append, Bool.or_eq_false_iff] at hnull
    exact hnull.1
  · unfold IsTaken
    rw [hdot]
    decide

/-- A path that fails for another reason than that something is missing fails so with a name behind
it. -/
theorem follow_child_error (name : Text) {fault : DiskFault} (hf : d.follow .name path = .error fault)
    (hne : ∀ t, fault ≠ .refused .noEntry t) :
    ∃ fault', d.follow .name (path.child name) = .error fault' ∧
      ∀ t, fault' ≠ .refused .noEntry t := by
  by_cases htaken : IsTaken (path.child name)
  · rw [follow_of_isTaken htaken.of_child] at hf
    rw [follow_of_isTaken htaken]
    cases hw : walkLinks d .name linkLimit (d.startOf path) path.parts with
    | ok q =>
      rw [hw] at hf
      cases hf
    | error c =>
      have hw' : walkLinks d .name linkLimit (d.startOf (path.child name)) (path.child name).parts =
          .error c := walkLinks_concat_error linkLimit path.parts _ hw
      rw [hw] at hf
      rw [hw']
      refine ⟨_, rfl, fun t ht => hne path.toText ?_⟩
      cases ht
      exact (Except.error.inj hf).symm
  · exact follow_of_not_isTaken htaken

/-- A path that comes to a place with a name behind it comes to a place without it. -/
theorem exists_follow_of_child (hr : d.follow .name (path.child name) = .ok r) :
    ∃ p, d.follow .name path = .ok p := by
  obtain ⟨htaken, hw⟩ := follow_eq_ok.1 hr
  cases hw' : walkLinks d .name linkLimit (d.startOf path) path.parts with
  | ok p => exact ⟨p, follow_eq_ok.2 ⟨htaken.of_child, hw'⟩⟩
  | error c => cases (walkLinks_concat_error linkLimit path.parts _ hw').symm.trans hw

/-- A path that ends with the name of an entry comes to this name in the directory that the path
before it leads to. -/
theorem exists_follow_last (hlast : IsEntryName name)
    (hr : d.follow .name (path.child name) = .ok r) :
    ∃ place, d.follow .found path = .ok place ∧ d.get? place = some .directory ∧
      r = place ++ [name] := by
  obtain ⟨htaken, hw⟩ := follow_eq_ok.1 hr
  obtain ⟨place, hplace, hrest⟩ := walkLinks_last hlast linkLimit path.parts _ hw
  exact ⟨place, follow_eq_ok.2 ⟨htaken.of_child, hplace⟩, hrest⟩

theorem ne_of_follow_last (hlast : IsEntryName name)
    (hr : d.follow .name (path.child name) = .ok r) : r ≠ [] ∧ r ≠ .nowhere := by
  obtain ⟨place, -, -, rfl⟩ := exists_follow_last hlast hr
  exact ⟨by simp, append_ne_nowhere hlast⟩

end Paths

end Disk

end AgdaFrontEnd
