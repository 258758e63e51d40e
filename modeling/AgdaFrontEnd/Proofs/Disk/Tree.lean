import AgdaFrontEnd.Proofs.Disk.Removal

/-!
# A directory made in the place of another one

A file system is a tree: every entry stands in a directory.  So nothing lies below a place where
nothing is, and a directory that is made there is empty.

* `Disk.IsTree`, `Disk.IsTree.nothing_below`: nothing is below nothing.
* `Path.IsClean`: a path as it is read, without empty names and single dots.
* `Change.follow_putBack`: the path of a directory that was removed leads to the one that is made in its
  place.
* `Change.eq_of_run_makeDirectories`: two directories, one in the other, that are made where nothing is.
* `Change.exists_get?_makeDirectories`: two directories that are made together with some on the way.
-/

namespace AgdaFrontEnd

/-! ## Clean paths -/

namespace Path

/-- The names of the path are neither empty nor single dots. -/
def IsClean (p : Path) : Prop := ∀ name ∈ p.parts, ¬(name = [] ∨ name = ['.'])

instance (p : Path) : Decidable p.IsClean := inferInstanceAs (Decidable (∀ name ∈ _, _))

theorem isClean_ofText (t : Text) : (ofText t).IsClean := by
  intro name hname
  simpa [not_or] using (List.mem_filter.1 hname).2

theorem IsClean.join {p q : Path} (hp : p.IsClean) (hq : q.IsClean) : (p.join q).IsClean := by
  unfold Path.join
  split
  · exact hq
  · exact fun name hname => (List.mem_append.1 hname).elim (hp name) (hq name)

theorem dropLast_append_name {p : Path} (hp : p.parts ≠ []) : p.parts.dropLast ++ [p.name] = p.parts := by
  unfold name
  rw [List.getLast?_eq_some_getLast hp, Option.getD_some, List.dropLast_concat_getLast]

/-- A path that ends with a name is another path with this name behind it. -/
theorem parent_child_name {p : Path} (hp : p.parts ≠ []) : p.parent.child p.name = p := by
  unfold child parent
  rw [dropLast_append_name hp]

/-- The last name of a clean path is the name of an entry or double dots. -/
theorem IsClean.isEntryName_name {p : Path} (h : p.IsClean) (hp : p.parts ≠ [])
    (hdots : p.name ≠ ['.', '.']) : Disk.IsEntryName p.name := by
  refine ⟨h p.name ?_, hdots⟩
  rw [← dropLast_append_name hp]
  simp

end Path

namespace Disk

/-! ## Trees -/

/-- Every entry stands in a directory. -/
def IsTree (d : Disk) : Prop := ∀ x ∈ d.entries, d.get? x.1.dropLast = some .directory

instance (d : Disk) : Decidable d.IsTree := inferInstanceAs (Decidable (∀ x ∈ _, _))

theorem mem_entries_of_get? {d : Disk} {q : Place} {e : Entry} (h : d.get? q = some e)
    (hroot : q ≠ []) (hnowhere : q ≠ .nowhere) : (q, e) ∈ d.entries := by
  unfold get? at h
  rw [if_neg (not_or.2 ⟨hroot, hnowhere⟩)] at h
  obtain ⟨es, es', hes, -⟩ := List.lookup_eq_some_iff.1 h
  rw [hes]
  simp

theorem IsTree.nothing_in_nothing {d : Disk} (h : d.IsTree) {p : Place} (hp : d.get? p = none)
    (name : Text) : d.get? (p ++ [name]) = none := by
  have hroot : p ≠ [] := ne_root_of_get? (d := d) (by simp [hp])
  cases hget : d.get? (p ++ [name]) with
  | none => rfl
  | some e =>
    have hnowhere : p ++ [name] ≠ .nowhere := fun hn =>
      hroot (List.append_inj_left' (hn : p ++ [name] = [] ++ [[]]) rfl)
    have hparent := h _ (mem_entries_of_get? hget (by simp) hnowhere)
    rw [List.dropLast_concat, hp] at hparent
    cases hparent

/-- **Nothing is below nothing.** -/
theorem IsTree.nothing_below {d : Disk} (h : d.IsTree) {p q : Place} (hp : d.get? p = none)
    (hq : p <+: q) : d.get? q = none := by
  obtain ⟨names, rfl⟩ := hq
  induction names generalizing p with
  | nil => rwa [List.append_nil]
  | cons name names ih =>
    rw [List.append_cons]
    exact ih (h.nothing_in_nothing hp name)

end Disk

namespace Change

open Disk

/-! ## A directory that is put back -/

section PutBack

variable {d : Disk} {p : Place}

/-- The file system with an empty directory that was removed, and then made again. -/
def putBack (d : Disk) (p : Place) : Disk := ((d.clear p).erase p).put p .directory

theorem get?_putBack (hroot : p ≠ []) (hnowhere : p ≠ .nowhere) (hp : d.get? p = some .directory)
    (q : Place) : (putBack d p).get? q = (d.clear p).get? q := by
  unfold putBack
  rw [get?_put _ _ _ _ hroot hnowhere, get?_erase_clear d hroot hnowhere, get?_clear d hroot]
  by_cases hq : q = p
  · rw [if_pos hq, if_neg fun h => h.2 hq, hq, hp]
  · simp [hq]

theorem clear_isPartOf_putBack (hroot : p ≠ []) (hnowhere : p ≠ .nowhere)
    (hp : d.get? p = some .directory) : (d.clear p).IsPartOf (putBack d p) :=
  ⟨rfl, fun {q e} h => ⟨e, (get?_putBack hroot hnowhere hp q).trans h, .refl e⟩⟩

/-- A walk that comes back to an empty directory goes up first, so it goes the same way if the
directory was the current one and has been removed. -/
theorem walk_putBack {enter enter' : Place → List Text → Except Refusal Place} {names : List Text}
    {r : Place} (he : Extends enter enter') (hroot : p ≠ []) (hnowhere : p ≠ .nowhere)
    (hp : d.get? p = some .directory) (hcurrent : d.current = p) (hne : names ≠ [])
    (hclean : ∀ name ∈ names, ¬(name = [] ∨ name = ['.']))
    (hw : walk (d.clear p) .name enter p names = .ok r) (hr : r = p) :
    walk (putBack d p) .name enter' .nowhere names = .ok r := by
  have hempty : ∀ name e, (d.clear p).get? (p ++ [name]) ≠ some e := fun name e => by
    rw [get?_clear d hroot, if_pos ⟨List.prefix_append _ _, by simp⟩]
    exact nofun
  obtain ⟨name, rest, rfl⟩ := List.exists_cons_of_ne_nil hne
  cases goes_of_walk hw with
  | stay hd hs hgo => exact absurd hs (hclean name List.mem_cons_self)
  | up hd hgo =>
    have habove : (putBack d p).above .nowhere = (d.clear p).above p := by
      unfold above
      rw [if_pos rfl, if_neg hnowhere]
      exact congrArg List.dropLast hcurrent
    rw [walk_up (get?_nowhere _), habove]
    exact walk_of_part (clear_isPartOf_putBack hroot hnowhere hp) he rest _ r hgo
  | last hpass => simp at hr
  | link hpass hne hget => exact absurd hget (hempty name _)
  | entry hpass hne hget => exact absurd hget (hempty name _)

/-- A path starts at the same place, or at the current directory, and that is the one that was
removed. -/
theorem startOf_putBack (d : Disk) (p : Place) (path : Path) :
    (putBack d p).startOf path = (d.clear p).startOf path ∨
      d.current = p ∧ (d.clear p).startOf path = p ∧ (putBack d p).startOf path = .nowhere := by
  have hcleared : (d.clear p).removed =
      (d.removed || (p.isPrefixOf d.current && decide (d.current ≠ p))) := rfl
  have hremoved : (putBack d p).removed = ((d.clear p).removed || p.isPrefixOf d.current) := rfl
  have hcurrent : (putBack d p).current = d.current := rfl
  have hcurrent' : (d.clear p).current = d.current := rfl
  unfold startOf
  rw [hremoved, hcleared, hcurrent, hcurrent']
  by_cases hp : d.current = p
  · cases path.isAbsolute <;> cases d.removed <;> simp [hp]
  · cases path.isAbsolute <;> cases d.removed <;> cases p.isPrefixOf d.current <;> simp [hp]

/-- **The path of a directory** that leads to it when it is empty, leads to the one that is made in its
place. -/
theorem follow_putBack {path : Path} (hclean : path.IsClean) (hparts : path.parts ≠ [])
    (hroot : p ≠ []) (hnowhere : p ≠ .nowhere) (hp : d.get? p = some .directory)
    (hf : (d.clear p).follow .name path = .ok p) : (putBack d p).follow .name path = .ok p := by
  have hpart := clear_isPartOf_putBack hroot hnowhere hp
  rcases startOf_putBack d p path with hstart | ⟨hcurrent, hfrom, hfrom'⟩
  · exact follow_of_part hpart hstart.symm hf
  · obtain ⟨htaken, hw⟩ := follow_eq_ok.1 hf
    refine follow_eq_ok.2 ⟨htaken, ?_⟩
    rw [hfrom] at hw
    rw [hfrom']
    exact walk_putBack (walkLinks_of_part hpart _) hroot hnowhere hp hcurrent hparts hclean hw rfl

end PutBack

/-! ## Directories that are made where nothing is -/

/-- A file system with a directory at a place where nothing was holds what it held before. -/
theorem isPartOf_put {d : Disk} {p : Place} (hp : d.get? p = none) (e : Entry) :
    d.IsPartOf (d.put p e) := by
  refine ⟨rfl, fun {q e'} hq => ⟨e', ?_, .refl e'⟩⟩
  rw [get?_put_of_ne (by simp [hp]), if_neg, hq]
  rintro rfl
  rw [hp] at hq
  cases hq

section Making

variable {d d₀ d₁ : Disk} {out : Path} {p : Place} {name : Text}

/-- What is kept when a directory is made by a path or one on the way to it, holds when one behind the
path is made. -/
theorem exists_of_run_makeDirectories_child {P : Disk → Prop} (hd : P d)
    (hput : ∀ d d' names, names <+: out.parts → P d → d.makeDirectory ⟨out.anchor, names⟩ = .ok d' → P d')
    (h : (makeDirectories false (out.child name)).run d = (.ok (), d₁)) :
    ∃ d₀ r, P d₀ ∧ d₀.follow .name (out.child name) = .ok r ∧ d₀.get? r = none ∧
      d₁ = d₀.put r .directory := by
  have hparts : (out.child name).parts.dropLast = out.parts := List.dropLast_concat
  obtain ⟨⟨d₀, hd₀, hmake⟩, -⟩ := exists_of_run_makeDirectories hd (hparts.symm ▸ hput) h
  obtain ⟨r, hr, hnone, rfl⟩ := makeDirectory_eq_ok hmake
  exact ⟨d₀, r, hd₀, hr, hnone, rfl⟩

/-- The file system with a directory at the place, or as it was without it. -/
def MayHold (d : Disk) (p : Place) (d₀ : Disk) : Prop := d₀ = d ∨ d₀ = d.put p .directory

theorem MayHold.follow (h : MayHold d p d₀) (hp : d.get? p = none) {path : Path} {r : Place}
    (hr : d₀.follow .name path = .ok r) : (d.put p .directory).follow .name path = .ok r := by
  rcases h with rfl | rfl
  · exact follow_of_part (isPartOf_put hp .directory) rfl hr
  · exact hr

/-- By a path on the way to the directory nothing else is made than the directory: all the rest on the
way is there. -/
theorem MayHold.makeDirectory (h : MayHold d p d₀) (hp : d.get? p = none)
    (hway : (d.put p .directory).follow .name out = .ok p) {names : List Text}
    (hnames : names <+: out.parts) (hmake : d₀.makeDirectory ⟨out.anchor, names⟩ = .ok d₁) :
    MayHold d p d₁ := by
  have hput := get?_put_of_ne (e := .directory) (show d.get? p ≠ some .directory by simp [hp])
  obtain ⟨place, hplace, hnone, rfl⟩ := makeDirectory_eq_ok hmake
  have hthere : (d.put p .directory).get? place ≠ none := by
    obtain ⟨more, hmore⟩ := hnames
    have hw := (follow_eq_ok.1 hway).2
    rw [← hmore] at hw
    exact walkLinks_before (by simp [hput]) hw (follow_eq_ok.1 (h.follow hp hplace)).2
  rcases h with rfl | rfl
  · rw [hput] at hthere
    split at hthere
    · rename_i heq
      exact .inr (by rw [heq])
    · exact absurd hnone hthere
  · exact absurd hnone hthere

/-- Two directories, one in the other, where nothing was. -/
theorem get?_put_put (hempty : ∀ q, p <+: q → d.get? q = none) (name : Text) (q : Place) :
    ((d.put p .directory).put (p ++ [name]) .directory).get? q =
      if p <+: q then if q = p ∨ q = p ++ [name] then some .directory else none else d.get? q := by
  have hput := get?_put_of_ne (e := .directory)
    (show d.get? p ≠ some .directory by simp [hempty p List.prefix_rfl])
  have hnone : (d.put p .directory).get? (p ++ [name]) = none := by
    rw [hput, if_neg (by simp), hempty _ (List.prefix_append p [name])]
  rw [get?_put_of_ne (by simp [hnone]), hput]
  by_cases hq : p <+: q
  · rw [if_pos hq, hempty q hq]
    by_cases hqp : q = p
    · simp [hqp]
    · by_cases hqn : q = p ++ [name]
      · simp [hqn]
      · simp [hqp, hqn]
  · have hqp : q ≠ p := fun heq => hq (heq ▸ List.prefix_rfl)
    have hqn : q ≠ p ++ [name] := fun heq => hq (heq ▸ List.prefix_append p [name])
    rw [if_neg hq, if_neg hqn, if_neg hqp]

/-- **Two directories, one in the other,** are made where nothing is.  No other directory is made: all
others on the way are there. -/
theorem eq_of_run_makeDirectories (hname : IsEntryName name) (hp : d.get? p = none)
    (hway : (d.put p .directory).follow .name out = .ok p)
    (h : (makeDirectories false (out.child name)).run d = (.ok (), d₁)) :
    d₁ = (d.put p .directory).put (p ++ [name]) .directory ∧ d₁.follow .found out = .ok p := by
  obtain ⟨d₀, r, hd₀, hr, hnone, rfl⟩ := exists_of_run_makeDirectories_child
    (P := MayHold d p) (.inl rfl) (fun _ _ _ hnames hmay => hmay.makeDirectory hp hway hnames) h
  have hthere : (d.put p .directory).get? p = some .directory := by
    rw [get?_put_of_ne (by simp [hp]), if_pos rfl]
  obtain rfl : r = p ++ [name] := follow_child hway hthere hname (.inl rfl) (hd₀.follow hp hr)
  obtain rfl : d₀ = d.put p .directory := by
    refine hd₀.resolve_left ?_
    rintro rfl
    obtain ⟨here, -, hhere, heq⟩ := exists_follow_last hname hr
    rw [← List.append_inj_left' heq rfl, hp] at hhere
    cases hhere
  have hleads := follow_of_part (isPartOf_put hnone .directory) rfl hway
  refine ⟨rfl, follow_found hleads fun target => ?_⟩
  simp [(isPartOf_put hnone .directory).directory hthere]

end Making

/-! ## Directories that are made on the way -/

section OnTheWay

variable {d d₀ d₁ : Disk} {out path : Path} {p r : Place} {name : Text} {more : List Text}

/-- **What making directories does**, wherever they are: what is there stays, and what is new is a
directory where nothing was. -/
theorem get?_makeDirectories_or (d : Disk) (existing : Bool) (path : Path) (q : Place) :
    ((makeDirectories existing path).run d).2.get? q = d.get? q ∨
      d.get? q = none ∧ ((makeDirectories existing path).run d).2.get? q = some .directory := by
  refine keeps_makeDirectories_of_put existing path
    (P := fun d' => d'.get? q = d.get? q ∨ d.get? q = none ∧ d'.get? q = some .directory)
    (fun d' place h hnone => ?_) d (.inl rfl)
  rw [get?_put_of_ne (by simp [hnone])]
  by_cases hq : q = place
  · subst hq
    rw [if_pos rfl]
    rw [hnone] at h
    exact .inr ⟨(h.resolve_right fun h => nomatch h.2).symm, rfl⟩
  · rwa [if_neg hq]

/-- A path leads to a directory, and below it there is nothing but directories on the way along the
names that stand behind the path. -/
structure IsBegun (path : Path) (more : List Text) (p : Place) (d : Disk) : Prop where
  follow : d.follow .name path = .ok p
  directory : d.get? p = some .directory
  below : ∀ q e, p <+: q → d.get? q = some e → e = .directory ∧ q <+: p ++ more

theorem IsBegun.isLinkless (h : IsBegun path more p d) : d.IsLinkless p := fun q _ hq hlink => by
  cases (h.below q _ hq hlink).1

/-- The first directory that is made on the way. -/
theorem isBegun_put (htree : d.IsTree) (hf : d.follow .name path = .ok p) (hp : d.get? p = none)
    (more : List Text) : IsBegun path more p (d.put p .directory) := by
  have hput := get?_put_of_ne (e := .directory) (show d.get? p ≠ some .directory by simp [hp])
  refine ⟨follow_of_part (isPartOf_put hp .directory) rfl hf, by rw [hput, if_pos rfl],
    fun q e hq he => ?_⟩
  rw [hput] at he
  split at he
  · rename_i heq
    exact ⟨(Option.some.inj he).symm, heq ▸ List.prefix_append p more⟩
  · cases (htree.nothing_below hp hq).symm.trans he

/-- One more directory on the way. -/
theorem IsBegun.put (h : IsBegun path more p d) (hr : d.get? r = none) (hmore : r <+: p ++ more) :
    IsBegun path more p (d.put r .directory) := by
  have hpart := isPartOf_put hr .directory
  refine ⟨follow_of_part hpart rfl h.follow, hpart.directory h.directory, fun q e hq he => ?_⟩
  rw [get?_put_of_ne (by simp [hr])] at he
  split at he
  · rename_i heq
    exact ⟨(Option.some.inj he).symm, heq ▸ hmore⟩
  · exact h.below q e hq he

/-- Nothing is made yet, or what is made begins somewhere on the way along a path. -/
def MayBegin (d : Disk) (out : Path) (d₀ : Disk) : Prop :=
  d₀ = d ∨ ∃ names more p, names ++ more = out.parts ∧ IsBegun ⟨out.anchor, names⟩ more p d₀

/-- A directory that is made by a path on the way lies straight on the way from where it begins. -/
theorem MayBegin.makeDirectory (h : MayBegin d out d₀) (htree : d.IsTree)
    (hentries : ∀ name ∈ out.parts, IsEntryName name) {names : List Text} (hnames : names <+: out.parts)
    (hmake : d₀.makeDirectory ⟨out.anchor, names⟩ = .ok d₁) : MayBegin d out d₁ := by
  obtain ⟨r, hr, hnone, rfl⟩ := makeDirectory_eq_ok hmake
  rcases h with rfl | ⟨first, more, p, hparts, hbegun⟩
  · obtain ⟨more, hmore⟩ := hnames
    exact .inr ⟨names, more, r, hmore, isBegun_put htree hr hnone more⟩
  · rcases List.prefix_or_prefix_of_prefix hnames ⟨more, hparts⟩ with ⟨rest, rfl⟩ | ⟨next, rfl⟩
    · -- By a part of the path that leads to where it begins nothing can be made.
      have hw := (follow_eq_ok.1 hbegun.follow).2
      exact absurd hnone (walkLinks_before (by simp [hbegun.directory]) hw (follow_eq_ok.1 hr).2)
    · obtain ⟨rest, hrest⟩ := hnames
      obtain rfl : next ++ rest = more := by
        rw [← hparts, List.append_assoc] at hrest
        exact List.append_cancel_left hrest
      obtain rfl : r = p ++ next := by
        refine follow_below hbegun.follow hbegun.isLinkless (fun n hn => hentries n ?_) hr
        rw [← hparts]
        simp [hn]
      refine .inr ⟨first, next ++ rest, p, hparts, hbegun.put hnone ?_⟩
      rw [← List.append_assoc]
      exact List.prefix_append _ _

/-- **Two directories, one in the other,** are there when they are made, and the path leads to them. -/
theorem exists_follow_makeDirectories (hname : IsEntryName name)
    (h : (makeDirectories false (out.child name)).run d = (.ok (), d₁)) :
    ∃ place, d₁.follow .found out = .ok place ∧ d₁.get? place = some .directory ∧
      d₁.get? (place ++ [name]) = some .directory := by
  obtain ⟨d₀, r, -, hr, hnone, rfl⟩ := exists_of_run_makeDirectories_child (P := fun _ => True) trivial
    (fun _ _ _ _ _ _ => trivial) h
  obtain ⟨place, hplace, hdirectory, rfl⟩ :=
    exists_follow_last hname (follow_of_part (isPartOf_put hnone .directory) rfl hr)
  refine ⟨place, hplace, hdirectory, ?_⟩
  rw [get?_put_of_ne (by simp [hnone]), if_pos rfl]

/-- **Two directories, one in the other,** whose path led to no place: what is made on the way begins
where nothing was, so the first one holds the second one only.  This takes a path without double
dots, which could lead back to what was there. -/
theorem exists_get?_makeDirectories (htree : d.IsTree)
    (hentries : ∀ name ∈ out.parts, IsEntryName name) (hname : IsEntryName name)
    (hmissing : ∀ place, d.follow .name out ≠ .ok place)
    (h : (makeDirectories false (out.child name)).run d = (.ok (), d₁)) :
    ∃ place, d₁.follow .found out = .ok place ∧ ∀ q, place <+: q →
      d₁.get? q = if q = place ∨ q = place ++ [name] then some .directory else none := by
  obtain ⟨d₀, r, hd₀, hr, hnone, rfl⟩ := exists_of_run_makeDirectories_child
    (P := MayBegin d out) (.inl rfl)
    (fun _ _ _ hnames hmay => hmay.makeDirectory htree hentries hnames) h
  rcases hd₀ with rfl | ⟨names, more, p, hway, hbegun⟩
  · obtain ⟨place, hplace⟩ := exists_follow_of_child hr
    exact absurd hplace (hmissing place)
  · have hmore : ∀ n ∈ more ++ [name], IsEntryName n := by
      intro n hn
      rcases List.mem_append.1 hn with hn | hn
      · exact hentries n (hway ▸ List.mem_append_right _ hn)
      · rwa [List.mem_singleton.1 hn]
    have hlast : (out.child name).parts = names ++ (more ++ [name]) := by
      rw [← List.append_assoc, hway]
      rfl
    have hend : r = p ++ (more ++ [name]) := follow_below hbegun.follow hbegun.isLinkless hmore
      (by rw [← hlast]; exact hr)
    obtain ⟨place, hplace, hdirectory, hplace'⟩ :=
      exists_follow_last hname (follow_of_part (isPartOf_put hnone .directory) rfl hr)
    obtain rfl : place = p ++ more := by
      rw [hend, ← List.append_assoc] at hplace'
      exact (List.append_inj_left' hplace' rfl).symm
    refine ⟨p ++ more, hplace, fun q hq => ?_⟩
    by_cases hqp : q = p ++ more
    · rw [if_pos (.inl hqp), hqp, hdirectory]
    · rw [get?_put_of_ne (by simp [hnone]), hplace']
      split
      · rename_i hqr
        rw [if_pos (.inr hqr)]
      · rename_i hqr
        rw [if_neg (not_or.2 ⟨hqp, hqr⟩)]
        cases he : d₀.get? q with
        | none => rfl
        | some e =>
          have hbelow := (hbegun.below q e ((List.prefix_append p more).trans hq) he).2
          exact absurd (hbelow.eq_of_length_le hq.length_le) hqp

end OnTheWay

/-! ## A directory that is removed -/

/-- Removing a directory that succeeds: the path leads to it when it is empty, and does not end with
dots. -/
theorem exists_of_run_removeTree {d d' : Disk} {path : Path}
    (h : (removeTree path).run d = (.ok (), d')) :
    ∃ p, d.follow .name path = .ok p ∧ d.get? p = some .directory ∧ d' = (d.clear p).erase p ∧
      (d.clear p).follow .name path = .ok p ∧ path.parts ≠ [] ∧ path.name ≠ ['.', '.'] := by
  obtain ⟨p, hf, hp, hr⟩ | ⟨⟨fault, hr⟩, -⟩ := run_removeTree d path
  · obtain ⟨hr', hrest⟩ | ⟨⟨fault, hr'⟩, -⟩ := run_removeDirectory hf
    · rw [hr, hr'] at h
      cases h
      exact ⟨p, hf, hp, rfl, hrest⟩
    · rw [hr, hr'] at h
      cases h
  · rw [hr] at h
    cases h

end Change

end AgdaFrontEnd
