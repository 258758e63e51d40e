import AgdaFrontEnd.Proofs.Disk.Walk

/-!
# What removing a directory does

Removing a directory goes in two steps: all that lies below its place goes first, and then the path
is followed once more.  It may lead nowhere by now, but it does not lead to another place.

* `Disk.follow_clear`: a path that still leads somewhere leads to the same place.
* `Change.hasFile_removeTree`: the files that are left.
* `Disk.IsSwept`, `Change.isSwept_removeTree`: all that is left.
-/

namespace AgdaFrontEnd

namespace Disk

/-! ## A cleared directory -/

/-- What is found at a place after a directory was cleared is what was there, or nothing. -/
theorem get?_clear_or (d : Disk) (p q : Place) :
    (d.clear p).get? q = d.get? q ∨ (d.clear p).get? q = none := by
  by_cases hq : q = []
  · subst hq
    simp
  · by_cases hn : q = .nowhere
    · subst hn
      simp
    · unfold clear
      rw [get?_eraseAll d _ q hq hn]
      split
      · exact .inr rfl
      · exact .inl rfl

theorem get?_clear_directory {d : Disk} {p q : Place} {e : Entry}
    (h : (d.clear p).get? q = some e) : d.get? q = some e := by
  rcases d.get?_clear_or p q with hq | hq
  · rw [← hq, h]
  · rw [hq] at h
    cases h

/-- A cleared file system holds nothing new. -/
theorem clear_isPartOf (d : Disk) (p : Place) : (d.clear p).IsPartOf d :=
  ⟨rfl, fun {_ e} h => ⟨e, get?_clear_directory h, .refl e⟩⟩

/-! ## Walking after a directory was cleared -/

section Clear

variable {d : Disk} {p : Place} {enter enter' : Place → List Text → Except Refusal Place}

/-- A walk to a name comes to the same place after a directory was cleared, if it still comes to
one. -/
theorem walk_clear (he : Extends enter' enter) {names : List Text} {here r r' : Place}
    (h : walk d .name enter here names = .ok r)
    (h' : walk (d.clear p) .name enter' here names = .ok r') : r' = r :=
  Except.ok.inj ((walk_of_part (d.clear_isPartOf p) he names here r' h').symm.trans h)

/-- A walk from the current directory, if that has been removed on clearing, comes to the same place
or to none. -/
theorem walk_removed (he : Extends enter' enter) (hb : d.current ≠ p) :
    ∀ (names : List Text) (r' : Place), walk d .name enter d.current names = .ok p →
      walk (d.clear p) .name enter' .nowhere names = .ok r' → r' = p
  | [], r', h, h' => by
    rw [walk] at h h'
    exact absurd (Except.ok.inj h) hb
  | name :: rest, r', h, h' => by
    cases goes_of_walk h' with
    | stay hd' hs hgo =>
      rw [walk_stay (walk_directory h) hs] at h
      exact walk_removed he hb rest r' h hgo
    | up hd' hgo =>
      have habove : (d.clear p).above .nowhere = d.above d.current := by
        unfold above
        rw [if_pos rfl, ite_self]
        rfl
      rw [walk_up (walk_directory h)] at h
      rw [habove] at hgo
      exact walk_clear he h hgo
    | last hpass => exact absurd rfl hpass.ne_nowhere
    | link hpass => exact absurd rfl hpass.ne_nowhere
    | entry hpass => exact absurd rfl hpass.ne_nowhere

/-- A walk from where a path starts. -/
theorem walk_start (he : Extends enter' enter) (path : Path) {names : List Text} {r : Place}
    (h : walk d .name enter (d.startOf path) names = .ok p)
    (h' : walk (d.clear p) .name enter' ((d.clear p).startOf path) names = .ok r) : r = p := by
  have hremoved : (d.clear p).removed =
      (d.removed || (p.isPrefixOf d.current && decide (d.current ≠ p))) := rfl
  unfold startOf at h h'
  rw [hremoved] at h'
  cases ha : path.isAbsolute with
  | true =>
    rw [ha] at h h'
    exact walk_clear he h h'
  | false =>
    rw [ha] at h h'
    cases hr : d.removed with
    | true =>
      rw [hr] at h h'
      exact walk_clear he h h'
    | false =>
      rw [hr] at h h'
      cases hg : p.isPrefixOf d.current && decide (d.current ≠ p) with
      | false =>
        rw [hg] at h'
        exact walk_clear he h h'
      | true =>
        rw [hg] at h'
        rw [Bool.and_eq_true, decide_eq_true_eq] at hg
        exact walk_removed he hg.2 names r h h'

theorem walkLinks_start (path : Path) {names : List Text} {r : Place} : ∀ links : Nat,
    walkLinks d .name links (d.startOf path) names = .ok p →
      walkLinks (d.clear p) .name links ((d.clear p).startOf path) names = .ok r → r = p
  | 0, h, h' => walk_start (fun _ _ _ hnone => by cases hnone) path h h'
  | links + 1, h, h' => walk_start (walkLinks_of_part (d.clear_isPartOf p) links) path h h'

end Clear

/-- **A path that still leads somewhere** after the directory that it leads to was cleared leads to
the same place. -/
theorem follow_clear {d : Disk} {path : Path} {p r : Place} (h : d.follow .name path = .ok p)
    (h' : (d.clear p).follow .name path = .ok r) : r = p :=
  walkLinks_start path linkLimit (follow_eq_ok.1 h).2 (follow_eq_ok.1 h').2

/-! ## What is left -/

theorem prefix_nowhere {p : Place} : p <+: Place.nowhere ↔ p = [] ∨ p = .nowhere := by
  unfold Place.nowhere
  rw [List.prefix_cons_iff]
  simp

/-- What is erased is seen at the erased places only, if neither the root nor the place of a removed
directory is among them. -/
theorem get?_eraseAll_of_ne (d : Disk) {gone : Place → Bool} (hroot : gone [] = false)
    (hnowhere : gone .nowhere = false) (q : Place) :
    (d.eraseAll gone).get? q = if gone q then none else d.get? q := by
  by_cases hq : q = []
  · subst hq
    simp [hroot]
  · by_cases hn : q = .nowhere
    · subst hn
      simp [hnowhere]
    · exact get?_eraseAll d gone q hq hn

/-- Clearing is seen below the place only. -/
theorem get?_clear {p : Place} (d : Disk) (hp : p ≠ []) (q : Place) :
    (d.clear p).get? q = if p <+: q ∧ q ≠ p then none else d.get? q := by
  unfold clear
  rw [get?_eraseAll_of_ne d]
  · simp
  · simp [← Bool.not_eq_true, List.isPrefixOf_iff_prefix, hp]
  · simp only [Bool.and_eq_false_imp, List.isPrefixOf_iff_prefix, prefix_nowhere]
    rintro (rfl | rfl)
    · exact absurd rfl hp
    · simp

/-- Erasing is seen at the place and below it. -/
theorem get?_erase {p : Place} (d : Disk) (hp : p ≠ []) (hn : p ≠ .nowhere) (q : Place) :
    (d.erase p).get? q = if p <+: q then none else d.get? q := by
  unfold erase
  rw [get?_eraseAll_of_ne d]
  · simp
  · simp [← Bool.not_eq_true, List.isPrefixOf_iff_prefix, hp]
  · simp [← Bool.not_eq_true, List.isPrefixOf_iff_prefix, prefix_nowhere, hp, hn]

theorem get?_erase_clear {p : Place} (d : Disk) (hp : p ≠ []) (hn : p ≠ .nowhere) (q : Place) :
    ((d.clear p).erase p).get? q = if p <+: q then none else d.get? q := by
  rw [get?_erase _ hp hn, get?_clear d hp]
  split
  · rfl
  · rename_i hq
    rw [if_neg fun h => hq h.1]

theorem hasFile_eraseAll {d : Disk} {gone : Place → Bool} {q : Place} {content : Bytes} :
    (d.eraseAll gone).HasFile q content ↔ d.HasFile q content ∧ gone q = false := by
  by_cases hq : q = []
  · subst hq
    simp [HasFile]
  · by_cases hn : q = .nowhere
    · subst hn
      simp [HasFile]
    · unfold HasFile
      rw [get?_eraseAll d gone q hq hn]
      cases gone q <;> simp

/-- Clearing a directory leaves the files that do not lie below it. -/
theorem hasFile_clear {d : Disk} {p q : Place} {content : Bytes} (hp : d.get? p = some .directory) :
    (d.clear p).HasFile q content ↔ d.HasFile q content ∧ ¬p <+: q := by
  unfold clear
  rw [hasFile_eraseAll]
  refine and_congr_right fun h => ?_
  have hne : q ≠ p := by
    rintro rfl
    exact h.ne_directory hp
  rw [← List.isPrefixOf_iff_prefix, Bool.not_eq_true]
  simp [hne]

theorem hasFile_erase {d : Disk} {p q : Place} {content : Bytes} :
    (d.erase p).HasFile q content ↔ d.HasFile q content ∧ ¬p <+: q := by
  unfold erase
  rw [hasFile_eraseAll, ← List.isPrefixOf_iff_prefix, Bool.not_eq_true]

/-- The place lies in the directory that the path leads to. -/
def Within (d : Disk) (path : Path) (q : Place) : Prop :=
  ∃ p, d.follow .name path = .ok p ∧ d.get? p = some .directory ∧ p <+: q

/-- `d'` is what is left of `d` once the directory is removed that the path leads to, if it leads to
a directory. -/
structure IsSwept (d : Disk) (path : Path) (d' : Disk) : Prop where
  /-- What does not lie in the directory is as it was. -/
  kept : ∀ q, ¬d.Within path q → d'.get? q = d.get? q
  /-- Nothing is left below the directory. -/
  below : ∀ q, d.Within path q → d.follow .name path ≠ .ok q → d'.get? q = none
  /-- The directory itself goes if its path leads to it when it is empty. -/
  gone : ∀ p, d.follow .name path = .ok p → d.get? p = some .directory →
    (d.clear p).follow .name path = .ok p → d'.get? p = none
  /-- It stays, and is empty, if its path leads through what was removed. -/
  stays : ∀ p, d.follow .name path = .ok p → d.get? p = some .directory →
    (d.clear p).follow .name path ≠ .ok p → d'.get? p = some .directory

theorem within_iff {d : Disk} {path : Path} {p q : Place} (hf : d.follow .name path = .ok p)
    (hp : d.get? p = some .directory) : d.Within path q ↔ p <+: q := by
  constructor
  · rintro ⟨p', hp', -, hq⟩
    exact Except.ok.inj (hf.symm.trans hp') ▸ hq
  · exact fun hq => ⟨p, hf, hp, hq⟩

/-- What is left where the path leads to a directory. -/
theorem isSwept_of_follow {d d' : Disk} {path : Path} {p : Place} (hf : d.follow .name path = .ok p)
    (hp : d.get? p = some .directory) (hkept : ∀ q, ¬p <+: q → d'.get? q = d.get? q)
    (hbelow : ∀ q, p <+: q → q ≠ p → d'.get? q = none)
    (hgone : (d.clear p).follow .name path = .ok p → d'.get? p = none)
    (hstays : (d.clear p).follow .name path ≠ .ok p → d'.get? p = some .directory) :
    d.IsSwept path d' where
  kept q hq := hkept q fun hprefix => hq ((within_iff hf hp).2 hprefix)
  below q hq hne := hbelow q ((within_iff hf hp).1 hq) fun heq => hne (heq ▸ hf)
  gone q hq _ hclear := by
    obtain rfl := Except.ok.inj (hf.symm.trans hq)
    exact hgone hclear
  stays q hq _ hclear := by
    obtain rfl := Except.ok.inj (hf.symm.trans hq)
    exact hstays hclear

end Disk

namespace Change

open Disk

/-- A directory is cleared, and then removed itself if its path leads to it still and names it by
other means than dots. -/
theorem run_removeDirectory {d : Disk} {path : Path} {p : Place} (h : d.follow .name path = .ok p) :
    ((removeDirectory path p).run d = (.ok (), (d.clear p).erase p) ∧
        (d.clear p).follow .name path = .ok p ∧ path.parts ≠ [] ∧ path.name ≠ ['.', '.']) ∨
      (∃ fault, (removeDirectory path p).run d = (.error fault, d.clear p)) ∧
        ((d.clear p).follow .name path ≠ .ok p ∨ path.parts = [] ∨ path.name = ['.', '.']) := by
  unfold removeDirectory
  rw [run_bind_ok (run_modify (fun d => d.clear p) d)]
  have hlook := run_look (fun d => d.follow .name path) (d.clear p)
  cases hf : (d.clear p).follow .name path with
  | error fault =>
    rw [hf] at hlook
    rw [run_bind_error hlook]
    exact .inr ⟨⟨fault, rfl⟩, .inl nofun⟩
  | ok r =>
    obtain rfl := follow_clear h hf
    rw [hf] at hlook
    rw [run_bind_ok hlook]
    dsimp only
    by_cases hparts : path.parts = []
    · rw [if_pos (List.isEmpty_iff.2 hparts)]
      exact .inr ⟨⟨_, rfl⟩, .inr (.inl hparts)⟩
    · rw [if_neg fun hempty => hparts (List.isEmpty_iff.1 hempty)]
      by_cases hname : path.name = ['.', '.']
      · rw [if_pos hname]
        exact .inr ⟨⟨_, rfl⟩, .inr (.inr hname)⟩
      · rw [if_neg hname]
        exact .inl ⟨rfl, rfl, hparts, hname⟩

theorem hasFile_removeDirectory {d : Disk} {path : Path} {p q : Place} {content : Bytes}
    (h : d.follow .name path = .ok p) (hp : d.get? p = some .directory) :
    ((removeDirectory path p).run d).2.HasFile q content ↔ d.HasFile q content ∧ ¬p <+: q := by
  obtain ⟨hr, -⟩ | ⟨⟨fault, hr⟩, -⟩ := run_removeDirectory h
  · rw [hr, hasFile_erase, hasFile_clear hp]
    exact ⟨fun h => h.1, fun h => ⟨h, h.2⟩⟩
  · rw [hr, hasFile_clear hp]

/-- What stands in the way of removing what a path leads to leaves everything as it is. -/
theorem run_removeTree (d : Disk) (path : Path) :
    (∃ p, d.follow .name path = .ok p ∧ d.get? p = some .directory ∧
        (removeTree path).run d = (removeDirectory path p).run d) ∨
      (∃ fault, (removeTree path).run d = (.error fault, d)) ∧
        ∀ p, d.follow .name path = .ok p → d.get? p ≠ some .directory := by
  unfold removeTree
  have hlook := run_look (fun d => d.follow .name path) d
  cases hf : d.follow .name path with
  | error fault =>
    rw [hf] at hlook
    rw [run_bind_error hlook]
    exact .inr ⟨⟨fault, rfl⟩, nofun⟩
  | ok p =>
    rw [hf] at hlook
    rw [run_bind_ok hlook, run_bind_ok (run_get d)]
    have hnot : d.get? p ≠ some .directory →
        ∀ p', (.ok p : Except DiskFault Place) = .ok p' → d.get? p' ≠ some .directory := by
      rintro hne p' hp'
      exact Except.ok.inj hp' ▸ hne
    cases he : d.get? p with
    | none => exact .inr ⟨⟨_, rfl⟩, hnot (by simp [he])⟩
    | some e =>
      cases e with
      | directory => exact .inl ⟨p, rfl, he, rfl⟩
      | file content => exact .inr ⟨⟨_, rfl⟩, hnot (by simp [he])⟩
      | link target => exact .inr ⟨⟨_, rfl⟩, hnot (by simp [he])⟩

/-- **Removing a directory** leaves the files that do not lie in it. -/
theorem hasFile_removeTree {d : Disk} {path : Path} {q : Place} {content : Bytes} :
    ((removeTree path).run d).2.HasFile q content ↔ d.HasFile q content ∧ ¬d.Within path q := by
  obtain ⟨p, hf, hp, hr⟩ | ⟨⟨fault, hr⟩, hnone⟩ := run_removeTree d path
  · rw [hr, hasFile_removeDirectory hf hp, within_iff hf hp]
  · rw [hr]
    exact ⟨fun h => ⟨h, fun ⟨p, hp, hd, _⟩ => hnone p hp hd⟩, fun h => h.1⟩

/-- **Removing a directory** whose path ends with a name: all below it goes, and it goes itself if
its path leads to it when it is empty. -/
theorem isSwept_removeTree (d : Disk) {path : Path} {name : Text} (hname : IsEntryName name) :
    d.IsSwept (path.child name) ((removeTree (path.child name)).run d).2 := by
  obtain ⟨p, hf, hp, hr⟩ | ⟨⟨fault, hr⟩, hnone⟩ := run_removeTree d (path.child name)
  · obtain ⟨hroot, hnowhere⟩ := ne_of_follow_last hname hf
    have hend : (path.child name).parts ≠ [] ∧ (path.child name).name ≠ ['.', '.'] :=
      ⟨by simp [Path.child], by simpa [Path.child, Path.name] using hname.2⟩
    rw [hr]
    obtain ⟨hr, hclear, -⟩ | ⟨⟨fault, hr⟩, hclear⟩ := run_removeDirectory hf
    · have hget := get?_erase_clear d hroot hnowhere
      rw [hr]
      refine isSwept_of_follow hf hp (fun q hq => ?_) (fun q hq _ => ?_) (fun _ => ?_)
        (fun hnot => absurd hclear hnot)
      · rw [hget, if_neg hq]
      · rw [hget, if_pos hq]
      · rw [hget, if_pos List.prefix_rfl]
    · have hclear : (d.clear p).follow .name (path.child name) ≠ .ok p := by
        rcases hclear with h | h | h
        · exact h
        · exact absurd h hend.1
        · exact absurd h hend.2
      have hget := get?_clear d hroot
      rw [hr]
      refine isSwept_of_follow hf hp (fun q hq => ?_) (fun q hq hne => ?_)
        (fun hthere => absurd hthere hclear) (fun _ => ?_)
      · rw [hget, if_neg fun h => hq h.1]
      · rw [hget, if_pos ⟨hq, hne⟩]
      · rw [hget, if_neg fun h => h.2 rfl]
        exact hp
  · rw [hr]
    exact ⟨fun _ _ => rfl, fun q ⟨p, hp, hd, _⟩ _ => absurd hd (hnone p hp),
      fun p hp hd _ => absurd hd (hnone p hp), fun p hp hd _ => absurd hd (hnone p hp)⟩

end Change

end AgdaFrontEnd
