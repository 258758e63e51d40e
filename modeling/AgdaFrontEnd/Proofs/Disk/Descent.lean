import AgdaFrontEnd.Disk.Sources
import AgdaFrontEnd.Proofs.Disk.Sources
import AgdaFrontEnd.Proofs.Disk.Tree
import Mathlib.Data.List.Perm.Subperm

/-!
# Going down from a directory

Below a directory an entry is reached by going from one directory to the next, without links.  The path
of such an entry comes to its place unless it is too long for the system.

* `Disk.IsNamed`: the names of all entries are such that the system takes them.
* `Disk.IsEntryBelow`: an entry below a directory.
* `Disk.walkLinks_found_append`: a walk goes on from the directory that it came to.
* `Disk.follow_entry`: the path of an entry comes to its place or is too long.
* `Disk.mem_children_iff`: the listing of a directory has its entries.
* `Disk.IsEntryBelow.length_le`: an entry lies no deeper than there are entries.
-/

namespace AgdaFrontEnd

/-- A path that goes on from another one. -/
def Path.below (p : Path) (names : List Text) : Path := ⟨p.anchor, p.parts ++ names⟩

theorem Path.below_nil (p : Path) : p.below [] = p := by
  simp [below]

theorem Path.below_cons (p : Path) (name : Text) (names : List Text) :
    p.below (name :: names) = (p.child name).below names := by
  simp [below, child]

theorem mem_intercalate_concat {c : Char} {name : Text} : ∀ {names : List Text},
    c ∈ ['/'].intercalate (names ++ [name]) → c ∈ ['/'].intercalate names ∨ c = '/' ∨ c ∈ name
  | [], h => by simpa using Or.inr h
  | [first], h => by
    rw [List.cons_append, List.nil_append, List.intercalate_cons_cons, List.intercalate_singleton] at h
    simpa [or_assoc] using h
  | first :: second :: names, h => by
    rw [List.cons_append, List.cons_append, List.intercalate_cons_cons, ← List.cons_append] at h
    rw [List.intercalate_cons_cons]
    simp only [List.mem_append] at h ⊢
    rcases h with h | h
    · exact .inl (.inl h)
    · exact (mem_intercalate_concat h).imp_left .inr

/-- What stands in the text of a path with a name behind it. -/
theorem Path.mem_toText_child {c : Char} {p : Path} {name : Text} (h : c ∈ (p.child name).toText) :
    c ∈ p.toText ∨ c = '/' ∨ c ∈ name := by
  obtain ⟨anchor, names⟩ := p
  cases anchor with
  | here =>
    cases names with
    | nil => exact .inr (.inr (by simpa [toText, child] using h))
    | cons first names =>
      have h' : c ∈ ['/'].intercalate ((first :: names) ++ [name]) := h
      exact mem_intercalate_concat h'
  | root =>
    rcases List.mem_cons.1 h with rfl | h
    · exact .inr (.inl rfl)
    · exact (mem_intercalate_concat h).imp_left (List.mem_cons_of_mem _)
  | doubleRoot =>
    rcases List.mem_cons.1 h with rfl | h
    · exact .inr (.inl rfl)
    rcases List.mem_cons.1 h with rfl | h
    · exact .inr (.inl rfl)
    · exact (mem_intercalate_concat h).imp_left fun h =>
        List.mem_cons_of_mem _ (List.mem_cons_of_mem _ h)

namespace Disk

variable {d : Disk}

/-! ## One more name -/

section Walk

variable {enter enter' : Place → List Text → Except Refusal Place} {place : Place} {more : List Text}
  {result : Except Refusal Place}

/-- A walk goes on from the directory that it came to.  Links on the way are entered with all names
that are to come. -/
theorem walk_found_append (hplace : d.get? place = some .directory)
    (hgo : walk d .found enter' place more = result)
    (he : ∀ here names, enter here names = .ok place → enter' here (names ++ more) = result) :
    ∀ (names : List Text) (here : Place), walk d .found enter here names = .ok place →
      walk d .found enter' here (names ++ more) = result
  | [], here, hw => by
    rw [walk] at hw
    obtain rfl := Except.ok.inj hw
    exact hgo
  | name :: rest, here, hw => by
    have hd := walk_directory hw
    rw [List.cons_append]
    by_cases hs : name = [] ∨ name = ['.']
    · rw [walk_stay hd hs] at hw ⊢
      exact walk_found_append hplace hgo he rest here hw
    by_cases hu : name = ['.', '.']
    · subst hu
      rw [walk_up hd] at hw ⊢
      exact walk_found_append hplace hgo he rest (d.above here) hw
    obtain ⟨c, hc⟩ | hpasses := exists_obstacle_or_passes hd ⟨hs, hu⟩
    · cases (hc .found enter rest (by simp)).symm.trans hw
    have hpass := fun rest => hpasses .found rest (by simp)
    cases hget : d.get? (here ++ [name]) with
    | none =>
      rw [(hpass rest).walk_none hget] at hw
      split at hw
      · rw [Except.ok.inj hw, hplace] at hget
        cases hget
      · cases hw
    | some e =>
      by_cases hlink : ∃ target, e = .link target
      · obtain ⟨target, rfl⟩ := hlink
        rw [(hpass _).walk_link hget (by simp)] at hw
        rw [(hpass _).walk_link hget (by simp), ← List.append_assoc]
        exact he _ _ hw
      · rw [(hpass _).walk_entry hget (not_exists.1 hlink)] at hw ⊢
        exact walk_found_append hplace hgo he rest (here ++ [name]) hw

theorem walkLinks_found_append (hplace : d.get? place = some .directory)
    (hgo : ∀ enter', walk d .found enter' place more = result) : ∀ (links : Nat) (names : List Text)
      (here : Place), walkLinks d .found links here names = .ok place →
        walkLinks d .found links here (names ++ more) = result
  | 0, names, here, hw =>
    walk_found_append hplace (hgo _) (fun _ _ hnone => by cases hnone) names here hw
  | links + 1, names, here, hw =>
    walk_found_append hplace (hgo _)
      (fun here names => walkLinks_found_append hplace hgo links names here) names here hw

end Walk

/-- The path comes to a place unless it is too long. -/
def LeadsTo (d : Disk) (p : Path) (place : Place) : Prop :=
  d.follow .found p = .ok place ∨ ∃ t, d.follow .found p = .error (.refused .nameTooLong t)

theorem LeadsTo.eq_of_follow {p : Path} {place q : Place} (h : d.LeadsTo p place)
    (hq : d.follow .found p = .ok q) : q = place := by
  rcases h with h | ⟨t, h⟩
  · exact Except.ok.inj (hq.symm.trans h)
  · cases hq.symm.trans h

/-- **The path of an entry comes to its place or is too long**, if the path of its directory comes to
the place of the directory. -/
theorem follow_entry {directory : Path} {place : Place} {name : Text} {e : Entry}
    (hf : d.follow .found directory = .ok place) (hplace : d.get? place = some .directory)
    (hget : d.get? (place ++ [name]) = some e) (hlink : ∀ target, e ≠ .link target)
    (hname : IsEntryName name) (hnull : '\x00' ∉ name) (hn : place ≠ .nowhere) :
    d.LeadsTo (directory.child name) (place ++ [name]) := by
  obtain ⟨htaken, hw⟩ := follow_eq_ok.1 hf
  have hdirectory : '\x00' ∉ directory.toText := by simpa using htaken.1
  have hclear : (directory.child name).toText.contains '\x00' = false := by
    refine Bool.eq_false_iff.2 fun hmem => ?_
    rcases Path.mem_toText_child (List.contains_iff_mem.1 hmem) with h | h | h
    · exact hdirectory h
    · cases h
    · exact hnull h
  by_cases hshort : (Utf8.encode (directory.child name).toText).length < pathLimit
  · rw [LeadsTo, follow_of_isTaken ⟨hclear, hshort⟩]
    have hstart : d.startOf (directory.child name) = d.startOf directory := rfl
    rw [hstart]
    by_cases hlong : nameLimit < (Utf8.encode name).length
    · have hgo : walkLinks d .found linkLimit (d.startOf directory) (directory.parts ++ [name]) =
          .error .nameTooLong :=
        walkLinks_found_append hplace (fun _ => walk_long hplace hname hn (by simp) hlong) _ _ _ hw
      exact .inr ⟨_, congrArg (Except.mapError _) hgo⟩
    · have hpass : d.Passes .found place name [] := ⟨hplace, hname, hn, by simp, hlong⟩
      have hgo : walkLinks d .found linkLimit (d.startOf directory) (directory.parts ++ [name]) =
          .ok (place ++ [name]) := by
        refine walkLinks_found_append hplace (fun enter => ?_) _ _ _ hw
        rw [hpass.walk_entry hget hlink, walk]
      exact .inl (congrArg (Except.mapError _) hgo)
  · right
    refine ⟨(directory.child name).toText, ?_⟩
    unfold follow
    rw [if_neg (by rw [hclear]; exact Bool.false_ne_true), if_pos (Nat.not_lt.1 hshort)]

/-! ## Listings -/

/-- Every name on the way to an entry is that of an entry, and holds no null character. -/
def IsNamed (d : Disk) : Prop := ∀ x ∈ d.entries, ∀ name ∈ x.1, IsEntryName name ∧ '\x00' ∉ name

instance (d : Disk) : Decidable d.IsNamed := inferInstanceAs (Decidable (∀ x ∈ _, _))

instance (d : Disk) : Decidable d.IsTable := inferInstanceAs (Decidable (List.Nodup _))

theorem mem_children {place : Place} {name : Text} {e : Entry} :
    (name, e) ∈ d.children place ↔ (place ++ [name], e) ∈ d.entries := by
  unfold children
  rw [List.mem_filterMap]
  constructor
  · rintro ⟨⟨p, e'⟩, hmem, hx⟩
    dsimp only at hx
    split at hx
    · rename_i last hlast
      split at hx
      · rename_i hplace
        cases hx
        rw [← hplace, List.dropLast_append_getLast? _ hlast]
        exact List.mem_reverse.1 hmem
      · cases hx
    · cases hx
  · intro hmem
    exact ⟨_, List.mem_reverse.2 hmem, by simp⟩

theorem lookup_of_mem {es : List (Place × Entry)} (hnodup : (es.map (·.1)).Nodup) {place : Place}
    {e : Entry} (hmem : (place, e) ∈ es) : es.lookup place = some e := by
  obtain ⟨before, behind, rfl⟩ := List.append_of_mem hmem
  refine List.lookup_eq_some_iff.2 ⟨before, behind, rfl, fun x hx => ?_⟩
  rw [List.map_append, List.map_cons] at hnodup
  have hother := List.disjoint_of_nodup_append hnodup (List.mem_map_of_mem hx)
  exact bne_iff_ne.2 fun heq => hother (heq ▸ .head _)

theorem get?_of_mem_entries (ht : d.IsTable) {place : Place} {e : Entry}
    (hmem : (place, e) ∈ d.entries) (hroot : place ≠ []) (hn : place ≠ .nowhere) :
    d.get? place = some e := by
  unfold get?
  rw [if_neg (not_or.2 ⟨hroot, hn⟩)]
  exact lookup_of_mem ht hmem

/-- **The listing of a directory has its entries.** -/
theorem mem_children_iff (ht : d.IsTable) (hnamed : d.IsNamed) {place : Place} {name : Text}
    {e : Entry} : (name, e) ∈ d.children place ↔
      d.get? (place ++ [name]) = some e ∧ place ++ [name] ≠ .nowhere := by
  rw [mem_children]
  constructor
  · intro hmem
    have hname := (hnamed _ hmem name (by simp)).1
    have hn : place ++ [name] ≠ .nowhere := append_ne_nowhere hname
    exact ⟨get?_of_mem_entries ht hmem (by simp) hn, hn⟩
  · rintro ⟨hget, hn⟩
    exact mem_entries_of_get? hget (by simp) hn

/-! ## Entries below a directory -/

/-- An entry below the directory at a place, by the names that lead down to the directory that it is in,
and its own name.  The directories on the way are no links. -/
structure IsEntryBelow (d : Disk) (place : Place) (names : List Text) (name : Text) (e : Entry) :
    Prop where
  directories : ∀ way, way <+: names → d.get? (place ++ way) = some .directory
  entry : d.get? (place ++ names ++ [name]) = some e
  entryName : IsEntryName name

namespace IsEntryBelow

variable {place : Place} {names : List Text} {name first : Text} {e : Entry}

theorem directory (h : d.IsEntryBelow place names name e) : d.get? place = some .directory := by
  simpa using h.directories [] List.nil_prefix

theorem nil_iff : d.IsEntryBelow place [] name e ↔
    d.get? place = some .directory ∧ d.get? (place ++ [name]) = some e ∧ IsEntryName name := by
  refine ⟨fun h => ⟨h.directory, by simpa using h.entry, h.entryName⟩, fun ⟨hp, he, hn⟩ => ⟨?_, ?_, hn⟩⟩
  · intro way hway
    rw [List.prefix_nil.1 hway, List.append_nil]
    exact hp
  · rwa [List.append_nil]

/-- An entry that lies deeper lies below an entry that is a directory. -/
theorem cons_iff : d.IsEntryBelow place (first :: names) name e ↔
    d.get? place = some .directory ∧ d.IsEntryBelow (place ++ [first]) names name e := by
  constructor
  · intro h
    refine ⟨h.directory, ⟨fun way hway => ?_, ?_, h.entryName⟩⟩
    · rw [← List.append_cons]
      exact h.directories _ (List.cons_prefix_cons.2 ⟨rfl, hway⟩)
    · rw [← List.append_cons]
      exact h.entry
  · rintro ⟨hp, h⟩
    have hentry := h.entry
    rw [← List.append_cons] at hentry
    refine ⟨fun way hway => ?_, hentry, h.entryName⟩
    rcases List.prefix_cons_iff.1 hway with rfl | ⟨rest, rfl, hrest⟩
    · rwa [List.append_nil]
    · have hdirectory := h.directories rest hrest
      rwa [← List.append_cons] at hdirectory

theorem mem_entries (h : d.IsEntryBelow place names name e) :
    (place ++ names ++ [name], e) ∈ d.entries :=
  mem_entries_of_get? h.entry (by simp) (append_ne_nowhere h.entryName)

/-- The names on the way are those of entries. -/
theorem isEntryName (hnamed : d.IsNamed) (h : d.IsEntryBelow place names name e) {n : Text}
    (hn : n ∈ place ++ names ++ [name]) : IsEntryName n ∧ '\x00' ∉ n :=
  hnamed _ h.mem_entries n hn

theorem ne_nowhere (hnamed : d.IsNamed) (h : d.IsEntryBelow place names name e) {p : Place}
    (hp : p <+: place ++ names ++ [name]) : p ≠ .nowhere := by
  rintro rfl
  have hempty : ([] : Text) ∈ place ++ names ++ [name] := hp.subset (.head _)
  exact (h.isEntryName hnamed hempty).1.1 (.inl rfl)

/-- **An entry lies no deeper than there are entries**: itself and the directories on the way to it are
different ones. -/
theorem length_le (hnamed : d.IsNamed) (h : d.IsEntryBelow place names name e) :
    names.length + 1 ≤ d.entries.length := by
  let way (k : Nat) : Place := place ++ (names ++ [name]).take (k + 1)
  have hmem : ∀ k < names.length + 1, way k ∈ d.entries.map (·.1) := by
    intro k hk
    have hprefix : way k <+: place ++ names ++ [name] := by
      rw [List.append_assoc]
      exact (List.prefix_append_right_inj _).2 (List.take_prefix _ _)
    have hroot : way k ≠ [] := by simp [way]
    obtain ⟨e', he'⟩ : ∃ e', d.get? (way k) = some e' := by
      by_cases hlast : k = names.length
      · have hall : way k = place ++ names ++ [name] := by
          simp only [way, hlast, List.append_assoc]
          rw [List.take_of_length_le (by simp)]
        exact ⟨e, hall ▸ h.entry⟩
      · have htake : (names ++ [name]).take (k + 1) = names.take (k + 1) :=
          List.take_append_of_le_length (by omega)
        exact ⟨_, (congrArg (fun t => d.get? (place ++ t)) htake).trans
          (h.directories _ (List.take_prefix _ _))⟩
    exact List.mem_map_of_mem (mem_entries_of_get? he' hroot (h.ne_nowhere hnamed hprefix))
  have hnodup : ((List.range (names.length + 1)).map way).Nodup := by
    refine List.Nodup.map_on (fun a ha b hb hab => ?_) List.nodup_range
    have hlength := congrArg List.length hab
    simp only [way, List.length_append, List.length_take, List.length_singleton] at hlength
    rw [List.mem_range] at ha hb
    omega
  have hsubset : (List.range (names.length + 1)).map way ⊆ d.entries.map (·.1) := by
    intro p hp
    obtain ⟨k, hk, rfl⟩ := List.mem_map.1 hp
    exact hmem k (List.mem_range.1 hk)
  have hle := (List.subperm_of_subset hnodup hsubset).length_le
  rwa [List.length_map, List.length_map, List.length_range] at hle

end IsEntryBelow

end Disk

end AgdaFrontEnd
