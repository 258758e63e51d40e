import AgdaFrontEnd.Disk.Sources
import AgdaFrontEnd.Proofs.Disk.Table
import AgdaFrontEnd.Proofs.Response.Shape
import Mathlib.Data.List.Nodup

/-!
# Source files are found once

Every path that the walk through a directory finds tells by its names how it was found: the directory,
the entry, and what was found below the entry.  So no path is found twice.

* `Disk.nodup_names`: the entries of a directory have different names.
* `Disk.below_of_mem_sourcesBelow`: where the paths lie that are found below a directory.
* `Disk.nodup_sources`: the source files are found once.
-/

namespace AgdaFrontEnd

/-! ## Lists -/

section Lists

variable {α β ε : Type}

theorem sublist_of_filterAuxM {p : α → Except ε Bool} : ∀ {as acc bs : List α},
    List.filterAuxM p as acc = .ok bs → ∃ cs : List α, cs.Sublist as ∧ bs = cs.reverse ++ acc
  | [], acc, bs, h => ⟨[], .slnil, (Except.ok.inj h).symm⟩
  | a :: as, acc, bs, h => by
    rw [List.filterAuxM, bind_eq_ok_iff] at h
    obtain ⟨b, -, h⟩ := h
    obtain ⟨cs, hsub, hbs⟩ := sublist_of_filterAuxM h
    cases b with
    | false => exact ⟨cs, hsub.cons a, hbs⟩
    | true => exact ⟨a :: cs, hsub.cons_cons a, by simpa using hbs⟩

/-- What passes a test that may fail is some of the list, in its order. -/
theorem sublist_of_filterM {p : α → Except ε Bool} {as bs : List α} (h : as.filterM p = .ok bs) :
    bs.Sublist as := by
  rw [List.filterM, bind_eq_ok_iff] at h
  obtain ⟨rs, hrs, h⟩ := h
  obtain ⟨cs, hsub, rfl⟩ := sublist_of_filterAuxM hrs
  obtain rfl := Except.ok.inj h
  simpa using hsub

theorem exists_of_mem_forall₂ {R : α → β → Prop} {as : List α} {bs : List β}
    (h : List.Forall₂ R as bs) {b : β} (hb : b ∈ bs) : ∃ a ∈ as, R a b := by
  induction h with
  | nil => exact absurd hb List.not_mem_nil
  | cons hab _ ih =>
    rcases List.mem_cons.1 hb with rfl | hb
    · exact ⟨_, List.mem_cons_self, hab⟩
    · obtain ⟨a, ha, hR⟩ := ih hb
      exact ⟨a, List.mem_cons_of_mem _ ha, hR⟩

/-- What holds of any two members of a list holds of any two that were made of them. -/
theorem pairwise_of_forall₂ {R : α → β → Prop} {S : α → α → Prop} {T : β → β → Prop}
    (hT : ∀ {a a' b b'}, R a b → R a' b' → S a a' → T b b') {as : List α} {bs : List β}
    (h : List.Forall₂ R as bs) (hS : as.Pairwise S) : bs.Pairwise T := by
  induction h with
  | nil => exact .nil
  | @cons a b as bs hab hrest ih =>
    obtain ⟨hhead, htail⟩ := List.pairwise_cons.1 hS
    refine List.pairwise_cons.2 ⟨fun b' hb' => ?_, ih htail⟩
    obtain ⟨a', ha', hR⟩ := exists_of_mem_forall₂ hrest hb'
    exact hT hab hR (hhead a' ha')

end Lists

namespace Disk

/-! ## Entries of a directory -/

/-- The places of the entries of a directory are among all places, in their order. -/
theorem places_children (d : Disk) (place : Place) :
    ((d.children place).map fun x => place ++ [x.1]).Sublist (d.entries.map (·.1)).reverse := by
  unfold children
  rw [← List.map_reverse]
  generalize d.entries.reverse = es
  induction es with
  | nil => exact .slnil
  | cons x es ih =>
    obtain ⟨p, e⟩ := x
    rw [List.filterMap_cons, List.map_cons]
    cases hl : p.getLast? with
    | none =>
      simp only [hl]
      exact ih.cons p
    | some name =>
      by_cases hp : p.dropLast = place
      · have hname : place ++ [name] = p := hp ▸ List.dropLast_append_getLast? name hl
        simp only [hl, if_pos hp, List.map_cons, hname]
        exact ih.cons_cons p
      · simp only [hl, if_neg hp]
        exact ih.cons p

theorem nodup_names {d : Disk} (h : d.IsTable) (place : Place) :
    ((d.children place).map (·.1)).Nodup := by
  have hplaces := List.Nodup.sublist (d.places_children place) (List.nodup_reverse.2 h)
  refine List.Nodup.of_map (fun name => place ++ [name]) ?_
  rwa [List.map_map]

/-! ## The walk -/

/-- What the walk finds below an entry of a directory, going at most `depth` levels down. -/
def FoundBehind (d : Disk) (depth : Nat) (directory : Path) (x : Text × Entry) (ps : List Path) : Prop :=
  ps = [] ∨ d.sourcesBelow depth (directory.child x.1) = .ok ps

/-- What the walk finds in a directory: some of its entries, and what is found behind each of them. -/
theorem sourcesBelow_succ {d : Disk} {depth : Nat} {directory : Path} {files : List Path}
    (h : d.sourcesBelow (depth + 1) directory = .ok files) :
    ∃ place here below, here.Sublist ((d.children place).map fun x => directory.child x.1) ∧
      List.Forall₂ (d.FoundBehind depth directory) (d.children place) below ∧
      files = here ++ below.flatten := by
  rw [sourcesBelow, bind_eq_ok_iff] at h
  obtain ⟨place, -, h⟩ := h
  dsimp only at h
  rw [bind_eq_ok_iff] at h
  obtain ⟨here, hhere, h⟩ := h
  rw [bind_eq_ok_iff] at h
  obtain ⟨below, hbelow, h⟩ := h
  refine ⟨place, here, below, ?_, (mapM_eq_ok_iff.1 hbelow).flip.imp fun x ps hx => ?_,
    (Except.ok.inj h).symm⟩
  · exact (sublist_of_filterM hhere).trans (List.filter_sublist.map _)
  · obtain ⟨name, e⟩ := x
    cases e with
    | directory => exact .inr hx
    | file content => exact .inl (Except.ok.inj hx).symm
    | link target =>
      dsimp only at hx
      rw [bind_eq_ok_iff] at hx
      obtain ⟨_, -, hx⟩ := hx
      exact .inl (Except.ok.inj hx).symm

/-- The names on the way to a path that is found below a directory begin with those of the directory,
and there is one more at least. -/
theorem below_of_mem_sourcesBelow {d : Disk} : ∀ {depth : Nat} {directory : Path} {files : List Path},
    d.sourcesBelow depth directory = .ok files → ∀ p ∈ files,
      ∃ name rest, p = ⟨directory.anchor, directory.parts ++ name :: rest⟩
  | 0, directory, files, h, p, hp => by
    obtain rfl := Except.ok.inj h
    exact absurd hp List.not_mem_nil
  | depth + 1, directory, files, h, p, hp => by
    obtain ⟨place, here, below, hhere, hbelow, rfl⟩ := sourcesBelow_succ h
    rcases List.mem_append.1 hp with hp | hp
    · obtain ⟨x, -, rfl⟩ := List.mem_map.1 (hhere.subset hp)
      exact ⟨x.1, [], rfl⟩
    · obtain ⟨ps, hps, hp⟩ := List.mem_flatten.1 hp
      obtain ⟨x, -, hx⟩ := exists_of_mem_forall₂ hbelow hps
      rcases hx with rfl | hx
      · exact absurd hp List.not_mem_nil
      · obtain ⟨name, rest, rfl⟩ := below_of_mem_sourcesBelow hx p hp
        exact ⟨x.1, name :: rest, by simp [Path.child]⟩

/-- The names on the way to a path that is found behind an entry. -/
theorem FoundBehind.parts_eq {d : Disk} {depth : Nat} {directory : Path} {x : Text × Entry}
    {ps : List Path} (h : d.FoundBehind depth directory x ps) {p : Path} (hp : p ∈ ps) :
    ∃ name rest, p.parts = directory.parts ++ x.1 :: name :: rest := by
  rcases h with rfl | h
  · exact absurd hp List.not_mem_nil
  · obtain ⟨name, rest, rfl⟩ := below_of_mem_sourcesBelow h p hp
    exact ⟨name, rest, by simp [Path.child]⟩

/-- **The walk finds no path twice.** -/
theorem nodup_sourcesBelow {d : Disk} (hd : d.IsTable) : ∀ {depth : Nat} {directory : Path}
    {files : List Path}, d.sourcesBelow depth directory = .ok files → files.Nodup
  | 0, directory, files, h => by
    obtain rfl := Except.ok.inj h
    exact .nil
  | depth + 1, directory, files, h => by
    obtain ⟨place, here, below, hhere, hbelow, rfl⟩ := sourcesBelow_succ h
    have hnames := d.nodup_names hd place
    have hchild : Function.Injective directory.child := by
      intro a b hab
      exact (List.cons.inj (List.append_cancel_left (Path.mk.inj hab).2)).1
    refine List.nodup_append.2 ⟨?_, List.nodup_flatten.2 ⟨fun ps hps => ?_, ?_⟩, ?_⟩
    · have hchildren := hnames.map hchild
      rw [List.map_map] at hchildren
      exact hchildren.sublist hhere
    · obtain ⟨x, -, hx⟩ := exists_of_mem_forall₂ hbelow hps
      rcases hx with rfl | hx
      · exact .nil
      · exact nodup_sourcesBelow hd hx
    · refine pairwise_of_forall₂ (S := fun x y => x.1 ≠ y.1) ?_ hbelow (List.pairwise_map.1 hnames)
      intro x y ps qs hx hy hxy p hp hq
      obtain ⟨name, rest, hpx⟩ := hx.parts_eq hp
      obtain ⟨name', rest', hpy⟩ := hy.parts_eq hq
      exact hxy (List.cons.inj (List.append_cancel_left (hpx.symm.trans hpy))).1
    · rintro p hp q hq rfl
      obtain ⟨x, -, rfl⟩ := List.mem_map.1 (hhere.subset hp)
      obtain ⟨ps, hps, hq⟩ := List.mem_flatten.1 hq
      obtain ⟨y, -, hy⟩ := exists_of_mem_forall₂ hbelow hps
      obtain ⟨name, rest, hparts⟩ := hy.parts_eq hq
      have hrest := (List.cons.inj (List.append_cancel_left hparts)).2
      cases hrest

/-- **The source files below a path are found once.** -/
theorem nodup_sources {d : Disk} (hd : d.IsTable) {root : Path} {files : List Path}
    (h : d.sources root = .ok files) : files.Nodup := by
  rw [sources, bind_eq_ok_iff] at h
  obtain ⟨found, -, h⟩ := h
  cases found with
  | false =>
    obtain rfl := Except.ok.inj h
    exact .nil
  | true =>
    simp only [if_true, bind_eq_ok_iff] at h
    obtain ⟨ps, hps, h⟩ := h
    obtain rfl := Except.ok.inj h
    exact (List.mergeSort_perm ps partsLE).nodup_iff.2 (nodup_sourcesBelow hd hps)

/-- Source files that the walk finds in order are not moved. -/
theorem sources_of_sorted {d : Disk} {root : Path} {files : List Path}
    (hdir : d.isDirectory root = .ok true) (h : d.sourcesBelow (d.entries.length + 1) root = .ok files)
    (hsorted : files.Pairwise (partsLE · ·)) : d.sources root = .ok files := by
  rw [sources, hdir]
  simp only [bind, Except.bind, if_true, h]
  rw [List.mergeSort_of_pairwise hsorted]
  rfl

end Disk

end AgdaFrontEnd
