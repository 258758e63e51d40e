import AgdaFrontEnd.Disk.Access
import AgdaFrontEnd.Proofs.Computation

/-!
# What changes do to files

* `Disk.write_eq_ok`: a file is written where its path comes to; `Disk.get?_write`: it is seen there,
  and nowhere else.
* `Change.run_once_ok`, `Change.run_look`: how single changes run.
* `Change.Keeps`: a change that keeps a property of file systems.  `Change.keeps_makeDirectories`: what
  making directories keeps; `Change.exists_of_run_makeDirectories`: what it comes to.
* `Change.KeepsFiles`: a change after which there are the same files with the same contents.
  `Change.keepsFiles_makeDirectories`: making directories is such a change.
-/

namespace AgdaFrontEnd

namespace Disk

/-- There is a file with this content at the place. -/
def HasFile (d : Disk) (q : Place) (content : Bytes) : Prop := d.get? q = some (.file content)

instance (d : Disk) (q : Place) (content : Bytes) : Decidable (d.HasFile q content) :=
  inferInstanceAs (Decidable (_ = _))

@[simp] theorem get?_root (d : Disk) : d.get? [] = some .directory := by simp [get?]

@[simp] theorem get?_nowhere (d : Disk) : d.get? .nowhere = some .directory := by simp [get?]

theorem ne_root_of_get? {d : Disk} {q : Place} (h : d.get? q ≠ some .directory) : q ≠ [] := by
  rintro rfl
  exact h d.get?_root

theorem ne_nowhere_of_get? {d : Disk} {q : Place} (h : d.get? q ≠ some .directory) :
    q ≠ .nowhere := by
  rintro rfl
  exact h d.get?_nowhere

theorem HasFile.ne_directory {d : Disk} {q : Place} {content : Bytes} (h : d.HasFile q content) :
    d.get? q ≠ some .directory := by
  rw [h]
  simp

/-- An entry that is put where no directory is, is seen there and nowhere else. -/
theorem get?_put_of_ne {d : Disk} {p : Place} (h : d.get? p ≠ some .directory) (q : Place)
    (e : Entry) : (d.put p e).get? q = if q = p then some e else d.get? q :=
  d.get?_put p q e (ne_root_of_get? h) (ne_nowhere_of_get? h)

/-! ## Writing -/

/-- The place where a file comes to that is written by this path. -/
def landing? (d : Disk) (p : Path) : Option Place :=
  match d.follow .file p with
  | .ok q => if d.get? q = some .directory then none else some q
  | .error _ => none

theorem landing?_eq_some {d : Disk} {p : Path} {q : Place} :
    d.landing? p = some q ↔ d.follow .file p = .ok q ∧ d.get? q ≠ some .directory := by
  unfold landing?
  cases d.follow .file p with
  | error fault => simp
  | ok place =>
    dsimp only
    rw [Option.ite_none_left_eq_some, Option.some.injEq, Except.ok.injEq]
    exact ⟨fun ⟨hd, hq⟩ => ⟨hq, hq ▸ hd⟩, fun ⟨hq, hd⟩ => ⟨hq ▸ hd, hq⟩⟩

/-- A file is written by entering it where it comes to; there is no other way to succeed. -/
theorem write_eq_ok {d d' : Disk} {p : Path} {content : Bytes} :
    d.write p content = .ok d' ↔
      ∃ place, d.landing? p = some place ∧ d.put place (.file content) = d' := by
  unfold write
  cases hf : d.follow .file p with
  | error fault =>
    constructor
    · intro h
      cases h
    · rintro ⟨place, hp, -⟩
      rw [landing?_eq_some, hf] at hp
      cases hp.1
  | ok place =>
    dsimp only [bind, Except.bind]
    split
    · rename_i hd
      constructor
      · intro h
        cases h
      · rintro ⟨place', hp, -⟩
        rw [landing?_eq_some, hf] at hp
        obtain rfl := Except.ok.inj hp.1
        exact absurd hd hp.2
    · rename_i hd
      have hp : d.landing? p = some place := landing?_eq_some.2 ⟨hf, hd⟩
      rw [hp]
      constructor
      · exact fun h => ⟨place, rfl, Except.ok.inj h⟩
      · rintro ⟨place', hp', rfl⟩
        rw [Option.some.inj hp']
        rfl

/-- **A file that is written** is seen where it comes to, and nowhere else. -/
theorem get?_write {d d' : Disk} {p : Path} {content : Bytes} (h : d.write p content = .ok d')
    (q : Place) : d'.get? q = if d.landing? p = some q then some (.file content) else d.get? q := by
  obtain ⟨place, hp, rfl⟩ := write_eq_ok.1 h
  rw [get?_put_of_ne (landing?_eq_some.1 hp).2, hp]
  by_cases hq : q = place
  · rw [if_pos hq, if_pos (congrArg some hq.symm)]
  · rw [if_neg hq, if_neg fun he => hq (Option.some.inj he).symm]

theorem landing?_of_error {d : Disk} {p : Path} {content : Bytes} {fault : DiskFault}
    (h : d.write p content = .error fault) : d.landing? p = none := by
  cases hp : d.landing? p with
  | none => rfl
  | some place =>
    rw [write_eq_ok.2 ⟨place, hp, rfl⟩] at h
    cases h

/-- A directory that is made is entered where its path comes to, and there was nothing. -/
theorem makeDirectory_eq_ok {d d' : Disk} {p : Path} (h : d.makeDirectory p = .ok d') :
    ∃ place, d.follow .name p = .ok place ∧ d.get? place = none ∧ d.put place .directory = d' := by
  unfold makeDirectory at h
  cases hf : d.follow .name p with
  | error fault =>
    rw [hf] at h
    cases h
  | ok place =>
    rw [hf] at h
    dsimp only [bind, Except.bind] at h
    split at h
    · cases h
    · rename_i hd
      exact ⟨place, rfl, hd, Except.ok.inj h⟩

theorem makeDirectory_of_error {d : Disk} {p : Path} {fault : DiskFault}
    (h : d.follow .name p = .error fault) : d.makeDirectory p = .error fault := by
  unfold makeDirectory
  rw [h]
  rfl

end Disk

namespace Change

/-! ## Running changes -/

theorem run_look (f : Disk → Except DiskFault α) (d : Disk) : (look f).run d = (f d, d) := rfl

theorem run_once_ok {f : Disk → Except DiskFault Disk} {d d' : Disk} (h : f d = .ok d') :
    (once f).run d = (.ok (), d') := by
  simp only [once, ExceptT.run_mk, h]

theorem run_once_error {f : Disk → Except DiskFault Disk} {d : Disk} {fault : DiskFault}
    (h : f d = .error fault) : (once f).run d = (.error fault, d) := by
  simp only [once, ExceptT.run_mk, h]

/-! ## What changes keep -/

/-- The change keeps a property of file systems, whatever becomes of it. -/
def Keeps (P : Disk → Prop) (c : Change α) : Prop := ∀ d, P d → P (c.run d).2

section Keeps

variable {P : Disk → Prop}

theorem keeps_pure (x : α) : Keeps P (pure x) := fun _ h => h

theorem keeps_throw (fault : DiskFault) : Keeps P (throw fault : Change α) := fun _ h => h

theorem keeps_look (f : Disk → Except DiskFault α) : Keeps P (look f) := fun _ h => h

theorem keeps_once {f : Disk → Except DiskFault Disk} (hf : ∀ d d', P d → f d = .ok d' → P d') :
    Keeps P (once f) := by
  intro d h
  cases hr : f d with
  | error fault => rwa [run_once_error hr]
  | ok d' =>
    rw [run_once_ok hr]
    exact hf d d' h hr

theorem Keeps.bind {a : Change α} {f : α → Change β} (ha : Keeps P a) (hf : ∀ x, Keeps P (f x)) :
    Keeps P (a >>= f) := by
  intro d h
  have hd := ha d h
  rcases hr : a.run d with ⟨e | x, d'⟩
  · rw [hr] at hd
    rwa [run_bind_error hr]
  · rw [hr] at hd
    rw [run_bind_ok hr]
    exact hf x d' hd

theorem Keeps.tryCatch {a : Change α} {f : DiskFault → Change α} (ha : Keeps P a)
    (hf : ∀ e, Keeps P (f e)) : Keeps P (tryCatch a f) := by
  intro d h
  have hd := ha d h
  rcases hr : a.run d with ⟨e | x, d'⟩
  · rw [hr] at hd
    rw [run_tryCatch_error hr]
    exact hf e d' hd
  · rw [hr] at hd
    rwa [run_tryCatch_ok hr]

theorem keeps_forgive (existing : Bool) (p : Path) (fault : DiskFault) :
    Keeps P (forgive existing p fault) := by
  unfold forgive
  split
  · refine Keeps.bind (keeps_look _) fun there => ?_
    split
    · exact keeps_throw _
    · exact keeps_pure _
  · exact keeps_throw _

theorem keeps_makeDirectory {p : Path} (hp : ∀ d d', P d → d.makeDirectory p = .ok d' → P d')
    (existing : Bool) : Keeps P (makeDirectory existing p) :=
  (keeps_once hp).tryCatch (keeps_forgive existing p)

theorem keeps_makeDirectoriesDepth : ∀ (existing : Bool) (depth : Nat) (p : Path),
    (∀ d d' names, names <+: p.parts → P d → d.makeDirectory ⟨p.anchor, names⟩ = .ok d' → P d') →
      Keeps P (makeDirectoriesDepth existing depth p)
  | existing, 0, p, hput => keeps_makeDirectory (fun d d' => hput d d' p.parts List.prefix_rfl) existing
  | existing, depth + 1, p, hput => by
    have hp := fun d d' => hput d d' p.parts List.prefix_rfl
    refine (keeps_once hp).tryCatch fun fault => ?_
    split
    · split
      · exact keeps_throw _
      · refine (keeps_makeDirectoriesDepth true depth p.parent fun d d' names hnames => ?_).bind
          fun _ => keeps_makeDirectory hp existing
        exact hput d d' names (hnames.trans (List.dropLast_prefix _))
    · exact keeps_forgive existing p fault

/-- What is kept when a directory is made by the path or one on the way to it, is kept when all of
them are made. -/
theorem keeps_makeDirectories (existing : Bool) (p : Path)
    (hput : ∀ d d' names, names <+: p.parts → P d → d.makeDirectory ⟨p.anchor, names⟩ = .ok d' → P d') :
    Keeps P (makeDirectories existing p) :=
  keeps_makeDirectoriesDepth existing p.parts.length p hput

/-- What is kept when a directory is entered where there was nothing, is kept when directories are
made. -/
theorem keeps_makeDirectories_of_put (existing : Bool) (p : Path)
    (hput : ∀ d place, P d → d.get? place = none → P (d.put place .directory)) :
    Keeps P (makeDirectories existing p) :=
  keeps_makeDirectories existing p fun d d' names _ hd h => by
    obtain ⟨place, -, hnone, rfl⟩ := Disk.makeDirectory_eq_ok h
    exact hput d place hd hnone

end Keeps

theorem run_forgive_false (p : Path) (fault : DiskFault) (d : Disk) :
    ∃ fault', (forgive false p fault).run d = (.error fault', d) := by
  cases fault with
  | refused cause path =>
    have hlook := run_look (fun d => d.isDirectory p) d
    unfold forgive
    cases hd : d.isDirectory p with
    | ok there =>
      rw [hd] at hlook
      exact ⟨_, run_bind_ok hlook _⟩
    | error fault' =>
      rw [hd] at hlook
      exact ⟨_, run_bind_error hlook _⟩
  | _ => exact ⟨_, rfl⟩

theorem makeDirectory_of_run {d d' : Disk} {p : Path}
    (h : (makeDirectory false p).run d = (.ok (), d')) : d.makeDirectory p = .ok d' := by
  unfold makeDirectory at h
  cases hm : d.makeDirectory p with
  | ok d'' =>
    rw [run_tryCatch_ok (run_once_ok hm)] at h
    cases h
    rfl
  | error fault =>
    obtain ⟨fault', hf⟩ := run_forgive_false p fault d
    rw [run_tryCatch_error (run_once_error hm), hf] at h
    cases h

/-- **Making directories** that succeeds: the last one is made, after some on the way to it were made
if there was nothing before.  What these keep holds when the last one is made. -/
theorem exists_of_run_makeDirectories {P : Disk → Prop} {d d' : Disk} {p : Path} (hd : P d)
    (hput : ∀ d d' names, names <+: p.parts.dropLast → P d →
      d.makeDirectory ⟨p.anchor, names⟩ = .ok d' → P d')
    (h : (makeDirectories false p).run d = (.ok (), d')) :
    (∃ d₀, P d₀ ∧ d₀.makeDirectory p = .ok d') ∧
      ∀ fault, d.makeDirectory p = .error fault → ∃ path, fault = .refused .noEntry path := by
  unfold makeDirectories at h
  cases hdepth : p.parts.length with
  | zero =>
    rw [hdepth] at h
    have hm := makeDirectory_of_run h
    exact ⟨⟨d, hd, hm⟩, fun fault hf => by cases hf.symm.trans hm⟩
  | succ depth =>
    rw [hdepth, makeDirectoriesDepth] at h
    cases hm : d.makeDirectory p with
    | ok d'' =>
      rw [run_tryCatch_ok (run_once_ok hm)] at h
      cases h
      exact ⟨⟨d, hd, hm⟩, nofun⟩
    | error fault =>
      rw [run_tryCatch_error (run_once_error hm)] at h
      split at h
      · rename_i path
        refine ⟨?_, fun fault' hf => ⟨path, (Except.error.inj hf).symm⟩⟩
        split at h
        · cases h
        · have hkeeps := keeps_makeDirectoriesDepth true depth p.parent hput d hd
          rcases hrun : (makeDirectoriesDepth true depth p.parent).run d with ⟨fault' | _, d₀⟩
          · rw [run_bind_error hrun] at h
            cases h
          · rw [hrun] at hkeeps
            rw [run_bind_ok hrun] at h
            exact ⟨d₀, hkeeps, makeDirectory_of_run h⟩
      · obtain ⟨fault', hf⟩ := run_forgive_false p fault d
        rw [hf] at h
        cases h

/-- After the change there are the same files with the same contents. -/
def KeepsFiles (c : Change α) : Prop :=
  ∀ d q content, ((c.run d).2.HasFile q content ↔ d.HasFile q content)

/-- **Making directories keeps the files.** -/
theorem keepsFiles_makeDirectories (existing : Bool) (p : Path) :
    KeepsFiles (makeDirectories existing p) := by
  intro d q content
  refine keeps_makeDirectories_of_put existing p
    (P := fun d' => d'.HasFile q content ↔ d.HasFile q content) (fun d' place h hnone => ?_) d .rfl
  rw [← h]
  unfold Disk.HasFile
  rw [Disk.get?_put_of_ne (by simp [hnone])]
  split
  · rename_i hq
    simp [hq, hnone]
  · exact .rfl

end Change

end AgdaFrontEnd
