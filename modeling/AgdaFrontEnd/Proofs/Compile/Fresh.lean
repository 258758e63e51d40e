import AgdaFrontEnd.Proofs.Compile.Package
import AgdaFrontEnd.Proofs.Disk.Tree

/-!
# A package is made from scratch

Nothing of an earlier package is left, and outside the directory of the package nothing is changed but
by the prover.  Where directories are missing on the way they are made as well, and that is all that is
new.  Only a path that turns back by double dots from a directory that was missing can lead to an earlier
package that is not removed.

* `Compile.IsFresh`: a directory made anew, with an empty directory of modules.
* `Compile.exists_isFresh`: what making a directory from scratch comes to.
* `Compile.package_from_scratch`: what becomes of the files when a package is made.
* `Compile.package_makes_directories`: a directory that is made on the way, and a file that stays.
-/

namespace AgdaFrontEnd

namespace Disk

/-- Something that is found at the end of a path is what the path leads to. -/
theorem leadsSomewhere_of_follow {d : Disk} {path : Path} {p : Place} {e : Entry}
    (hf : d.follow .found path = .ok p) (hp : d.get? p = some e) :
    d.leadsSomewhere path = .ok true := by
  unfold leadsSomewhere test stat
  rw [hf]
  dsimp only [bind, Except.bind]
  rw [hp]
  rfl

end Disk

namespace Compile

open Disk

/-- Something is missing on the way to a path. -/
def MissesWay (d : Disk) (path : Path) : Prop :=
  ∃ t, d.follow .name path = .error (.refused .noEntry t)

/-- The way to a path does not turn back where something is missing on it. -/
def IsStraight (d : Disk) (path : Path) : Prop := MissesWay d path → ['.', '.'] ∉ path.parts

/-- The file system `d'` is `d` with the directory of a path made from scratch, at a place: it holds an
empty directory for the modules. -/
structure IsFresh (d : Disk) (out : Path) (place : Place) (d' : Disk) : Prop where
  /-- The path leads to the directory. -/
  leads : d'.follow .found out = .ok place
  directory : d'.get? place = some .directory
  modules : d'.get? (place ++ [modulesDirectory]) = some .directory
  /-- There is nothing else in it, unless the way turns back to what there was. -/
  empty : IsStraight d out → ∀ q, place <+: q →
    d'.get? q = if q = place ∨ q = place ++ [modulesDirectory] then some .directory else none
  /-- Where nothing is missing on the way, the directory is made in the place of what was there, and
  all the rest is as it was. -/
  kept : ¬MissesWay d out → d.follow .name out = .ok place ∧ ∀ q, ¬place <+: q → d'.get? q = d.get? q
  /-- Where something is missing, directories are all that is new. -/
  made : MissesWay d out → ∀ q, d'.get? q = d.get? q ∨ d.get? q = none ∧ d'.get? q = some .directory

theorem isEntryName_modulesDirectory : IsEntryName modulesDirectory := by decide

theorem not_missesWay {d : Disk} {out : Path} {p : Place} (h : d.follow .name out = .ok p) :
    ¬MissesWay d out := by
  rintro ⟨t, ht⟩
  cases h.symm.trans ht

/-- The directory is made where the path leads and nothing is. -/
theorem isFresh_of_follow {d d₀ d' : Disk} {out : Path} {p : Place}
    (hf : d.follow .name out = .ok p) (hempty : ∀ q, p <+: q → d₀.get? q = none)
    (hkept : ∀ q, ¬p <+: q → d₀.get? q = d.get? q)
    (hway : (d₀.put p .directory).follow .name out = .ok p)
    (h : (Change.makeDirectories false (out.child modulesDirectory)).run d₀ = (.ok (), d')) :
    IsFresh d out p d' := by
  obtain ⟨rfl, hleads⟩ := Change.eq_of_run_makeDirectories isEntryName_modulesDirectory
    (hempty p List.prefix_rfl) hway h
  have hget := Change.get?_put_put hempty modulesDirectory
  refine ⟨hleads, ?_, ?_, fun _ q hq => ?_, fun _ => ⟨hf, fun q hq => ?_⟩, fun hmiss => ?_⟩
  · rw [hget, if_pos List.prefix_rfl, if_pos (.inl rfl)]
  · rw [hget, if_pos (List.prefix_append _ _), if_pos (.inr rfl)]
  · rw [hget, if_pos hq]
  · rw [hget, if_neg hq, hkept q hq]
  · exact absurd hmiss (not_missesWay hf)

/-- The directory is made where nothing was. -/
theorem isFresh_of_absent {d d' : Disk} {out : Path} {p : Place} (htree : d.IsTree)
    (hf : d.follow .name out = .ok p) (hp : d.get? p = none)
    (h : (Change.makeDirectories false (out.child modulesDirectory)).run d = (.ok (), d')) :
    IsFresh d out p d' :=
  isFresh_of_follow hf (fun _ => htree.nothing_below hp) (fun _ _ => rfl)
    (follow_of_part (Change.isPartOf_put hp .directory) rfl hf) h

/-- The directory is made in the place of one that was removed. -/
theorem isFresh_of_removed {d d' : Disk} {out : Path} {p : Place} (hclean : out.IsClean)
    (hf : d.follow .name out = .ok p) (hp : d.get? p = some .directory)
    (hclear : (d.clear p).follow .name out = .ok p) (hparts : out.parts ≠ [])
    (hdots : out.name ≠ ['.', '.'])
    (h : (Change.makeDirectories false (out.child modulesDirectory)).run ((d.clear p).erase p) =
      (.ok (), d')) : IsFresh d out p d' := by
  have hlast : d.follow .name (out.parent.child out.name) = .ok p := by
    rw [Path.parent_child_name hparts]
    exact hf
  obtain ⟨hroot, hnowhere⟩ := ne_of_follow_last (hclean.isEntryName_name hparts hdots) hlast
  have hgone := get?_erase_clear d hroot hnowhere
  exact isFresh_of_follow hf (fun q hq => by rw [hgone, if_pos hq])
    (fun q hq => by rw [hgone, if_neg hq])
    (Change.follow_putBack hclean hparts hroot hnowhere hp hclear) h

/-- Directories are made on a path that comes to a place, or on one on which something is missing. -/
theorem missesWay_or_follow_of_makeDirectories {d d' : Disk} {out : Path} {name : Text}
    (h : (Change.makeDirectories false (out.child name)).run d = (.ok (), d')) :
    MissesWay d out ∨ ∃ place, d.follow .name out = .ok place := by
  cases hf : d.follow .name out with
  | ok place => exact .inr ⟨place, rfl⟩
  | error fault =>
    refine .inl (Classical.byContradiction fun hway => ?_)
    obtain ⟨fault', hf', hne⟩ := follow_child_error name hf fun t ht => hway ⟨t, ht ▸ hf⟩
    obtain ⟨-, hmissing⟩ := Change.exists_of_run_makeDirectories (P := fun _ => True) trivial
      (fun _ _ _ _ _ _ => trivial) h
    obtain ⟨t, ht⟩ := hmissing fault' (makeDirectory_of_error hf')
    exact absurd ht (hne t)

/-- The directory is made together with those that are missing on the way. -/
theorem exists_isFresh_of_missesWay {d d' : Disk} {out : Path} (htree : d.IsTree)
    (hclean : out.IsClean) (hmiss : MissesWay d out)
    (h : (Change.makeDirectories false (out.child modulesDirectory)).run d = (.ok (), d')) :
    ∃ place, IsFresh d out place d' := by
  obtain ⟨place, hleads, hdirectory, hmodules⟩ :=
    Change.exists_follow_makeDirectories isEntryName_modulesDirectory h
  refine ⟨place, hleads, hdirectory, hmodules, fun hstraight => ?_, fun hway => absurd hmiss hway,
    fun _ q => ?_⟩
  · have hentries : ∀ name ∈ out.parts, IsEntryName name := fun name hname =>
      ⟨hclean name hname, fun hdots => hstraight hmiss (hdots ▸ hname)⟩
    obtain ⟨place', hleads', hget⟩ := Change.exists_get?_makeDirectories htree hentries
      isEntryName_modulesDirectory (fun place hf => not_missesWay hf hmiss) h
    obtain rfl := Except.ok.inj (hleads.symm.trans hleads')
    exact hget
  · have hmade := Change.get?_makeDirectories_or d false (out.child modulesDirectory) q
    rwa [h] at hmade

/-- **A directory made from scratch** is fresh. -/
theorem exists_isFresh {d d' : Disk} {out : Path} (htree : d.IsTree) (hclean : out.IsClean)
    (hout : ∀ place, d.follow .name out = .ok place →
      d.get? place = none ∨ d.get? place = some .directory)
    (h : (makeFresh out).run d = (.ok (), d')) : ∃ place, IsFresh d out place d' := by
  unfold makeFresh at h
  have hlook := Change.run_look (fun d => d.leadsSomewhere out) d
  cases hthere : d.leadsSomewhere out with
  | error fault =>
    rw [hthere] at hlook
    rw [run_bind_error hlook] at h
    cases h
  | ok there =>
    rw [hthere] at hlook
    rw [run_bind_ok hlook] at h
    cases there with
    | true =>
      rw [if_pos rfl] at h
      rcases hremove : (Change.removeTree out).run d with ⟨fault | _, d₀⟩
      · rw [run_bind_error hremove] at h
        cases h
      · rw [run_bind_ok hremove] at h
        obtain ⟨p, hf, hp, rfl, hclear, hparts, hdots⟩ := Change.exists_of_run_removeTree hremove
        exact ⟨p, isFresh_of_removed hclean hf hp hclear hparts hdots h⟩
    | false =>
      have hmake : (Change.makeDirectories false (out.child modulesDirectory)).run d = (.ok (), d') := h
      rcases missesWay_or_follow_of_makeDirectories hmake with hmiss | ⟨p, hf⟩
      · exact exists_isFresh_of_missesWay htree hclean hmiss hmake
      · refine ⟨p, isFresh_of_absent htree hf ((hout p hf).resolve_right fun hp => ?_) hmake⟩
        have hfound := follow_found hf fun target => by simp [hp]
        rw [leadsSomewhere_of_follow hfound hp] at hthere
        cases hthere

/-! ## The files of a package -/

/-- The names of the two files of a package. -/
def fileNames : List Text := [Package.scriptName, Package.descriptionName]

/-- A path leads to a directory at a place, and no link in it has the name of a file of a package. -/
structure IsReady (d : Disk) (out : Path) (place : Place) : Prop where
  follow : d.follow .name out = .ok place
  directory : d.get? place = some .directory
  not_link : ∀ name ∈ fileNames, ∀ target,
    d.get? (place ++ [name]) ≠ some (.link target)

/-- A file that is written where neither a directory nor a link is leaves all the rest as it is. -/
theorem isPartOf_of_write {d d' : Disk} {path : Path} {content : Bytes} {p : Place}
    (h : d.write path content = .ok d') (hp : d.landing? path = some p)
    (hlink : ∀ target, d.get? p ≠ some (.link target)) : d.IsPartOf d' := by
  have hdir := (landing?_eq_some.1 hp).2
  have hget := get?_write h
  obtain ⟨place, -, rfl⟩ := write_eq_ok.1 h
  refine ⟨rfl, fun {q e} hq => ?_⟩
  by_cases hqp : d.landing? path = some q
  · obtain rfl : p = q := Option.some.inj (hp.symm.trans hqp)
    refine ⟨.file content, by rw [hget, if_pos hqp], ?_⟩
    cases e with
    | file content' => trivial
    | directory => exact absurd hq hdir
    | link target => exact absurd hq (hlink target)
  · exact ⟨e, by rw [hget, if_neg hqp, hq], .refl e⟩

/-- A file of a package comes to its place in the directory of the package. -/
theorem landing?_child {d d' : Disk} {out : Path} {place : Place} {name : Text} {content : Bytes}
    (hf : d.follow .name out = .ok place) (hd : d.get? place = some .directory)
    (hname : IsEntryName name) (hlink : ∀ target, d.get? (place ++ [name]) ≠ some (.link target))
    (h : d.write (out.child name) content = .ok d') :
    d.landing? (out.child name) = some (place ++ [name]) := by
  obtain ⟨p, hp, -⟩ := write_eq_ok.1 h
  rw [hp, follow_child hf hd hname (.inr hlink) (landing?_eq_some.1 hp).1]

theorem append_scriptName_ne (place : Place) :
    place ++ [Package.scriptName] ≠ place ++ [Package.descriptionName] := fun h =>
  absurd (List.cons.inj (List.append_cancel_left h)).1 (by decide)

theorem exists_of_run_writeFiles {d d' : Disk} {out : Path} {module : Text}
    (h : (Package.writeFiles out module).run d = (.ok (), d')) :
    ∃ d₁, Package.writeScript out module d = .ok d₁ ∧ Package.writeDescription out d₁ = .ok d' := by
  unfold Package.writeFiles at h
  cases hscript : Package.writeScript out module d with
  | error fault =>
    rw [run_bind_error (Change.run_once_error hscript)] at h
    cases h
  | ok d₁ =>
    rw [run_bind_ok (Change.run_once_ok hscript)] at h
    cases hdescription : Package.writeDescription out d₁ with
    | error fault =>
      rw [Change.run_once_error hdescription] at h
      cases h
    | ok d₂ =>
      rw [Change.run_once_ok hdescription] at h
      cases h
      exact ⟨d₁, rfl, hdescription⟩

/-- Writing the files of a package is writing its script and then its description. -/
theorem exists_of_run_write {out : Path} {module : Text} {w : World}
    (h : ((Package.write out module).run w).1 = .ok ()) :
    ∃ d₁, Package.writeScript out module w.disk = .ok d₁ ∧
      Package.writeDescription out d₁ = .ok ((Package.write out module).run w).2.disk := by
  have hrun : (Package.write out module).run w = _ := Act.run_change (Package.writeFiles out module) w
  rw [hrun] at h ⊢
  rcases hfiles : (Package.writeFiles out module).run w.disk with ⟨fault | _, d⟩
  · rw [hfiles] at h
    cases h
  · exact exists_of_run_writeFiles hfiles

/-- **The files of a package** are written in its directory, and nothing else is changed. -/
theorem get?_writeFiles_of_isReady {d d' : Disk} {out : Path} {module : Text} {place : Place}
    (hready : IsReady d out place) (h : (Package.writeFiles out module).run d = (.ok (), d'))
    (q : Place) :
    d'.get? q =
      if q = place ++ [Package.descriptionName] then
        some (.file (Utf8.encode (Package.descriptionText out.name)))
      else if q = place ++ [Package.scriptName] then
        some (.file (Utf8.encode (Package.script module)))
      else d.get? q := by
  obtain ⟨d₁, hscript, hdescription⟩ := exists_of_run_writeFiles h
  have hget := get?_write hscript
  have hland := landing?_child hready.follow hready.directory (by decide)
    (hready.not_link _ (by simp [fileNames])) hscript
  -- The script changes nothing on the way to the description.
  have hpart := isPartOf_of_write hscript hland (hready.not_link _ (by simp [fileNames]))
  have hstart : d.startOf out = d₁.startOf out := by
    obtain ⟨_, -, rfl⟩ := write_eq_ok.1 hscript
    rfl
  have hlink : ∀ target, d₁.get? (place ++ [Package.descriptionName]) ≠ some (.link target) := by
    intro target
    rw [hget, if_neg]
    · exact hready.not_link _ (by simp [fileNames]) target
    · rw [hland]
      exact fun heq => append_scriptName_ne place (Option.some.inj heq)
  have hland' := landing?_child (follow_of_part hpart hstart hready.follow)
    (hpart.directory hready.directory) (by decide) hlink hdescription
  rw [get?_write hdescription, hget, hland, hland']
  simp only [Option.some.injEq, eq_comm (a := q)]

/-! ## From scratch -/

theorem IsFresh.get?_fileName {d d' : Disk} {out : Path} {place : Place}
    (h : IsFresh d out place d') (hstraight : IsStraight d out) {name : Text}
    (hname : name ∈ fileNames) : d'.get? (place ++ [name]) = none := by
  have hne : name ≠ modulesDirectory := by
    rintro rfl
    revert hname
    decide
  rw [h.empty hstraight _ (List.prefix_append _ _), if_neg]
  simp [hne]

/-- **A package is made from scratch.**  The prover works where the directory of the package is made
anew.  What it leaves is what there is in the end if it fails, and the files of the package were not
there before it; if it succeeds, the two files are there besides. -/
theorem package_from_scratch {w w' : World} {file dir : Path} {prover : Option Text}
    {directory : Option Path} {r : Except Failure Path} (htree : w.disk.IsTree)
    (hdir : workPath directory w.disk = .ok dir) (hclean : dir.IsClean)
    (hout : ∀ place, w.disk.follow .name (packagePath dir file) = .ok place →
      w.disk.get? place = none ∨ w.disk.get? place = some .directory)
    (hrun : (package file prover directory).run w = (r, w'))
    (hr : ∀ fault, r ≠ .error (.disk fault)) :
    ∃ place d₁ outcome d₂, IsFresh w.disk (packagePath dir file) place d₁ ∧
      w.script.execute (Session.programOr prover) (packageArgs (packagePath dir file) file) dir d₁ =
        (outcome, d₂) ∧
      match r with
      | .error e => outcome = .error e ∧ w'.disk = d₂ ∧
        (IsStraight w.disk (packagePath dir file) →
          ∀ name ∈ fileNames, d₁.get? (place ++ [name]) = none)
      | .ok out => outcome = .ok () ∧ out = packagePath dir file ∧
        ∀ place', IsReady d₂ out place' → ∀ q, w'.disk.get? q =
          if q = place' ++ [Package.descriptionName] then
            some (.file (Utf8.encode (Package.descriptionText out.name)))
          else if q = place' ++ [Package.scriptName] then
            some (.file (Utf8.encode (Package.script file.stem)))
          else d₂.get? q := by
  have hclean' : (packagePath dir file).IsClean := hclean.join (Path.isClean_ofText _)
  obtain ⟨r', w'', hrun', hcourse⟩ := package_course file prover hdir
  obtain ⟨rfl, rfl⟩ := Prod.mk.inj (hrun'.symm.trans hrun)
  generalize w''.disk = d' at hcourse
  cases hcourse with
  | notMade hfresh => exact absurd rfl (hr _)
  | notWritten hfresh hprover hwrite => exact absurd rfl (hr _)
  | proverFails hfresh hprover =>
    obtain ⟨place, hfresh⟩ := exists_isFresh htree hclean' hout hfresh
    exact ⟨place, _, _, _, hfresh, hprover, rfl, rfl, fun hstraight name =>
      hfresh.get?_fileName hstraight⟩
  | made hfresh hprover hwrite =>
    obtain ⟨place, hfresh⟩ := exists_isFresh htree hclean' hout hfresh
    exact ⟨place, _, _, _, hfresh, hprover, rfl, rfl,
      fun place' hready => get?_writeFiles_of_isReady hready hwrite⟩

namespace Sample

/-- A source `Foo.agda` with an earlier package, in which a file of it and a link to the source lie, and
a prover that compiles one module. -/
def rebuilt : World where
  disk := { entries := [(["Foo.agda".toList], .file []), (["foo".toList], .directory),
    (["foo".toList, "old.js".toList], .file []),
    (["foo".toList, "link".toList], .link "../Foo.agda".toList)] }
  script := { rules := [{ effects := [.write "foo/node_modules/jAgda.Foo.js".toList []] }] }

/-- The source that is compiled. -/
def source : Path := Path.ofText "Foo.agda".toList

/-- A world without a prover, and without files. -/
def bare : World where
  script := { startFaults := [("agda".toList, .words [])] }

/-- A path on which something is missing, and which leads back. -/
def turning : Path := Path.ofText "new/..".toList

end Sample

section

open Sample

theorem package_from_scratch_rebuilt :
    rebuilt.disk.get? ["foo".toList, "old.js".toList] = some (.file []) ∧
      ((package source none none).run rebuilt).2.disk.get? ["foo".toList, "old.js".toList] = none ∧
      ∃ d₁ d₂, IsFresh rebuilt.disk (packagePath ⟨.root, []⟩ source) ["foo".toList] d₁ ∧
        rebuilt.script.execute (Session.programOr none)
          (packageArgs (packagePath ⟨.root, []⟩ source) source) ⟨.root, []⟩ d₁ = (.ok (), d₂) ∧
        ∀ place, IsReady d₂ (packagePath ⟨.root, []⟩ source) place →
          ((package source none none).run rebuilt).2.disk.get? (place ++ [Package.scriptName]) =
            some (.file (Utf8.encode (Package.script "Foo".toList))) := by
  have hplace : rebuilt.disk.follow .name (packagePath ⟨.root, []⟩ source) = .ok ["foo".toList] := by
    rfl
  have hok : ((package source none none).run rebuilt).1.toOption =
      some (packagePath ⟨.root, []⟩ source) := by decide +kernel
  have hdir : workPath none rebuilt.disk = .ok ⟨.root, []⟩ := rfl
  refine ⟨by decide, by decide +kernel, ?_⟩
  generalize hrun : (package source none none).run rebuilt = result at hok ⊢
  obtain ⟨fault | out, w'⟩ := result
  · cases hok
  · obtain rfl : out = packagePath ⟨.root, []⟩ source := Option.some.inj hok
    obtain ⟨place, d₁, outcome, d₂, hfresh, hprover, rfl, -, hfiles⟩ :=
      package_from_scratch (by decide) hdir (by decide)
        (fun place h => .inr (Except.ok.inj (hplace.symm.trans h) ▸ by decide)) hrun nofun
    obtain ⟨hfollow, -⟩ := hfresh.kept (not_missesWay hplace)
    obtain rfl := Except.ok.inj (hplace.symm.trans hfollow)
    refine ⟨d₁, d₂, hfresh, hprover, fun place hready => ?_⟩
    rw [hfiles place hready, if_neg (append_scriptName_ne place), if_pos rfl]
    rfl

/-- If the directory to work in is missing, a directory is made that is no part of the package, though
the prover does not even start; and if the path to it turns back, a file of an earlier package stays,
though the prover does nothing. -/
theorem package_makes_directories :
    (¬∀ (w : World) (file dir : Path) (place q : Place), w.disk.IsTree → dir.IsClean →
      w.disk.leadsSomewhere (packagePath dir file) = .ok false →
      (∀ request, w.script.startFault? (Session.programOr none) request ≠ none) →
      ((package file none (some dir)).run w).2.disk.follow .name (packagePath dir file) = .ok place →
      ¬place <+: q → ((package file none (some dir)).run w).2.disk.get? q = w.disk.get? q) ∧
    ¬∀ (w : World) (file dir : Path) (place : Place) (name : Text), w.disk.IsTree → dir.IsClean →
      w.disk.leadsSomewhere (packagePath dir file) = .ok false → w.script.rules = [] →
      ((package file none (some dir)).run w).1.toOption = some (packagePath dir file) →
      ((package file none (some dir)).run w).2.disk.follow .name (packagePath dir file) = .ok place →
      name ∉ modulesDirectory :: fileNames →
      ((package file none (some dir)).run w).2.disk.get? (place ++ [name]) = none := by
  constructor
  · intro h
    have hkept := h bare source (Path.ofText "new".toList) ["new".toList, "foo".toList] ["new".toList]
      (by decide) (by decide) rfl (fun _ => nofun) rfl (by decide)
    revert hkept
    decide +kernel
  · intro h
    have hgone := h { disk := rebuilt.disk } source turning ["foo".toList] "old.js".toList
      (by decide) (by decide) rfl rfl (by decide +kernel) rfl (by decide)
    revert hgone
    decide +kernel

end

end Compile

end AgdaFrontEnd
