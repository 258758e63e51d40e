import AgdaFrontEnd.Proofs.Compile.Program
import AgdaFrontEnd.Proofs.Disk.Removal

/-!
# What becomes of files when a package is made

The directory of a package is made from scratch, in the place of the one that is there: all that
lies in that one goes, the source itself included if it lies there.

* `Compile.Sweeps`: a place lies in the directory that is made from scratch.
* `Package.leaves?`: the bytes that the writing of a package leaves at a place.
* `Compile.PackageCourse`, `Compile.package_course`: the four ways that making a package can go.
* `Compile.package_hasFile_iff`: the files that are kept.
* `Compile.package_loses_source`: a source that is lost.
-/

namespace AgdaFrontEnd

namespace Package

/-- The bytes that the writing of a package leaves at a place, if it comes to this place. -/
def leaves? (d : Disk) (out : Path) (module : Text) (q : Place) : Option Bytes :=
  match writeScript out module d with
  | .error _ => none
  | .ok d' =>
    if d'.landing? (out.child descriptionName) = some q then
      some (Utf8.encode (descriptionText out.name))
    else if d.landing? (out.child scriptName) = some q then some (Utf8.encode (script module))
    else none

theorem get?_writeFiles (d : Disk) (out : Path) (module : Text) (q : Place) :
    ((writeFiles out module).run d).2.get? q = match leaves? d out module q with
      | some bytes => some (.file bytes)
      | none => d.get? q := by
  unfold writeFiles leaves?
  cases hs : writeScript out module d with
  | error fault =>
    rw [run_bind_error (Change.run_once_error hs)]
  | ok d' =>
    have hscript := Disk.get?_write hs q
    rw [run_bind_ok (Change.run_once_ok hs)]
    dsimp only
    cases hd : writeDescription out d' with
    | error fault =>
      rw [Change.run_once_error hd, Disk.landing?_of_error hd, if_neg (by simp), hscript]
      split <;> rfl
    | ok d'' =>
      rw [Change.run_once_ok hd]
      dsimp only
      rw [Disk.get?_write hd q]
      split
      · rfl
      · rw [hscript]
        split <;> rfl

end Package

namespace Compile

/-- The place lies in the directory that is made from scratch. -/
def Sweeps (d : Disk) (out : Path) (q : Place) : Prop :=
  d.leadsSomewhere out = .ok true ∧ d.Within out q

/-- Making a directory from scratch leaves the files that did not lie in it. -/
theorem hasFile_makeFresh {d : Disk} {out : Path} {q : Place} {content : Bytes} :
    ((makeFresh out).run d).2.HasFile q content ↔ d.HasFile q content ∧ ¬Sweeps d out q := by
  have hkeeps := Change.keepsFiles_makeDirectories false (out.child modulesDirectory)
  have hlook := Change.run_look (fun d => d.leadsSomewhere out) d
  unfold makeFresh Sweeps
  cases hs : d.leadsSomewhere out with
  | error fault =>
    rw [hs] at hlook
    rw [run_bind_error hlook]
    simp
  | ok there =>
    rw [hs] at hlook
    rw [run_bind_ok hlook]
    cases there with
    | false => simpa using hkeeps d q content
    | true =>
      have hremove : ((Change.removeTree out).run d).2.HasFile q content ↔
          d.HasFile q content ∧ ¬d.Within out q := Change.hasFile_removeTree
      rw [if_pos rfl]
      rcases hr : (Change.removeTree out).run d with ⟨fault | _, d'⟩
      · rw [hr] at hremove
        rw [run_bind_error hr]
        simpa using hremove
      · rw [hr] at hremove
        rw [run_bind_ok hr]
        simpa using (hkeeps d' q content).trans hremove

/-- The place lies in the directory that the package is made in from scratch. -/
def InPackage (w : World) (file : Path) (directory : Option Path) (q : Place) : Prop :=
  ∃ dir, workPath directory w.disk = .ok dir ∧ Sweeps w.disk (packagePath dir file) q

/-- The bytes that the files of the package leave at a place, if they are written at all and one of
them comes to this place. -/
def leaves? (w : World) (file : Path) (prover : Option Text) (directory : Option Path) (q : Place) :
    Option Bytes :=
  match workPath directory w.disk with
  | .error _ => none
  | .ok dir =>
    match (makeFresh (packagePath dir file)).run w.disk with
    | (.error _, _) => none
    | (.ok (), d) =>
      match w.script.execute (Session.programOr prover) (packageArgs (packagePath dir file) file)
          dir d with
      | (.error _, _) => none
      | (.ok (), d) => Package.leaves? d (packagePath dir file) file.stem q

/-- The process that compiles to a package leaves the place as it was. -/
def Spares (w : World) (file : Path) (prover : Option Text) (directory : Option Path) (q : Place) :
    Prop :=
  ∀ dir d₁, workPath directory w.disk = .ok dir →
    (makeFresh (packagePath dir file)).run w.disk = (.ok (), d₁) →
    (w.script.execute (Session.programOr prover) (packageArgs (packagePath dir file) file) dir
      d₁).2.get? q = d₁.get? q

/-- How making a package goes in a directory: the outcome, and the file system after it. -/
inductive PackageCourse (script : Script) (prover : Text) (file directory : Path) (d : Disk) :
    Except Failure Path → Disk → Prop
  /-- The directory of the package is not made. -/
  | notMade {fault : DiskFault} {d₁ : Disk}
      (hfresh : (makeFresh (packagePath directory file)).run d = (.error fault, d₁)) :
      PackageCourse script prover file directory d (.error (.disk fault)) d₁
  /-- The prover fails. -/
  | proverFails {e : Failure} {d₁ d₂ : Disk}
      (hfresh : (makeFresh (packagePath directory file)).run d = (.ok (), d₁))
      (hprover : script.execute prover (packageArgs (packagePath directory file) file) directory d₁ =
        (.error e, d₂)) :
      PackageCourse script prover file directory d (.error e) d₂
  /-- The files of the package are not written, or not both. -/
  | notWritten {fault : DiskFault} {d₁ d₂ d₃ : Disk}
      (hfresh : (makeFresh (packagePath directory file)).run d = (.ok (), d₁))
      (hprover : script.execute prover (packageArgs (packagePath directory file) file) directory d₁ =
        (.ok (), d₂))
      (hwrite : (Package.writeFiles (packagePath directory file) file.stem).run d₂ =
        (.error fault, d₃)) :
      PackageCourse script prover file directory d (.error (.disk fault)) d₃
  /-- The package is made. -/
  | made {d₁ d₂ d₃ : Disk}
      (hfresh : (makeFresh (packagePath directory file)).run d = (.ok (), d₁))
      (hprover : script.execute prover (packageArgs (packagePath directory file) file) directory d₁ =
        (.ok (), d₂))
      (hwrite : (Package.writeFiles (packagePath directory file) file.stem).run d₂ = (.ok (), d₃)) :
      PackageCourse script prover file directory d (.ok (packagePath directory file)) d₃

/-- **Making a package** goes one of four ways where there is a directory to work in. -/
theorem package_course {w : World} {directory : Option Path} {dir : Path} (file : Path)
    (prover : Option Text) (hdir : workPath directory w.disk = .ok dir) :
    ∃ r w', (package file prover directory).run w = (r, w') ∧
      PackageCourse w.script (Session.programOr prover) file dir w.disk r w'.disk := by
  unfold package workDirectory
  have hwork := Act.run_look (workPath directory) w
  rw [hdir] at hwork
  rw [run_bind_ok hwork]
  dsimp only
  have hchange := Act.run_change (makeFresh (packagePath dir file)) w
  rcases hfresh : (makeFresh (packagePath dir file)).run w.disk with ⟨fault | _, d₁⟩
  · rw [hfresh] at hchange
    exact ⟨_, _, run_bind_error hchange _, .notMade hfresh⟩
  · rw [hfresh] at hchange
    rw [run_bind_ok hchange]
    obtain ⟨w₂, hrun, hdisk, -⟩ := run_runProgram (Session.programOr prover)
      (packageArgs (packagePath dir file) file) dir { w with disk := d₁ }
    dsimp only at hrun hdisk ⊢
    rcases hprover : w.script.execute (Session.programOr prover)
      (packageArgs (packagePath dir file) file) dir d₁ with ⟨e | _, d₂⟩
    · rw [hprover] at hrun hdisk
      refine ⟨_, w₂, run_bind_error hrun _, ?_⟩
      rw [hdisk]
      exact .proverFails hfresh hprover
    · rw [hprover] at hrun hdisk
      rw [run_bind_ok hrun]
      have hfiles : (Package.write (packagePath dir file) file.stem).run w₂ = _ :=
        Act.run_change (Package.writeFiles (packagePath dir file) file.stem) w₂
      dsimp only at hdisk ⊢
      rw [hdisk] at hfiles
      rcases hwrite : (Package.writeFiles (packagePath dir file) file.stem).run d₂ with
        ⟨fault | _, d₃⟩
      · rw [hwrite] at hfiles
        exact ⟨_, _, run_bind_error hfiles _, .notWritten hfresh hprover hwrite⟩
      · rw [hwrite] at hfiles
        exact ⟨_, _, run_bind_ok hfiles _, .made hfresh hprover hwrite⟩

theorem disk_package (w : World) (file : Path) (prover : Option Text) (directory : Option Path) :
    ((package file prover directory).run w).2.disk =
      match workPath directory w.disk with
      | .error _ => w.disk
      | .ok dir =>
        match (makeFresh (packagePath dir file)).run w.disk with
        | (.error _, d) => d
        | (.ok (), d) =>
          match w.script.execute (Session.programOr prover)
              (packageArgs (packagePath dir file) file) dir d with
          | (.error _, d) => d
          | (.ok (), d) => ((Package.writeFiles (packagePath dir file) file.stem).run d).2 := by
  cases hdir : workPath directory w.disk with
  | error fault =>
    have hwork := Act.run_look (workPath directory) w
    rw [hdir] at hwork
    unfold package workDirectory
    rw [run_bind_error hwork]
  | ok dir =>
    obtain ⟨r, w', hrun, hcourse⟩ := package_course file prover hdir
    rw [hrun]
    cases hcourse with
    | notMade hfresh => simp only [hfresh]
    | proverFails hfresh hprover => simp only [hfresh, hprover]
    | notWritten hfresh hprover hwrite => simp only [hfresh, hprover, hwrite]
    | made hfresh hprover hwrite => simp only [hfresh, hprover, hwrite]

/-- **The files that are kept** when a package is made, whether that succeeds or fails, by a process
that leaves them as they are: those that do not lie in the directory of the package.  A file of the
package that comes to the same place leaves its own bytes there. -/
theorem package_hasFile_iff {w : World} {file : Path} {prover : Option Text}
    {directory : Option Path} {q : Place} {content : Bytes} (hq : w.disk.HasFile q content)
    (hs : Spares w file prover directory q) :
    ((package file prover directory).run w).2.disk.HasFile q content ↔
      match leaves? w file prover directory q with
      | some bytes => bytes = content
      | none => ¬InPackage w file directory q := by
  rw [disk_package, leaves?]
  cases hdir : workPath directory w.disk with
  | error fault =>
    have hin : ¬InPackage w file directory q := by
      rintro ⟨dir, hdir', -⟩
      rw [hdir] at hdir'
      cases hdir'
    simp [hq, hin]
  | ok dir =>
    have hin : InPackage w file directory q ↔ Sweeps w.disk (packagePath dir file) q := by
      constructor
      · rintro ⟨dir', hdir', h⟩
        obtain rfl : dir = dir' := Except.ok.inj (hdir.symm.trans hdir')
        exact h
      · exact fun h => ⟨dir, hdir, h⟩
    have hfresh : ((makeFresh (packagePath dir file)).run w.disk).2.HasFile q content ↔
        ¬InPackage w file directory q := by
      rw [hasFile_makeFresh, hin]
      exact and_iff_right hq
    dsimp only
    rcases hf : (makeFresh (packagePath dir file)).run w.disk with ⟨fault | _, d⟩
    · rw [hf] at hfresh
      exact hfresh
    · rw [hf] at hfresh
      have hkept := hs dir d hdir hf
      dsimp only
      rcases he : w.script.execute (Session.programOr prover)
        (packageArgs (packagePath dir file) file) dir d with ⟨fault | _, d'⟩
      · rw [he] at hkept
        dsimp only at hkept ⊢
        unfold Disk.HasFile
        rw [hkept]
        exact hfresh
      · rw [he] at hkept
        dsimp only at hkept ⊢
        unfold Disk.HasFile
        rw [Package.get?_writeFiles, hkept]
        cases Package.leaves? d' (packagePath dir file) file.stem q with
        | none => exact hfresh
        | some bytes => simp

namespace Sample

/-- A source `foo/Foo.agda`, and another one beside its directory. -/
def world : World where
  disk := { entries := [(["foo".toList], .directory), (["foo".toList, "Foo.agda".toList], .file []),
    (["Foo.agda".toList], .file [])] }

/-- The source that is compiled. -/
def file : Path := Path.ofText "foo/Foo.agda".toList

end Sample

section

open Sample

theorem package_hasFile_iff_beside :
    world.disk.HasFile ["Foo.agda".toList] [] ∧ Spares world file none none ["Foo.agda".toList] ∧
      ((package file none none).run world).2.disk.HasFile ["Foo.agda".toList] [] := by
  have hq : world.disk.HasFile ["Foo.agda".toList] [] := by decide
  have hs : Spares world file none none ["Foo.agda".toList] := fun _ _ _ _ => rfl
  have hleaves : leaves? world file none none ["Foo.agda".toList] = none := by decide +kernel
  refine ⟨hq, hs, (package_hasFile_iff hq hs).2 ?_⟩
  rw [hleaves]
  rintro ⟨dir, hdir, -, p, hp, -, hprefix⟩
  obtain rfl : Disk.home world.disk = dir := Except.ok.inj hdir
  have hout : world.disk.follow .name (packagePath world.disk.home file) = .ok ["foo".toList] := by
    rfl
  obtain rfl : ["foo".toList] = p := Except.ok.inj (hout.symm.trans hp)
  revert hprefix
  decide

/-- A source is lost that lies in the directory of its package, though no process touches it. -/
theorem package_loses_source :
    ¬∀ (w : World) (file : Path) (q : Place) (content : Bytes),
      Text.endsWith file.toText ".agda".toList = true → w.disk.follow .found file = .ok q →
      w.disk.HasFile q content → Spares w file none none q →
      ((package file none none).run w).2.disk.HasFile q content := by
  intro h
  have hkept := h world file ["foo".toList, "Foo.agda".toList] [] (by decide) rfl (by decide)
    fun _ _ _ _ => rfl
  revert hkept
  decide +kernel

end

end Compile

end AgdaFrontEnd
