import AgdaFrontEnd.Proofs.Compile.Fresh
import AgdaFrontEnd.Proofs.Compile.Literal
import Mathlib.Data.List.Basic

/-!
# The script of a package names its module

The name of the module stands between the single quotes of a literal as it is.  So the literal denotes
the name only if no character of the name means something else there: a name with a prime, which a
module may well have, ends the literal early.

* `Package.Names`: a script asks for the module that its literal denotes.
* `Package.names_self_iff`: the modules that their scripts ask for.
* `Package.exists_names_iff`: the modules whose scripts ask for anything, when there is no backslash.
* `Package.script_names_module`: both, and where the script is written.
-/

namespace AgdaFrontEnd.Package

open Json (units)
open Literal (IsOrdinary denoted? denoted?_eq_self_iff denotes_iff_of_not_mem)

/-- What stands before the name of a module in the literal of its script. -/
def moduleLocation : Text := "./node_modules/jAgda.".toList

/-- The script asks for the module that is named by these code units: it is one call, on what is asked
for by a literal that denotes them. -/
def Names (t : Text) (us : List Nat) : Prop :=
  ∃ body, t = "require('".toList ++ body ++ "').main()".toList ∧ denoted? body = some us

theorem isOrdinary_moduleLocation : ∀ c ∈ moduleLocation, IsOrdinary c :=
  List.forall_iff_forall_mem.1 (by decide +kernel)

theorem forall_mem_location_append {module : Text} :
    (∀ c ∈ moduleLocation ++ module, IsOrdinary c) ↔ ∀ c ∈ module, IsOrdinary c := by
  rw [List.forall_mem_append]
  exact and_iff_right isOrdinary_moduleLocation

theorem script_eq (module : Text) : script module =
    "require('".toList ++ (moduleLocation ++ module) ++ "').main()".toList := by
  have hlocation : "require('./node_modules/jAgda.".toList = "require('".toList ++ moduleLocation := rfl
  have hname : "require('./node_modules/jAgda.".toList ++ module =
      "require('".toList ++ (moduleLocation ++ module) := by
    rw [hlocation, List.append_assoc]
  exact congrArg (· ++ "').main()".toList) hname

theorem names_script_iff {module : Text} {us : List Nat} :
    Names (script module) us ↔ denoted? (moduleLocation ++ module) = some us := by
  refine ⟨fun ⟨body, hscript, hbody⟩ => ?_, fun h => ⟨_, script_eq module, h⟩⟩
  rw [script_eq] at hscript
  have hsame := List.append_cancel_left (List.append_cancel_right hscript)
  rwa [hsame]

/-- **A script asks for its module just if every character of the name stands for itself.** -/
theorem names_self_iff {module : Text} :
    Names (script module) ((moduleLocation ++ module).flatMap units) ↔ ∀ c ∈ module, IsOrdinary c := by
  rw [names_script_iff, denoted?_eq_self_iff, forall_mem_location_append]

/-- Without a backslash a script either asks for its module or for nothing. -/
theorem exists_names_iff {module : Text} (hb : '\\' ∉ module) :
    (∃ us, Names (script module) us) ↔ ∀ c ∈ module, IsOrdinary c := by
  have hb' : '\\' ∉ moduleLocation ++ module := by
    rw [List.mem_append, not_or]
    exact ⟨fun h => (isOrdinary_moduleLocation _ h).2.1 rfl, hb⟩
  simp only [names_script_iff]
  rw [denotes_iff_of_not_mem hb', forall_mem_location_append]

/-- Where the script of a package comes to that is written.  The description is written after it, and
is in its place if both are led to one place. -/
theorem exists_script_of_run_write {out : Path} {module : Text} {w : World}
    (h : ((write out module).run w).1 = .ok ()) :
    ∃ d₁ place, w.disk.landing? (out.child scriptName) = some place ∧
      writeScript out module w.disk = .ok d₁ ∧
      (d₁.landing? (out.child descriptionName) ≠ some place →
        ((write out module).run w).2.disk.get? place = some (.file (Utf8.encode (script module)))) := by
  obtain ⟨d₁, hscript, hdescription⟩ := Compile.exists_of_run_write h
  obtain ⟨place, hplace, -⟩ := Disk.write_eq_ok.1 hscript
  refine ⟨d₁, place, hplace, hscript, fun hother => ?_⟩
  rw [Disk.get?_write hdescription, if_neg hother, Disk.get?_write hscript, if_pos hplace]

/-- **When the script of a package names its module.**  The script asks for the module exactly if the name
has no quote, backslash or line end; if it has no backslash but one of the others, the script asks for
nothing.  What is written is this script. -/
theorem script_names_module (module : Text) :
    (Names (script module) (("./node_modules/jAgda.".toList ++ module).flatMap units) ↔
      ∀ c ∈ module, c ≠ '\'' ∧ c ≠ '\\' ∧ c ≠ '\n' ∧ c ≠ '\r') ∧
    ('\\' ∉ module → ((∃ us, Names (script module) us) ↔
      ∀ c ∈ module, c ≠ '\'' ∧ c ≠ '\n' ∧ c ≠ '\r')) ∧
    ∀ (out : Path) (w : World), ((write out module).run w).1 = .ok () →
      ∃ d₁ place, w.disk.landing? (out.child "main.js".toList) = some place ∧
        writeScript out module w.disk = .ok d₁ ∧
        (d₁.landing? (out.child "package.json".toList) ≠ some place →
          ((write out module).run w).2.disk.get? place =
            some (.file (Utf8.encode (script module)))) := by
  refine ⟨names_self_iff, fun hb => ?_, fun out w => exists_script_of_run_write⟩
  rw [exists_names_iff hb]
  constructor
  · exact fun h c hc => ⟨(h c hc).1, (h c hc).2.2⟩
  · exact fun h c hc => ⟨(h c hc).1, fun he => hb (he ▸ hc), (h c hc).2⟩

namespace Sample

/-- A file whose module is named with a prime. -/
def primed : Path := .ofText "Foo'.agda".toList

/-- A directory for a package. -/
def outDirectory : Path := ⟨.here, ["out".toList]⟩

def emptyPackage : World where
  disk := { entries := [(["out".toList], .directory)] }

end Sample

theorem script_names_module_plain :
    Names (script "Foo".toList) (("./node_modules/jAgda.".toList ++ "Foo".toList).flatMap units) ∧
      (∃ us, Names (script "Foo".toList) us) ∧
      ((write Sample.outDirectory "Foo".toList).run Sample.emptyPackage).1 = .ok () ∧
      ((write Sample.outDirectory "Foo".toList).run Sample.emptyPackage).2.disk.get?
        ["out".toList, "main.js".toList] = some (.file (Utf8.encode (script "Foo".toList))) := by
  have hwrite : ((write Sample.outDirectory "Foo".toList).run Sample.emptyPackage).1 = .ok () := rfl
  obtain ⟨hself, hany, hwritten⟩ := script_names_module "Foo".toList
  obtain ⟨d₁, place, hplace, hscript, hfile⟩ := hwritten Sample.outDirectory Sample.emptyPackage hwrite
  have hmain : some ["out".toList, "main.js".toList] = some place := hplace
  cases hscript
  cases hmain
  have hplain : ∀ c ∈ "Foo".toList, c ≠ '\'' ∧ c ≠ '\\' ∧ c ≠ '\n' ∧ c ≠ '\r' :=
    List.forall_iff_forall_mem.1 (by decide +kernel)
  have hbreaks : ∀ c ∈ "Foo".toList, c ≠ '\'' ∧ c ≠ '\n' ∧ c ≠ '\r' := fun c hc =>
    ⟨(hplain c hc).1, (hplain c hc).2.2⟩
  exact ⟨hself.2 hplain, (hany fun hb => (hplain _ hb).2.1 rfl).2 hbreaks, hwrite,
    hfile (by decide +kernel)⟩

/-- The script that is written for a module with a prime in its name is no call at all. -/
theorem script_of_primed_module :
    ((write Sample.outDirectory Sample.primed.stem).run Sample.emptyPackage).1 = .ok () ∧
      ((write Sample.outDirectory Sample.primed.stem).run Sample.emptyPackage).2.disk.get?
        ["out".toList, "main.js".toList] = some (.file (Utf8.encode (script Sample.primed.stem))) ∧
      ¬ ∃ us, Names (script Sample.primed.stem) us := by
  refine ⟨rfl, rfl, fun h => ?_⟩
  have hordinary := (exists_names_iff (by decide +kernel)).1 h '\'' (by decide +kernel)
  exact hordinary.1 rfl

end AgdaFrontEnd.Package
