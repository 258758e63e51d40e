import AgdaFrontEnd.Proofs.Compile.Fresh
import AgdaFrontEnd.Proofs.Json.Ascii
import AgdaFrontEnd.Proofs.Json.RoundTrip
import AgdaFrontEnd.Proofs.Utf8

/-!
# The description of a package is read back

The name of a package stands in its description twice, as a value and as a key.  Whatever the name is,
the written description is ASCII, and reading it gives the object that was written.

* `Json.isAscii_toText`: a written value is ASCII.
* `Package.regular_description`: a description is a value that is read back.
* `Package.exists_description_of_run_write`: where the description of a package is written.
* `Package.description_read_back`: the text of a description, and the file of one, give the description.
-/

namespace AgdaFrontEnd

open Utf8 (IsAscii)

theorem Json.isAscii_toText (layout : Layout) (v : Json) : ∀ c ∈ v.toText layout, IsAscii c := by
  intro c hc
  rcases writes_valueText layout 0 v c hc with hgraphic | ⟨rfl, -⟩
  · exact Nat.lt_trans hgraphic.2 (by decide)
  · decide

namespace Package

/-- A description is a value that is read back: its keys differ, whatever the name is. -/
theorem regular_description (name : Text) : (description name).Regular := by
  have hkeys : ["name".toList, "version".toList, "main".toList, "bin".toList,
      "dependencies".toList].Nodup := by decide
  rw [description, Json.regular_object_iff]
  exact ⟨hkeys, by simp⟩

theorem isAscii_descriptionText (name : Text) : ∀ c ∈ descriptionText name, IsAscii c :=
  Json.isAscii_toText (.indented 2) (description name)

/-- Where the description of a package comes to that is written, after the script. -/
theorem exists_description_of_run_write {out : Path} {module : Text} {w : World}
    (h : ((write out module).run w).1 = .ok ()) :
    ∃ d₁ place, writeScript out module w.disk = .ok d₁ ∧
      d₁.landing? (out.child descriptionName) = some place ∧
      ((write out module).run w).2.disk.get? place =
        some (.file (Utf8.encode (descriptionText out.name))) := by
  obtain ⟨d₁, hscript, hdescription⟩ := Compile.exists_of_run_write h
  obtain ⟨place, hplace, -⟩ := Disk.write_eq_ok.1 hdescription
  exact ⟨d₁, place, hscript, hplace, by rw [Disk.get?_write hdescription, if_pos hplace]⟩

/-- **The description of a package is read back**, whatever the name of the package is: its text is
ASCII and gives the object, and so does the file that is written in the directory of this name. -/
theorem description_read_back (name : Text) :
    (∀ c ∈ descriptionText name, c.toNat < 0x80) ∧
    (∀ levels, Json.ofText levels (descriptionText name) = .ok (.object
      [("name".toList, .string name),
       ("version".toList, .string "1.0.0".toList),
       ("main".toList, .string "main.js".toList),
       ("bin".toList, .object [(name, .string "./main.js".toList)]),
       ("dependencies".toList, .object [])])) ∧
    ∀ (out : Path) (module : Text) (w : World), out.name = name →
      ((write out module).run w).1 = .ok () →
        ∃ d₁ place bytes, writeScript out module w.disk = .ok d₁ ∧
          d₁.landing? (out.child "package.json".toList) = some place ∧
          ((write out module).run w).2.disk.get? place = some (.file bytes) ∧
          Utf8.decode bytes = .ok (descriptionText name) := by
  refine ⟨isAscii_descriptionText name, ?_, ?_⟩
  · intro levels
    have hdepth : (description name).nesting ≤ levels.count :=
      Nat.le_trans (show 2 ≤ Json.fewestLevels by decide) levels.fewest_le
    exact Json.ofText_toText_of_le (.indented 2) (regular_description name) hdepth
  · rintro out module w rfl hwrite
    obtain ⟨d₁, place, hscript, hplace, hfile⟩ := exists_description_of_run_write hwrite
    exact ⟨d₁, place, _, hscript, hplace, hfile,
      Utf8.decode_encode_of_isAscii (isAscii_descriptionText out.name)⟩

namespace Sample

/-- A directory whose name has a quote, a backslash, a control character and a character that takes two
code units. -/
def oddName : Text := ['"', '\\', '\x01', '😀']

def oddWorld : World where
  disk := { entries := [([oddName], .directory)] }

end Sample

theorem description_read_back_odd :
    ((write ⟨.here, [Sample.oddName]⟩ "Foo".toList).run Sample.oddWorld).1 = .ok () ∧
      ∃ place bytes, ((write ⟨.here, [Sample.oddName]⟩ "Foo".toList).run
          Sample.oddWorld).2.disk.get? place = some (.file bytes) ∧
        Utf8.decode bytes = .ok (descriptionText Sample.oddName) := by
  have hwrite : ((write ⟨.here, [Sample.oddName]⟩ "Foo".toList).run Sample.oddWorld).1 = .ok () := by
    rfl
  obtain ⟨-, -, hfile⟩ := description_read_back Sample.oddName
  obtain ⟨d₁, place, bytes, -, -, hget, hdecode⟩ :=
    hfile ⟨.here, [Sample.oddName]⟩ "Foo".toList Sample.oddWorld rfl hwrite
  exact ⟨hwrite, place, bytes, hget, hdecode⟩

end Package

end AgdaFrontEnd
