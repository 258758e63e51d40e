import AgdaFrontEnd.Check
import AgdaFrontEnd.Proofs.World.Run
import Mathlib.Data.List.Forall2

/-!
# Rendering only reads

* `Item.onlyReads_block`, `Checking.onlyReads_blocks`: rendering an item, or all items of a report,
  reads the file system and takes notes, and fails by reading only.
* `Item.styled_of_block`: every block starts with the code of a style.
* `Checking.forall₂_block`: the blocks of a report are those of its items, one by one.
-/

namespace AgdaFrontEnd

theorem Diagnostic.onlyReads_source (e : Diagnostic) (target : Path) :
    Act.OnlyReads (e.source target) := by
  unfold source
  split
  · exact Act.onlyReads_pure target
  · refine (Act.onlyReads_look _).bind fun found => ?_
    cases found <;> exact Act.onlyReads_pure _

theorem Diagnostic.onlyReads_snippet (p : Palette) (e : Diagnostic) (target : Path)
    (content : Option Text) : Act.OnlyReads (e.snippet p target content) := by
  have hshown : ∀ (text : Text) (range : SourceRange), Act.OnlyReads
      (if text.isEmpty then return [] else return Snippet.render p text range .red : Act Text) := by
    intro text range
    split <;> exact Act.onlyReads_pure _
  unfold snippet
  split
  · exact Act.onlyReads_pure _
  · rename_i range _
    refine (e.onlyReads_source target).bind fun source => ?_
    dsimp only
    split
    · exact (Act.onlyReads_pure _).bind (hshown · range)
    · exact (Act.onlyReads_readSource source).bind (hshown · range)

theorem Item.onlyReads_block (p : Palette) (target : Path) (content : Text) (i : Item) :
    Act.OnlyReads (i.block p target content) := by
  cases i with
  | goal g => exact Act.onlyReads_pure _
  | diagnostic e =>
    exact (e.onlyReads_snippet p target (some content)).bind fun _ => Act.onlyReads_pure _

/-! ## Styled blocks -/

/-- The text starts with an escape character. -/
def Text.Styled (t : Text) : Prop := ∃ r, t = '\x1b' :: r

theorem Text.styled_append {t : Text} (h : Styled t) (u : Text) : Styled (t ++ u) := by
  obtain ⟨r, rfl⟩ := h
  exact ⟨r ++ u, rfl⟩

theorem Palette.styled_bold : Text.Styled terminal.bold := ⟨"[1m".toList, by decide⟩

theorem Message.styled_of_short? {message t : Text} (h : short? .terminal message = some t) :
    Text.Styled t := by
  unfold short? at h
  split at h
  · rename_i hm
    cases h
    obtain ⟨⟨_, _⟩, -, rfl⟩ := Option.map_eq_some_iff.1 hm
    simp only [List.append_assoc]
    exact Text.styled_append Palette.styled_bold _
  · obtain ⟨_, -, rfl⟩ := Option.map_eq_some_iff.1 h
    simp only [List.append_assoc]
    exact Text.styled_append Palette.styled_bold _

theorem Goal.styled_block (g : Goal) (target : Path) (content : Text) :
    Text.Styled (g.block .terminal target content) := by
  unfold block
  simp only [List.append_assoc]
  exact Text.styled_append Palette.styled_bold _

theorem Diagnostic.styled_blockOf (message snippet : Text) :
    Text.Styled (blockOf .terminal message snippet) := by
  unfold blockOf
  simp only [List.append_assoc]
  split
  · rename_i h
    exact Text.styled_append (Message.styled_of_short? h) _
  · exact Text.styled_append Palette.styled_bold _

/-- Every block starts with the code of a style. -/
theorem Item.styled_of_block {i : Item} {target : Path} {content b : Text} {d : Disk}
    (h : (i.block .terminal target content).outcomeOn d = .ok b) : Text.Styled b := by
  cases i with
  | goal g =>
    cases h
    exact g.styled_block target content
  | diagnostic e =>
    have hb : (e.block .terminal target (some content)).outcomeOn d = .ok b := h
    rw [Diagnostic.block, (e.onlyReads_snippet .terminal target (some content)).reads.outcomeOn_bind
      fun _ => Act.reads_pure _] at hb
    cases hs : (e.snippet .terminal target (some content)).outcomeOn d with
    | error f =>
      rw [hs] at hb
      cases hb
    | ok snippet =>
      rw [hs] at hb
      cases hb
      exact Diagnostic.styled_blockOf e.message snippet

namespace Checking

theorem onlyReads_blocks (file : Path) (content : Text) : ∀ is : List Item,
    Act.OnlyReads (blocks file content is)
  | [] => Act.onlyReads_pure _
  | i :: is => (i.onlyReads_block .terminal file content).bind fun _ =>
    (onlyReads_blocks file content is).bind fun _ => Act.onlyReads_pure _

/-- **The blocks of a report are those of its items**, one by one. -/
theorem forall₂_block {file : Path} {content : Text} {d : Disk} : ∀ {is : List Item} {bs : List Text},
    (blocks file content is).outcomeOn d = .ok bs →
      List.Forall₂ (fun i b => (i.block .terminal file content).outcomeOn d = .ok b) is bs
  | [], bs, h => by
    cases h
    exact .nil
  | i :: is, bs, h => by
    have hrest := (onlyReads_blocks file content is).reads
    rw [blocks, (i.onlyReads_block .terminal file content).reads.outcomeOn_bind (fun b =>
      hrest.bind fun _ => Act.reads_pure _)] at h
    cases hb : (i.block .terminal file content).outcomeOn d with
    | error e =>
      rw [hb] at h
      cases h
    | ok b =>
      rw [hb] at h
      simp only [Except.bind] at h
      rw [hrest.outcomeOn_bind fun _ => Act.reads_pure _] at h
      cases hbs : (blocks file content is).outcomeOn d with
      | error e =>
        rw [hbs] at h
        cases h
      | ok bs' =>
        rw [hbs] at h
        cases h
        exact .cons hb (forall₂_block hbs)

theorem styled_of_forall₂ {file : Path} {content : Text} {d : Disk} :
    ∀ {is : List Item} {bs : List Text},
      List.Forall₂ (fun i b => (i.block .terminal file content).outcomeOn d = .ok b) is bs →
      ∀ b ∈ bs, Text.Styled b
  | _, _, .cons h hs, b, hb => by
    rcases List.mem_cons.1 hb with rfl | hb
    · exact Item.styled_of_block h
    · exact styled_of_forall₂ hs b hb

end Checking

end AgdaFrontEnd
