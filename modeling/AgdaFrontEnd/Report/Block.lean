import AgdaFrontEnd.Render.Message
import AgdaFrontEnd.Render.Snippet
import AgdaFrontEnd.Report.Item
import AgdaFrontEnd.World.Basic

/-!
# Blocks of a report

Every item of a report becomes a block of styled text: its words, its file, and a snippet of the
source it is about.

* `Goal.block`, `Diagnostic.block`: the blocks.
* `Diagnostic.source`: the file that a diagnostic points into.
-/

namespace AgdaFrontEnd

/-- The entries of a context, a line each. -/
def contextLines (context : List (Text × Text)) : Text :=
  context.flatMap fun (name, type) => "- ".toList ++ name ++ " : ".toList ++ type ++ ['\n']

/-- The block of a goal in a file of the given content. -/
def Goal.block (p : Palette) (g : Goal) (target : Path) (content : Text) : Text :=
  p.bold ++ "Goal: ".toList ++ g.type ++ p.reset ++ ['\n'] ++ contextLines g.context ++
    Message.fileLine p target.toText ++ ['\n'] ++
    match g.range with
    | some range => if content.isEmpty then [] else Snippet.render p content range .green
    | none => []

namespace Diagnostic

/-- The block of a message with a snippet: its short form, or else all of it and its file. -/
def blockOf (p : Palette) (message snippet : Text) : Text :=
  match Message.short? p message with
  | some short => short ++ ['\n'] ++ snippet
  | none =>
    p.bold ++ "Error:".toList ++ p.reset ++ [' '] ++ message ++ ['\n'] ++
      Message.fileLine p (Location.fileOf message) ++ ['\n'] ++ snippet

/-- The path that a diagnostic names, as seen from the file that was checked. -/
def namedPath (d : Diagnostic) (target : Path) : Path := target.parent.join (Path.ofText d.file)

/-- The file that a diagnostic points into: the one it names if it exists, else the one that was
checked. -/
def source (d : Diagnostic) (target : Path) : Act Path := do
  if d.file.isEmpty then return target
  if ← Act.look fun disk => disk.isFile (d.namedPath target) then return d.namedPath target
  return target

/-- The snippet of a diagnostic; `content` is the text of the file that was checked, if it is
known. -/
def snippet (p : Palette) (d : Diagnostic) (target : Path) (content : Option Text) : Act Text := do
  match d.range with
  | none => return []
  | some range =>
    let source ← d.source target
    let text ← match (if source = target then content else none) with
      | some t => pure t
      | none => Act.readSource source
    if text.isEmpty then return [] else return Snippet.render p text range .red

/-- The block of a diagnostic. -/
def block (p : Palette) (d : Diagnostic) (target : Path) (content : Option Text) : Act Text := do
  return blockOf p d.message (← d.snippet p target content)

end Diagnostic

/-- The block of an item. -/
def Item.block (p : Palette) (target : Path) (content : Text) : Item → Act Text
  | .goal g => return g.block p target content
  | .diagnostic d => d.block p target (some content)

end AgdaFrontEnd
