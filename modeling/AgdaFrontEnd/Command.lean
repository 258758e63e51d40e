import AgdaFrontEnd.Response.Quoted
import AgdaFrontEnd.Text.Blank

/-!
# Commands

A command is a payload in an envelope that names the file it is about.  A line of its own after the
envelope ends the input.  Texts inside a command are quoted like the fields of a response.

* `Command.load`, `Command.goal`, `Command.compute`: the payloads.
* `Command.envelope`: a payload with its envelope.
-/

namespace AgdaFrontEnd.Command

/-- Loads a file. -/
def load (file : Text) : Text := "Cmd_load ".toList ++ Quoted.write file ++ " []".toList

/-- Asks for the goal and the context at a hole, inferring the type of the hint. -/
def goal (id : Int) (hint : Text) : Text :=
  "Cmd_goal_type_context_infer Normalised ".toList ++ Text.ofInt id ++ " noRange ".toList ++
    Quoted.write hint.strip

/-- The definition that a program is run from. -/
def entryPoint : Text := "main".toList

/-- Computes the normal form of an expression. -/
def compute (expr : Text) : Text :=
  "Cmd_compute_toplevel DefaultCompute ".toList ++ Quoted.write expr

/-- The highlighting that an envelope asks for. -/
def highlighting (interactive : Bool) : Text :=
  if interactive then "Interactive".toList else "None".toList

/-- A payload in its envelope, with the line that ends the input. -/
def envelope (file payload : Text) (interactive : Bool) : Text :=
  "IOTCM ".toList ++ Quoted.write file ++ [' '] ++ highlighting interactive ++
    " Direct (".toList ++ payload ++ ")\nx\n".toList

end AgdaFrontEnd.Command
