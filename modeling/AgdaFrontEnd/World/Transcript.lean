import AgdaFrontEnd.World.Process

/-!
# Transcripts

A transcript is the output of a prover that was given all commands about a file in one go.  It
answers like the prover that wrote it: what it shows is taken from the answer to the first command.

* `Script.ofTranscript`: a prover that answers from a transcript.
-/

namespace AgdaFrontEnd.Script

/-- The exit code of a program that is not there. -/
def missingCode : Int := 127

/-- The prover that answers from a transcript: loading and evaluating are answered by all of it, the
goals are in it already, and there is no compiler. -/
def ofTranscript (output : Bytes) : Script where
  rules :=
    [{ pattern := "Direct (Cmd_load ".toList, stdout := output },
     { pattern := "Direct (Cmd_compute_toplevel ".toList, stdout := output },
     { pattern := "Direct (".toList },
     { exitCode := missingCode }]

end AgdaFrontEnd.Script
