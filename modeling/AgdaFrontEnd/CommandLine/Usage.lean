import AgdaFrontEnd.Text.Basic

/-!
# Usage and help

The texts that tell how the program and each of its commands are used.  A help text starts with the
usage.
-/

namespace AgdaFrontEnd.Usage

/-- Lines, each with a line feed. -/
def linesText (ls : List Text) : Text := ls.flatMap (· ++ ['\n'])

/-- The usage of the program. -/
def topUsage : Text :=
  linesText [
    "usage: agda-cli [-h] [--agda AGDA] [-v]".toList,
    "                \x7bcheck,run,checkAll,compile,js,serve\x7d ...".toList]

/-- What the help on the program says after the usage. -/
def topDetails : Text :=
  linesText [
    "".toList,
    "Agda check/run front-end and MCP server".toList,
    "".toList,
    "positional arguments:".toList,
    "  \x7bcheck,run,checkAll,compile,js,serve\x7d".toList,
    "    check               Type-check a file and show its holes".toList,
    "    run                 Check a file and evaluate main".toList,
    "    checkAll            Check every .agda file under a directory".toList,
    "    compile             Compile a file to an executable".toList,
    "    js                  Compile a file to a CommonJS package".toList,
    "    serve               Run the MCP server".toList,
    "".toList,
    "options:".toList,
    "  -h, --help            show this help message and exit".toList,
    "  --agda AGDA           Agda executable (default: $AGDA or 'agda')".toList,
    "  -v, --verbose         Enable debug logging".toList]

/-- The help on the program. -/
def topHelp : Text := topUsage ++ topDetails

/-- The usage of checking. -/
def checkUsage : Text :=
  linesText [
    "usage: agda-cli check [-h] [--text] [--interactive] [-q] [path]".toList]

/-- What the help on checking says after the usage. -/
def checkDetails : Text :=
  linesText [
    "".toList,
    "positional arguments:".toList,
    "  path           File to check (.agda)".toList,
    "".toList,
    "options:".toList,
    "  -h, --help     show this help message and exit".toList,
    "  --text         Use the Emacs-style (--interaction) dialect".toList,
    "  --interactive  Request live highlighting output".toList,
    "  -q, --quiet    Don't forward Agda's stderr".toList]

/-- The help on checking. -/
def checkHelp : Text := checkUsage ++ checkDetails

/-- The usage of running. -/
def runUsage : Text :=
  linesText [
    "usage: agda-cli run [-h] [--text] [--interactive] [-q] [path]".toList]

/-- What the help on running says after the usage. -/
def runDetails : Text :=
  linesText [
    "".toList,
    "positional arguments:".toList,
    "  path           File to check (.agda)".toList,
    "".toList,
    "options:".toList,
    "  -h, --help     show this help message and exit".toList,
    "  --text         Use the Emacs-style (--interaction) dialect".toList,
    "  --interactive  Request live highlighting output".toList,
    "  -q, --quiet    Don't forward Agda's stderr".toList]

/-- The help on running. -/
def runHelp : Text := runUsage ++ runDetails

/-- The usage of checking a directory. -/
def checkAllUsage : Text :=
  linesText [
    "usage: agda-cli checkAll [-h] [path]".toList]

/-- What the help on checking a directory says after the usage. -/
def checkAllDetails : Text :=
  linesText [
    "".toList,
    "positional arguments:".toList,
    "  path        Directory to walk".toList,
    "".toList,
    "options:".toList,
    "  -h, --help  show this help message and exit".toList]

/-- The help on checking a directory. -/
def checkAllHelp : Text := checkAllUsage ++ checkAllDetails

/-- The usage of compiling. -/
def compileUsage : Text :=
  linesText [
    "usage: agda-cli compile [-h] [--run] [path]".toList]

/-- What the help on compiling says after the usage. -/
def compileDetails : Text :=
  linesText [
    "".toList,
    "positional arguments:".toList,
    "  path        File to compile (.agda)".toList,
    "".toList,
    "options:".toList,
    "  -h, --help  show this help message and exit".toList,
    "  --run       Run the executable afterwards".toList]

/-- The help on compiling. -/
def compileHelp : Text := compileUsage ++ compileDetails

/-- The usage of packaging. -/
def packageUsage : Text :=
  linesText [
    "usage: agda-cli js [-h] [path]".toList]

/-- What the help on packaging says after the usage. -/
def packageDetails : Text :=
  linesText [
    "".toList,
    "positional arguments:".toList,
    "  path        File to compile (.agda)".toList,
    "".toList,
    "options:".toList,
    "  -h, --help  show this help message and exit".toList]

/-- The help on packaging. -/
def packageHelp : Text := packageUsage ++ packageDetails

/-- The usage of serving. -/
def serveUsage : Text :=
  linesText [
    "usage: agda-cli serve [-h] [--transport \x7bstdio,http,sse\x7d] [--port PORT]".toList,
    "                      [--host HOST]".toList]

/-- What the help on serving says after the usage. -/
def serveDetails : Text :=
  linesText [
    "".toList,
    "options:".toList,
    "  -h, --help            show this help message and exit".toList,
    "  --transport \x7bstdio,http,sse\x7d".toList,
    "                        Transport protocol (default: stdio)".toList,
    "  --port PORT           Port for HTTP/SSE (default: 8000)".toList,
    "  --host HOST           Host for HTTP/SSE (default: 127.0.0.1)".toList]

/-- The help on serving. -/
def serveHelp : Text := serveUsage ++ serveDetails

end AgdaFrontEnd.Usage
