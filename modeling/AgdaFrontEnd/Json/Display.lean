import AgdaFrontEnd.Binary64.Shortest
import AgdaFrontEnd.Json.Value
import AgdaFrontEnd.Text.Quoted

/-!
# JSON values in running text

A value that stands where a text is expected is shown: a string as itself, everything else in the
notation of messages, in which nested strings are quoted.

* `Json.shown`: the notation of messages.
* `Json.asText`: a value in the place of a text.
-/

namespace AgdaFrontEnd.Json

mutual

/-- The value in the notation of messages. -/
def shown : Json → Text
  | .null => "None".toList
  | .bool b => if b then "True".toList else "False".toList
  | .int n => Text.ofInt n
  | .float x => x.toText
  | .string t => t.quoted
  | .array [] => ['[', ']']
  | .array (v :: vs) => ['['] ++ shown v ++ shownItems vs ++ [']']
  | .object [] => ['{', '}']
  | .object ((k, v) :: ms) => ['{'] ++ k.quoted ++ [':', ' '] ++ shown v ++ shownMembers ms ++ ['}']

/-- The items after the first one. -/
def shownItems : List Json → Text
  | [] => []
  | v :: vs => [',', ' '] ++ shown v ++ shownItems vs

/-- The members after the first one. -/
def shownMembers : List (Text × Json) → Text
  | [] => []
  | (k, v) :: ms => [',', ' '] ++ k.quoted ++ [':', ' '] ++ shown v ++ shownMembers ms

end

/-- The value as a text. -/
def asText : Json → Text
  | .string t => t
  | v => v.shown

end AgdaFrontEnd.Json
