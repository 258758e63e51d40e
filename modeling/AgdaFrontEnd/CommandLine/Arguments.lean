import AgdaFrontEnd.Text.Digit
import AgdaFrontEnd.Text.Quoted

/-!
# Command-line arguments

A grammar of arguments has options and at most one kind of positional argument.  Reading goes in two
passes: the first tells options from positional arguments, the second takes them in order and ends
at the first fault or at a request for help.

* `Grammar`: the options, the positional argument, and the texts of help and usage.
* `Argument.classify`: what an argument is.
* `Grammar.parse`: what the arguments ask for.
-/

namespace AgdaFrontEnd

/-- What an option does. -/
inductive OptionKind where
  /-- Shows help. -/
  | help
  /-- Is given or not. -/
  | flag
  /-- Takes a value, which a check may refuse in words. -/
  | value (check : Text → Option Text)

/-- An option: its names and what it does. -/
structure OptionSpec where
  names : List Text
  kind : OptionKind

/-- The positional argument of a grammar. -/
inductive Positional where
  /-- There is none. -/
  | nothing
  /-- A single one that may be left out. -/
  | single
  /-- The name of a command; all that follows belongs to the command. -/
  | command

/-- A grammar of arguments. -/
structure Grammar where
  program : Text
  usage : Text
  help : Text
  options : List OptionSpec
  positional : Positional

/-- Why reading ends before its end. -/
inductive Stop where
  /-- Help is wanted. -/
  | help (text : Text)
  /-- The arguments cannot be understood. -/
  | misuse (usage program message : Text)
  deriving DecidableEq, Repr

/-- What arguments ask for. -/
structure Parsed where
  /-- The options given, by their first names, with their values, the latest one first. -/
  given : List (Text × Option Text) := []
  /-- The positional argument, if it has been met; it may be met without a value. -/
  positional : Option (Option Text) := none
  /-- The arguments of the command. -/
  rest : List Text := []
  /-- The arguments that nothing takes. -/
  extras : List Text := []
  deriving DecidableEq, Repr

/-- An argument by what it is. -/
inductive Argument where
  /-- A positional argument. -/
  | plain (t : Text)
  /-- The mark that ends the options. -/
  | mark
  /-- An option, by the name in use, perhaps with a value attached to it. -/
  | option (spec : OptionSpec) (name : Text) (attached : Option Text) (t : Text)
  /-- An option that does not exist. -/
  | unknown (t : Text)

/-- The argument as it was given. -/
def Argument.text : Argument → Text
  | .plain t => t
  | .mark => "--".toList
  | .option _ _ _ t => t
  | .unknown t => t

namespace Grammar

/-- A misuse of the grammar. -/
def misuse (g : Grammar) (message : Text) : Stop := .misuse g.usage g.program message

/-- A misuse of one option. -/
def misuseOf (g : Grammar) (o : OptionSpec) (message : Text) : Stop :=
  g.misuse ("argument ".toList ++ ['/'].intercalate o.names ++ ": ".toList ++ message)

/-- The option of a name. -/
def option? (g : Grammar) (name : Text) : Option OptionSpec :=
  g.options.find? fun o => o.names.contains name

/-- All names of options, with their options. -/
def names (g : Grammar) : List (Text × OptionSpec) :=
  g.options.flatMap fun o => o.names.map fun n => (n, o)

/-- A name and the value attached to it by an equals sign. -/
def attachment (t : Text) : Text × Option Text := (t.upTo '=', t.after? '=')

/-- The options that an argument may mean by a shortened name, or by a one-letter name with more
text attached to it. -/
def meanings (g : Grammar) (t : Text) : List Argument :=
  match t with
  | '-' :: '-' :: _ =>
    let (start, attached) := attachment t
    g.names.filterMap fun (name, o) =>
      if name.startsWith start then some (.option o name attached t) else none
  | _ =>
    g.names.filterMap fun (name, o) =>
      if name = t.take 2 then some (.option o name (some (t.drop 2)) t)
      else if name.startsWith t then some (.option o name none t)
      else none

/-- Some digits, and nothing else but perhaps a line feed at the end. -/
def isDigits (t : Text) : Bool :=
  let t := if t.getLast? = some '\n' then t.dropLast else t
  !t.isEmpty && t.all isDigit

/-- The text is a negative number: a minus sign and digits, with a point between or before them
perhaps. -/
def isNegativeNumber (t : Text) : Bool :=
  match t with
  | '-' :: r =>
    isDigits r ||
      match (r.dropWhile isDigit) with
      | '.' :: places => isDigits places
      | _ => false
  | _ => false

/-- What an argument is that stands before the mark that ends the options. -/
def classify (g : Grammar) (t : Text) : Except Stop Argument :=
  match t with
  | '-' :: _ :: _ =>
    match g.option? t with
    | some o => .ok (.option o t none t)
    | none =>
      let (name, attached) := attachment t
      match (if attached.isSome then g.option? name else none) with
      | some o => .ok (.option o name attached t)
      | none =>
        match g.meanings t with
        | [a] => .ok a
        | [] => .ok (if isNegativeNumber t || t.contains ' ' then .plain t else .unknown t)
        | as =>
          let found := as.filterMap fun
            | .option _ name _ _ => some name
            | _ => none
          .error (g.misuse ("ambiguous option: ".toList ++ t ++ " could match ".toList ++
            ", ".toList.intercalate found))
  | t => .ok (.plain t)

/-- The mark that ends the options. -/
def endMark : Text := "--".toList

/-- What the arguments are. -/
def classifyAll (g : Grammar) : List Text → Except Stop (List Argument)
  | [] => .ok []
  | t :: ts =>
    if t = endMark then .ok (.mark :: ts.map .plain)
    else do
      let a ← g.classify t
      let as ← g.classifyAll ts
      return a :: as

/-- Takes an option with its value.  The mark that ends the options is no value, also where it is
attached to an option. -/
def take (g : Grammar) (o : OptionSpec) (value : Option Text) (p : Parsed) : Except Stop Parsed :=
  let key := o.names.head?.getD []
  match o.kind, value with
  | .help, _ => .error (.help g.help)
  | .value check, some v =>
    if v = endMark then .ok { p with given := (key, none) :: p.given }
    else match check v with
      | some message => .error (g.misuseOf o message)
      | none => .ok { p with given := (key, some v) :: p.given }
  | _, v => .ok { p with given := (key, v) :: p.given }

/-- The options that one-letter names joined in one argument mean, all but the last without values:
the first name has been looked up, `letters` are the others. -/
def joined (g : Grammar) (o : OptionSpec) :
    (letters : Text) → Except Stop (List (OptionSpec × Option Text))
  | [] => .ok [(o, none)]
  | c :: more =>
    match o.kind with
    | .value _ => .ok [(o, some (c :: more))]
    | _ =>
      match g.option? ['-', c] with
      | some o' => do
        let os ← g.joined o' more
        return (o, none) :: os
      | none => .error (g.misuseOf o ("ignored explicit argument ".toList ++ Text.quoted (c :: more)))

/-- The name is a minus sign and one letter. -/
def isOneLetter (name : Text) : Bool :=
  match name with
  | '-' :: c :: _ => c ≠ '-'
  | _ => false

/-- The options that an argument gives, with the values attached to them; nothing for a value that
is still to come. -/
def optionsOf (g : Grammar) (o : OptionSpec) (name : Text) (attached : Option Text) :
    Except Stop (List (OptionSpec × Option Text)) :=
  match attached with
  | none => .ok [(o, none)]
  | some v =>
    match o.kind with
    | .value _ => .ok [(o, some v)]
    | _ =>
      if isOneLetter name && !v.isEmpty then g.joined o v
      else .error (g.misuseOf o ("ignored explicit argument ".toList ++ v.quoted))

/-- Takes options, none of which waits for a value. -/
def takeAll (g : Grammar) : List (OptionSpec × Option Text) → Parsed → Except Stop Parsed
  | [], p => .ok p
  | (o, v) :: os, p => do
    let p ← g.take o v p
    g.takeAll os p

/-- An option that waits for a value. -/
def awaitsValue (x : OptionSpec × Option Text) : Bool :=
  match x with
  | (⟨_, .value _⟩, none) => true
  | _ => false

/-- Takes arguments in order. -/
def consume (g : Grammar) : List Argument → Parsed → Except Stop Parsed
  | [], p => .ok p
  | .unknown t :: as, p => g.consume as { p with extras := p.extras ++ [t] }
  | .option o name attached _ :: as, p => do
    let os ← g.optionsOf o name attached
    match os.getLast?.filter awaitsValue with
    | none => do
      let p ← g.takeAll os p
      g.consume as p
    | some (last, _) =>
      match as with
      | .plain v :: as => do
        let p ← g.takeAll (os.dropLast ++ [(last, some v)]) p
        g.consume as p
      | _ => .error (g.misuseOf last "expected one argument".toList)
  | .plain t :: as, p =>
    match p.positional, g.positional, as with
    | some _, _, as | none, .nothing, as => g.consume as { p with extras := p.extras ++ [t] }
    | none, .command, as => .ok { p with positional := some (some t), rest := as.map Argument.text }
    | none, .single, .mark :: as => g.consume as { p with positional := some (some t) }
    | none, .single, as => g.consume as { p with positional := some (some t) }
  | .mark :: as, p =>
    match p.positional, g.positional, as with
    | none, .command, _ :: _ =>
      .ok { p with positional := some (some endMark), rest := as.map Argument.text }
    | none, .single, .plain t :: as => g.consume as { p with positional := some (some t) }
    | none, .single, as => g.consume as { p with positional := some none }
    | _, _, as => g.consume as { p with extras := p.extras ++ [endMark] }

/-- What arguments ask for. -/
def parse (g : Grammar) (ts : List Text) : Except Stop Parsed := do
  let as ← g.classifyAll ts
  g.consume as {}

end Grammar

namespace Parsed

/-- An option was given. -/
def has (p : Parsed) (name : Text) : Bool := p.given.any fun x => x.1 = name

/-- The value of an option. -/
def value? (p : Parsed) (name : Text) : Option Text := (p.given.lookup name).join

end Parsed

end AgdaFrontEnd
