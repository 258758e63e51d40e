import AgdaFrontEnd.Path
import AgdaFrontEnd.Text.Quoted
import AgdaFrontEnd.Utf8

/-!
# The file system

The file system is a finite table of entries.  A place is the list of names on the way from the
root without links or double dots.  Two places are directories whatever the table says: the root,
and the one where a current directory goes that is removed.

* `Disk`: the entries and the current directory.
* `Disk.get?`, `Disk.put`, `Disk.erase`, `Disk.clear`: reading and changing the table, with the laws
  `get?_put` and `get?_eraseAll`.
* `Disk.follow`: from a path to its place, through links.
* `DiskFault`: why an access failed, with its wording.
-/

namespace AgdaFrontEnd

/-- A place in the file system: the names from the root on. -/
abbrev Place := List Text

/-- What is found at a place. -/
inductive Entry where
  | directory
  | file (content : Bytes)
  | link (target : Text)
  deriving DecidableEq, Repr

/-- A place that no path leads to: its name is empty.  A current directory that is removed goes
there, and stays an empty directory. -/
def Place.nowhere : Place := [[]]

/-- A file system with a current directory. -/
structure Disk where
  entries : List (Place × Entry) := []
  /-- Where the current directory is, or was if it has been removed. -/
  current : Place := []
  /-- The current directory has been removed. -/
  removed : Bool := false
  deriving Repr

/-- The causes for which the system refuses an access. -/
inductive Refusal where
  | noEntry
  | alreadyExists
  | notDirectory
  | isDirectory
  | invalidArgument
  | nameTooLong
  | notEmpty
  | tooManyLinks
  deriving DecidableEq, Repr

/-- The wording of a cause. -/
def Refusal.wording : Refusal → Text
  | .noEntry => "No such file or directory".toList
  | .alreadyExists => "File exists".toList
  | .notDirectory => "Not a directory".toList
  | .isDirectory => "Is a directory".toList
  | .invalidArgument => "Invalid argument".toList
  | .nameTooLong => "File name too long".toList
  | .notEmpty => "Directory not empty".toList
  | .tooManyLinks => "Too many levels of symbolic links".toList

/-- The number of a cause. -/
def Refusal.number : Refusal → Nat
  | .noEntry => 2
  | .alreadyExists => 17
  | .notDirectory => 20
  | .isDirectory => 21
  | .invalidArgument => 22
  | .nameTooLong => 36
  | .notEmpty => 39
  | .tooManyLinks => 40

/-- The number and the wording of a cause. -/
def Refusal.message (r : Refusal) : Text :=
  "[Errno ".toList ++ Text.ofNat r.number ++ "] ".toList ++ r.wording

/-- Why an access failed. -/
inductive DiskFault where
  /-- The system refused the access to a path. -/
  | refused (cause : Refusal) (path : Text)
  /-- The system refused to list a directory tree. -/
  | refusedTree (cause : Refusal) (path : Text)
  /-- The system refused to make a link. -/
  | refusedLink (cause : Refusal) (target path : Text)
  /-- A directory tree was to be removed through a link. -/
  | linkedTree
  /-- The current directory has been removed. -/
  | noCurrentDirectory
  /-- A path holds a null character. -/
  | nullCharacter
  /-- Links lead round in a circle. -/
  | circle (path : Text)
  deriving DecidableEq, Repr

/-- The wording of a fault. -/
def DiskFault.message : DiskFault → Text
  | .refused cause path => cause.message ++ ": ".toList ++ path.quoted
  | .refusedTree cause path =>
    cause.message ++ ": PosixPath(".toList ++ path.quoted ++ [')']
  | .refusedLink cause target path =>
    cause.message ++ ": ".toList ++ target.quoted ++ " -> ".toList ++ path.quoted
  | .linkedTree => "Cannot call rmtree on a symbolic link".toList
  | .noCurrentDirectory => Refusal.noEntry.message
  | .nullCharacter => "embedded null byte".toList
  | .circle path => "Symlink loop from ".toList ++ path.quoted

/-- The wording of a fault without what it is about.  Null characters and circles are no refusals
of the system and have none. -/
def DiskFault.reason? : DiskFault → Option Text
  | .refused cause _ | .refusedTree cause _ | .refusedLink cause _ _ => some cause.wording
  | .linkedTree => some DiskFault.linkedTree.message
  | .noCurrentDirectory => some Refusal.noEntry.wording
  | .nullCharacter | .circle _ => none

/-- A refusal as it is told of a link: with its target. -/
def DiskFault.ofLink (target path : Text) : DiskFault → DiskFault
  | .refused cause _ => .refusedLink cause target path
  | fault => fault

/-- A refusal as it is told of another spelling of the path. -/
def DiskFault.spelled (path : Text) : DiskFault → DiskFault
  | .refused cause _ => .refused cause path
  | fault => fault

namespace Disk

/-! ## The table -/

/-- The entry at a place. -/
def get? (d : Disk) (p : Place) : Option Entry :=
  if p = [] ∨ p = .nowhere then some .directory else d.entries.lookup p

/-- The file system with an entry put at a place. -/
def put (d : Disk) (p : Place) (e : Entry) : Disk :=
  { d with entries := (p, e) :: d.entries.filter (·.1 ≠ p) }

/-- The file system without the places for which `gone` holds. -/
def eraseAll (d : Disk) (gone : Place → Bool) : Disk :=
  { d with
    entries := d.entries.filter fun x => !gone x.1
    removed := d.removed || gone d.current }

/-- The file system without a place and all that lies below it. -/
def erase (d : Disk) (p : Place) : Disk := d.eraseAll p.isPrefixOf

/-- The file system without what lies below a place. -/
def clear (d : Disk) (p : Place) : Disk := d.eraseAll fun q => p.isPrefixOf q && q ≠ p

theorem lookup_filter (f : Place → Bool) (p : Place) (es : List (Place × Entry)) :
    (es.filter fun x => f x.1).lookup p = if f p then es.lookup p else none := by
  induction es with
  | nil => simp
  | cons x es ih =>
    obtain ⟨q, e⟩ := x
    by_cases hp : p = q
    · subst hp
      cases hf : f p
      · simp [hf, ih]
      · simp [hf]
    · have hpq : (p == q) = false := by simpa using hp
      cases hf : f q
      · simp [hf, List.lookup_cons, hpq, ih]
      · simp [hf, List.lookup_cons, hpq, ih]

/-- Putting an entry is seen at its place only. -/
theorem get?_put (d : Disk) (p q : Place) (e : Entry) (hp : p ≠ []) (hn : p ≠ .nowhere) :
    (d.put p e).get? q = if q = p then some e else d.get? q := by
  unfold get? put
  by_cases h : q = p
  · subst h
    simp [hp, hn]
  · by_cases hq : q = [] ∨ q = .nowhere
    · rw [if_pos hq, if_neg h, if_pos hq]
    · have hqp : (q == p) = false := by simpa using h
      have := lookup_filter (fun x => decide (x ≠ p)) q d.entries
      rw [if_neg hq, if_neg h, if_neg hq, List.lookup_cons, hqp, this]
      simp [h]

/-- Erasing is seen at the erased places only. -/
theorem get?_eraseAll (d : Disk) (gone : Place → Bool) (q : Place) (hq : q ≠ [])
    (hn : q ≠ .nowhere) :
    (d.eraseAll gone).get? q = if gone q then none else d.get? q := by
  unfold get? eraseAll
  have := lookup_filter (fun x => !gone x) q d.entries
  rw [if_neg (not_or.2 ⟨hq, hn⟩), if_neg (not_or.2 ⟨hq, hn⟩), this]
  cases gone q <;> simp

/-! ## From paths to places -/

/-- The longest name, in bytes. -/
def nameLimit : Nat := 255

/-- The length from which on a path is too long, in bytes. -/
def pathLimit : Nat := 4096

/-- The most links that are followed on the way along one path. -/
def linkLimit : Nat := 40

/-- The names of a link's target, single dots among them.  A slash at its end asks for a directory;
an empty name stands for it. -/
def targetParts (target : Text) : List Text :=
  (target.splitOn '/').filter (· ≠ []) ++ (if target.getLast? = some '/' then [[]] else [])

/-- Where a link's target starts, seen from the directory of the link. -/
def targetStart (here : Place) (target : Text) : Place := if target.head? = some '/' then [] else here

/-- What is wanted at the end of a path. -/
inductive Ending where
  /-- What is there; a link is followed. -/
  | found
  /-- The name itself; a link is kept. -/
  | name
  /-- A file that may be new; a link is followed, and a slash that asks for a directory is refused. -/
  | file
  deriving DecidableEq, Repr

/-- The place above another one. -/
def above (d : Disk) (here : Place) : Place :=
  if here = .nowhere then d.current.dropLast else here.dropLast

/-- Walks along names from a directory, to the ending that is wanted.  A link is entered by
`enter`.  A removed directory neither holds nor takes anything. -/
def walk (d : Disk) (ending : Ending) (enter : Place → List Text → Except Refusal Place) :
    Place → List Text → Except Refusal Place
  | here, [] => .ok here
  | here, name :: rest =>
    match d.get? here with
    | none => .error .noEntry
    | some (.file _) | some (.link _) => .error .notDirectory
    | some .directory =>
      if name = [] ∨ name = ['.'] then walk d ending enter here rest
      else if name = ['.', '.'] then walk d ending enter (d.above here) rest
      else if here = .nowhere then .error .noEntry
      else if ending = .file ∧ rest = [[]] then .error .isDirectory
      else if nameLimit < (Utf8.encode name).length then .error .nameTooLong
      else match d.get? (here ++ [name]) with
        | some (.link target) =>
          if ending = .name ∧ rest = [] then .ok (here ++ [name])
          else enter (targetStart here target) (targetParts target ++ rest)
        | some _ => walk d ending enter (here ++ [name]) rest
        | none => if rest.isEmpty then .ok (here ++ [name]) else .error .noEntry

/-- Walks along names, following at most `links` links. -/
def walkLinks (d : Disk) (ending : Ending) : (links : Nat) → Place → List Text → Except Refusal Place
  | 0 => walk d ending fun _ _ => .error .tooManyLinks
  | links + 1 => walk d ending (walkLinks d ending links)

/-- Where a path starts. -/
def startOf (d : Disk) (p : Path) : Place :=
  if p.isAbsolute then [] else if d.removed then .nowhere else d.current

/-- The place of a path, whose directory exists. -/
def follow (d : Disk) (ending : Ending) (p : Path) : Except DiskFault Place :=
  if p.toText.contains '\x00' then .error .nullCharacter
  else if pathLimit ≤ (Utf8.encode p.toText).length then .error (.refused .nameTooLong p.toText)
  else (walkLinks d ending linkLimit (d.startOf p) p.parts).mapError (.refused · p.toText)

end Disk

end AgdaFrontEnd
