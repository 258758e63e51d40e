/-!
# Texts

A text is the list of its code points.  Lines, columns and cuts everywhere in this library count
code points, so every reader and writer below works on `Text` and is defined by recursion on it.  The
code points are those of characters: a half of a surrogate pair that stands alone is none, and a string
that holds one is no text.

* `Text.upTo`, `Text.after?`: the two sides of the first occurrence of a character.
* `Text.dropPrefix?`, `Text.hasWord`, `Text.splitAt?`: prefixes and inner occurrences of a word.
* `Text.lines`, `Text.unlines`: a text and its newline-separated lines.
* `Text.padLeft`: right alignment in a field of a given width.
-/

namespace AgdaFrontEnd

/-- A text: its code points in order. -/
abbrev Text := List Char

namespace Text

/-- The newline-separated lines; a text without newline is one line, the empty text included. -/
def lines (t : Text) : List Text := t.splitOn '\n'

/-- Lines put together again, with a newline between any two. -/
def unlines (ls : List Text) : Text := ['\n'].intercalate ls

/-- What stands before the first `c`; the whole text if there is none. -/
def upTo (c : Char) (t : Text) : Text := t.takeWhile (· != c)

/-- What stands after the first `c`, if there is one. -/
def after? (c : Char) : Text → Option Text
  | [] => none
  | x :: r => if x = c then some r else after? c r

/-- What follows `p` in a text that starts with `p`. -/
def dropPrefix? : (t p : Text) → Option Text
  | t, [] => some t
  | [], _ :: _ => none
  | y :: t, x :: p => if x = y then dropPrefix? t p else none

/-- The text starts with `p`. -/
def startsWith (t p : Text) : Bool := (t.dropPrefix? p).isSome

/-- The text ends with `p`. -/
def endsWith (t p : Text) : Bool := startsWith t.reverse p.reverse

/-- The texts on both sides of the first occurrence of `p`. -/
def splitAt? (t p : Text) : Option (Text × Text) :=
  match t with
  | [] => (dropPrefix? [] p).map fun r => ([], r)
  | x :: t =>
    match dropPrefix? (x :: t) p with
    | some r => some ([], r)
    | none => (splitAt? t p).map fun (a, b) => (x :: a, b)

/-- The word `p` occurs somewhere in the text. -/
def hasWord (t p : Text) : Bool := (t.splitAt? p).isSome

/-- The text behind as many copies of `c` as bring it to `width` characters. -/
def padLeft (width : Nat) (c : Char) (t : Text) : Text :=
  List.replicate (width - t.length) c ++ t

/-- The decimal digits of a number. -/
def ofNat (n : Nat) : Text := Nat.toDigits 10 n

/-- The decimal digits of an integer, behind a minus sign if it is negative. -/
def ofInt : Int → Text
  | .ofNat n => ofNat n
  | .negSucc n => '-' :: ofNat (n + 1)

/-! ## Laws -/

theorem dropPrefix?_append (p t : Text) : dropPrefix? (p ++ t) p = some t := by
  induction p with
  | nil => cases t <;> rfl
  | cons c p ih => simp [dropPrefix?, ih]

theorem eq_append_of_dropPrefix? {p t r : Text} (h : dropPrefix? t p = some r) : t = p ++ r := by
  induction p generalizing t with
  | nil => simpa [dropPrefix?] using h
  | cons c p ih =>
    cases t with
    | nil => simp [dropPrefix?] at h
    | cons d t =>
      by_cases hc : c = d
      · simp only [dropPrefix?, hc, if_true] at h
        simp [hc, ih h]
      · simp [dropPrefix?, hc] at h

theorem dropPrefix?_eq_some_iff {p t r : Text} : dropPrefix? t p = some r ↔ t = p ++ r :=
  ⟨eq_append_of_dropPrefix?, fun h => h ▸ dropPrefix?_append p r⟩

/-- The two sides of an occurrence and the word between them make up the text. -/
theorem eq_of_splitAt? {p t a b : Text} (h : splitAt? t p = some (a, b)) : t = a ++ (p ++ b) := by
  induction t generalizing a with
  | nil =>
    simp only [splitAt?, Option.map_eq_some_iff, Prod.mk.injEq] at h
    obtain ⟨r, hr, rfl, rfl⟩ := h
    simpa using eq_append_of_dropPrefix? hr
  | cons c t ih =>
    rw [splitAt?] at h
    split at h
    · next r hr =>
      simp only [Option.some.injEq, Prod.mk.injEq] at h
      obtain ⟨rfl, rfl⟩ := h
      simpa using eq_append_of_dropPrefix? hr
    · simp only [Option.map_eq_some_iff, Prod.mk.injEq] at h
      obtain ⟨⟨a', b'⟩, hs, rfl, rfl⟩ := h
      simp [ih hs]

theorem unlines_lines (t : Text) : unlines (lines t) = t := List.intercalate_splitOn '\n'

/-- The characters of a line are characters of the text, and none of them is a newline. -/
theorem mem_of_mem_lines {t l : Text} (h : l ∈ lines t) {c : Char} (hc : c ∈ l) : c ∈ t ∧ c ≠ '\n' := by
  induction t generalizing l with
  | nil =>
    have hl : l = [] := List.mem_singleton.1 h
    exact absurd (hl ▸ hc) List.not_mem_nil
  | cons x t ih =>
    rw [lines, List.splitOn_cons_eq_if_modifyHead] at h
    split at h
    · rcases List.mem_cons.1 h with rfl | h
      · exact absurd hc List.not_mem_nil
      · exact ⟨.tail _ (ih h hc).1, (ih h hc).2⟩
    · rename_i hx
      obtain ⟨l', ls, hls⟩ := List.exists_cons_of_ne_nil (List.splitOn_ne_nil '\n' t)
      rw [hls, List.modifyHead_cons] at h
      have hmem : ∀ {m}, m ∈ l' :: ls → m ∈ lines t := fun hm => by rwa [lines, hls]
      rcases List.mem_cons.1 h with rfl | h
      · rcases List.mem_cons.1 hc with rfl | hc
        · exact ⟨.head _, by simpa using hx⟩
        · exact ⟨.tail _ (ih (hmem (.head _)) hc).1, (ih (hmem (.head _)) hc).2⟩
      · exact ⟨.tail _ (ih (hmem (.tail _ h)) hc).1, (ih (hmem (.tail _ h)) hc).2⟩

end Text

end AgdaFrontEnd
