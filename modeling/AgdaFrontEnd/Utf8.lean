import AgdaFrontEnd.Text.Basic

/-!
# UTF-8

Bytes are decoded one at a time by a machine that stands between characters or inside one.  Inside
a character it knows the bits read so far, how many bytes are owed and between which bounds the
next one must lie, so an ill-formed sequence is noticed at the first byte that rules it out.

* `Utf8.Decoder.feed`: bytes decoded with every ill-formed stretch replaced by U+FFFD; the decoder
  carries an unfinished character over to the next bytes.  `feed_append` says that it makes no
  difference where the bytes are cut.
* `Utf8.decodeLossy`: all the bytes at once.
* `Utf8.decode`: strict decoding, with the place and the reason of the first fault.
* `Utf8.encode`: the bytes of a text.
-/

namespace AgdaFrontEnd

/-- A sequence of bytes. -/
abbrev Bytes := List UInt8

namespace Utf8

/-- The bytes of a text. -/
def encode (t : Text) : Bytes := t.flatMap String.utf8EncodeChar

/-- A character of which some bytes have been read. -/
structure Partial where
  /-- The bits read so far. -/
  bits : Nat
  /-- How many bytes have been read. -/
  read : Nat
  /-- How many bytes are owed. -/
  owed : Nat
  /-- The least byte that may come next. -/
  least : Nat
  /-- The greatest byte that may come next. -/
  greatest : Nat
  deriving DecidableEq, Repr

/-- What the first byte of a character leads to. -/
inductive Start where
  | char (c : Char)
  | more (p : Partial)
  | invalid
  deriving DecidableEq, Repr

/-- Reads the first byte of a character. -/
def start (b : Nat) : Start :=
  if b ≤ 0x7F then .char (Char.ofNat b)
  else if 0xC2 ≤ b ∧ b ≤ 0xDF then .more ⟨b - 0xC0, 1, 1, 0x80, 0xBF⟩
  else if b = 0xE0 then .more ⟨b - 0xE0, 1, 2, 0xA0, 0xBF⟩
  else if b = 0xED then .more ⟨b - 0xE0, 1, 2, 0x80, 0x9F⟩
  else if 0xE1 ≤ b ∧ b ≤ 0xEF then .more ⟨b - 0xE0, 1, 2, 0x80, 0xBF⟩
  else if b = 0xF0 then .more ⟨b - 0xF0, 1, 3, 0x90, 0xBF⟩
  else if 0xF1 ≤ b ∧ b ≤ 0xF3 then .more ⟨b - 0xF0, 1, 3, 0x80, 0xBF⟩
  else if b = 0xF4 then .more ⟨b - 0xF0, 1, 3, 0x80, 0x8F⟩
  else .invalid

/-- The byte may come next. -/
def Partial.accepts (p : Partial) (b : Nat) : Bool := p.least ≤ b && b ≤ p.greatest

/-- The character with one more byte: finished, or still owing. -/
def Partial.next (p : Partial) (b : Nat) : Char ⊕ Partial :=
  let bits := p.bits * 64 + (b - 0x80)
  if p.owed = 1 then .inl (Char.ofNat bits) else .inr ⟨bits, p.read + 1, p.owed - 1, 0x80, 0xBF⟩

/-! ## Decoding with replacement -/

/-- What stands for an ill-formed stretch. -/
def replacement : Char := '\uFFFD'

/-- Where the decoder stands. -/
inductive Decoder where
  /-- Between characters. -/
  | between
  /-- Inside a character. -/
  | inside (p : Partial)
  /-- Behind the first two bytes of the form that a surrogate would have.  They stand for no
  character, but this is told only when the next byte has come. -/
  | surrogate
  deriving DecidableEq, Repr

namespace Decoder

/-- Decodes a byte between characters. -/
def first (b : Nat) : Text × Decoder :=
  match start b with
  | .char c => ([c], between)
  | .more p => ([], inside p)
  | .invalid => ([replacement], between)

/-- The byte is the second one of a surrogate's form. -/
def makesSurrogate (p : Partial) (b : Nat) : Bool :=
  p.greatest = 0x9F && 0xA0 ≤ b && b ≤ 0xBF

/-- What stands for the first two bytes of a surrogate's form. -/
def brokenSurrogate : Text := [replacement, replacement]

/-- Decodes one byte. -/
def step (d : Decoder) (b : Nat) : Text × Decoder :=
  match d with
  | between => first b
  | inside p =>
    if p.accepts b then
      match p.next b with
      | .inl c => ([c], between)
      | .inr p => ([], inside p)
    else if makesSurrogate p b then ([], surrogate)
    else
      let (t, d) := first b
      (replacement :: t, d)
  | surrogate =>
    let (t, d) := first b
    (brokenSurrogate ++ t, d)

/-- Decodes bytes: their text, and where the decoder stands after them. -/
def feed (d : Decoder) : Bytes → Text × Decoder
  | [] => ([], d)
  | b :: bs =>
    let (t, d) := step d b.toNat
    let (t', d) := feed d bs
    (t ++ t', d)

/-- The text of what is still unfinished when the bytes end. -/
def flush : Decoder → Text
  | between => []
  | inside _ => [replacement]
  | surrogate => brokenSurrogate

/-- Decoding bytes in two stretches gives the text of both and ends at the same place. -/
theorem feed_append (d : Decoder) (a b : Bytes) :
    feed d (a ++ b) =
      ((feed d a).1 ++ (feed (feed d a).2 b).1, (feed (feed d a).2 b).2) := by
  induction a generalizing d with
  | nil => simp [feed]
  | cons x a ih => simp [feed, ih, List.append_assoc]

end Decoder

/-- The text of all the bytes, every ill-formed stretch replaced. -/
def decodeLossy (bs : Bytes) : Text :=
  let (t, d) := Decoder.between.feed bs
  t ++ d.flush

/-! ## Strict decoding -/

/-- Why bytes are ill-formed. -/
inductive Reason where
  | invalidStart
  | invalidContinuation
  | unexpectedEnd
  deriving DecidableEq, Repr

/-- The wording of a reason. -/
def Reason.message : Reason → Text
  | .invalidStart => "invalid start byte".toList
  | .invalidContinuation => "invalid continuation byte".toList
  | .unexpectedEnd => "unexpected end of data".toList

/-- An ill-formed stretch: its place, its bytes and the reason. -/
structure Fault where
  position : Nat
  first : UInt8
  length : Nat
  reason : Reason
  deriving DecidableEq, Repr

/-- The wording of a fault. -/
def Fault.message (f : Fault) : Text :=
  let place :=
    if f.length = 1 then
      "byte 0x".toList ++ [Nat.digitChar (f.first.toNat / 16), Nat.digitChar (f.first.toNat % 16)] ++
        " in position ".toList ++ Text.ofNat f.position
    else
      "bytes in position ".toList ++ Text.ofNat f.position ++ ['-'] ++
        Text.ofNat (f.position + f.length - 1)
  "'utf-8' codec can't decode ".toList ++ place ++ ": ".toList ++ f.reason.message

/-- Decodes bytes from position `at_` on.  Inside a character its first byte is known. -/
def decodeFrom (at_ : Nat) (inside : Option (UInt8 × Partial)) : Bytes → Except Fault Text
  | [] =>
    match inside with
    | none => .ok []
    | some (b, p) => .error ⟨at_ - p.read, b, p.read, .unexpectedEnd⟩
  | b :: bs =>
    match inside with
    | none =>
      match start b.toNat with
      | .char c => (decodeFrom (at_ + 1) none bs).map (c :: ·)
      | .more p => decodeFrom (at_ + 1) (some (b, p)) bs
      | .invalid => .error ⟨at_, b, 1, .invalidStart⟩
    | some (lead, p) =>
      if p.accepts b.toNat then
        match p.next b.toNat with
        | .inl c => (decodeFrom (at_ + 1) none bs).map (c :: ·)
        | .inr p => decodeFrom (at_ + 1) (some (lead, p)) bs
      else .error ⟨at_ - p.read, lead, p.read, .invalidContinuation⟩

/-- The text of well-formed bytes. -/
def decode (bs : Bytes) : Except Fault Text := decodeFrom 0 none bs

end Utf8

end AgdaFrontEnd
