import CaplLayout.Text.Basic

/-!
# UTF-8

Bytes are read one at a time. Between two bytes the reader either stands between characters
or owes some continuation bytes (`Owed`), the next of which has to lie in a range of its own;
the range is what rules out overlong forms, surrogates and code points beyond the last.

Reading yields one `Event` a character or fault. The strict reader stops at the first fault,
the lenient one puts the replacement character in its place.
-/

set_option autoImplicit false

namespace CaplLayout.Utf8

/-- Why a run of bytes is no character. -/
inductive Reason
  | startByte
  | continuationByte
  | endOfData
deriving DecidableEq, Repr

/-- A run of `width` bytes at `offset` that is no character; `first` is its first byte. -/
structure Fault where
  offset : Nat
  width : Nat
  first : UInt8
  reason : Reason
deriving DecidableEq, Repr

/-- What a run of bytes reads as. -/
inductive Event
  | char (c : Char)
  | fault (f : Fault)
deriving DecidableEq, Repr

/-- A character of which some bytes are still to come. -/
structure Owed where
  /-- Continuation bytes still to come. -/
  more : Nat
  /-- The least value of the next of them. -/
  low : Nat
  /-- The greatest value of the next of them. -/
  high : Nat
  /-- The bits read so far. -/
  code : Nat
  /-- The bytes read so far. -/
  width : Nat
  /-- The first byte. -/
  first : UInt8
deriving DecidableEq, Repr

/-- What a byte between two characters means. -/
inductive Lead
  | char (c : Char)
  | owed (o : Owed)
  | bad
deriving DecidableEq, Repr

/-- Reads the first byte of a character. -/
def lead (b : UInt8) : Lead :=
  let n := b.toNat
  if n ≤ 0x7F then .char (Char.ofNat n)
  else if n < 0xC2 then .bad
  else if n ≤ 0xDF then .owed ⟨1, 0x80, 0xBF, n - 0xC0, 1, b⟩
  else if n = 0xE0 then .owed ⟨2, 0xA0, 0xBF, 0, 1, b⟩
  else if n = 0xED then .owed ⟨2, 0x80, 0x9F, n - 0xE0, 1, b⟩
  else if n ≤ 0xEF then .owed ⟨2, 0x80, 0xBF, n - 0xE0, 1, b⟩
  else if n = 0xF0 then .owed ⟨3, 0x90, 0xBF, 0, 1, b⟩
  else if n ≤ 0xF3 then .owed ⟨3, 0x80, 0xBF, n - 0xF0, 1, b⟩
  else if n = 0xF4 then .owed ⟨3, 0x80, 0x8F, n - 0xF0, 1, b⟩
  else .bad

/-- The events of the bytes from `offset` on, of which `o` says what the bytes before them
still owe. -/
def eventsFrom (offset : Nat) (o : Option Owed) : List UInt8 → List Event
  | [] =>
    match o with
    | none => []
    | some p => [.fault ⟨offset - p.width, p.width, p.first, .endOfData⟩]
  | b :: r =>
    let fresh : List Event :=
      match lead b with
      | .char c => .char c :: eventsFrom (offset + 1) none r
      | .owed p => eventsFrom (offset + 1) (some p) r
      | .bad => .fault ⟨offset, 1, b, .startByte⟩ :: eventsFrom (offset + 1) none r
    match o with
    | none => fresh
    | some p =>
      if p.low ≤ b.toNat ∧ b.toNat ≤ p.high then
        let code := p.code * 64 + (b.toNat - 0x80)
        if p.more = 1 then .char (Char.ofNat code) :: eventsFrom (offset + 1) none r
        else
          eventsFrom (offset + 1) (some ⟨p.more - 1, 0x80, 0xBF, code, p.width + 1, p.first⟩) r
      else .fault ⟨offset - p.width, p.width, p.first, .continuationByte⟩ :: fresh

/-- The characters and faults of a byte sequence. -/
def events (bytes : List UInt8) : List Event := eventsFrom 0 none bytes

/-- The characters before the first fault, or that fault. -/
def strict : List Event → Except Fault Text
  | [] => .ok []
  | .char c :: r => (strict r).map (c :: ·)
  | .fault f :: _ => .error f

/-- Reads a byte sequence that has to be a text. -/
def decode (bytes : List UInt8) : Except Fault Text := strict (events bytes)

/-- Stands for bytes that are no character. -/
def replacement : Char := Char.ofNat 0xFFFD

/-- Reads a byte sequence with the replacement character in place of each fault. -/
def decodeLenient (bytes : List UInt8) : Text :=
  (events bytes).map fun
    | .char c => c
    | .fault _ => replacement

/-- The bytes of a text. -/
def encode (s : Text) : List UInt8 := s.flatMap String.utf8EncodeChar

/-! ## Fault texts -/

/-- The two lower-case hexadecimal digits of a byte. -/
def hexByte (b : UInt8) : String :=
  String.ofList [Nat.digitChar (b.toNat / 16), Nat.digitChar (b.toNat % 16)]

/-- The words for a reason. -/
def Reason.message : Reason → String
  | .startByte => "invalid start byte"
  | .continuationByte => "invalid continuation byte"
  | .endOfData => "unexpected end of data"

/-- Names the byte and its position, or the first and the last position of several bytes. -/
def Fault.message (f : Fault) : String :=
  let place :=
    if f.width = 1 then
      "byte 0x" ++ hexByte f.first ++ " in position " ++ toString f.offset
    else
      "bytes in position " ++ toString f.offset ++ "-" ++ toString (f.offset + f.width - 1)
  "'utf-8' codec can't decode " ++ place ++ ": " ++ f.reason.message

end CaplLayout.Utf8
