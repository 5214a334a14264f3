import CaplLayout.Text.Utf8
import Mathlib.Algebra.Group.Nat.Defs
import Mathlib.Tactic.SplitIfs

/-!
# Texts as bytes

Reading the bytes of a text gives the text back (`decode_encode`).

The code point of a character is cut into digits of base 64 (`digits`), the first of which goes
into the first byte. The reader meets the others one by one, and what it owes is always the rest
of them (`Owed.Of`): their number, the code point without them, and a range that holds the next
one.
-/

set_option autoImplicit false

namespace CaplLayout.Utf8

/-- The bytes of the last `k` digits of a code point. -/
def digits (v : Nat) : Nat → List UInt8
  | 0 => []
  | k + 1 => UInt8.ofNat (v / 64 ^ k % 64 + 0x80) :: digits v k

/-- What is owed are the last bytes of the code point `v`. -/
structure Owed.Of (o : Owed) (v : Nat) : Prop where
  more_pos : 0 < o.more
  code_eq : o.code = v / 64 ^ o.more
  low_le : o.low ≤ v / 64 ^ (o.more - 1) % 64 + 0x80
  le_high : v / 64 ^ (o.more - 1) % 64 + 0x80 ≤ o.high

theorem toNat_ofNat_of_lt {n : Nat} (h : n < 256) : (UInt8.ofNat n).toNat = n := by
  rw [UInt8.toNat_ofNat', Nat.mod_eq_of_lt h]

/-- **The bytes that are owed** complete the character. -/
theorem eventsFrom_digits {o : Owed} {v : Nat} (h : o.Of v) (offset : Nat) (r : List UInt8) :
    eventsFrom offset (some o) (digits v o.more ++ r)
      = .char (Char.ofNat v) :: eventsFrom (offset + o.more) none r := by
  obtain ⟨more, low, high, code, width, first⟩ := o
  obtain ⟨hpos, hcode, hlow, hhigh⟩ := h
  dsimp only at hpos hcode hlow hhigh ⊢
  induction more generalizing low high code width offset with
  | zero => omega
  | succ k ih =>
      rw [Nat.add_sub_cancel] at hlow hhigh
      have hlt : v / 64 ^ k % 64 < 64 := Nat.mod_lt _ (by decide)
      have hbyte : (UInt8.ofNat (v / 64 ^ k % 64 + 0x80)).toNat = v / 64 ^ k % 64 + 0x80 :=
        toNat_ofNat_of_lt (by omega)
      have hnext : code * 64 + (v / 64 ^ k % 64 + 0x80 - 0x80) = v / 64 ^ k := by
        rw [hcode, Nat.pow_succ, ← Nat.div_div_eq_div_mul]
        omega
      rw [digits, List.cons_append, eventsFrom]
      dsimp only
      rw [hbyte, if_pos ⟨hlow, hhigh⟩, hnext]
      cases k with
      | zero => rw [if_pos rfl, Nat.pow_zero, Nat.div_one]; rfl
      | succ k =>
          rw [if_neg (by omega), Nat.add_sub_cancel]
          refine (ih (offset + 1) 0x80 0xBF _ _ (by omega) rfl (by omega) ?_).trans ?_
          · have : v / 64 ^ (k + 1 - 1) % 64 < 64 := Nat.mod_lt _ (by decide)
            omega
          · rw [Nat.add_assoc, Nat.add_comm 1]

/-! ## The first byte -/

/-- The first byte of a code point of two bytes. -/
theorem lead_two {v : Nat} (hlow : 0x80 ≤ v) (hhigh : v ≤ 0x7FF) :
    ∃ o, lead (UInt8.ofNat (v / 64 % 0x20 + 0xC0)) = .owed o ∧ o.more = 1 ∧ o.Of v := by
  have hbyte := toNat_ofNat_of_lt (n := v / 64 % 0x20 + 0xC0) (by omega)
  unfold lead
  dsimp only
  rw [hbyte, if_neg (by omega), if_neg (by omega), if_pos (by omega)]
  exact ⟨_, rfl, rfl, by constructor <;> dsimp only <;> omega⟩

/-- The first byte of a code point of three bytes that is no surrogate. -/
theorem lead_three {v : Nat} (hlow : 0x800 ≤ v) (hhigh : v ≤ 0xFFFF)
    (hvalid : v < 0xD800 ∨ 0xDFFF < v) :
    ∃ o, lead (UInt8.ofNat (v / 4096 % 0x10 + 0xE0)) = .owed o ∧ o.more = 2 ∧ o.Of v := by
  have hbyte := toNat_ofNat_of_lt (n := v / 4096 % 0x10 + 0xE0) (by omega)
  unfold lead
  dsimp only
  rw [hbyte, if_neg (by omega), if_neg (by omega), if_neg (by omega)]
  split_ifs
  · exact ⟨_, rfl, rfl, by constructor <;> dsimp only <;> omega⟩
  · exact ⟨_, rfl, rfl, by constructor <;> dsimp only <;> omega⟩
  · exact ⟨_, rfl, rfl, by constructor <;> dsimp only <;> omega⟩
  all_goals omega

/-- The first byte of a code point of four bytes. -/
theorem lead_four {v : Nat} (hlow : 0x10000 ≤ v) (hhigh : v < 0x110000) :
    ∃ o, lead (UInt8.ofNat (v / 262144 % 0x08 + 0xF0)) = .owed o ∧ o.more = 3 ∧ o.Of v := by
  have hbyte := toNat_ofNat_of_lt (n := v / 262144 % 0x08 + 0xF0) (by omega)
  unfold lead
  dsimp only
  rw [hbyte, if_neg (by omega), if_neg (by omega), if_neg (by omega), if_neg (by omega),
    if_neg (by omega), if_neg (by omega)]
  split_ifs
  · exact ⟨_, rfl, rfl, by constructor <;> dsimp only <;> omega⟩
  · exact ⟨_, rfl, rfl, by constructor <;> dsimp only <;> omega⟩
  · exact ⟨_, rfl, rfl, by constructor <;> dsimp only <;> omega⟩
  all_goals omega

/-! ## Characters and texts -/

theorem utf8EncodeChar_eq (c : Char) :
    String.utf8EncodeChar c
      = if c.toNat ≤ 0x7F then [UInt8.ofNat c.toNat]
        else if c.toNat ≤ 0x7FF then UInt8.ofNat (c.toNat / 64 % 0x20 + 0xC0) :: digits c.toNat 1
        else if c.toNat ≤ 0xFFFF then
          UInt8.ofNat (c.toNat / 4096 % 0x10 + 0xE0) :: digits c.toNat 2
        else UInt8.ofNat (c.toNat / 262144 % 0x08 + 0xF0) :: digits c.toNat 3 := by
  simp only [digits, Nat.pow_zero, Nat.div_one]
  rfl

/-- A character is one byte, or a first one that owes the others. -/
theorem utf8EncodeChar_cases (c : Char) :
    (∃ b, String.utf8EncodeChar c = [b] ∧ lead b = .char c)
      ∨ ∃ b o, String.utf8EncodeChar c = b :: digits c.toNat o.more ∧ lead b = .owed o
          ∧ o.Of c.toNat := by
  have hvalid : c.toNat < 0xD800 ∨ 0xDFFF < c.toNat ∧ c.toNat < 0x110000 := c.valid
  rw [utf8EncodeChar_eq]
  split_ifs with hone htwo hthree
  · refine Or.inl ⟨_, rfl, ?_⟩
    rw [lead, toNat_ofNat_of_lt (by omega), if_pos hone, Char.ofNat_toNat]
  · obtain ⟨o, hlead, hmore, ho⟩ := lead_two (Nat.lt_of_not_le hone) htwo
    exact Or.inr ⟨_, o, by rw [hmore], hlead, ho⟩
  · obtain ⟨o, hlead, hmore, ho⟩ := lead_three (Nat.lt_of_not_le htwo) hthree (by omega)
    exact Or.inr ⟨_, o, by rw [hmore], hlead, ho⟩
  · obtain ⟨o, hlead, hmore, ho⟩ := lead_four (Nat.lt_of_not_le hthree) (by omega)
    exact Or.inr ⟨_, o, by rw [hmore], hlead, ho⟩

/-- The bytes of a character read as the character. -/
theorem eventsFrom_utf8EncodeChar (offset : Nat) (c : Char) (r : List UInt8) :
    eventsFrom offset none (String.utf8EncodeChar c ++ r)
      = .char c :: eventsFrom (offset + (String.utf8EncodeChar c).length) none r := by
  rcases utf8EncodeChar_cases c with ⟨b, hbytes, hlead⟩ | ⟨b, o, hbytes, hlead, ho⟩
  · rw [hbytes, List.singleton_append, eventsFrom, hlead]
    rfl
  · have hlen : ∀ k, (digits c.toNat k).length = k := by
      intro k
      induction k with
      | zero => rfl
      | succ k ih => rw [digits, List.length_cons, ih]
    rw [hbytes, List.cons_append, eventsFrom, hlead]
    dsimp only
    rw [eventsFrom_digits ho, Char.ofNat_toNat, List.length_cons, hlen, Nat.add_assoc,
      Nat.add_comm 1]

theorem eventsFrom_encode (offset : Nat) (s : Text) :
    eventsFrom offset none (encode s) = s.map Event.char := by
  induction s generalizing offset with
  | nil => rfl
  | cons c r ih =>
      rw [encode, List.flatMap_cons, eventsFrom_utf8EncodeChar, List.map_cons]
      exact congrArg (Event.char c :: ·) (ih _)

/-- **The bytes of a text read as the text.** -/
theorem decode_encode (s : Text) : decode (encode s) = .ok s := by
  rw [decode, events, eventsFrom_encode]
  induction s with
  | nil => rfl
  | cons c r ih => rw [List.map_cons, strict, ih]; rfl

end CaplLayout.Utf8
