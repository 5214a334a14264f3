import CaplLayout.Text.Quoted
import Mathlib.Algebra.Group.Nat.Defs
import Mathlib.Tactic.SplitIfs

/-!
# Quoted texts read back

A text is determined by its quoted form (`encode_inj`), and the quoted form has no line feed
(`feed_not_mem_encode`), so it fills one line.

A character is written in one of four forms (`Written`): as itself, as a letter behind a
backslash, or as one or two units of four hexadecimal digits. Which form it is can be told from
the first two characters, or for two units from the value of the first one, which is no code
point. So written characters can be cancelled one by one from the front (`encodeChar_append_inj`).
-/

set_option autoImplicit false

namespace CaplLayout.Quoted

/-! ## Hexadecimal digits -/

theorem digitChar_inj {m n : Nat} (hm : m < 16) (hn : n < 16)
    (h : Nat.digitChar m = Nat.digitChar n) : m = n := by
  have key : ∀ a b : Fin 16, Nat.digitChar a = Nat.digitChar b → a = b := by decide
  exact congrArg Fin.val (key ⟨m, hm⟩ ⟨n, hn⟩ h)

theorem digitChar_ne_feed {n : Nat} (hn : n < 16) : Nat.digitChar n ≠ '\n' := by
  have key : ∀ a : Fin 16, Nat.digitChar a ≠ '\n' := by decide
  exact key ⟨n, hn⟩

theorem hexDigits_inj {w m n : Nat} (hm : m < 16 ^ w) (hn : n < 16 ^ w)
    (h : hexDigits w m = hexDigits w n) : m = n := by
  induction w generalizing m n with
  | zero => omega
  | succ w ih =>
      rw [Nat.pow_succ] at hm hn
      rw [hexDigits, hexDigits] at h
      obtain ⟨hfront, hlast⟩ := List.append_inj' h rfl
      have hdiv : m / 16 = n / 16 := ih (by omega) (by omega) hfront
      have hmod : m % 16 = n % 16 := by
        refine digitChar_inj (by omega) (by omega) ?_
        simpa using hlast
      omega

theorem feed_not_mem_hexDigits (w n : Nat) : '\n' ∉ hexDigits w n := by
  induction w generalizing n with
  | zero => exact List.not_mem_nil
  | succ w ih =>
      rw [hexDigits, List.mem_append, List.mem_singleton]
      rintro (h | h)
      · exact ih _ h
      · exact digitChar_ne_feed (Nat.mod_lt _ (by decide)) h.symm

theorem unitEscape_append_inj {m n : Nat} {s t : Text} (hm : m < 0x10000) (hn : n < 0x10000)
    (h : unitEscape m ++ s = unitEscape n ++ t) : m = n ∧ s = t := by
  have hlen : (unitEscape m).length = (unitEscape n).length := by
    simp [unitEscape, length_hexDigits]
  obtain ⟨hunit, hrest⟩ := List.append_inj h hlen
  refine ⟨hexDigits_inj (w := 4) (by omega) (by omega) ?_, hrest⟩
  simpa [unitEscape] using hunit

theorem feed_not_mem_unitEscape (n : Nat) : '\n' ∉ unitEscape n := by
  have := feed_not_mem_hexDigits 4 n
  simp [unitEscape, this]

/-! ## Written characters -/

/-- The character for which a letter stands behind a backslash. -/
def ofLetter (l : Char) : Char :=
  if l = 'n' then '\n'
  else if l = 'r' then '\r'
  else if l = 't' then '\t'
  else if l = 'b' then '\x08'
  else if l = 'f' then '\x0c'
  else l

/-- The ways in which a character is written. -/
inductive Written (c : Char) : Text → Prop
  | plain : c ≠ '\\' → c ≠ '\n' → Written c [c]
  | letter {l : Char} : l ≠ 'u' → l ≠ '\n' → ofLetter l = c → Written c ['\\', l]
  | unit : c.toNat < 0x10000 → Written c (unitEscape c.toNat)
  | units : 0x10000 ≤ c.toNat → Written c
      (unitEscape (0xD800 + (c.toNat - 0x10000) / 0x400)
        ++ unitEscape (0xDC00 + (c.toNat - 0x10000) % 0x400))

theorem written_encodeChar (c : Char) : Written c (encodeChar c) := by
  unfold encodeChar
  dsimp only
  split_ifs with hquote hslash hfeed hreturn htab hback hform hplain hunit
  · exact .letter (by decide) (by decide) hquote.symm
  · exact .letter (by decide) (by decide) hslash.symm
  · exact .letter (by decide) (by decide) hfeed.symm
  · exact .letter (by decide) (by decide) hreturn.symm
  · exact .letter (by decide) (by decide) htab.symm
  · exact .letter (by decide) (by decide) (Char.toNat_inj.mp hback).symm
  · exact .letter (by decide) (by decide) (Char.toNat_inj.mp hform).symm
  · exact .plain hslash hfeed
  · exact .unit hunit
  · exact .units (by omega)

/-- The code points of characters leave out those of which two make a pair. -/
theorem toNat_lt_or (c : Char) : c.toNat < 0xD800 ∨ 0xDFFF < c.toNat ∧ c.toNat < 0x110000 :=
  c.valid

/-- **A written character can be cancelled** from the front. -/
theorem written_append_inj {c d : Char} {x y s t : Text} (hc : Written c x) (hd : Written d y)
    (h : x ++ s = y ++ t) : c = d ∧ s = t := by
  have hvalid := toNat_lt_or c
  have hvalid' := toNat_lt_or d
  cases hc with
  | plain hslash _ =>
      cases hd with
      | plain _ _ => simpa using h
      | letter _ _ _ => exact absurd (List.cons.inj h).1 hslash
      | unit _ => exact absurd (List.cons.inj h).1 hslash
      | units _ => exact absurd (List.cons.inj h).1 hslash
  | letter hu _ hl =>
      cases hd with
      | plain hslash _ => exact absurd (List.cons.inj h).1.symm hslash
      | letter _ _ hl' =>
          obtain ⟨-, htail⟩ := List.cons.inj h
          obtain ⟨hletter, hrest⟩ := List.cons.inj htail
          exact ⟨by rw [← hl, ← hl', hletter], hrest⟩
      | unit _ => exact absurd (List.cons.inj (List.cons.inj h).2).1 hu
      | units _ => exact absurd (List.cons.inj (List.cons.inj h).2).1 hu
  | unit hlt =>
      cases hd with
      | plain hslash _ => exact absurd (List.cons.inj h).1.symm hslash
      | letter hu _ _ => exact absurd (List.cons.inj (List.cons.inj h).2).1.symm hu
      | unit hlt' =>
          obtain ⟨hunit, hrest⟩ := unitEscape_append_inj hlt hlt' h
          exact ⟨Char.toNat_inj.mp hunit, hrest⟩
      | units _ =>
          -- the first unit of two is no code point
          rw [List.append_assoc] at h
          obtain ⟨hunit, -⟩ := unitEscape_append_inj hlt (by omega) h
          omega
  | units hle =>
      rw [List.append_assoc] at h
      cases hd with
      | plain hslash _ => exact absurd (List.cons.inj h).1.symm hslash
      | letter hu _ _ => exact absurd (List.cons.inj (List.cons.inj h).2).1.symm hu
      | unit hlt' =>
          obtain ⟨hunit, -⟩ := unitEscape_append_inj (by omega) hlt' h
          omega
      | units hle' =>
          rw [List.append_assoc] at h
          obtain ⟨hhigh, htail⟩ := unitEscape_append_inj (by omega) (by omega) h
          obtain ⟨hlow, hrest⟩ := unitEscape_append_inj (by omega) (by omega) htail
          exact ⟨Char.toNat_inj.mp (by omega), hrest⟩

theorem encodeChar_append_inj {c d : Char} {s t : Text}
    (h : encodeChar c ++ s = encodeChar d ++ t) : c = d ∧ s = t :=
  written_append_inj (written_encodeChar c) (written_encodeChar d) h

theorem Written.ne_nil {c : Char} {x : Text} (h : Written c x) : x ≠ [] := by
  cases h <;> simp [unitEscape]

theorem Written.feed_not_mem {c : Char} {x : Text} (h : Written c x) : '\n' ∉ x := by
  cases h with
  | plain _ hfeed => simpa using hfeed.symm
  | letter _ hfeed _ => simpa using hfeed.symm
  | unit _ => exact feed_not_mem_unitEscape _
  | units _ =>
      rw [List.mem_append, not_or]
      exact ⟨feed_not_mem_unitEscape _, feed_not_mem_unitEscape _⟩

/-! ## Quoted texts -/

theorem flatMap_encodeChar_inj {s t : Text} (h : s.flatMap encodeChar = t.flatMap encodeChar) :
    s = t := by
  induction s generalizing t with
  | nil =>
      cases t with
      | nil => rfl
      | cons d t => exact absurd (List.append_eq_nil_iff.mp h.symm).1 (written_encodeChar d).ne_nil
  | cons c s ih =>
      cases t with
      | nil => exact absurd (List.append_eq_nil_iff.mp h).1 (written_encodeChar c).ne_nil
      | cons d t =>
          rw [List.flatMap_cons, List.flatMap_cons] at h
          obtain ⟨hchar, hrest⟩ := encodeChar_append_inj h
          rw [hchar, ih hrest]

/-- **A text is determined by its quoted form.** -/
theorem encode_inj {s t : Text} (h : encode s = encode t) : s = t :=
  flatMap_encodeChar_inj (List.append_cancel_right (List.cons.inj h).2)

/-- A quoted text fills one line. -/
theorem feed_not_mem_encode (s : Text) : '\n' ∉ encode s := by
  have hchars : '\n' ∉ s.flatMap encodeChar := by
    rw [List.mem_flatMap]
    rintro ⟨c, -, hc⟩
    exact (written_encodeChar c).feed_not_mem hc
  simp [encode, hchars]

end CaplLayout.Quoted
