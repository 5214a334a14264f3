import CaplLayout.Proofs.Splice

/-!
# Texts in pieces

Edits that are in order and apart cut a text into pieces: a stretch that is kept and one that an
edit replaces, again and again, and a rest. `exists_pieces` takes `carry` and `mapFrom` apart in
this way. What edits do to a text and to its offsets is then a matter of induction over the pieces,
each of which knows what is replaced, by what, and what stands behind it.
-/

set_option autoImplicit false

namespace CaplLayout

/-- A stretch of a text that is kept, and behind it one that is replaced. -/
structure Patch where
  kept : Text
  old : Text
  new : Text

namespace Patch

/-- The text that some pieces and a rest are before the replacement. -/
def before (rest : Text) : List Patch → Text
  | [] => rest
  | p :: ps => p.kept ++ (p.old ++ before rest ps)

/-- The text that some pieces and a rest are after the replacement. -/
def after (rest : Text) : List Patch → Text
  | [] => rest
  | p :: ps => p.kept ++ (p.new ++ after rest ps)

/-- Where an offset of the text before lies in the text after. -/
def move : List Patch → Nat → Nat
  | [], n => n
  | p :: ps, n =>
    if p.kept.length + p.old.length ≤ n then
      p.kept.length + (p.new.length + move ps (n - (p.kept.length + p.old.length)))
    else if p.kept.length < n then p.kept.length + min (n - p.kept.length) p.new.length
    else n

/-- Each piece has a property that looks at what is replaced, at the text behind it and at what it
is replaced by. -/
def All (Q : (old behind new : Text) → Prop) (rest : Text) : List Patch → Prop
  | [] => True
  | p :: ps => Q p.old (before rest ps) p.new ∧ All Q rest ps

theorem All.imp {Q R : Text → Text → Text → Prop} (h : ∀ v w x, Q v w x → R v w x) {rest : Text}
    {ps : List Patch} (hall : All Q rest ps) : All R rest ps := by
  induction ps with
  | nil => trivial
  | cons p ps ih => exact ⟨h _ _ _ hall.1, ih hall.2⟩

/-- The three places where an offset may lie: behind the stretch that is replaced, inside of it, or
in what is kept in front of it. -/
theorem move_cases (p : Patch) (ps : List Patch) (n : Nat) :
    (∃ m, n = p.kept.length + (p.old.length + m)
        ∧ move (p :: ps) n = p.kept.length + (p.new.length + move ps m))
      ∨ (∃ m, 0 < m ∧ m < p.old.length ∧ n = p.kept.length + m
        ∧ move (p :: ps) n = p.kept.length + min m p.new.length)
      ∨ (n ≤ p.kept.length ∧ n < p.kept.length + p.old.length ∧ move (p :: ps) n = n) := by
  rw [move]
  by_cases hbehind : p.kept.length + p.old.length ≤ n
  · refine .inl ⟨n - (p.kept.length + p.old.length), by omega, ?_⟩
    rw [if_pos hbehind]
  · by_cases hinside : p.kept.length < n
    · refine .inr (.inl ⟨n - p.kept.length, by omega, by omega, by omega, ?_⟩)
      rw [if_neg hbehind, if_pos hinside]
    · refine .inr (.inr ⟨by omega, by omega, ?_⟩)
      rw [if_neg hbehind, if_neg hinside]

end Patch

namespace Edit

open Patch

/-- The edit replaces a stretch of a text that starts at `off`, and the stretch, what stands behind
it and what it is replaced by have the property `Q`. -/
def Spans (Q : (old behind new : Text) → Prop) (off : Nat) (t : Text) (e : Edit) : Prop :=
  ∃ u v w, t = u ++ (v ++ w) ∧ e.start = (off + u.length : Nat)
    ∧ e.stop = (off + u.length + v.length : Nat) ∧ Q v w e.text

section

variable {Q : Text → Text → Text → Prop} {off : Nat} {p t : Text} {e : Edit}

theorem Spans.imp {R : Text → Text → Text → Prop} (h : ∀ v w x, Q v w x → R v w x)
    (hspans : Spans Q off t e) : Spans R off t e := by
  obtain ⟨u, v, w, heq, hstart, hstop, hQ⟩ := hspans
  exact ⟨u, v, w, heq, hstart, hstop, h v w e.text hQ⟩

theorem Spans.prepend (h : Spans Q (off + p.length) t e) : Spans Q off (p ++ t) e := by
  obtain ⟨u, v, w, rfl, hstart, hstop, hQ⟩ := h
  refine ⟨p ++ u, v, w, by rw [List.append_assoc], ?_, ?_, hQ⟩
  · rw [hstart, List.length_append, Nat.add_assoc]
  · rw [hstop, List.length_append, Nat.add_assoc off]

/-- Seen from an offset in front of it. -/
theorem Spans.drop (h : Spans Q off (p ++ t) e) (hp : (off + p.length : Nat) ≤ e.start) :
    Spans Q (off + p.length) t e := by
  obtain ⟨u, v, w, heq, hstart, hstop, hQ⟩ := h
  have hle : p.length ≤ u.length := by omega
  refine ⟨u.drop p.length, v, w, ?_, ?_, ?_, hQ⟩
  · rw [← List.drop_append_of_le_length hle, ← heq, List.drop_left]
  · rw [hstart, List.length_drop]
    omega
  · rw [hstop, List.length_drop]
    omega

theorem Spans.within (h : Spans Q off t e) : Within off (off + t.length : Nat) e := by
  obtain ⟨u, v, w, rfl, hstart, hstop, -⟩ := h
  simp only [Within, hstart, hstop, List.length_append]
  omega

/-- The text behind `off` after a first edit, which replaces `v`, and others behind it. -/
theorem carry_cons_of_span {u v w : Text} (es : List Edit)
    (hstart : e.start = (off + u.length : Nat))
    (hstop : e.stop = (off + u.length + v.length : Nat)) :
    carry off (u ++ (v ++ w)) (e :: es)
      = u ++ (e.text ++ carry (off + (u ++ v).length) w es) := by
  have hu : e.start.toNat - off = u.length := by omega
  have huv : e.stop.toNat = off + (u ++ v).length := by rw [List.length_append]; omega
  rw [carry, hu, huv, Nat.add_sub_cancel_left, List.take_left, ← List.append_assoc,
    List.drop_left, List.append_assoc]

/-- **Edits cut a text into pieces.** The text starts at `off`, and at `off + shift` afterwards. -/
theorem exists_pieces {es : List Edit} (h : Apart off (off + t.length : Nat) es)
    (hspans : ∀ e ∈ es, Spans Q off t e) :
    ∃ ps rest, All Q rest ps ∧ t = before rest ps ∧ carry off t es = after rest ps
      ∧ ∀ shift o : Int, off ≤ o → mapFrom shift o es = off + shift + move ps (o - off).toNat := by
  induction es generalizing off t with
  | nil =>
      refine ⟨[], t, trivial, rfl, rfl, fun shift o ho => ?_⟩
      show o + shift = off + shift + (o - off).toNat
      omega
  | cons e es ih =>
      obtain ⟨-, -, hrest⟩ := h
      obtain ⟨u, v, w, rfl, hstart, hstop, hQ⟩ := hspans e List.mem_cons_self
      have huv : (u ++ v).length = u.length + v.length := List.length_append
      have hlen : (u ++ (v ++ w)).length = (u ++ v).length + w.length := by
        rw [← List.append_assoc, List.length_append]
      have hat : e.stop = (off + (u ++ v).length : Nat) := by omega
      have hapart : Apart (off + (u ++ v).length : Nat)
          (off + (u ++ v).length + w.length : Nat) es := by
        rwa [hat, hlen, ← Nat.add_assoc] at hrest
      have hspans' : ∀ d ∈ es, Spans Q (off + (u ++ v).length) w d := by
        intro d hd
        have hd' := hspans d (List.mem_cons_of_mem e hd)
        rw [← List.append_assoc] at hd'
        exact hd'.drop (hapart.within d hd).1
      obtain ⟨ps, rest, hall, rfl, hcarry, hmap⟩ := ih hapart hspans'
      refine ⟨⟨u, v, e.text⟩ :: ps, rest, ⟨hQ, hall⟩, rfl, ?_, fun shift o ho => ?_⟩
      · rw [carry_cons_of_span es hstart hstop, hcarry]
        rfl
      · -- the cases of `mapFrom` are those of `move`
        rw [mapFrom, move]
        dsimp only
        by_cases hbehind : e.stop ≤ o
        · have hle : u.length + v.length ≤ (o - off).toNat := by omega
          have hn : (o - (off + (u ++ v).length : Nat)).toNat
              = (o - off).toNat - (u.length + v.length) := by omega
          rw [if_pos hbehind, if_pos hle, hmap _ o (by omega), hn, gain]
          omega
        · have hlt : ¬ u.length + v.length ≤ (o - off).toNat := by omega
          rw [if_neg hbehind, if_neg hlt]
          by_cases hinside : e.start < o
          · have hlt' : u.length < (o - off).toNat := by omega
            rw [if_pos hinside, if_pos hlt']
            omega
          · have hle : ¬ u.length < (o - off).toNat := by omega
            rw [if_neg hinside, if_neg hle]
            omega

end

/-- The text after edits, and the offsets of the text before. -/
theorem exists_pieces_apply {Q : Text → Text → Text → Prop} {source : Text} {es : List Edit}
    (h : ∀ e ∈ es, Spans Q 0 source e) :
    ∃ ps rest, All Q rest ps ∧ source = before rest ps ∧ (apply source es).1 = after rest ps
      ∧ ∀ n : Nat, mapOffset (arrange es) n = move ps n := by
  have hin : ∀ e ∈ es, Within 0 source.length e := fun e he => by simpa using (h e he).within
  have hapart : Apart (0 : Nat) (0 + source.length : Nat) (arrange es) := by
    simpa using apart_arrange hin
  obtain ⟨ps, rest, hall, hsource, hcarry, hmap⟩ :=
    exists_pieces hapart fun e he => h e (mem_of_mem_arrange he)
  refine ⟨ps, rest, hall, hsource, (apply_fst hin).trans hcarry, fun n => ?_⟩
  have hn := hmap 0 n (by omega)
  rw [mapOffset, hn]
  simp

end Edit

end CaplLayout
