import CaplLayout.Proofs.Rows

/-!
# Edits as one replacement

`Edit.apply` carries edits out one behind the other, and `Edit.mapOffset` follows an offset past one
after the other. Both agree with a replacement of all spans at once (`apply_simultaneous`), whatever
edits of the text are proposed. That replacement is written down here without any order of steps
(`replaced`): at each offset stand the texts of the edits that start there, and behind them the
character of the source, unless a span covers it.

Insertions at one place, adjacent spans and edits of the same span all come down to the same two
facts on the edits that are carried out. They are in order and apart, so behind an edit the text
goes on as if that edit were not there (`replacedFrom_forget`); and an edit that is left out starts
in the span of one that is carried out (`exists_dropped`).
-/

set_option autoImplicit false

namespace CaplLayout.Edit

open Text

/-! ## All spans at once -/

/-- The character behind the offset `o` lies in the span of the edit. -/
def Covers (e : Edit) (o : Int) : Prop := e.start ≤ o ∧ o < e.stop

instance (e : Edit) (o : Int) : Decidable (e.Covers o) := inferInstanceAs (Decidable (_ ∧ _))

/-- The texts of the edits that start at an offset. -/
def textsAt (es : List Edit) (o : Int) : Text :=
  (es.filter fun e => e.start = o).flatMap Edit.text

/-- A text that starts at the offset `o`, with all spans replaced at once. -/
def replacedFrom (es : List Edit) (o : Int) : Text → Text
  | [] => textsAt es o
  | c :: r =>
    textsAt es o ++ ((if ∃ e ∈ es, e.Covers o then [] else [c]) ++ replacedFrom es (o + 1) r)

/-- A text with all spans replaced at once. -/
def replaced (es : List Edit) (source : Text) : Text := replacedFrom es 0 source

section

variable {o : Int} {e : Edit} {es : List Edit} {t u v : Text}

theorem textsAt_eq_nil (h : ∀ d ∈ es, d.start ≠ o) : textsAt es o = [] := by
  have hnone : es.filter (fun d => d.start = o) = [] := by
    rw [List.filter_eq_nil_iff]
    simpa using h
  rw [textsAt, hnone, List.flatMap_nil]

theorem textsAt_cons_self (h : e.start = o) : textsAt (e :: es) o = e.text ++ textsAt es o := by
  rw [textsAt, List.filter_cons_of_pos (by simpa using h), List.flatMap_cons, textsAt]

theorem textsAt_cons_of_ne (h : e.start ≠ o) : textsAt (e :: es) o = textsAt es o := by
  rw [textsAt, List.filter_cons_of_neg (by simpa using h), textsAt]

theorem exists_covers_cons (h : ¬ e.Covers o) :
    (∃ d ∈ e :: es, d.Covers o) ↔ ∃ d ∈ es, d.Covers o := by
  simp [h]

theorem add_length_cons (o : Int) (c : Char) (u : Text) :
    o + (c :: u).length = o + 1 + u.length := by
  rw [List.length_cons]
  omega

/-- In front of all edits the text stays. -/
theorem replacedFrom_keep (h : ∀ d ∈ es, o + u.length ≤ d.start) :
    replacedFrom es o (u ++ t) = u ++ replacedFrom es (o + u.length) t := by
  induction u generalizing o with
  | nil => simp
  | cons c u ih =>
      rw [add_length_cons] at h ⊢
      have htexts : textsAt es o = [] := textsAt_eq_nil fun d hd => by have := h d hd; omega
      have hfree : ¬ ∃ d ∈ es, d.Covers o := by
        rintro ⟨d, hd, hle, -⟩
        have := h d hd
        omega
      rw [List.cons_append, replacedFrom, htexts, if_neg hfree, ih h]
      rfl

/-- Behind an edit the text goes on as if the edit were not there. -/
theorem replacedFrom_forget (hstart : e.start < o) (hstop : e.stop ≤ o) :
    replacedFrom (e :: es) o t = replacedFrom es o t := by
  have hne : e.start ≠ o := by omega
  induction t generalizing o with
  | nil => exact textsAt_cons_of_ne hne
  | cons c t ih =>
      have hfree : ¬ e.Covers o := fun h => by have := h.2; omega
      rw [replacedFrom, replacedFrom, textsAt_cons_of_ne hne,
        ih (by omega) (by omega) (by omega)]
      simp only [exists_covers_cons hfree]

/-- Inside a span nothing stays and nothing is put. -/
theorem replacedFrom_skip (hstart : e.start < o) (hstop : o + v.length ≤ e.stop)
    (h : ∀ d ∈ es, o + v.length ≤ d.start) :
    replacedFrom (e :: es) o (v ++ t) = replacedFrom (e :: es) (o + v.length) t := by
  induction v generalizing o with
  | nil => simp
  | cons c v ih =>
      rw [add_length_cons] at h hstop ⊢
      have htexts : textsAt (e :: es) o = [] := by
        rw [textsAt_cons_of_ne (by omega)]
        exact textsAt_eq_nil fun d hd => by have := h d hd; omega
      have hcovers : ∃ d ∈ e :: es, d.Covers o := ⟨e, List.mem_cons_self, by omega, by omega⟩
      rw [List.cons_append, replacedFrom, htexts, if_pos hcovers, ih (by omega) hstop h]
      rfl

/-- Where the first edit starts, its text stands in the place of its span. -/
theorem replacedFrom_cons (hstart : e.start = o) (hstop : e.stop = o + v.length)
    (h : ∀ d ∈ es, o + v.length ≤ d.start) :
    replacedFrom (e :: es) o (v ++ t) = e.text ++ replacedFrom es (o + v.length) t := by
  cases v with
  | nil =>
      -- nothing is replaced, and the next edits may start at the same place
      simp only [List.length_nil, Int.natCast_zero, Int.add_zero] at hstop ⊢
      rw [List.nil_append]
      cases t with
      | nil => exact textsAt_cons_self hstart
      | cons c t =>
          have hfree : ¬ e.Covers o := fun h => by have := h.2; omega
          rw [replacedFrom, replacedFrom, textsAt_cons_self hstart,
            replacedFrom_forget (by omega) (by omega), List.append_assoc]
          simp only [exists_covers_cons hfree]
  | cons c v =>
      rw [add_length_cons] at h hstop ⊢
      have htexts : textsAt (e :: es) o = e.text := by
        rw [textsAt_cons_self hstart, textsAt_eq_nil fun d hd => by have := h d hd; omega,
          List.append_nil]
      have hcovers : ∃ d ∈ e :: es, d.Covers o := ⟨e, List.mem_cons_self, by omega, by omega⟩
      rw [List.cons_append, replacedFrom, htexts, if_pos hcovers, List.nil_append,
        replacedFrom_skip (by omega) (by omega) h, replacedFrom_forget (by omega) (by omega)]

end

/-- **The first edit takes the text apart**: in front of it, what it replaces, and behind it, where
the other edits are. -/
theorem Apart.exists_parts {off : Nat} {t : Text} {e : Edit} {es : List Edit}
    (h : Apart off (off + t.length : Nat) (e :: es)) :
    ∃ u v w, t = u ++ (v ++ w) ∧ e.start = (off + u.length : Nat)
      ∧ e.stop = (off + u.length + v.length : Nat)
      ∧ Apart (off + (u ++ v).length : Nat) (off + (u ++ v).length + w.length : Nat) es := by
  obtain ⟨hlo, hord, hrest⟩ := h
  have hhi := hrest.le
  obtain ⟨m, hm⟩ : ∃ m : Nat, e.start = (off + m : Nat) := ⟨(e.start - off).toNat, by omega⟩
  obtain ⟨n, hn⟩ : ∃ n : Nat, e.stop = (off + m + n : Nat) := ⟨(e.stop - e.start).toNat, by omega⟩
  have hu : (t.take m).length = m := List.length_take_of_le (by omega)
  have hv : ((t.drop m).take n).length = n :=
    List.length_take_of_le (by rw [List.length_drop]; omega)
  have huv : (t.take m ++ (t.drop m).take n).length = m + n := by rw [List.length_append, hu, hv]
  have hw : ((t.drop m).drop n).length = t.length - m - n := by
    rw [List.length_drop, List.length_drop]
  refine ⟨t.take m, (t.drop m).take n, (t.drop m).drop n, ?_, by rw [hu, hm],
    by rw [hu, hv, hn], ?_⟩
  · rw [List.take_append_drop, List.take_append_drop]
  · have hlo' : ((off + (m + n) : Nat) : Int) = e.stop := by omega
    have hhi' : off + (m + n) + (t.length - m - n) = off + t.length := by omega
    rw [huv, hw, hhi', hlo']
    exact hrest

/-- **Edits that are in order and apart** make of a text what one replacement makes of it. -/
theorem carry_eq_replacedFrom {off : Nat} {t : Text} {es : List Edit}
    (h : Apart off (off + t.length : Nat) es) : carry off t es = replacedFrom es off t := by
  induction es generalizing off t with
  | nil =>
      have hkeep : replacedFrom [] off (t ++ []) = t ++ replacedFrom [] (off + t.length) [] :=
        replacedFrom_keep nofun
      rw [List.append_nil] at hkeep
      rw [hkeep]
      exact (List.append_nil t).symm
  | cons e es ih =>
      have hbehind : ∀ d ∈ es, e.stop ≤ d.start := fun d hd => (h.2.2.within d hd).1
      obtain ⟨u, v, w, rfl, hu, hv, hapart⟩ := h.exists_parts
      have hfront : ∀ d ∈ e :: es, (off : Int) + u.length ≤ d.start := by
        rw [List.forall_mem_cons]
        exact ⟨by omega, fun d hd => by have := hbehind d hd; omega⟩
      have hcons : replacedFrom (e :: es) (off + u.length) (v ++ w)
          = e.text ++ replacedFrom es (off + u.length + v.length) w :=
        replacedFrom_cons (by omega) (by omega) fun d hd => by have := hbehind d hd; omega
      have hoff : ((off + (u ++ v).length : Nat) : Int) = off + u.length + v.length := by
        rw [List.length_append]
        omega
      rw [carry_cons_of_span es hu hv, ih hapart, replacedFrom_keep hfront, hcons, hoff]

/-! ## Edits that are left out -/

theorem Apart.pairwise {lo hi : Int} {es : List Edit} (h : Apart lo hi es) :
    es.Pairwise fun a b => a.stop ≤ b.start := by
  induction es generalizing lo with
  | nil => exact .nil
  | cons e es ih =>
      obtain ⟨-, -, hrest⟩ := h
      exact List.pairwise_cons.mpr ⟨fun d hd => (hrest.within d hd).1, ih hrest⟩

/-- **An edit that is left out** starts in front of where the first one may start, or in the span of
one that is kept. -/
theorem exists_dropped {es : List Edit} (h : es.Pairwise fun a b => a.start ≤ b.start) (lo : Int) :
    ∃ dropped, (separate lo es ++ dropped).Perm es
      ∧ ∀ d ∈ dropped, d.start < lo ∨ ∃ a ∈ separate lo es, a.Covers d.start := by
  induction es generalizing lo with
  | nil => exact ⟨[], .nil, nofun⟩
  | cons e es ih =>
      rw [List.pairwise_cons] at h
      rw [separate]
      split
      · next hlt =>
          obtain ⟨dropped, hperm, hdropped⟩ := ih h.2 lo
          refine ⟨e :: dropped, List.perm_middle.trans (hperm.cons e), ?_⟩
          rw [List.forall_mem_cons]
          exact ⟨.inl hlt, hdropped⟩
      · next hle =>
          obtain ⟨dropped, hperm, hdropped⟩ := ih h.2 e.stop
          refine ⟨dropped, hperm.cons e, fun d hd => .inr ?_⟩
          rcases hdropped d hd with hlt | ⟨a, ha, hcovers⟩
          · have hmem : d ∈ es := hperm.mem_iff.mp (List.mem_append_right _ hd)
            exact ⟨e, List.mem_cons_self, h.1 d hmem, hlt⟩
          · exact ⟨a, List.mem_cons_of_mem e ha, hcovers⟩

theorem pairwise_start_mergeSort (es : List Edit) :
    (es.mergeSort le).Pairwise fun a b => a.start ≤ b.start := by
  refine (List.pairwise_mergeSort le_trans le_total es).imp fun {a b} hab => ?_
  rw [le_iff] at hab
  omega

/-- Of edits that start in the text, each one that is left out starts in the span of one that is
carried out. -/
theorem exists_dropped_arrange {es : List Edit} (h : ∀ e ∈ es, 0 ≤ e.start) :
    ∃ dropped, (arrange es ++ dropped).Perm es
      ∧ ∀ d ∈ dropped, ∃ a ∈ arrange es, a.Covers d.start := by
  obtain ⟨dropped, hperm, hdropped⟩ := exists_dropped (pairwise_start_mergeSort es) 0
  refine ⟨dropped, hperm.trans (List.mergeSort_perm es le), fun d hd => ?_⟩
  have hmem : d ∈ es.mergeSort le := hperm.mem_iff.mp (List.mem_append_right _ hd)
  have hstart := h d (List.mem_mergeSort.mp hmem)
  exact (hdropped d hd).resolve_left (by omega)

/-! ## Characters that stay -/

/-- **A character that no span covers** is found where its offset lies afterwards. -/
theorem exists_getElem?_carry {off : Nat} {t : Text} {es : List Edit}
    (h : Apart off (off + t.length : Nat) es) (shift : Int) {o : Nat} (ho : off ≤ o)
    (hfree : ∀ e ∈ es, ¬ e.Covers o) :
    ∃ j : Nat, mapFrom shift o es = off + shift + j ∧ (carry off t es)[j]? = t[o - off]? := by
  induction es generalizing off t shift with
  | nil =>
      refine ⟨o - off, ?_, rfl⟩
      show (o : Int) + shift = _
      omega
  | cons e es ih =>
      obtain ⟨u, v, w, rfl, hu, hv, hapart⟩ := h.exists_parts
      have huv : (u ++ v).length = u.length + v.length := List.length_append
      rw [List.forall_mem_cons] at hfree
      rw [carry_cons_of_span es hu hv, mapFrom]
      split
      · next hbehind =>
          obtain ⟨j, hj, hchar⟩ := ih hapart (shift + e.gain) (by omega) hfree.2
          obtain ⟨k, rfl⟩ : ∃ k, o = off + (u.length + (v.length + k)) :=
            ⟨o - off - u.length - v.length, by omega⟩
          have hk : off + (u.length + (v.length + k)) - (off + (u ++ v).length) = k := by omega
          rw [hk] at hchar
          refine ⟨u.length + (e.text.length + j), ?_, ?_⟩
          · rw [hj, gain]
            omega
          · rw [Nat.add_sub_cancel_left, getElem?_length_add, getElem?_length_add, hchar,
              getElem?_length_add, getElem?_length_add]
      · next hnot =>
          have hfront : o < off + u.length := by
            by_contra hcon
            exact hfree.1 ⟨by omega, by omega⟩
          refine ⟨o - off, ?_, ?_⟩
          · rw [if_neg (by omega)]
            omega
          · rw [List.getElem?_append_left (by omega), List.getElem?_append_left (by omega)]

/-! ## Edits proposed for a text -/

/-- The text and the edits carried out when `edits` are proposed for `source`, and where its offsets
lie afterwards: as if all spans had been replaced at once. -/
structure Simultaneous (source : Text) (edits : List Edit) (text : Text) (applied : List Edit) :
    Prop where
  /-- The edits carried out are some of those proposed, sorted. -/
  sublist : applied.Sublist (edits.mergeSort le)
  apart : applied.Pairwise fun a b => a.stop ≤ b.start
  /-- All others start in the span of an edit that is carried out. -/
  dropped : ∃ dropped, (applied ++ dropped).Perm edits
    ∧ ∀ d ∈ dropped, ∃ a ∈ applied, a.Covers d.start
  text_eq : text = replaced applied source
  length_eq : (text.length : Int) = source.length + gains applied
  /-- Offsets stay in order. -/
  mono : ∀ m n : Nat, m ≤ n → mapOffset applied m ≤ mapOffset applied n
  /-- Offsets of the source lie in the text. -/
  inside : ∀ n : Nat, n ≤ source.length →
    0 ≤ mapOffset applied n ∧ mapOffset applied n ≤ text.length
  end_eq : mapOffset applied source.length = text.length
  /-- A character that no span covers goes along with its offset. -/
  char_eq : ∀ n : Nat, n < source.length → (∀ a ∈ applied, ¬ a.Covers n) →
    text[(mapOffset applied n).toNat]? = source[n]?

/-- **Carrying out edits replaces all their spans at once**, whatever edits between the ends of the
text are proposed. -/
theorem apply_simultaneous {source : Text} {edits : List Edit}
    (h : ∀ e ∈ edits, Within 0 source.length e) :
    Simultaneous source edits (apply source edits).1 (apply source edits).2 := by
  have happlied : (apply source edits).2 = arrange edits := rfl
  have hapart : Apart (0 : Nat) (0 + source.length : Nat) (arrange edits) := by
    rw [Nat.zero_add]
    exact apart_arrange h
  have hlength := length_apply h
  have hmono : ∀ m n : Nat, m ≤ n →
      mapOffset (arrange edits) m ≤ mapOffset (arrange edits) n :=
    fun m n hmn => mapOffset_mono hapart (by omega)
  have hend : mapOffset (arrange edits) source.length = (apply source edits).1.length := by
    rw [mapOffset_of_stop_le fun e he => (h e (mem_of_mem_arrange he)).2.2, hlength]
  rw [happlied]
  constructor
  case sublist => exact separate_sublist 0 _
  case apart => exact hapart.pairwise
  case dropped => exact exists_dropped_arrange fun e he => (h e he).1
  case text_eq =>
    rw [apply_fst h, carry_eq_replacedFrom hapart]
    rfl
  case length_eq => exact hlength
  case mono => exact hmono
  case inside =>
    intro n hn
    constructor
    · have hfront := hapart.le_mapFrom (o := n) (by omega) 0
      rw [mapOffset]
      omega
    · rw [← hend]
      exact hmono n source.length hn
  case end_eq => exact hend
  case char_eq =>
    intro n _ hfree
    obtain ⟨j, hj, hchar⟩ := exists_getElem?_carry hapart 0 (Nat.zero_le n) hfree
    rw [apply_fst h, mapOffset, hj]
    simpa using hchar

/-- Two insertions at one place, an edit that starts there, and one that overlaps it. -/
theorem apply_simultaneous_overlap :
    let edits : List Edit :=
      [⟨2, 4, ['y'], 0⟩, ⟨1, 3, ['x'], 0⟩, ⟨1, 1, ['j'], 1⟩, ⟨1, 1, ['i'], 0⟩]
    (∀ e ∈ edits, Within 0 "abcd".toList.length e)
      ∧ (apply "abcd".toList edits).1 = "aijxd".toList
      ∧ mapOffset (apply "abcd".toList edits).2 4 = 5 := by
  intro edits
  have hwithin : ∀ e ∈ edits, Within 0 "abcd".toList.length e := by
    simp [edits, Within]
  have hsimultaneous := apply_simultaneous hwithin
  have hsorted : edits.mergeSort le
      = [⟨1, 1, ['i'], 0⟩, ⟨1, 1, ['j'], 1⟩, ⟨1, 3, ['x'], 0⟩, ⟨2, 4, ['y'], 0⟩] :=
    mergeSort_eq (by decide) (by simp [Before, le_iff])
  have htext : (apply "abcd".toList edits).1 = "aijxd".toList := by
    rw [hsimultaneous.text_eq]
    change replaced (separate 0 (edits.mergeSort le)) _ = _
    rw [hsorted]
    decide
  refine ⟨hwithin, htext, hsimultaneous.end_eq.trans ?_⟩
  rw [htext]
  rfl

end CaplLayout.Edit
