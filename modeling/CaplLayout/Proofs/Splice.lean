import CaplLayout.Edit
import Mathlib.Data.List.Pairwise
import Mathlib.Data.List.Sort

/-!
# Edits in order

`arrange` sorts edits and drops the overlapping ones. There are two ways to compute it: the sorted
list is known as soon as some strictly ordered list has the same members (`mergeSort_eq`), and
where all edits start inside the first one, only that one is left (`arrange_cons_of_start_lt`).

`carry` carries out edits on the text behind an offset. It agrees with `splice`
(`splice_eq_carry`) and steps along the text piece by piece: over a piece that is kept
(`carry_keep`) and over one that is replaced (`carry_replace`).

`mapOffset` is only needed at the ends of a range here: behind all edits an offset moves by
what the edits gain, in front of all of them it does not move back.
-/

set_option autoImplicit false

namespace CaplLayout.Edit

/-! ## Sorting -/

theorem le_iff (a b : Edit) :
    le a b = true ↔ a.start < b.start ∨
      a.start = b.start ∧ (a.stop < b.stop ∨ a.stop = b.stop ∧ a.priority ≤ b.priority) := by
  unfold le
  split
  · next h => simp only [decide_eq_true_eq]; omega
  · next h =>
      split
      · next h' => simp only [decide_eq_true_eq]; omega
      · next h' => simp only [decide_eq_true_eq]; omega

theorem le_trans (a b c : Edit) (hab : le a b = true) (hbc : le b c = true) :
    le a c = true := by
  rw [le_iff] at *
  omega

theorem le_total (a b : Edit) : (le a b || le b a) = true := by
  rw [Bool.or_eq_true, le_iff, le_iff]
  omega

/-- Strictly in front, in the order of edits. -/
def Before (a b : Edit) : Prop := le a b = true ∧ ¬ le b a = true

theorem before_of_start_lt {a b : Edit} (h : a.start < b.start) : Before a b := by
  unfold Before
  rw [le_iff, le_iff]
  omega

/-- One edit at most, in front of others. -/
theorem pairwise_append {ds es : List Edit} (hlen : ds.length ≤ 1) (hes : es.Pairwise Before)
    (h : ∀ d ∈ ds, ∀ e ∈ es, Before d e) : (ds ++ es).Pairwise Before := by
  cases ds with
  | nil => exact hes
  | cons d ds =>
      have hds : ds = [] := List.length_eq_zero_iff.mp (by rw [List.length_cons] at hlen; omega)
      subst hds
      exact List.pairwise_cons.mpr ⟨h d (by simp), hes⟩

/-- Strictly ordered edits are what sorting makes of their members. -/
theorem mergeSort_eq {es sorted : List Edit} (hperm : sorted.Perm es)
    (h : sorted.Pairwise Before) : es.mergeSort le = sorted := by
  have hle : sorted.Pairwise (fun a b => le a b = true) := h.imp fun hab => hab.1
  have hsort : (es.mergeSort le).Pairwise (fun a b => le a b = true) :=
    List.pairwise_mergeSort le_trans le_total es
  refine List.Perm.eq_of_pairwise ?_ hsort hle ((List.mergeSort_perm es le).trans hperm.symm)
  intro a b ha hb hab hba
  have ha' : a ∈ sorted := hperm.mem_iff.mpr (List.mem_mergeSort.mp ha)
  have hsymm : Std.Symm (fun a b => Before a b ∨ Before b a) := ⟨fun _ _ => Or.symm⟩
  have hany : sorted.Pairwise (fun a b => Before a b ∨ Before b a) := h.imp Or.inl
  -- two edits of the list are strictly in order one way or the other
  by_contra hne
  rcases hany.forall ha' hb hne with h | h
  · exact h.2 hba
  · exact h.2 hab

/-! ## Separating -/

/-- Edits in order and apart, from offset `lo` up to offset `hi`. -/
def Apart (lo hi : Int) : List Edit → Prop
  | [] => lo ≤ hi
  | e :: es => lo ≤ e.start ∧ e.start ≤ e.stop ∧ Apart e.stop hi es

/-- An edit of a span that lies between two offsets. -/
def Within (lo hi : Int) (e : Edit) : Prop := lo ≤ e.start ∧ e.start ≤ e.stop ∧ e.stop ≤ hi

theorem Within.mono {lo hi lo' hi' : Int} {e : Edit} (h : Within lo hi e) (hlo : lo' ≤ lo)
    (hhi : hi ≤ hi') : Within lo' hi' e :=
  ⟨hlo.trans h.1, h.2.1, h.2.2.trans hhi⟩

theorem Apart.le {lo hi : Int} {es : List Edit} (h : Apart lo hi es) : lo ≤ hi := by
  induction es generalizing lo with
  | nil => exact h
  | cons e es ih =>
      have := ih h.2.2
      have := h.1
      have := h.2.1
      omega

theorem Apart.within {lo hi : Int} {es : List Edit} (h : Apart lo hi es) :
    ∀ e ∈ es, Within lo hi e := by
  induction es generalizing lo with
  | nil => simp
  | cons e es ih =>
      intro d hd
      obtain ⟨hlo, hord, hrest⟩ := h
      rcases List.mem_cons.mp hd with rfl | hd
      · exact ⟨hlo, hord, hrest.le⟩
      · exact (ih hrest d hd).mono (by omega) le_rfl

/-- What is kept of edits between two offsets is in order and apart. -/
theorem apart_separate {lo hi : Int} {es : List Edit} (hle : lo ≤ hi)
    (h : ∀ e ∈ es, e.start ≤ e.stop ∧ e.stop ≤ hi) : Apart lo hi (separate lo es) := by
  induction es generalizing lo with
  | nil => exact hle
  | cons e es ih =>
      rw [List.forall_mem_cons] at h
      unfold separate
      split
      · exact ih hle h.2
      · exact ⟨by omega, h.1.1, ih h.1.2 h.2⟩

/-- Where separating starts does not matter in front of all edits. -/
theorem separate_congr {lo lo' : Int} {es : List Edit}
    (h : ∀ e ∈ es, lo ≤ e.start ∧ lo' ≤ e.start) : separate lo es = separate lo' es := by
  cases es with
  | nil => rfl
  | cons e es =>
      have he := h e (by simp)
      rw [separate, separate, if_neg (by omega), if_neg (by omega)]

theorem apart_arrange {n : Nat} {es : List Edit} (h : ∀ e ∈ es, Within 0 n e) :
    Apart 0 n (arrange es) := by
  refine apart_separate (by omega) fun e he => ?_
  exact (h e (List.mem_mergeSort.mp he)).2

theorem mem_of_mem_arrange {e : Edit} {es : List Edit} (h : e ∈ arrange es) : e ∈ es :=
  List.mem_mergeSort.mp ((separate_sublist 0 _).subset h)

theorem arrange_nil : arrange [] = [] := by rw [arrange, List.mergeSort_nil, separate]

/-- Edits that start before the end of the last one kept are dropped. -/
theorem separate_of_start_lt {lo : Int} {es : List Edit} (h : ∀ d ∈ es, d.start < lo) :
    separate lo es = [] := by
  induction es with
  | nil => rfl
  | cons d es ih =>
      rw [List.forall_mem_cons] at h
      rw [separate, if_pos h.1, ih h.2]

/-- Of edits that all start inside the first one only that one is carried out. -/
theorem arrange_cons_of_start_lt {d : Edit} {es : List Edit} (h0 : 0 ≤ d.start)
    (hle : ∀ e ∈ es, le d e = true) (hlt : ∀ e ∈ es, e.start < d.stop) :
    arrange (d :: es) = [d] := by
  -- the sort is stable: in front of `d` stand only edits that it is not below
  obtain ⟨front, rest, hsort, hrest, hfront⟩ := List.mergeSort_cons le_trans le_total d es
  have hmem : ∀ e ∈ front ++ rest, e ∈ es := by
    rw [← hrest]
    exact fun e he => List.mem_mergeSort.mp he
  cases front with
  | nil =>
      have hdrop : separate d.stop rest = [] :=
        separate_of_start_lt fun e he => hlt e (hmem e he)
      rw [arrange, hsort, List.nil_append, separate, if_neg (by omega), hdrop]
  | cons a front =>
      have := hfront a (by simp)
      rw [hle a (hmem a (by simp))] at this
      exact absurd this (by simp)

/-! ## Carrying out -/

/-- The text behind offset `off` after edits, with `rest` behind it before. -/
def carry (off : Nat) (rest : Text) : List Edit → Text
  | [] => rest
  | e :: es =>
    rest.take (e.start.toNat - off) ++ e.text
      ++ carry e.stop.toNat (rest.drop (e.stop.toNat - off)) es

theorem carry_keep {off : Nat} {k t : Text} {es : List Edit}
    (h : ∀ e ∈ es, ((off + k.length : Nat) : Int) ≤ e.start ∧ e.start ≤ e.stop) :
    carry off (k ++ t) es = k ++ carry (off + k.length) t es := by
  cases es with
  | nil => rfl
  | cons e es =>
      have he := h e (by simp)
      have hstart : e.start.toNat - off = k.length + (e.start.toNat - (off + k.length)) := by
        omega
      have hstop : e.stop.toNat - off = k.length + (e.stop.toNat - (off + k.length)) := by omega
      simp only [carry, hstart, hstop, List.take_length_add_append, List.drop_length_add_append,
        List.append_assoc]

theorem carry_replace {off : Nat} {v t x : Text} {q : Int} {es : List Edit} :
    carry off (v ++ t) (⟨off, (off + v.length : Nat), x, q⟩ :: es)
      = x ++ carry (off + v.length) t es := by
  have hstop : off + v.length - off = v.length := by omega
  simp only [carry, Int.toNat_natCast, hstop, Nat.sub_self, List.take_zero, List.drop_left,
    List.nil_append]

/-- One step along a text over a piece that stands in front of all edits. -/
theorem carry_piece {off n : Nat} {k t : Text} {es : List Edit}
    (h : ∀ d ∈ es, Within (off + k.length : Nat) n d) :
    carry off (k ++ t) (separate off es)
      = k ++ carry (off + k.length) t (separate (off + k.length : Nat) es) := by
  -- no edit starts before the end of the piece, so it makes no difference where dropping starts
  have hsep : separate off es = separate (off + k.length : Nat) es :=
    separate_congr fun d hd => ⟨by have := (h d hd).1; omega, (h d hd).1⟩
  rw [hsep]
  refine carry_keep fun d hd => ?_
  have := h d ((separate_sublist _ _).subset hd)
  exact ⟨this.1, this.2.1⟩

/-- One step along a text over a piece that the first edit replaces, if there is one. -/
theorem carry_step (off : Nat) {n : Nat} {v t x : Text} {q : Int} (es : List Edit) (c : Prop)
    [Decidable c]
    (h : ∀ d ∈ es, Within (off + v.length : Nat) n d) :
    carry off (v ++ t)
        (separate off ((if c then [⟨off, (off + v.length : Nat), x, q⟩] else []) ++ es))
      = (if c then x else v)
          ++ carry (off + v.length) t (separate (off + v.length : Nat) es) := by
  by_cases hc : c
  · rw [if_pos hc, if_pos hc, List.singleton_append, separate, if_neg (by dsimp only; omega),
      carry_replace]
  · rw [if_neg hc, if_neg hc, List.nil_append, carry_piece h]

theorem position_of_le {n : Nat} {i : Int} (h0 : 0 ≤ i) (h : i ≤ n) :
    Text.position n i = i.toNat := by
  rw [Text.position, if_neg (by omega)]
  omega

theorem splice_eq_carry {source : Text} {lo : Int} {es : List Edit} (h0 : 0 ≤ lo)
    (h : Apart lo source.length es) :
    splice source lo es = carry lo.toNat (source.drop lo.toNat) es := by
  induction es generalizing lo with
  | nil => rw [splice, carry, Text.sliceFrom, position_of_le h0 h]
  | cons e es ih =>
      have hstop : e.stop ≤ source.length := h.2.2.le
      have hord : lo ≤ e.start ∧ e.start ≤ e.stop := ⟨h.1, h.2.1⟩
      -- what is left behind the edit is counted from `lo` here and from zero in `splice`
      have hsplit : e.stop.toNat = lo.toNat + (e.stop.toNat - lo.toNat) := by omega
      rw [splice, carry, ih (by omega) h.2.2, Text.slice, position_of_le h0 (by omega),
        position_of_le (by omega) (by omega), List.drop_take, List.drop_drop, ← hsplit]

/-- The text after edits between its ends. -/
theorem apply_fst {source : Text} {es : List Edit}
    (h : ∀ e ∈ es, Within 0 source.length e) :
    (apply source es).1 = carry 0 source (arrange es) := by
  exact splice_eq_carry le_rfl (apart_arrange h)

/-! ## Lengths and offsets -/

/-- By how much edits lengthen the text together. -/
def gains : List Edit → Int
  | [] => 0
  | e :: es => e.gain + gains es

theorem length_carry {off : Nat} {rest : Text} {es : List Edit}
    (h : Apart off (off + rest.length : Nat) es) :
    ((carry off rest es).length : Int) = rest.length + gains es := by
  induction es generalizing off rest with
  | nil => simp [carry, gains]
  | cons e es ih =>
      have hstop := h.2.2.le
      have hord : (off : Int) ≤ e.start ∧ e.start ≤ e.stop := ⟨h.1, h.2.1⟩
      have hrest : (rest.drop (e.stop.toNat - off)).length
          = rest.length - (e.stop.toNat - off) := List.length_drop
      have htail : Apart e.stop.toNat
          (e.stop.toNat + (rest.drop (e.stop.toNat - off)).length : Nat) es := by
        have hlo : ((e.stop.toNat : Nat) : Int) = e.stop := by omega
        have hhi : e.stop.toNat + (rest.drop (e.stop.toNat - off)).length
            = off + rest.length := by omega
        rw [hlo, hhi]
        exact h.2.2
      have hcarry := ih htail
      simp only [carry, List.length_append, List.length_take, gains, gain] at *
      omega

/-- The text after edits between its ends is longer by what the edits carried out gain. -/
theorem length_apply {source : Text} {es : List Edit} (h : ∀ e ∈ es, Within 0 source.length e) :
    ((apply source es).1.length : Int) = source.length + gains (arrange es) := by
  rw [apply_fst h, length_carry]
  simpa using apart_arrange h

theorem mapFrom_of_stop_le {shift o : Int} {es : List Edit} (h : ∀ e ∈ es, e.stop ≤ o) :
    mapFrom shift o es = o + shift + gains es := by
  induction es generalizing shift with
  | nil => simp [mapFrom, gains]
  | cons e es ih =>
      rw [List.forall_mem_cons] at h
      rw [mapFrom, if_pos h.1, ih h.2]
      rw [gains]
      omega

/-- An offset behind all edits moves by what they gain. -/
theorem mapOffset_of_stop_le {o : Int} {es : List Edit} (h : ∀ e ∈ es, e.stop ≤ o) :
    mapOffset es o = o + gains es := by
  rw [mapOffset, mapFrom_of_stop_le h, Int.add_zero]

theorem le_mapFrom (shift : Int) {o : Int} {es : List Edit}
    (h : ∀ e ∈ es, o ≤ e.start ∧ e.start ≤ e.stop) : o + shift ≤ mapFrom shift o es := by
  induction es generalizing shift with
  | nil => exact le_rfl
  | cons e es ih =>
      rw [List.forall_mem_cons] at h
      rw [mapFrom]
      split
      · have hgain : 0 ≤ e.gain := by rw [gain]; omega
        have := ih (shift + e.gain) h.2
        omega
      · rw [if_neg (by omega)]

/-- An offset in front of all edits only moves behind what is inserted there. -/
theorem le_mapOffset {o : Int} {es : List Edit}
    (h : ∀ e ∈ es, o ≤ e.start ∧ e.start ≤ e.stop) : o ≤ mapOffset es o := by
  have := le_mapFrom 0 h
  rw [mapOffset]
  omega

/-- An offset in front of edits that replace something does not move. -/
theorem mapOffset_of_lt_stop {o : Int} {es : List Edit}
    (h : ∀ e ∈ es, o ≤ e.start ∧ o < e.stop) : mapOffset es o = o := by
  cases es with
  | nil => exact mapOffset_nil o
  | cons e es =>
      have he := h e (by simp)
      rw [mapOffset, mapFrom, if_neg (by omega), if_neg (by omega), Int.add_zero]

end CaplLayout.Edit
