import CaplLayout.Proofs.Offsets
import CaplLayout.Proofs.Passes

/-!
# The cursor

A formatting call takes the cursor along with the text. The edits of the built-in rules put layout
in the place of layout (`respaced_edits`), so a cursor keeps the ink in front of it through each of
them (`follows_advance`). How the cursor moves does not depend on where it is or whether there is
one (`Follows`), and so neither does the formatted text (`formatWith_cursor`).
-/

set_option autoImplicit false

namespace CaplLayout.Whitespace

open Text Edit

/-! ## The edits of the rules -/

theorem respaced_trailingEdit {off : Nat} {l : Text} (t : Text) :
    ∀ d ∈ trailingEdit off l, Spans Respaced off (l ++ t) d := by
  intro d hd
  obtain ⟨v, hl, hv⟩ := trimEnd_append_exists isBlank l
  have hlen := congrArg List.length hl
  rw [List.length_append] at hlen
  unfold trailingEdit at hd
  dsimp only at hd
  split at hd
  · cases hd
  · rw [List.mem_singleton.mp hd]
    refine ⟨trimEnd isBlank l, v, t, ?_, ?_, ?_,
      respaced_of_blank t hv nofun⟩
    · rw [← List.append_assoc, ← hl]
    · rfl
    · dsimp only
      omega

/-- An edit of a whole run of line feeds. Where there is none, the edit puts one at the end of the
text only. -/
theorem respaced_run (off n : Nat) {x t : Text} {q : Int} (hx : marks x = [])
    (hend : '\n' ∈ x → n = 0 → t = []) :
    Spans Respaced off (List.replicate n '\n' ++ t) ⟨off, (off + n : Nat), x, q⟩ := by
  refine ⟨[], List.replicate n '\n', t, rfl, rfl, ?_, marks_replicate_feed n, hx, fun hfeed => ?_⟩
  · rw [List.length_replicate]
    rfl
  · exact ⟨fun c hc => List.eq_of_mem_replicate hc,
      fun hnil => hend hfeed (by simpa using hnil)⟩

theorem respaced_squeezeAt {off n : Nat} (t : Text) :
    ∀ d ∈ squeezeAt off n, Spans Respaced off (List.replicate n '\n' ++ t) d := by
  intro d hd
  obtain ⟨hn, rfl⟩ := mem_squeezeAt hd
  exact respaced_run off n rfl fun _ h0 => absurd h0 (by omega)

theorem respaced_ordered (pre e : Nat) (ls : List Text) :
    ∀ d ∈ ordered pre e ls, Spans Respaced pre (List.replicate e '\n' ++ following ls) d := by
  induction ls generalizing pre e with
  | nil =>
      intro d hd
      rw [ordered] at hd
      split at hd
      · next he =>
          subst he
          rw [List.mem_singleton.mp hd]
          exact respaced_run pre 0 rfl fun _ _ => rfl
      · rcases List.mem_append.mp hd with hd | hd
        · split at hd
          · rw [List.mem_singleton.mp hd]
            exact respaced_run pre e rfl fun _ h0 => absurd h0 (by omega)
          · cases hd
        · exact respaced_squeezeAt _ d hd
  | cons l r ih =>
      intro d hd
      have htext : List.replicate e '\n' ++ following (l :: r)
          = List.replicate (e + 1) '\n' ++ (l ++ following r) := by
        rw [following_cons, List.replicate_succ', List.append_assoc]
        rfl
      have hrun : pre + e + 1 = pre + (List.replicate (e + 1) '\n').length := by
        rw [List.length_replicate, Nat.add_assoc]
      rw [ordered] at hd
      rw [htext]
      split at hd
      · next hl =>
          rw [hl]
          exact ih pre (e + 1) d hd
      · rcases List.mem_append.mp hd with hd | hd
        · exact respaced_squeezeAt _ d hd
        · rw [hrun] at hd
          apply Spans.prepend
          rcases List.mem_append.mp hd with hd | hd
          · exact respaced_trailingEdit _ d hd
          · exact Spans.prepend (ih _ 0 d hd)

theorem respaced_fromStart (k : Nat) (l : Text) (r : List Text) :
    ∀ d ∈ fromStart k l r, Spans Respaced 0 (List.replicate k '\n' ++ (l ++ following r)) d := by
  intro d hd
  have hrun : k = 0 + (List.replicate k '\n').length := by rw [List.length_replicate, Nat.zero_add]
  rcases List.mem_append.mp hd with hd | hd
  · obtain ⟨-, rfl⟩ := mem_leadAt hd
    simpa using respaced_run 0 k (x := []) (t := l ++ following r) (q := 0) rfl nofun
  · rcases List.mem_append.mp hd with hd | hd
    · exact respaced_squeezeAt _ d hd
    · apply Spans.prepend
      rw [← hrun]
      rcases List.mem_append.mp hd with hd | hd
      · exact respaced_trailingEdit _ d hd
      · exact Spans.prepend (respaced_ordered _ 0 r d hd)

/-- **The cleanup puts layout in the place of layout.** -/
theorem respaced_edits (source : Text) : ∀ d ∈ edits source, Spans Respaced 0 source d := by
  intro d hd
  rcases edits_cases source with ⟨k, rfl, -⟩ | ⟨k, l, r, -, -, rfl, hperm⟩
  · rw [edits_replicate] at hd
    have hall : List.replicate k '\n' = List.replicate k '\n' ++ [] := (List.append_nil _).symm
    rw [hall]
    rcases List.mem_append.mp hd with hd | hd
    · obtain ⟨-, rfl⟩ := mem_leadAt hd
      simpa using respaced_run 0 k (x := []) (t := []) (q := 0) rfl nofun
    · rcases List.mem_append.mp hd with hd | hd
      · exact respaced_squeezeAt [] d hd
      · unfold onlyAt at hd
        split at hd
        · rw [List.mem_singleton.mp hd]
          simpa using respaced_run 0 k (x := ['\n']) (t := []) (q := 0) rfl fun _ _ => rfl
        · cases hd
  · exact respaced_fromStart k l r d (hperm.mem_iff.mpr hd)

end CaplLayout.Whitespace

namespace CaplLayout.Indentation

open Text Edit

variable {settings : Settings}

theorem respaced_editAt {s : Scan} {pre : Nat} {l : Text} (t : Text) :
    ∀ d ∈ editAt settings s pre l, Spans Respaced pre (l ++ t) d := by
  intro d hd
  obtain ⟨-, n, -, -, rfl⟩ := mem_editAt hd
  have hmargin : ∀ c ∈ margin l, isBlank c = true := fun c hc => List.mem_takeWhile_imp hc
  refine ⟨[], margin l, body l ++ t, ?_, rfl, rfl,
    respaced_of_blank _ hmargin (isBlank_indentOf settings n)⟩
  rw [List.nil_append, ← List.append_assoc, margin_append_body]

theorem respaced_lineEdits (s : Scan) (pre : Nat) (l : Text) (r : List Text) :
    ∀ d ∈ lineEdits settings s pre (l :: r), Spans Respaced pre (l ++ following r) d := by
  induction r generalizing s pre l with
  | nil =>
      intro d hd
      rw [lineEdits_cons] at hd
      rcases List.mem_append.mp hd with hd | hd
      · exact respaced_editAt _ d hd
      · cases hd
  | cons l' r ih =>
      intro d hd
      rw [lineEdits_cons] at hd
      rcases List.mem_append.mp hd with hd | hd
      · exact respaced_editAt _ d hd
      · -- in front of the next line stand this one and a line feed
        have hnext := ih _ _ l' d hd
        have htext : l ++ following (l' :: r) = (l ++ ['\n']) ++ (l' ++ following r) := by
          rw [following_cons, List.append_assoc]
          rfl
        rw [htext]
        apply Spans.prepend
        rwa [List.length_append, List.length_singleton, ← Nat.add_assoc]

/-- **Indenting puts layout in the place of layout.** -/
theorem respaced_edits (settings : Settings) (source : Text) :
    ∀ d ∈ edits settings source, Spans Respaced 0 source d := by
  intro d hd
  have hsource := unlines_lines source
  change d ∈ lineEdits settings .initial 0 source.lines at hd
  cases hlines : source.lines with
  | nil => exact absurd hlines (lines_ne_nil source)
  | cons l r =>
      rw [hlines] at hd hsource
      rw [unlines_cons] at hsource
      rw [← hsource]
      exact respaced_lineEdits _ _ l r d hd

end CaplLayout.Indentation

namespace CaplLayout.Progress

open Text

variable {settings : Settings}

/-! ## Following an offset -/

/-- `f` takes the offsets of the text `s` to offsets of the text `t`, in order and with the same
ink in front of them. -/
structure Tracks (s t : Text) (f : Int → Int) : Prop where
  mono : ∀ o o' : Int, o ≤ o' → f o ≤ f o'
  bounds : ∀ o : Int, 0 ≤ o → o ≤ s.length → 0 ≤ f o ∧ f o ≤ t.length
  ink_take : ∀ o : Int, 0 ≤ o → o ≤ s.length → ink (t.take (f o).toNat) = ink (s.take o.toNat)

theorem Tracks.trans {s t u : Text} {f g : Int → Int} (hf : Tracks s t f) (hg : Tracks t u g) :
    Tracks s u (g ∘ f) where
  mono o o' ho := hg.mono (f o) (f o') (hf.mono o o' ho)
  bounds o h0 hn := hg.bounds (f o) (hf.bounds o h0 hn).1 (hf.bounds o h0 hn).2
  ink_take o h0 hn :=
    (hg.ink_take (f o) (hf.bounds o h0 hn).1 (hf.bounds o h0 hn).2).trans (hf.ink_take o h0 hn)

/-- The same call with another cursor. -/
def withCursor (p : Progress) (c : Option Int) : Progress := { p with cursor := c }

/-- From `p` to `q` the cursor moves faithfully: `step` ends at `q` whatever the cursor is, and
the cursor tracks the text. -/
def Follows (step : Progress → Progress) (p : Progress) : Prop :=
  ∃ f, Tracks p.text (step p).text f
    ∧ ∀ c, step (p.withCursor c) = (step p).withCursor (c.map f)

theorem Follows.comp {step next : Progress → Progress} {p : Progress} (h : Follows step p)
    (h' : Follows next (step p)) : Follows (next ∘ step) p := by
  obtain ⟨f, htrack, hstep⟩ := h
  obtain ⟨g, htrack', hnext⟩ := h'
  refine ⟨g ∘ f, htrack.trans htrack', fun c => ?_⟩
  show next (step (p.withCursor c)) = _
  rw [hstep, hnext, Option.map_map]
  rfl

/-- From the text `s` to the text `t` one gets piece by piece, each of which has the property `Q`,
and `f` moves the offsets along. -/
structure Along (Q : (old behind new : Text) → Prop) (s t : Text) (f : Int → Int) : Prop where
  mono : ∀ o o' : Int, o ≤ o' → f o ≤ f o'
  pieces : ∃ ps rest, Patch.All Q rest ps ∧ s = Patch.before rest ps ∧ t = Patch.after rest ps
    ∧ ∀ n : Nat, f n = Patch.move ps n

/-- A text that stays as it is is one piece that is kept. -/
theorem Along.refl (Q : (old behind new : Text) → Prop) (s : Text) : Along Q s s id :=
  ⟨fun _ _ ho => ho, [], s, trivial, rfl, rfl, fun _ => rfl⟩

/-- Pieces that are replaced layout for layout keep the ink in front of an offset. -/
theorem Along.tracks {s t : Text} {f : Int → Int}
    (h : Along (fun old _ new => ink old = [] ∧ ink new = []) s t f) : Tracks s t f := by
  obtain ⟨hmono, ps, rest, hall, rfl, rfl, hmove⟩ := h
  refine ⟨hmono, fun o h0 hn => ?_, fun o h0 hn => ?_⟩
  · obtain ⟨n, rfl⟩ := Int.eq_ofNat_of_zero_le h0
    have hle := Patch.move_le (Int.ofNat_le.mp hn)
    rw [hmove]
    omega
  · obtain ⟨n, rfl⟩ := Int.eq_ofNat_of_zero_le h0
    rw [hmove, Int.toNat_natCast, Int.toNat_natCast]
    exact Patch.filter_take_after hall

/-- **One rule** changes the text piece by piece, and the cursor moves along. -/
theorem exists_along_advance {Q : (old behind new : Text) → Prop} {edits : Text → List Edit}
    {p : Progress} (h : ∀ e ∈ edits p.text, Edit.Spans Q 0 p.text e) :
    ∃ f, Along Q p.text (p.advance (edits p.text)).text f
      ∧ ∀ c, (p.withCursor c).advance (edits (p.withCursor c).text)
        = (p.advance (edits p.text)).withCursor (c.map f) := by
  have hin : ∀ e ∈ (edits p.text).filter p.admits, Edit.Spans Q 0 p.text e :=
    fun e he => h e (List.mem_filter.mp he).1
  have hwithin : ∀ e ∈ (edits p.text).filter p.admits, Edit.Within 0 p.text.length e :=
    fun e he => by simpa using (hin e he).within
  -- whether the text changes does not depend on the cursor
  have hcursor : ∀ c, ((p.withCursor c).advance (edits p.text)).text
      = (p.advance (edits p.text)).text := by
    intro c
    rw [text_advance, text_advance]
    rfl
  by_cases htext : (p.advance (edits p.text)).text = p.text
  · refine ⟨id, ?_, fun c => ?_⟩
    · rw [htext]
      exact Along.refl Q p.text
    · show (p.withCursor c).advance (edits p.text) = (p.advance (edits p.text)).withCursor _
      rw [advance_of_text_eq htext, advance_of_text_eq ((hcursor c).trans htext), Option.map_id]
      rfl
  · refine ⟨Edit.mapOffset (Edit.arrange ((edits p.text).filter p.admits)), ⟨?_, ?_⟩,
      fun c => ?_⟩
    · exact fun o o' ho => Edit.mapOffset_mono (Edit.apart_arrange hwithin) ho
    · rw [text_advance]
      exact Edit.exists_pieces_apply hin
    · show (p.withCursor c).advance (edits p.text) = (p.advance (edits p.text)).withCursor _
      rw [advance_of_text_ne htext, advance_of_text_ne ((hcursor c).trans_ne htext), hcursor]
      rfl

/-- The cursor follows edits that put layout in the place of layout. -/
theorem follows_advance {edits : Text → List Edit} {p : Progress}
    (h : ∀ e ∈ edits p.text, Edit.Spacing 0 p.text e) :
    Follows (fun q => q.advance (edits q.text)) p := by
  obtain ⟨f, halong, hcursor⟩ :=
    exists_along_advance (Q := fun old _ new => ink old = [] ∧ ink new = []) h
  exact ⟨f, halong.tracks, hcursor⟩

/-- **A run of the built-in rules**: the cursor follows each of its three changes. -/
theorem follows_final (settings : Settings) (p : Progress) : Follows (final settings) p := by
  have hclean : ∀ q : Progress, Follows cleaned q := fun q =>
    follows_advance fun e he => (Whitespace.respaced_edits q.text e he).spacing
  have hindent : Follows (fun q => q.advance (Indentation.edits settings q.text)) p.cleaned :=
    follows_advance fun e he => (Indentation.respaced_edits settings p.cleaned.text e he).spacing
  have hround : Follows (round settings) p := (hclean p).comp hindent
  exact hround.comp (hclean (p.round settings))

end CaplLayout.Progress

namespace CaplLayout.Engine

open Text Progress

/-- **The cursor of a call is faithful.** There is one formatted text, whether a cursor is
followed or not, and offsets go to offsets of it, in order, with the same ink in front of them. -/
theorem formatWith_cursor {g : Grammar} {settings : Settings} {source : Text} {tree : Tree}
    (hparse : (standard g).parse settings source = .ok tree) :
    ∃ (text : Text) (place : Nat → Int),
      (standard g).formatWith { settings with cursorOffset := none } source = .ok ⟨text, none⟩
      ∧ (∀ c d : Nat, c ≤ d → place c ≤ place d)
      ∧ ∀ c : Nat,
        (standard g).formatWith { settings with cursorOffset := some c } source
            = .ok ⟨text, some (place c)⟩
          ∧ 0 ≤ place c ∧ place c ≤ text.length
          ∧ ink (text.slice 0 (place c)) = ink (source.slice 0 c) := by
  obtain ⟨f, htrack, hfinal⟩ := follows_final settings (start settings source)
  have hresult : ∀ c : Option Nat,
      (standard g).formatWith { settings with cursorOffset := c } source
        = .ok ⟨((start settings source).final settings).text,
            (c.map fun n => unifiedOffset source (min n source.length : Nat)).map f⟩ := by
    intro c
    have hparse' : (standard g).parse { settings with cursorOffset := c } source = .ok tree :=
      hparse
    have hcall := formatWith_eq hparse'
    -- the settings enter the start of a call, where they set the cursor, and the indentation
    have hstep := hfinal (c.map fun n => unifiedOffset source (min n source.length : Nat))
    rw [hcall]
    show Except.ok (Formatted.mk
      (final settings ((start settings source).withCursor _)).text
      (final settings ((start settings source).withCursor _)).cursor) = _
    rw [hstep]
    rfl
  refine ⟨_, fun c => f (unifiedOffset source (min c source.length : Nat)), hresult none, ?_,
    fun c => ⟨hresult (some c), ?_⟩⟩
  · intro c d hcd
    exact htrack.mono _ _ (unifiedOffset_mono source (by omega))
  · have hle : min c source.length ≤ source.length := Nat.min_le_right _ _
    have hnonneg := unifiedOffset_nonneg source hle
    have hlength := unifiedOffset_le source hle
    obtain ⟨h0, hn⟩ := htrack.bounds _ hnonneg hlength
    refine ⟨h0, hn, ?_⟩
    calc ink (((start settings source).final settings).text.slice 0
          (f (unifiedOffset source (min c source.length : Nat))))
        = ink (((start settings source).final settings).text.take
            (f (unifiedOffset source (min c source.length : Nat))).toNat) := by
          rw [← slice_zero, Int.toNat_of_nonneg h0]
      _ = ink (source.unifyPairs.take
            (unifiedOffset source (min c source.length : Nat)).toNat) :=
          htrack.ink_take _ hnonneg hlength
      _ = ink (source.take (min c source.length)) := ink_take_unifiedOffset source hle
      _ = ink (source.slice 0 c) := by rw [slice_zero, ← List.take_take, List.take_length]

/-- A cursor inside a pair, in a range, and one far behind the end. -/
theorem formatWith_cursor_pair :
    ∃ (text : Text) (place : Nat → Int),
      (standard fun _ => default).formatWith { rangeStart := 2 } "a \r\n\r\n\r\n\r\n b".toList
          = .ok ⟨text, none⟩
      ∧ (∀ c d : Nat, c ≤ d → place c ≤ place d)
      ∧ ∀ c : Nat,
        (standard fun _ => default).formatWith { rangeStart := 2, cursorOffset := some c }
            "a \r\n\r\n\r\n\r\n b".toList = .ok ⟨text, some (place c)⟩
          ∧ 0 ≤ place c ∧ place c ≤ text.length
          ∧ ink (text.slice 0 (place c)) = ink (slice "a \r\n\r\n\r\n\r\n b".toList 0 c) :=
  formatWith_cursor (parse_default { rangeStart := 2 } _)

end CaplLayout.Engine
