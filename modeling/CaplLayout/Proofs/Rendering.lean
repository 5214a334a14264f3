import CaplLayout.Doc
import CaplLayout.Proofs.Lines
import CaplLayout.Proofs.Quoting

/-!
# What a rendered document tells

A rendered document can be read back, but for the levels of lines without content: two documents are
rendered alike exactly when they are alike line by line (`render_eq_iff`).

A line is written in one of four forms (`DocLine.Shown`), and each begins with a letter of its own:
`verbatim`, `hardline`, a quote or `indent`. So no content passes for another form. Behind the first
letter the level ends at the comma, which is no digit, and the content is read back from its quoted
form. No form has a line feed in it, so the lines of a document can be told apart.
-/

set_option autoImplicit false

namespace CaplLayout

open Text

/-! ## Levels as text -/

theorem not_mem_toDigits {c : Char} (hdigit : c.isDigit = false) (k : Nat) :
    c ∉ Nat.toDigits 10 k := by
  intro hk
  rw [Nat.isDigit_of_mem_toDigits (by decide) (by decide) hk] at hdigit
  cases hdigit

theorem toDigits_inj {j k : Nat} (h : Nat.toDigits 10 j = Nat.toDigits 10 k) : j = k := by
  have hread : ∀ n : Nat, Nat.ofDigitChars 10 (Nat.toDigits 10 n) 0 = n :=
    fun n => Nat.ofDigitChars_toDigits (by decide) (by decide)
  rw [← hread j, h, hread k]

/-- A number is written in digits, perhaps behind a minus sign. -/
theorem toList_toString (n : Int) :
    (toString n).toList
      = if 0 ≤ n then Nat.toDigits 10 n.toNat else '-' :: Nat.toDigits 10 (-n).toNat := by
  show n.repr.toList = _
  rw [Int.repr_eq_if]
  split
  · rw [Nat.repr_eq_ofList_toDigits, String.toList_ofList]
  · rw [String.toList_append, Nat.repr_eq_ofList_toDigits, String.toList_ofList]
    simp

theorem toString_inj {m n : Int} (h : (toString m).toList = (toString n).toList) : m = n := by
  have hminus : ∀ k : Nat, '-' ∉ Nat.toDigits 10 k := not_mem_toDigits (by decide)
  rw [toList_toString, toList_toString] at h
  by_cases hm : 0 ≤ m
  · by_cases hn : 0 ≤ n
    · rw [if_pos hm, if_pos hn] at h
      have := toDigits_inj h
      omega
    · rw [if_pos hm, if_neg hn] at h
      exact absurd (h ▸ List.mem_cons_self) (hminus m.toNat)
  · by_cases hn : 0 ≤ n
    · rw [if_neg hm, if_pos hn] at h
      exact absurd (h ▸ List.mem_cons_self) (hminus n.toNat)
    · rw [if_neg hm, if_neg hn] at h
      have := toDigits_inj (List.cons.inj h).2
      omega

theorem not_mem_toString {c : Char} (hdigit : c.isDigit = false) (hminus : c ≠ '-') (n : Int) :
    c ∉ (toString n).toList := by
  rw [toList_toString]
  split
  · exact not_mem_toDigits hdigit _
  · rw [List.mem_cons, not_or]
    exact ⟨hminus, not_mem_toDigits hdigit _⟩

/-! ## Lines -/

namespace DocLine

/-- Lines of documents of which a rendered document does not tell one from the other: they have the
same content, and the same level if they have content or one of them has no level. -/
def Alike (a b : DocLine) : Prop :=
  a.content = b.content
    ∧ (a.level = b.level ∨ a.content = [] ∧ a.level ≠ none ∧ b.level ≠ none)

/-- The forms in which a line is written. -/
inductive Shown : DocLine → Text → Prop
  | verbatim (s : Text) : Shown ⟨none, s⟩ ("verbatim(".toList ++ Quoted.encode s ++ [')'])
  | hardline (n : Int) : Shown ⟨some n, []⟩ "hardline".toList
  | flush {s : Text} : s ≠ [] → Shown ⟨some 0, s⟩ (Quoted.encode s)
  | indent {n : Int} {s : Text} : n ≠ 0 → s ≠ [] → Shown ⟨some n, s⟩
      ("indent(".toList ++ (toString n).toList ++ ", ".toList ++ Quoted.encode s ++ [')'])

theorem shown_renderLine (l : DocLine) : Shown l (Doc.renderLine l) := by
  obtain ⟨level, content⟩ := l
  unfold Doc.renderLine
  cases level with
  | none => exact .verbatim content
  | some n =>
      dsimp only
      split
      · next h =>
          subst h
          exact .hardline n
      · next h =>
          split
          · next hn =>
              subst hn
              exact .flush h
          · next hn => exact .indent hn h

variable {a b : DocLine} {x y : Text}

/-- **A written line tells the line**, but for the level of a line without content. -/
theorem Shown.alike (ha : Shown a x) (hb : Shown b y) (h : x = y) : a.Alike b := by
  -- lines of different forms begin with different letters
  cases ha with
  | verbatim s =>
      cases hb with
      | verbatim t =>
          have hquoted := List.append_cancel_left (List.append_cancel_right h)
          exact ⟨Quoted.encode_inj hquoted, .inl rfl⟩
      | hardline | flush | indent => cases (List.cons.inj h).1
  | hardline m =>
      cases hb with
      | hardline n => exact ⟨rfl, .inr ⟨rfl, nofun, nofun⟩⟩
      | verbatim | flush | indent => cases (List.cons.inj h).1
  | flush hs =>
      cases hb with
      | flush ht => exact ⟨Quoted.encode_inj h, .inl rfl⟩
      | verbatim | hardline | indent => cases (List.cons.inj h).1
  | @indent m s hm hs =>
      cases hb with
      | @indent n t hn ht =>
          have hcomma : ∀ k : Int, ',' ∉ (toString k).toList :=
            not_mem_toString (by decide) (by decide)
          have h := List.append_cancel_right h
          rw [List.append_assoc, List.append_assoc, List.append_assoc, List.append_assoc] at h
          obtain ⟨hlevel, hrest⟩ :=
            append_cons_inj (hcomma m) (hcomma n) (List.append_cancel_left h)
          have hquoted := (List.cons.inj hrest).2
          exact ⟨Quoted.encode_inj hquoted, .inl (congrArg some (toString_inj hlevel))⟩
      | verbatim | hardline | flush => cases (List.cons.inj h).1

theorem renderLine_eq_iff (a b : DocLine) : Doc.renderLine a = Doc.renderLine b ↔ a.Alike b := by
  constructor
  · exact (shown_renderLine a).alike (shown_renderLine b)
  · obtain ⟨level, content⟩ := a
    obtain ⟨level', content'⟩ := b
    rintro ⟨hcontent, hlevel | ⟨hnil, hlevel, hlevel'⟩⟩
    · cases hcontent
      cases hlevel
      rfl
    · -- lines without content that have a level
      cases hcontent
      cases hnil
      obtain ⟨m, rfl⟩ := Option.ne_none_iff_exists'.mp hlevel
      obtain ⟨n, rfl⟩ := Option.ne_none_iff_exists'.mp hlevel'
      rfl

theorem Shown.feed_not_mem (h : Shown a x) : '\n' ∉ x := by
  cases h with
  | verbatim s => simp [Quoted.feed_not_mem_encode]
  | hardline n => decide
  | flush hs => exact Quoted.feed_not_mem_encode _
  | @indent n s hn hs =>
      have hlevel : '\n' ∉ (toString n).toList := not_mem_toString (by decide) (by decide) n
      simp only [List.mem_append, not_or]
      exact ⟨⟨⟨⟨by decide, hlevel⟩, by decide⟩, Quoted.feed_not_mem_encode s⟩, by decide⟩

end DocLine

namespace Doc

/-! ## Documents -/

/-- A line of a rendered document, with the line feed behind it. -/
def entry (l : DocLine) : Text := ' ' :: ' ' :: renderLine l ++ [',', '\n']

theorem entry_append_inj {a b : DocLine} {s t : Text} (h : entry a ++ s = entry b ++ t) :
    a.Alike b ∧ s = t := by
  have hsplit : ∀ (l : DocLine) (u : Text),
      entry l ++ u = (' ' :: ' ' :: renderLine l ++ [',']) ++ '\n' :: u := by
    intro l u
    simp [entry]
  have hfeed : ∀ l : DocLine, '\n' ∉ (' ' :: ' ' :: renderLine l ++ [',']) := by
    intro l
    have hline := l.shown_renderLine.feed_not_mem
    simp [hline]
  rw [hsplit, hsplit] at h
  obtain ⟨hline, hrest⟩ := append_cons_inj (hfeed a) (hfeed b) h
  have hline := (List.cons.inj (List.cons.inj (List.append_cancel_right hline)).2).2
  exact ⟨(DocLine.renderLine_eq_iff a b).mp hline, hrest⟩

/-- The entries of a document end where the closing bracket stands. -/
theorem entries_inj {d e : Doc}
    (h : d.flatMap entry ++ "]\n".toList = e.flatMap entry ++ "]\n".toList) :
    List.Forall₂ DocLine.Alike d e := by
  induction d generalizing e with
  | nil =>
      cases e with
      | nil => exact .nil
      | cons b e => cases (List.cons.inj h).1
  | cons a d ih =>
      cases e with
      | nil => cases (List.cons.inj h).1
      | cons b e =>
          rw [List.flatMap_cons, List.flatMap_cons, List.append_assoc, List.append_assoc] at h
          obtain ⟨halike, hrest⟩ := entry_append_inj h
          exact .cons halike (ih hrest)

theorem entries_eq_of_alike {d e : Doc} (h : List.Forall₂ DocLine.Alike d e) :
    d.flatMap entry = e.flatMap entry := by
  induction h with
  | nil => rfl
  | @cons a b d e halike _ ih =>
      have hentry : entry a = entry b := by
        rw [entry, entry, (DocLine.renderLine_eq_iff a b).mpr halike]
      rw [List.flatMap_cons, List.flatMap_cons, hentry, ih]

/-- **A rendered document tells the document**, but for the levels of lines without content: two
documents are rendered alike exactly when they have as many lines and these are alike. -/
theorem render_eq_iff (d e : Doc) : d.render = e.render ↔ List.Forall₂ DocLine.Alike d e := by
  have hentries : ∀ d : Doc, d ≠ [] →
      d.render = "[\n".toList ++ (d.flatMap entry ++ "]\n".toList) := by
    intro d hd
    rw [render, if_neg hd, List.append_assoc]
    rfl
  constructor
  · intro h
    cases d with
    | nil =>
        cases e with
        | nil => exact .nil
        | cons b e =>
            -- behind the opening bracket stands the closing one, or a line feed
            rw [hentries (b :: e) (by simp)] at h
            cases (List.cons.inj (List.cons.inj h).2).1
    | cons a d =>
        rw [hentries (a :: d) (by simp)] at h
        cases e with
        | nil => cases (List.cons.inj (List.cons.inj h).2).1
        | cons b e =>
            rw [hentries (b :: e) (by simp)] at h
            exact entries_inj (List.append_cancel_left h)
  · intro h
    cases h with
    | nil => rfl
    | cons halike hrest =>
        rw [hentries _ (by simp), hentries _ (by simp), entries_eq_of_alike (.cons halike hrest)]

end Doc

end CaplLayout
