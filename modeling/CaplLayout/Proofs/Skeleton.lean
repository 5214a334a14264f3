import CaplLayout.Proofs.Lines
import CaplLayout.Proofs.Quoting
import CaplLayout.Syntax.Tree

/-!
# What a dump tells of a tree

The skeleton of a tree is what is left of it without comments and places. The dump of a tree shows
its skeleton and nothing else (`dumpLines_eq`), and as long as the types of the nodes are names, two
trees have the same dump exactly when they have the same skeleton (`dump_eq_iff`).

Trees in a row are read back from the front. The first line tells the root of the first tree; the
lines of what is below it are those that follow with a deeper indentation. So the lines of trees at
a depth can be cancelled in front of any lines that begin higher up (`lines_append_inj`).
-/

set_option autoImplicit false

namespace CaplLayout

/-! ## Skeletons -/

/-- What is left of a tree without comments and places. A leaf has its text, and its type as well if
it is named; any other node has its type and what is left of its children. -/
inductive Skeleton
  | token (text : Text)
  | leaf (type : String) (text : Text)
  | inner (type : String) (children : List Skeleton)
deriving Repr

namespace Tree

mutual

/-- What is left of a tree, nothing of a comment. -/
def skeleton : Tree → Option Skeleton
  | .node i cs =>
    if isComment i then none
    else
      match cs with
      | [] =>
        let text := Utf8.decodeLenient i.bytes
        some (if i.named then .leaf i.type text else .token text)
      | c :: r => some (.inner i.type ((skeleton c).toList ++ skeletons r))

/-- What is left of several trees. -/
def skeletons : List Tree → List Skeleton
  | [] => []
  | t :: r => (skeleton t).toList ++ skeletons r

end

mutual

/-- The nodes of a tree, each in front of those below it. -/
def nodes : Tree → List NodeInfo
  | .node i cs => i :: nodesAmong cs

/-- The nodes of several trees. -/
def nodesAmong : List Tree → List NodeInfo
  | [] => []
  | t :: r => nodes t ++ nodesAmong r

end

/-- A word that can stand for a type: it is not empty and has no space, no double quote and no line
feed. -/
def IsName (type : String) : Prop :=
  type.toList ≠ [] ∧ ' ' ∉ type.toList ∧ '"' ∉ type.toList ∧ '\n' ∉ type.toList

instance (type : String) : Decidable (IsName type) :=
  inferInstanceAs (Decidable (_ ∧ _ ∧ _ ∧ _))

/-- The types of all nodes are names. -/
def Named (t : Tree) : Prop := ∀ i ∈ t.nodes, IsName i.type

instance (t : Tree) : Decidable t.Named :=
  inferInstanceAs (Decidable (∀ i ∈ t.nodes, IsName i.type))

end Tree

namespace Skeleton

open CaplLayout.Tree

/-! ## The lines of skeletons -/

/-- The line of a skeleton's root behind the indentation. -/
def label : Skeleton → Text
  | .token text => Quoted.encode text
  | .leaf type text => type.toList ++ ' ' :: Quoted.encode text
  | .inner type _ => type.toList

mutual

/-- The lines of a tree at a depth of which a skeleton is left. -/
def lines (depth : Nat) : Skeleton → List Text
  | .token text => [margin depth ++ label (.token text)]
  | .leaf type text => [margin depth ++ label (.leaf type text)]
  | .inner type cs => (margin depth ++ label (.inner type cs)) :: linesAmong (depth + 1) cs

/-- The lines of several trees. -/
def linesAmong (depth : Nat) : List Skeleton → List Text
  | [] => []
  | s :: r => lines depth s ++ linesAmong depth r

end

mutual

/-- The types that a skeleton shows. -/
def types : Skeleton → List String
  | .token _ => []
  | .leaf type _ => [type]
  | .inner type cs => type :: typesAmong cs

/-- The types that several skeletons show. -/
def typesAmong : List Skeleton → List String
  | [] => []
  | s :: r => types s ++ typesAmong r

end

theorem linesAmong_append (depth : Nat) (ss ts : List Skeleton) :
    linesAmong depth (ss ++ ts) = linesAmong depth ss ++ linesAmong depth ts := by
  induction ss with
  | nil => rfl
  | cons s ss ih => simp [linesAmong, ih]

theorem typesAmong_append (ss ts : List Skeleton) :
    typesAmong (ss ++ ts) = typesAmong ss ++ typesAmong ts := by
  induction ss with
  | nil => rfl
  | cons s ss ih => simp [typesAmong, ih]

theorem forall_mem_types_inner {type : String} {cs : List Skeleton} :
    (∀ ty ∈ types (.inner type cs), IsName ty)
      ↔ IsName type ∧ ∀ ty ∈ typesAmong cs, IsName ty := by
  rw [types, List.forall_mem_cons]

theorem forall_mem_typesAmong_cons {s : Skeleton} {r : List Skeleton} :
    (∀ ty ∈ typesAmong (s :: r), IsName ty)
      ↔ (∀ ty ∈ types s, IsName ty) ∧ ∀ ty ∈ typesAmong r, IsName ty := by
  rw [typesAmong, List.forall_mem_append]

/-! ## Labels -/

/-- A quoted text does not begin with a name. -/
theorem encode_ne_name_append {type : String} (h : IsName type) (text rest : Text) :
    Quoted.encode text ≠ type.toList ++ rest := by
  obtain ⟨hne, -, hquote, -⟩ := h
  cases htype : type.toList with
  | nil => exact absurd htype hne
  | cons c t =>
      intro heq
      have hc : '"' = c := (List.cons.inj heq).1
      rw [htype, hc] at hquote
      exact hquote List.mem_cons_self

/-- A name ends where the first space stands. -/
theorem name_append_inj {type type' : String} (h : IsName type) (h' : IsName type') {s t : Text}
    (heq : type.toList ++ ' ' :: s = type'.toList ++ ' ' :: t) : type = type' ∧ s = t := by
  obtain ⟨hname, hrest⟩ := Text.append_cons_inj h.2.1 h'.2.1 heq
  exact ⟨String.toList_inj.mp hname, hrest⟩

/-- Skeletons whose roots show the same: they are equal, or inner nodes of one type. -/
def SameRoot : Skeleton → Skeleton → Prop
  | .inner type _, .inner type' _ => type = type'
  | s, s' => s = s'

/-- **A label tells the root.** -/
theorem sameRoot_of_label {s s' : Skeleton} (h : ∀ ty ∈ types s, IsName ty)
    (h' : ∀ ty ∈ types s', IsName ty) (heq : label s = label s') : SameRoot s s' := by
  cases s with
  | token text =>
      cases s' with
      | token text' => exact congrArg token (Quoted.encode_inj heq)
      | leaf type' text' =>
          exact absurd heq (encode_ne_name_append (h' type' (by simp [types])) _ _)
      | inner type' cs' =>
          rw [label, label, ← List.append_nil type'.toList] at heq
          exact absurd heq (encode_ne_name_append (h' type' (by simp [types])) _ _)
  | leaf type text =>
      have hname := h type (by simp [types])
      cases s' with
      | token text' => exact absurd heq.symm (encode_ne_name_append hname _ _)
      | leaf type' text' =>
          obtain ⟨htype, htext⟩ := name_append_inj hname (h' type' (by simp [types])) heq
          rw [htype, Quoted.encode_inj htext]
          rfl
      | inner type' cs' =>
          -- there is a space in the label of a leaf and none in the label of an inner node
          have hspace := (h' type' (by simp [types])).2.1
          rw [label, label] at heq
          rw [← heq] at hspace
          exact absurd (by simp) hspace
  | inner type cs =>
      have hname := h type (by simp [types])
      cases s' with
      | token text' =>
          rw [label, label, ← List.append_nil type.toList] at heq
          exact absurd heq.symm (encode_ne_name_append hname _ _)
      | leaf type' text' =>
          have hspace := hname.2.1
          rw [label, label] at heq
          rw [heq] at hspace
          exact absurd (by simp) hspace
      | inner type' cs' => exact String.toList_inj.mp heq

/-! ## Reading back -/

/-- The number of spaces in front of a line. -/
def indentation (l : Text) : Nat := (l.takeWhile (· == ' ')).length

/-- A label begins with a character that is no space. -/
theorem indentation_label (depth : Nat) {s : Skeleton} (h : ∀ ty ∈ types s, IsName ty) :
    indentation (margin depth ++ label s) = 2 * depth := by
  have hname : ∀ {ty : String}, IsName ty → ∀ u : Text,
      ∃ c t, ty.toList ++ u = c :: t ∧ c ≠ ' ' := by
    rintro ty ⟨hne, hspace, -, -⟩ u
    cases hty : ty.toList with
    | nil => exact absurd hty hne
    | cons c t =>
        rw [hty, List.mem_cons, not_or] at hspace
        exact ⟨c, t ++ u, rfl, Ne.symm hspace.1⟩
  have hlabel : ∃ c t, label s = c :: t ∧ c ≠ ' ' := by
    cases s with
    | token text => exact ⟨'"', _, rfl, by decide⟩
    | leaf type text => exact hname (h type (by simp [types])) _
    | inner type cs => simpa [label] using hname (h type (by simp [types])) []
  obtain ⟨c, t, hlabel, hc⟩ := hlabel
  have hmargin : ∀ d ∈ margin depth, (d == ' ') = true := by
    intro d hd
    rw [List.eq_of_mem_replicate hd]
    rfl
  rw [indentation, hlabel, List.takeWhile_append_of_pos hmargin,
    List.takeWhile_cons_of_neg (by simpa using hc), List.append_nil, margin,
    List.length_replicate]

theorem head?_lines_append (depth : Nat) (s : Skeleton) (rest : List Text) :
    (lines depth s ++ rest).head? = some (margin depth ++ label s) := by
  cases s <;> rfl

/-- Lines of which the first has less indentation than lines at a depth. -/
def Above (depth : Nat) (rest : List Text) : Prop :=
  ∀ l, rest.head? = some l → indentation l < 2 * depth

/-- The lines of a tree begin at its depth. -/
theorem above_lines_append {depth k : Nat} {s : Skeleton} (h : ∀ ty ∈ types s, IsName ty)
    (rest : List Text) : Above k (lines depth s ++ rest) ↔ depth < k := by
  have hline := indentation_label depth h
  unfold Above
  rw [head?_lines_append]
  constructor
  · intro habove
    have := habove _ rfl
    omega
  · intro hlt l hl
    cases hl
    omega

theorem above_linesAmong_append {depth : Nat} {ss : List Skeleton}
    (h : ∀ ty ∈ typesAmong ss, IsName ty) {rest : List Text} (hrest : Above depth rest) :
    Above (depth + 1) (linesAmong depth ss ++ rest) := by
  cases ss with
  | nil =>
      intro l hl
      have := hrest l hl
      omega
  | cons s r =>
      rw [linesAmong, List.append_assoc, above_lines_append]
      · exact depth.lt_succ_self
      · exact (forall_mem_typesAmong_cons.mp h).1

mutual

/-- **The lines of a tree can be cancelled** in front of lines that begin no deeper. -/
theorem lines_append_inj (depth : Nat) : ∀ (s s' : Skeleton) (rest rest' : List Text),
    (∀ ty ∈ types s, IsName ty) → (∀ ty ∈ types s', IsName ty) →
    Above (depth + 1) rest → Above (depth + 1) rest' →
    lines depth s ++ rest = lines depth s' ++ rest' → s = s' ∧ rest = rest'
  | s, s', rest, rest', h, h', hrest, hrest', heq => by
    have hline := congrArg List.head? heq
    rw [head?_lines_append, head?_lines_append, Option.some.injEq] at hline
    have hroot := sameRoot_of_label h h' (List.append_cancel_left hline)
    match s, s' with
    | .inner type cs, .inner type' cs' =>
        have hroot : type = type' := hroot
        obtain ⟨hcs, htail⟩ := linesAmong_append_inj (depth + 1) cs cs' rest rest'
          (forall_mem_types_inner.mp h).2 (forall_mem_types_inner.mp h').2 hrest hrest'
          (List.cons.inj heq).2
        rw [hroot, hcs]
        exact ⟨rfl, htail⟩
    | .token text, s' =>
        have hroot : token text = s' := by cases s' <;> exact hroot
        subst hroot
        exact ⟨rfl, List.append_cancel_left heq⟩
    | .leaf type text, s' =>
        have hroot : leaf type text = s' := by cases s' <;> exact hroot
        subst hroot
        exact ⟨rfl, List.append_cancel_left heq⟩
    | .inner type cs, .token text' => cases hroot
    | .inner type cs, .leaf type' text' => cases hroot

/-- The lines of several trees can be cancelled in front of lines that begin higher up. -/
theorem linesAmong_append_inj (depth : Nat) : ∀ (ss ss' : List Skeleton) (rest rest' : List Text),
    (∀ ty ∈ typesAmong ss, IsName ty) → (∀ ty ∈ typesAmong ss', IsName ty) →
    Above depth rest → Above depth rest' →
    linesAmong depth ss ++ rest = linesAmong depth ss' ++ rest' → ss = ss' ∧ rest = rest'
  | [], [], _, _, _, _, _, _, heq => ⟨rfl, heq⟩
  | [], s' :: r', rest, rest', _, h', hrest, _, heq => by
    have heq : rest = linesAmong depth (s' :: r') ++ rest' := heq
    rw [heq, linesAmong, List.append_assoc,
      above_lines_append (forall_mem_typesAmong_cons.mp h').1] at hrest
    exact absurd hrest (Nat.lt_irrefl depth)
  | s :: r, [], rest, rest', h, _, _, hrest', heq => by
    have heq : linesAmong depth (s :: r) ++ rest = rest' := heq
    rw [← heq, linesAmong, List.append_assoc,
      above_lines_append (forall_mem_typesAmong_cons.mp h).1] at hrest'
    exact absurd hrest' (Nat.lt_irrefl depth)
  | s :: r, s' :: r', rest, rest', h, h', hrest, hrest', heq => by
    rw [linesAmong, linesAmong, List.append_assoc, List.append_assoc] at heq
    obtain ⟨hs, hr⟩ := forall_mem_typesAmong_cons.mp h
    obtain ⟨hs', hr'⟩ := forall_mem_typesAmong_cons.mp h'
    -- what follows the first tree begins at its depth or higher up
    obtain ⟨htree, htail⟩ := lines_append_inj depth s s' _ _ hs hs'
      (above_linesAmong_append hr hrest) (above_linesAmong_append hr' hrest') heq
    obtain ⟨htrees, hlast⟩ := linesAmong_append_inj depth r r' rest rest' hr hr' hrest hrest' htail
    rw [htree, htrees]
    exact ⟨rfl, hlast⟩

end

/-! ## As a text -/

theorem feed_not_mem_line (depth : Nat) {s : Skeleton} (h : ∀ ty ∈ types s, IsName ty) :
    '\n' ∉ margin depth ++ label s := by
  have hmargin : '\n' ∉ margin depth := fun hc => by cases List.eq_of_mem_replicate hc
  have hlabel : '\n' ∉ label s := by
    cases s with
    | token text => exact Quoted.feed_not_mem_encode text
    | leaf type text =>
        have htype := (h type (by simp [types])).2.2.2
        simp [label, htype, Quoted.feed_not_mem_encode]
    | inner type cs => exact (forall_mem_types_inner.mp h).1.2.2.2
  rw [List.mem_append, not_or]
  exact ⟨hmargin, hlabel⟩

mutual

theorem areLines_lines (depth : Nat) :
    ∀ s : Skeleton, (∀ ty ∈ types s, IsName ty) → Text.AreLines (lines depth s)
  | .token text, h => Text.areLines_cons.mpr ⟨feed_not_mem_line depth h, by simp [Text.AreLines]⟩
  | .leaf type text, h =>
    Text.areLines_cons.mpr ⟨feed_not_mem_line depth h, by simp [Text.AreLines]⟩
  | .inner type cs, h =>
    Text.areLines_cons.mpr ⟨feed_not_mem_line depth h,
      areLines_linesAmong (depth + 1) cs (forall_mem_types_inner.mp h).2⟩

theorem areLines_linesAmong (depth : Nat) :
    ∀ ss : List Skeleton, (∀ ty ∈ typesAmong ss, IsName ty) →
      Text.AreLines (linesAmong depth ss)
  | [], _ => by simp [linesAmong, Text.AreLines]
  | s :: r, h =>
    Text.areLines_append.mpr
      ⟨areLines_lines depth s (forall_mem_typesAmong_cons.mp h).1,
        areLines_linesAmong depth r (forall_mem_typesAmong_cons.mp h).2⟩

end

/-- The text of skeletons is empty only if there are none: each of them has a line that is not
empty. -/
theorem unlines_linesAmong_eq_nil (depth : Nat) {ss : List Skeleton}
    (h : ∀ ty ∈ typesAmong ss, IsName ty) :
    Text.unlines (linesAmong depth ss) = [] ↔ ss = [] := by
  cases ss with
  | nil => simp [linesAmong, Text.unlines]
  | cons s r =>
      have hlabel : label s ≠ [] := by
        cases s with
        | token text => simp [label, Quoted.encode]
        | leaf type text => simp [label]
        | inner type cs =>
            exact (forall_mem_types_inner.mp (forall_mem_typesAmong_cons.mp h).1).1.1
      obtain ⟨tail, htail⟩ := List.head?_eq_some_iff.mp
        (head?_lines_append depth s (linesAmong depth r))
      rw [linesAmong, htail, Text.unlines_cons]
      simp [hlabel]

/-- **Skeletons are read back from their text.** -/
theorem unlines_linesAmong_inj {ss ss' : List Skeleton} (h : ∀ ty ∈ typesAmong ss, IsName ty)
    (h' : ∀ ty ∈ typesAmong ss', IsName ty)
    (heq : Text.unlines (linesAmong 0 ss) = Text.unlines (linesAmong 0 ss')) : ss = ss' := by
  have hnil : ∀ {ts : List Skeleton}, (∀ ty ∈ typesAmong ts, IsName ty) →
      (linesAmong 0 ts = [] ↔ ts = []) := by
    intro ts hts
    constructor
    · intro hlines
      rw [← unlines_linesAmong_eq_nil 0 hts, hlines, Text.unlines]
    · rintro rfl
      rfl
  have hboth : linesAmong 0 ss = [] ↔ linesAmong 0 ss' = [] := by
    rw [hnil h, hnil h', ← unlines_linesAmong_eq_nil 0 h, heq, unlines_linesAmong_eq_nil 0 h']
  have hlines := Text.unlines_inj (areLines_linesAmong 0 ss h) (areLines_linesAmong 0 ss' h') hboth
    heq
  rw [← List.append_nil (linesAmong 0 ss), ← List.append_nil (linesAmong 0 ss')] at hlines
  exact (linesAmong_append_inj 0 ss ss' [] [] h h' (by simp [Above]) (by simp [Above]) hlines).1

end Skeleton

namespace Tree

open Skeleton

/-! ## Dumps -/

mutual

/-- **A dump shows the skeleton of its tree** and nothing else. -/
theorem dumpLines_eq (depth : Nat) :
    ∀ t : Tree, dumpLines depth t = linesAmong depth t.skeleton.toList
  | .node i [] => by
    rw [dumpLines, skeleton]
    split
    · rfl
    · rw [leafLine]
      cases i.named <;> simp [linesAmong, Skeleton.lines, label]
  | .node i (c :: r) => by
    rw [dumpLines, skeleton]
    split
    · rfl
    · rw [dumpLines_eq (depth + 1) c, dumpAll_eq (depth + 1) r, ← linesAmong_append]
      simp [linesAmong, Skeleton.lines, label]

theorem dumpAll_eq (depth : Nat) :
    ∀ ts : List Tree, dumpAll depth ts = linesAmong depth (skeletons ts)
  | [] => by rw [dumpAll, skeletons, linesAmong]
  | t :: r => by
    rw [dumpAll, skeletons, linesAmong_append, dumpLines_eq depth t, dumpAll_eq depth r]

end

mutual

/-- What a skeleton shows are types of nodes. -/
theorem exists_node_of_mem_types :
    ∀ (t : Tree) {ty : String}, ty ∈ typesAmong t.skeleton.toList → ∃ i ∈ t.nodes, i.type = ty
  | .node i [], ty, h => by
    rw [skeleton] at h
    split at h
    · cases h
    · refine ⟨i, by simp [nodes], ?_⟩
      cases hnamed : i.named with
      | true => simpa [hnamed, typesAmong, types, eq_comm] using h
      | false => simp [hnamed, typesAmong, types] at h
  | .node i (c :: r), ty, h => by
    rw [skeleton] at h
    split at h
    · cases h
    · have h : ty = i.type ∨ ty ∈ typesAmong c.skeleton.toList ∨ ty ∈ typesAmong (skeletons r) := by
        simpa [typesAmong, types, typesAmong_append] using h
      rcases h with rfl | h | h
      · exact ⟨i, by simp [nodes], rfl⟩
      · obtain ⟨j, hj, hty⟩ := exists_node_of_mem_types c h
        exact ⟨j, by simp [nodes, nodesAmong, hj], hty⟩
      · obtain ⟨j, hj, hty⟩ := exists_node_of_mem_typesAmong r h
        exact ⟨j, by simp [nodes, nodesAmong, hj], hty⟩

theorem exists_node_of_mem_typesAmong :
    ∀ (ts : List Tree) {ty : String}, ty ∈ typesAmong (skeletons ts) →
      ∃ i ∈ nodesAmong ts, i.type = ty
  | [], ty, h => by simp [skeletons, typesAmong] at h
  | t :: r, ty, h => by
    rw [skeletons, typesAmong_append, List.mem_append] at h
    rcases h with h | h
    · obtain ⟨j, hj, hty⟩ := exists_node_of_mem_types t h
      exact ⟨j, by simp [nodesAmong, hj], hty⟩
    · obtain ⟨j, hj, hty⟩ := exists_node_of_mem_typesAmong r h
      exact ⟨j, by simp [nodesAmong, hj], hty⟩

end

theorem Named.types {t : Tree} (h : t.Named) : ∀ ty ∈ typesAmong t.skeleton.toList, IsName ty := by
  intro ty hty
  obtain ⟨i, hi, rfl⟩ := exists_node_of_mem_types t hty
  exact h i hi

/-- **A dump decides equality up to comments and places**: two trees whose types are names have the
same dump exactly when they have the same skeleton. -/
theorem dump_eq_iff {t t' : Tree} (h : t.Named) (h' : t'.Named) :
    t.dump = t'.dump ↔ t.skeleton = t'.skeleton := by
  rw [dump, dump, dumpLines_eq, dumpLines_eq]
  constructor
  · intro heq
    have hskeletons := unlines_linesAmong_inj h.types h'.types (List.append_cancel_right heq)
    cases h1 : t.skeleton <;> cases h2 : t'.skeleton <;> simp_all
  · intro heq
    rw [heq]

/-- A declaration with and without comments, and one of another name. -/
theorem dump_eq_iff_declaration :
    ∃ t t' u : Tree, t.Named ∧ t'.Named ∧ u.Named
      ∧ t.nodes.length ≠ t'.nodes.length ∧ t.dump = t'.dump ∧ t.dump ≠ u.dump := by
  let name : List UInt8 → Tree := fun bytes => .node { type := "identifier", bytes } []
  let stop : Tree := .node { type := ";", named := false, row := 1, bytes := [59] } []
  let note : Tree := .node { type := "comment" } [name [34, 10]]
  let plain : Tree := .node { type := "declaration" } [name [120], stop]
  let noted : Tree := .node { type := "declaration", row := 1 } [note, name [120], note, stop]
  let other : Tree := .node { type := "declaration" } [name [121], stop]
  have hother : noted.skeleton ≠ other.skeleton := by
    simp [noted, other, note, name, stop, skeleton, skeletons, isComment, commentTypes]
    decide
  exact ⟨noted, plain, other, by decide, by decide, by decide, by decide,
    (dump_eq_iff (by decide) (by decide)).mpr rfl,
    mt (dump_eq_iff (by decide) (by decide)).mp hother⟩

end Tree

end CaplLayout
