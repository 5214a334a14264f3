import CaplLayout.Proofs.Skeleton

/-!
# The first error of a tree

`Tree.firstError` passes over every child that is not marked as holding an error. In a tree whose
marks are right (`Tree.Marked`) it misses nothing that way: it finds the first error of all nodes,
where each node comes before those below it (`firstError_eq_find?`). So a strict check refuses a
tree with an error at the place of the first one, and a lenient check lists that one
(`check_of_marked`).
-/

set_option autoImplicit false

namespace CaplLayout.Tree

/-! ## Marks -/

mutual

/-- The marks of a tree are right: a node is marked exactly when it or one below it is an error. -/
def Marked : Tree → Prop
  | .node i cs => i.hasError = (nodes (.node i cs)).any isError ∧ MarkedAmong cs

/-- The marks of several trees are right. -/
def MarkedAmong : List Tree → Prop
  | [] => True
  | t :: r => Marked t ∧ MarkedAmong r

end

/-- A marked tree is one in which an error is found. -/
theorem Marked.hasError_eq {t : Tree} (h : t.Marked) :
    t.info.hasError = (t.nodes.find? isError).isSome := by
  cases t with
  | node i cs =>
      rw [Marked, ← List.isSome_find?] at h
      exact h.1

/-- An error is itself marked, so to look at the marks alone is enough. -/
theorem Marked.entered {t : Tree} (h : t.Marked) :
    (t.info.hasError || isError t.info) = (t.nodes.find? isError).isSome := by
  rw [h.hasError_eq]
  cases t with
  | node i cs => cases hi : isError i <;> simp [nodes, info, hi]

/-! ## The search -/

mutual

/-- **The search finds the first error** of all nodes. -/
theorem firstError_eq_find? : ∀ t : Tree, t.Marked → t.firstError = t.nodes.find? isError
  | .node i cs, h => by
    rw [Marked] at h
    rw [firstError, nodes, List.find?_cons, firstErrorAmong_eq_find? cs h.2]
    cases isError i <;> rfl

/-- The search finds the first error of several trees. -/
theorem firstErrorAmong_eq_find? :
    ∀ ts : List Tree, MarkedAmong ts → firstErrorAmong ts = (nodesAmong ts).find? isError
  | [], _ => rfl
  | t :: r, h => by
    rw [MarkedAmong] at h
    rw [firstErrorAmong, nodesAmong, List.find?_append, h.1.entered, firstError_eq_find? t h.1,
      firstErrorAmong_eq_find? r h.2]
    -- a tree is passed over only if there is no error in it
    cases t.nodes.find? isError <;> rfl

end

/-! ## Checks -/

/-- The error of a tree is that of its first error node; the search does not come back from a marked
tree without one. -/
theorem syntaxError?_of_marked {t : Tree} (h : t.Marked) :
    t.syntaxError? = (t.nodes.find? isError).map errorAt := by
  rw [syntaxError?, firstError_eq_find? t h, h.hasError_eq]
  cases t.nodes.find? isError <;> rfl

/-- **What a check tells of a tree whose marks are right.** The search finds the first error, if
there is one. A strict check refuses the tree exactly then, at the line and the column of that
error, both counted from one; a lenient check lists that error and no other. -/
theorem check_of_marked {t : Tree} (h : t.Marked) :
    t.firstError = t.nodes.find? isError
      ∧ (t.firstError = none ↔ ∀ i ∈ t.nodes, ¬ isError i)
      ∧ t.check true = (match t.nodes.find? isError with
        | none => .ok []
        | some i => .error
          { message := if i.missing then "Missing " ++ i.type else "Unexpected token"
            line := i.row + 1
            column := i.column + 1 })
      ∧ t.check false = .ok (match t.nodes.find? isError with
        | none => []
        | some i => [listing (errorAt i)]) := by
  have hfirst := firstError_eq_find? t h
  refine ⟨hfirst, ?_, ?_, ?_⟩
  · rw [hfirst, List.find?_eq_none]
  · rw [check, syntaxError?_of_marked h]
    cases t.nodes.find? isError <;> rfl
  · rw [check, syntaxError?_of_marked h]
    cases t.nodes.find? isError <;> rfl

/-- A missing mark inside of an error, and another error behind it. -/
theorem check_of_marked_nested :
    let semicolon : NodeInfo :=
      { type := ";", named := false, missing := true, hasError := true, row := 2, column := 7 }
    let broken : NodeInfo := { type := "ERROR", hasError := true, row := 2, column := 4 }
    let stray : NodeInfo := { type := "ERROR", hasError := true, row := 5 }
    let whole : NodeInfo := { type := "translation_unit", hasError := true }
    let t : Tree := .node whole
      [.node { type := "comment" } [], .node broken [.node semicolon []], .node stray []]
    t.Marked ∧ t.firstError = some broken
      ∧ t.check true = .error ⟨"Unexpected token", 3, 5⟩ := by
  intro semicolon broken stray whole t
  have hmarked : t.Marked :=
    ⟨rfl, ⟨rfl, trivial⟩, ⟨rfl, ⟨rfl, trivial⟩, trivial⟩, ⟨rfl, trivial⟩, trivial⟩
  obtain ⟨hfirst, -, hstrict, -⟩ := check_of_marked hmarked
  exact ⟨hmarked, hfirst, hstrict⟩

end CaplLayout.Tree
