/-!
# Keyed lists

A keyed list holds named values in the order in which their names were first given. `put`
replaces the value of a name in its place, and `lookup_put` says what is found afterwards.
-/

set_option autoImplicit false

namespace CaplLayout.Keyed

/-- The list with a value for a name: in the place of the name's present value, or at the end
if it has none. -/
def put {α : Type} (es : List (String × α)) (name : String) (v : α) : List (String × α) :=
  match es with
  | [] => [(name, v)]
  | (k, w) :: r => if k = name then (name, v) :: r else (k, w) :: put r name v

theorem lookup_put {α : Type} (es : List (String × α)) (name other : String) (v : α) :
    (put es name v).lookup other = if other = name then some v else es.lookup other := by
  induction es with
  | nil =>
      by_cases h : other = name
      · simp [put, h]
      · have h' : (other == name) = false := by simpa using h
        simp [put, List.lookup_cons, h, h']
  | cons e r ih =>
      obtain ⟨k, w⟩ := e
      unfold put
      by_cases hk : k = name
      · subst hk
        by_cases h : other = k
        · simp [h]
        · have h' : (other == k) = false := by simpa using h
          simp [List.lookup_cons, h, h']
      · simp only [hk, if_false]
        by_cases h : other = k
        · subst h
          simp [hk]
        · have h' : (other == k) = false := by simpa using h
          simp only [List.lookup_cons, h'] at ih ⊢
          exact ih

end CaplLayout.Keyed
