import CaplLayout.Proofs.Ways
import CaplLayout.Run.Selection
import Mathlib.Data.List.Count
import Mathlib.Data.List.Nodup
import Mathlib.Data.String.Basic

/-!
# What a pattern with wildcards lists

The list of a pattern is sorted, and nothing drops a file that the search has found more than once:
it stands there as often as there are ways in which the pattern finds it (`count_expand`).
-/

set_option autoImplicit false

namespace CaplLayout

namespace Selection

variable {sel : Selection} {fs : FileSystem} {pattern : String} {found : List String}

theorem expand_eq_ok (h : sel.expand fs pattern = .ok found) :
    ∃ all, Glob.search fs pattern.toList = .ok all
      ∧ found = ((all.filter (sel.admits fs)).map String.ofList).mergeSort
          fun a b => decide (a ≤ b) := by
  unfold expand at h
  cases hsearch : Glob.search fs pattern.toList with
  | error e =>
      rw [hsearch] at h
      cases h
  | ok all =>
      rw [hsearch] at h
      cases h
      exact ⟨all, rfl, rfl⟩

/-- What a search finds in ascending order is listed in that order. -/
theorem expand_of_search {all : List Text} (hsearch : Glob.search fs pattern.toList = .ok all)
    (hfound : (all.filter (sel.admits fs)).map String.ofList = found)
    (hascending : found.Pairwise (· ≤ ·)) : sel.expand fs pattern = .ok found := by
  unfold expand
  rw [hsearch]
  show Except.ok (List.mergeSort _ _) = _
  rw [hfound, List.mergeSort_of_pairwise (by simpa using hascending)]

/-- A pattern lists in ascending order. -/
theorem pairwise_expand (h : sel.expand fs pattern = .ok found) : found.Pairwise (· ≤ ·) := by
  obtain ⟨all, -, rfl⟩ := expand_eq_ok h
  refine (List.pairwise_mergeSort (fun a b c hab hbc => ?_) (fun a b => ?_) _).imp fun hab => ?_
  · simp only [decide_eq_true_eq] at hab hbc ⊢
    exact le_trans hab hbc
  · simpa using le_total a b
  · simpa using hab

theorem isFile_of_admits {path : Text} (h : sel.admits fs path = true) : fs.isFile path = true :=
  (Bool.and_eq_true_iff.mp h).1

theorem ofList_injective : Function.Injective String.ofList := fun a b h => by
  rw [← String.toList_ofList (l := a), h, String.toList_ofList]

theorem admits_of_mem_expand (h : sel.expand fs pattern = .ok found) {f : String}
    (hf : f ∈ found) : sel.admits fs f.toList = true := by
  obtain ⟨all, -, rfl⟩ := expand_eq_ok h
  obtain ⟨path, hpath, rfl⟩ := List.mem_map.mp (List.mem_mergeSort.mp hf)
  rw [String.toList_ofList]
  exact (List.mem_filter.mp hpath).2

/-- A pattern lists an admitted file as often as there are ways in which it finds the file. -/
theorem count_expand (hroot : fs.root.WellNamed) (hmagic : Glob.hasMagic pattern.toList = true)
    (h : sel.expand fs pattern = .ok found) (f : String) :
    found.count f
      = if sel.admits fs f.toList then Glob.ways pattern.toList f.toList else 0 := by
  split
  · next hadmits =>
      have hfile := isFile_of_admits hadmits
      obtain ⟨all, hall, rfl⟩ := expand_eq_ok h
      calc List.count f (List.mergeSort _ _)
          = ((all.filter (sel.admits fs)).map String.ofList).count (String.ofList f.toList) := by
            rw [String.ofList_toList]
            exact (List.mergeSort_perm _ _).count_eq f
        _ = (all.filter (sel.admits fs)).count f.toList :=
            List.count_map_of_injective _ _ ofList_injective _
        _ = all.count f.toList := List.count_filter hadmits
        _ = Glob.ways pattern.toList f.toList := Glob.count_search hroot hmagic hall hfile
  · next hadmits =>
      exact List.count_eq_zero.mpr fun hf => hadmits (admits_of_mem_expand h hf)

/-- **A pattern lists the files that it finds** in ascending order, each as often as there are ways
in which it finds it. So the order is strict exactly if there is one way for each file; it always is
for a pattern that asks at most once for directories at any depth. -/
theorem expand_strictly_ascending_iff (hroot : fs.root.WellNamed)
    (hmagic : Glob.hasMagic pattern.toList = true) (h : sel.expand fs pattern = .ok found) :
    found.Pairwise (· ≤ ·)
      ∧ (∀ f, found.count f
          = if sel.admits fs f.toList then Glob.ways pattern.toList f.toList else 0)
      ∧ (found.Pairwise (· < ·) ↔ ∀ f ∈ found, Glob.ways pattern.toList f.toList = 1)
      ∧ ((Glob.Search.ofPattern pattern.toList).names.count Glob.anyDepth ≤ 1 →
          found.Pairwise (· < ·)) := by
  have hascending := pairwise_expand h
  have hcount := count_expand hroot hmagic h
  have hlisted : ∀ f ∈ found, found.count f = Glob.ways pattern.toList f.toList := by
    intro f hf
    rw [hcount, if_pos (admits_of_mem_expand h hf)]
  have hstrict : found.Pairwise (· < ·) ↔ ∀ f ∈ found, Glob.ways pattern.toList f.toList = 1 := by
    constructor
    · intro hlt f hf
      have hnodup : found.Nodup := hlt.imp ne_of_lt
      rw [← hlisted f hf]
      exact List.count_eq_one_of_mem hnodup hf
    · intro hone
      have hnodup : found.Nodup := List.nodup_iff_count_le_one.mpr fun f => by
        by_cases hf : f ∈ found
        · rw [hlisted f hf, hone f hf]
        · rw [List.count_eq_zero.mpr hf]
          exact Nat.zero_le 1
      exact hascending.imp₂ (fun _ _ => lt_of_le_of_ne) hnodup
  refine ⟨hascending, hcount, hstrict, fun honce => hstrict.mpr fun f hf => ?_⟩
  have hpos := List.count_pos_iff.mpr hf
  rw [hlisted f hf] at hpos
  exact le_antisymm (Glob.ways_le_one honce f.toList) hpos

/-- A file system with one file, in a directory. -/
def oneFile : FileSystem :=
  ⟨.directory [(['a'], .directory [(['x', '.', 'c', 'a', 'n'], .file [])])], [], [], []⟩

theorem wellNamed_oneFile : oneFile.root.WellNamed := by
  refine .directory (by decide) (by decide) fun p hp => ?_
  rw [List.mem_singleton.mp hp]
  refine .directory (by decide) (by decide) fun q hq => ?_
  rw [List.mem_singleton.mp hq]
  exact .file []

theorem admits_oneFile : ({} : Selection).admits oneFile "a/x.can".toList = true := by
  decide +kernel

/-- The directory in front of the file can be what the first `**` stands for, or the second. -/
theorem expand_oneFile :
    ({} : Selection).expand oneFile "**/**/x.can" = .ok ["a/x.can", "a/x.can"] := by
  have hsearch : Glob.search oneFile "**/**/x.can".toList
      = .ok ["a/x.can".toList, "a/x.can".toList] := by decide +kernel
  refine expand_of_search hsearch ?_ (by decide)
  rw [List.filter_cons_of_pos admits_oneFile, List.filter_cons_of_pos admits_oneFile]
  rfl

/-- The one file is found in two ways, by a pattern that asks twice for directories at any depth. -/
theorem expand_strictly_ascending_iff_oneFile :
    oneFile.root.WellNamed ∧ Glob.hasMagic "**/**/x.can".toList = true
      ∧ ({} : Selection).expand oneFile "**/**/x.can" = .ok ["a/x.can", "a/x.can"]
      ∧ Glob.ways "**/**/x.can".toList "a/x.can".toList = 2 := by
  have hmagic : Glob.hasMagic "**/**/x.can".toList = true := by decide
  have h := expand_strictly_ascending_iff wellNamed_oneFile hmagic expand_oneFile
  have hcount := h.2.1 "a/x.can"
  rw [if_pos admits_oneFile] at hcount
  exact ⟨wellNamed_oneFile, hmagic, expand_oneFile, hcount.symm⟩

/-- A pattern that asks twice for directories at any depth lists a file twice. -/
theorem exists_expand_repeats :
    ∃ (sel : Selection) (fs : FileSystem) (pattern : String) (found : List String),
      fs.root.WellNamed ∧ Glob.hasMagic pattern.toList = true
        ∧ sel.expand fs pattern = .ok found ∧ ¬ found.Pairwise (· < ·) :=
  ⟨{}, oneFile, "**/**/x.can", ["a/x.can", "a/x.can"], wellNamed_oneFile, by decide, expand_oneFile,
    by decide⟩

end Selection

end CaplLayout
