import VirtualModem.Config.Path
/-!
# Canonical paths

A path is a core between two runs of slashes, where the core neither starts nor ends with a slash;
its canonical form is one slash and the core. Paths that differ only in the slashes at their ends
have one canonical form, and a canonical form is its own.
-/

namespace VirtualModem.Config
set_option autoImplicit false

/-- Text without slashes at its ends. -/
def Bare (core : List Char) : Prop :=
  core.head? ≠ some '/' ∧ core.getLast? ≠ some '/'

theorem exists_dropSlashes (cs : List Char) :
    ∃ i, cs = List.replicate i '/' ++ dropSlashes cs := by
  refine ⟨(cs.takeWhile (· = '/')).length, ?_⟩
  have hslashes : cs.takeWhile (· = '/') =
      List.replicate (cs.takeWhile (· = '/')).length '/' := by
    rw [List.eq_replicate_iff]
    refine ⟨rfl, fun c hc => ?_⟩
    have hall := List.all_takeWhile (p := (· = '/')) (l := cs)
    exact of_decide_eq_true (List.all_eq_true.mp hall c hc)
  rw [← hslashes, dropSlashes, List.takeWhile_append_dropWhile]

theorem head?_dropSlashes (cs : List Char) : (dropSlashes cs).head? ≠ some '/' := by
  intro h
  have hnot := List.head?_dropWhile_not (· = '/') cs
  rw [← dropSlashes, h] at hnot
  exact absurd hnot (by decide)

theorem dropSlashes_of_head? {cs : List Char} (h : cs.head? ≠ some '/') : dropSlashes cs = cs := by
  cases cs with
  | nil => rfl
  | cons c cs =>
    apply List.dropWhile_cons_of_neg
    intro hc
    exact h (congrArg some (of_decide_eq_true hc))

theorem dropSlashes_replicate_append (i : Nat) (cs : List Char) :
    dropSlashes (List.replicate i '/' ++ cs) = dropSlashes cs := by
  induction i with
  | zero => rfl
  | succ i ih =>
    rw [List.replicate_succ, List.cons_append, dropSlashes, List.dropWhile_cons_of_pos (by decide)]
    exact ih

theorem trimSlashes_of_ends (i j : Nat) {core : List Char} (hcore : Bare core) :
    trimSlashes (List.replicate i '/' ++ core ++ List.replicate j '/') = core := by
  rw [trimSlashes, List.append_assoc, dropSlashes_replicate_append]
  cases core with
  | nil =>
    have hnone : dropSlashes (List.replicate j '/') = [] := by
      simpa only [List.append_nil] using! dropSlashes_replicate_append j []
    rw [List.nil_append, hnone]
    rfl
  | cons c cs =>
    have hstart : dropSlashes (c :: cs ++ List.replicate j '/') = c :: cs ++ List.replicate j '/' :=
      dropSlashes_of_head? hcore.1
    have hend : (c :: cs).reverse.head? ≠ some '/' := by
      rw [List.head?_reverse]
      exact hcore.2
    rw [hstart, List.reverse_append, List.reverse_replicate, dropSlashes_replicate_append,
      dropSlashes_of_head? hend, List.reverse_reverse]

theorem exists_trimSlashes (cs : List Char) :
    Bare (trimSlashes cs) ∧
      ∃ i j, cs = List.replicate i '/' ++ trimSlashes cs ++ List.replicate j '/' := by
  obtain ⟨i, hi⟩ := exists_dropSlashes cs
  obtain ⟨j, hj⟩ := exists_dropSlashes (dropSlashes cs).reverse
  have hsplit : dropSlashes cs = trimSlashes cs ++ List.replicate j '/' := by
    rw [← List.reverse_reverse (dropSlashes cs), hj, List.reverse_append, List.reverse_replicate,
      ← trimSlashes]
  refine ⟨⟨fun h => ?_, fun h => ?_⟩, i, j, ?_⟩
  · apply head?_dropSlashes cs
    rw [hsplit, List.head?_append, h]
    rfl
  · apply head?_dropSlashes (dropSlashes cs).reverse
    rw [trimSlashes, List.getLast?_reverse] at h
    exact h
  · rw [List.append_assoc, ← hsplit]
    exact hi

theorem toList_canonical (p : String) : (canonical p).toList = '/' :: trimSlashes p.toList := by
  rw [canonical, String.toList_ofList]

theorem canonical_eq_slash_core (p : String) :
    ∃ i j core, Bare core ∧ p.toList = List.replicate i '/' ++ core ++ List.replicate j '/' ∧
      (canonical p).toList = '/' :: core := by
  obtain ⟨hbare, i, j, hp⟩ := exists_trimSlashes p.toList
  exact ⟨i, j, trimSlashes p.toList, hbare, hp, toList_canonical p⟩

example : canonical "//a//b/" = "/a//b" := by decide

@[simp] theorem canonical_canonical (p : String) : canonical (canonical p) = canonical p := by
  have hbare := (exists_trimSlashes p.toList).1
  have htrim : trimSlashes ('/' :: trimSlashes p.toList) = trimSlashes p.toList := by
    simpa only [List.replicate_zero, List.append_nil] using! trimSlashes_of_ends 1 0 hbare
  rw [canonical, toList_canonical, htrim, canonical]

end VirtualModem.Config
