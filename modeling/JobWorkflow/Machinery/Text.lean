import Mathlib.Data.List.DropRight
import Mathlib.Data.String.Basic

/-!
# Machinery/Text — the methods of `str`

Python's `partition`, `strip`, `split` and `lower`, read off the list of a string's characters.
White space is what `str.isspace` counts as such.  `lower` lowers the letters of ASCII only: no
other character is lowered to an ASCII letter of `bearer`, which is all it is compared with.
-/

namespace Text

/-- `c.isspace()`. -/
def isSpace (c : Char) : Bool :=
  c.toNat ∈ [0x9, 0xa, 0xb, 0xc, 0xd, 0x1c, 0x1d, 0x1e, 0x1f, 0x20, 0x85, 0xa0, 0x1680, 0x2000,
    0x2001, 0x2002, 0x2003, 0x2004, 0x2005, 0x2006, 0x2007, 0x2008, 0x2009, 0x200a, 0x2028, 0x2029,
    0x202f, 0x205f, 0x3000]

/-- `s.lower()`. -/
def lower (s : String) : String := .ofList (s.toList.map Char.toLower)

/-- `s.strip()`. -/
def strip (s : String) : String := .ofList ((s.toList.dropWhile isSpace).rdropWhile isSpace)

/-- `s.split()`: the runs of characters that are no white space. -/
def split (s : String) : List String :=
  ((s.toList.splitOnP isSpace).filter fun w => !w.isEmpty).map .ofList

/-- `s.partition(sep)`, for a separator of one character. -/
def partition (sep : Char) (s : String) : String × String × String :=
  match s.toList.dropWhile (· ≠ sep) with
  | [] => (s, "", "")
  | c :: rest => (.ofList (s.toList.takeWhile (· ≠ sep)), .singleton c, .ofList rest)

/-- **What `partition` finds**: nothing, or the first separator. -/
theorem partition_cases (sep : Char) (s : String) :
    (sep ∉ s.toList ∧ partition sep s = (s, "", "")) ∨
    ∃ a b, sep ∉ a.toList ∧ s = a ++ .singleton sep ++ b ∧
      partition sep s = (a, .singleton sep, b) := by
  have hsplit := List.takeWhile_append_dropWhile (p := (· ≠ sep)) (l := s.toList)
  have hpre : sep ∉ s.toList.takeWhile (· ≠ sep) := fun hmem => by
    simpa using List.mem_takeWhile_imp hmem
  unfold partition
  cases hd : s.toList.dropWhile (· ≠ sep) with
  | nil =>
    rw [hd, List.append_nil] at hsplit
    exact Or.inl ⟨hsplit ▸ hpre, rfl⟩
  | cons c rest =>
    obtain rfl : c = sep := by
      have hne : s.toList.dropWhile (· ≠ sep) ≠ [] := by rw [hd]; exact List.cons_ne_nil _ _
      have hhead := List.head_dropWhile_not (p := (· ≠ sep)) hne
      simp only [hd, List.head_cons] at hhead
      simpa using hhead
    refine Or.inr ⟨.ofList (s.toList.takeWhile (· ≠ c)), .ofList rest, ?_, ?_, rfl⟩
    · rwa [String.toList_ofList]
    · rw [← String.toList_inj]
      simp only [String.toList_append, String.toList_ofList, String.toList_singleton,
        List.append_assoc, List.singleton_append]
      rw [← hd]
      exact hsplit.symm

/-- A first part without the separator is the part `partition` finds. -/
theorem partition_of_eq {sep : Char} {s a b : String} (ha : sep ∉ a.toList)
    (hs : s = a ++ .singleton sep ++ b) : partition sep s = (a, .singleton sep, b) := by
  have hlist : s.toList = a.toList ++ sep :: b.toList := by
    rw [hs]
    simp only [String.toList_append, String.toList_singleton, List.append_assoc,
      List.singleton_append]
  have hall : ∀ c ∈ a.toList, (decide (c ≠ sep)) = true := fun c hc =>
    decide_eq_true fun he => ha (he ▸ hc)
  have hdrop : s.toList.dropWhile (· ≠ sep) = sep :: b.toList := by
    rw [hlist, List.dropWhile_append_of_pos hall, List.dropWhile_cons_of_neg (by simp)]
  have htake : s.toList.takeWhile (· ≠ sep) = a.toList := by
    rw [hlist, List.takeWhile_append_of_pos hall, List.takeWhile_cons_of_neg (by simp),
      List.append_nil]
  unfold partition
  rw [hdrop, htake]
  simp only [String.ofList_toList]

end Text
