import Mathlib
import Iconsmith.Naming.Allocator

/-!
# Fresh names

Every name that an `Allocator` gives is new: it is the requested name or that name with a number
after it. Among one number more than names are taken, one must be free.
-/

namespace Iconsmith.Naming

/-! ### Numbered names -/

namespace Allocator

lemma toList_numbered (name : String) (k : Nat) :
    (numbered name k).toList = name.toList ++ Nat.toDigits 10 k := by
  simp [numbered]

lemma toDigits_injective : Function.Injective (Nat.toDigits 10) := by
  intro j k h
  have := congrArg (fun ds => Nat.ofDigitChars 10 ds 0) h
  simpa using this

lemma numbered_injective (name : String) : Function.Injective (numbered name) := by
  intro j k h
  have h := congrArg String.toList h
  rw [toList_numbered, toList_numbered] at h
  exact toDigits_injective (List.append_cancel_left h)

/-! ### One request -/

lemma contains_iff {a : Allocator} {name : String} : a.contains name = true ↔ name ∈ a.taken := by
  simp [contains]

/-- One number more than names are taken cannot all be in use. -/
lemma exists_free (a : Allocator) (name : String) :
    ∃ k, 2 ≤ k ∧ k < a.taken.length + 3 ∧ numbered name k ∉ a.taken := by
  by_contra hall
  push Not at hall
  let used := (List.range (a.taken.length + 1)).map fun i => numbered name (i + 2)
  have hnodup : used.Nodup := by
    refine List.Nodup.map (fun i j h => ?_) List.nodup_range
    have := numbered_injective name h
    omega
  have hsub : used ⊆ a.taken := by
    intro x hx
    obtain ⟨i, hi, rfl⟩ := List.mem_map.mp hx
    have := List.mem_range.mp hi
    exact hall (i + 2) (by omega) (by omega)
  have := (List.subperm_of_subset hnodup hsub).length_le
  simp [used] at this

/-- The number of a free name is the least one from `2` on that is not in use. -/
lemma freeNumber_spec (a : Allocator) (name : String) :
    2 ≤ a.freeNumber name ∧ numbered name (a.freeNumber name) ∉ a.taken
      ∧ ∀ k, 2 ≤ k → k < a.freeNumber name → numbered name k ∈ a.taken := by
  let free (i : Nat) : Bool := !a.contains (numbered name (i + 2))
  have hdef : a.freeNumber name
      = (((List.range (a.taken.length + 1)).find? free).map (· + 2)).getD 2 := by
    simp only [freeNumber, List.find?_map]
    rfl
  obtain ⟨k, hk, hlt, hfree⟩ := exists_free a name
  cases hfind : (List.range (a.taken.length + 1)).find? free with
  | none =>
    have := List.find?_eq_none.mp hfind (k - 2) (List.mem_range.mpr (by omega))
    simp [free, contains, show k - 2 + 2 = k by omega, hfree] at this
  | some i =>
    rw [hfind] at hdef
    simp only [Option.map_some, Option.getD_some] at hdef
    obtain ⟨hi, -, hbefore⟩ := List.find?_range_eq_some.mp hfind
    rw [hdef]
    refine ⟨by omega, by simpa [free, contains] using hi, fun j hj hji => ?_⟩
    have := hbefore (j - 2) (by omega)
    simpa [free, contains, show j - 2 + 2 = j by omega] using this

lemma taken_allocate (a : Allocator) (name : String) :
    (a.allocate name).2.taken = (a.allocate name).1 :: a.taken := rfl

/-- A name that is given was not taken before. -/
lemma allocate_notMem (a : Allocator) (name : String) : (a.allocate name).1 ∉ a.taken := by
  simp only [allocate]
  split_ifs with h
  · exact (freeNumber_spec a name).2.1
  · exact fun hmem => h (contains_iff.mpr hmem)

/-- A name is the requested one or that one with a number from `2` on after it. -/
def Answers (request name : String) : Prop :=
  name = request ∨ ∃ k, 2 ≤ k ∧ name = numbered request k

lemma allocate_answers (a : Allocator) (name : String) : Answers name (a.allocate name).1 := by
  simp only [allocate]
  split_ifs with h
  · exact Or.inr ⟨_, (freeNumber_spec a name).1, rfl⟩
  · exact Or.inl rfl

end Allocator

end Iconsmith.Naming
