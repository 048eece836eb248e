import Iconsmith.Proofs.Naming.Requests
import Iconsmith.Proofs.Naming.Segments

/-!
# Searches for the names of siblings

A sibling group asks for one name after the other until it gets one with a package segment of its own. A
name that is given up stays taken, and so do all the segments. `Siblings.Search` is that search, and
`Allocator.Gives` the one for a number inside it, both without a bound on the tries.

The search ends all the same, at the name that `Siblings.nameChild` chooses: answers to one request have
segments that differ, so each try in vain meets another one of the finitely many that are taken.

A search looks at the answers to its own request and at their package segments only. So a name given before
changes no search for another one, unless answers to the two requests can share a segment.
-/

namespace Iconsmith.Naming

open Allocator (Answers)

/-! ### Answers without a bound -/

namespace Allocator

variable {a b : Allocator} {request name : String}

/-- A free name is given as it is. For a taken one, numbers are counted up from `2` until one makes a free
name. -/
inductive Gives (a : Allocator) (request : String) : String → Allocator → Prop
  | unchanged : a.contains request = false → Gives a request request ⟨request :: a.taken⟩
  | numbered {k : Nat} : a.contains request = true → a.Counts request 2 k →
      Gives a request (numbered request k) ⟨numbered request k :: a.taken⟩

/-- Counting ends at one number only. -/
lemma Counts.unique {k m n : Nat} (hm : a.Counts name k m) (hn : a.Counts name k n) : m = n := by
  induction hm with
  | stop hfree =>
    cases hn with
    | stop => rfl
    | next htaken => rw [hfree] at htaken; contradiction
  | next htaken _ ih =>
    cases hn with
    | stop hfree => rw [hfree] at htaken; contradiction
    | next _ hrest => exact ih hrest

lemma gives_allocate (a : Allocator) (request : String) :
    a.Gives request (a.allocate request).1 (a.allocate request).2 := by
  simp only [allocate]
  split_ifs with htaken
  · exact .numbered htaken (a.counts_freeNumber request)
  · exact .unchanged (by simpa using htaken)

lemma Gives.unique {c : Allocator} {name' : String} (h : a.Gives request name b)
    (h' : a.Gives request name' c) : name = name' ∧ b = c := by
  cases h with
  | unchanged hfree =>
    cases h' with
    | unchanged => exact ⟨rfl, rfl⟩
    | numbered htaken => rw [hfree] at htaken; contradiction
  | numbered htaken hcounts =>
    cases h' with
    | unchanged hfree => rw [hfree] at htaken; contradiction
    | numbered _ hcounts' =>
      obtain rfl := hcounts.unique hcounts'
      exact ⟨rfl, rfl⟩

end Allocator

/-! ### The search for a sibling's name -/

namespace Siblings

variable {s s' t t' : Siblings} {request : String} {tried tried' : List String}

/-- The names that are tried for a request, up to the first one with a new segment, and what is taken
then. -/
inductive Search (request : String) : Siblings → List String → Siblings → Prop
  | found {s : Siblings} {name : String} {names : Allocator} :
      s.names.Gives request name names → packageSegment name ∉ s.segments →
      Search request s [name] ⟨names, packageSegment name :: s.segments⟩
  | again {s s' : Siblings} {name : String} {names : Allocator} {tried : List String} :
      s.names.Gives request name names → packageSegment name ∈ s.segments →
      Search request { s with names := names } tried s' → Search request s (name :: tried) s'

lemma Search.unique (h : Search request s tried t) (h' : Search request s tried' t') :
    tried = tried' ∧ t = t' := by
  induction h generalizing tried' with
  | found hgives hnew =>
    cases h' with
    | found hgives' =>
      obtain ⟨rfl, rfl⟩ := hgives.unique hgives'
      exact ⟨rfl, rfl⟩
    | again hgives' hold =>
      obtain ⟨rfl, -⟩ := hgives.unique hgives'
      exact absurd hold hnew
  | again hgives hold _ ih =>
    cases h' with
    | found hgives' hnew =>
      obtain ⟨rfl, -⟩ := hgives.unique hgives'
      exact absurd hold hnew
    | again hgives' _ hrest =>
      obtain ⟨rfl, rfl⟩ := hgives.unique hgives'
      exact (ih hrest).imp_left (congrArg (_ :: ·))

/-- The tries end. With the names tried before, there is one try more than there are segments, and the
names tried in vain cannot be more than these. -/
lemma search_tryNames (n : Nat) : ∀ (s : Siblings) (tried : List String), s.Tried request tried →
    s.segments.length ≤ tried.length + n →
    Search request s (s.tryNames request n).1 (s.tryNames request n).2 := by
  induction n with
  | zero =>
    intro s tried htried hlen
    exact .found (s.names.gives_allocate request) (htried.notMem_segments hlen)
  | succ n ih =>
    intro s tried htried hlen
    simp only [tryNames]
    split_ifs with hseg
    · have hseg : packageSegment (s.names.allocate request).1 ∈ s.segments := by
        simpa using hseg
      exact .again (s.names.gives_allocate request) hseg
        (ih _ _ (htried.cons hseg) (by simp only [List.length_cons]; omega))
    · exact .found (s.names.gives_allocate request) (by simpa using hseg)

lemma length_tryNames_le (s : Siblings) (request : String) (n : Nat) :
    (s.tryNames request n).1.length ≤ n + 1 := by
  induction n generalizing s with
  | zero => rfl
  | succ n ih =>
    simp only [tryNames]
    split_ifs
    · exact Nat.succ_le_succ (ih _)
    · exact Nat.succ_le_succ (Nat.zero_le _)

/-- The search ends in one way, which is that of `nameChild`. -/
theorem search_iff : Search request s tried s' ↔ s.nameChild request = (tried, s') := by
  have hends : Search request s (s.nameChild request).1 (s.nameChild request).2 :=
    search_tryNames _ s [] (s.tried_nil request) (by simp)
  constructor
  · intro h
    obtain ⟨htried, hafter⟩ := hends.unique h
    exact Prod.ext htried hafter
  · intro h
    rwa [h] at hends

/-- More tries than are needed change nothing. -/
lemma nameChild_eq_tryNames (s : Siblings) (request : String) {n : Nat}
    (h : s.segments.length ≤ n) : s.nameChild request = s.tryNames request n :=
  search_iff.mp (search_tryNames n s [] (s.tried_nil request) (by simpa using h))

/-! ### One sibling more -/

/-- A new name has a segment that is counted once more. -/
lemma Named.card_segments {name : String} (h : s.Named name s') :
    s'.segments.toFinset.card = s.segments.toFinset.card + 1 := by
  rw [h.segments, List.toFinset_cons, Finset.card_insert_of_notMem]
  simpa using h.segment

end Siblings

/-! ### Requests that do not meet -/

/-- Only the answers to a request decide which of them is given. -/
lemma Allocator.allocate_congr {a b : Allocator} {request : String}
    (h : ∀ x, Answers request x → (x ∈ b.taken ↔ x ∈ a.taken)) :
    (b.allocate request).1 = (a.allocate request).1 := by
  obtain ⟨hfresh, hleast⟩ := a.isFirst_allocate request
  refine (b.isFirst_allocate request).unique ⟨fun hmem => ?_, hleast.imp_right ?_⟩
  · exact hfresh ((h _ (a.allocate_answers request)).mp hmem)
  · rintro ⟨k, hk, hname, hrequest, hbelow⟩
    exact ⟨k, hk, hname, (h _ (Or.inl rfl)).mpr hrequest,
      fun j hj hjk => (h _ (Or.inr ⟨j, hj, rfl⟩)).mpr (hbelow j hj hjk)⟩

/-- No answers to two requests share a package segment. -/
def Apart (request request' : String) : Prop :=
  ∀ x y, Answers request x → Answers request' y → packageSegment x ≠ packageSegment y

namespace Siblings

variable {s s' : Siblings} {request request' : String}

/-- Which names and segments are taken differs at most in the answers to a request. -/
structure AgreeOff (request : String) (s s' : Siblings) : Prop where
  names : ∀ x, ¬ Answers request x → (x ∈ s'.names.taken ↔ x ∈ s.names.taken)
  segments : ∀ g, (∀ x, Answers request x → packageSegment x ≠ g) →
    (g ∈ s'.segments ↔ g ∈ s.segments)

/-- Naming a group sets aside answers to its request only. -/
lemma agreeOff_nameChild (s : Siblings) (request : String) :
    AgreeOff request s (s.nameChild request).2 := by
  obtain ⟨name, -, hanswers, hnamed⟩ := s.nameChild_spec request
  constructor
  · intro x hx
    exact ⟨fun hmem => (mem_taken_tryNames _ hmem).resolve_right hx, hnamed.kept x⟩
  · intro g hg
    rw [hnamed.segments, List.mem_cons]
    exact or_iff_right (hg name hanswers).symm

namespace AgreeOff

lemma allocate_eq (h : AgreeOff request s s') (hapart : Apart request request') :
    (s'.names.allocate request').1 = (s.names.allocate request').1 :=
  Allocator.allocate_congr fun x hx => h.names x fun hx' => hapart x x hx' hx rfl

/-- A name is tried by both sides alike. -/
lemma allocate (h : AgreeOff request s s') (hapart : Apart request request') :
    AgreeOff request { s with names := (s.names.allocate request').2 }
      { s' with names := (s'.names.allocate request').2 } where
  names x hx := by
    rw [Allocator.taken_allocate, Allocator.taken_allocate, List.mem_cons, List.mem_cons,
      h.allocate_eq hapart, h.names x hx]
  segments := h.segments

/-- A segment is taken by both sides alike. -/
lemma cons (h : AgreeOff request s s') (segment : String) :
    AgreeOff request { s with segments := segment :: s.segments }
      { s' with segments := segment :: s'.segments } where
  names := h.names
  segments g hg := by rw [List.mem_cons, List.mem_cons, h.segments g hg]

/-- A request that is apart from another one gets the same answer whether or not that one was made.
-/
lemma tryNames (h : AgreeOff request s s') (hapart : Apart request request') (n : Nat) :
    (s'.tryNames request' n).1 = (s.tryNames request' n).1
      ∧ AgreeOff request (s.tryNames request' n).2 (s'.tryNames request' n).2 := by
  induction n generalizing s s' with
  | zero =>
    simp only [Siblings.tryNames, h.allocate_eq hapart, true_and]
    exact (h.allocate hapart).cons _
  | succ n ih =>
    have hsegment : packageSegment (s.names.allocate request').1 ∈ s'.segments
        ↔ packageSegment (s.names.allocate request').1 ∈ s.segments :=
      h.segments _ fun x hx => hapart x _ hx (s.names.allocate_answers request')
    simp only [Siblings.tryNames, List.contains_eq_mem, h.allocate_eq hapart, hsegment]
    split_ifs
    · obtain ⟨htried, hagree⟩ := ih (h.allocate hapart)
      exact ⟨congrArg (_ :: ·) htried, hagree⟩
    · exact ⟨rfl, (h.allocate hapart).cons _⟩

lemma nameChild (h : AgreeOff request s s') (hapart : Apart request request') :
    (s'.nameChild request').1 = (s.nameChild request').1
      ∧ AgreeOff request (s.nameChild request').2 (s'.nameChild request').2 := by
  rw [s.nameChild_eq_tryNames request' (Nat.le_max_left _ s'.segments.length),
    s'.nameChild_eq_tryNames request' (Nat.le_max_right s.segments.length _)]
  exact h.tryNames hapart _

end AgreeOff

end Siblings

/-! ### Stems -/

/-- What the segments of all answers to a request have in common: the characters between low lines
before them and digits after them. -/
def stemOf (kept : List Char) : List Char :=
  (kept.dropWhile (· = '_')).rdropWhile Char.isDigit

lemma stemOf_lowLine (kept : List Char) : stemOf ('_' :: kept) = stemOf kept := by
  simp [stemOf]

lemma stemOf_segmentChars {kept : List Char} (h : kept ≠ []) :
    stemOf (segmentChars kept) = stemOf kept := by
  obtain ⟨c, s, rfl⟩ := List.exists_cons_of_ne_nil h
  simp only [segmentChars]
  split_ifs
  · exact stemOf_lowLine (c :: s)
  · rfl

lemma stemOf_append {kept ds : List Char} (hds : ∀ d ∈ ds, d.isDigit = true) :
    stemOf (kept ++ ds) = stemOf kept := by
  have hdigits (xs : List Char) :
      (xs ++ ds).rdropWhile Char.isDigit = xs.rdropWhile Char.isDigit := by
    rw [List.rdropWhile, List.reverse_append,
      List.dropWhile_append_of_pos fun d hd => hds d (List.mem_reverse.mp hd), List.rdropWhile]
  unfold stemOf
  rw [List.dropWhile_append]
  split_ifs with hempty
  · have hself : ds.dropWhile (· = '_') = ds := by
      cases ds with
      | nil => rfl
      | cons d ds =>
        refine List.dropWhile_cons_of_neg fun hd => ?_
        have hdigit := hds d List.mem_cons_self
        rw [of_decide_eq_true hd] at hdigit
        contradiction
    rw [hself, List.isEmpty_iff.mp hempty]
    exact hdigits []
  · exact hdigits _

lemma Allocator.Answers.stemOf_segment {request name : String} (h : Answers request name)
    (hrequest : keptChars request ≠ []) :
    stemOf (packageSegment name).toList = stemOf (keptChars request) := by
  rw [toList_packageSegment]
  rcases h with rfl | ⟨k, -, rfl⟩
  · exact stemOf_segmentChars hrequest
  · rw [keptChars_numbered, stemOf_segmentChars (by simp [hrequest]),
      stemOf_append fun _ => isDigit_toDigits]

/-- Requests with different stems are apart. -/
lemma apart_of_stemOf {request request' : String} (hrequest : keptChars request ≠ [])
    (hrequest' : keptChars request' ≠ [])
    (h : stemOf (keptChars request) ≠ stemOf (keptChars request')) : Apart request request' := by
  intro x y hx hy heq
  apply h
  rw [← hx.stemOf_segment hrequest, ← hy.stemOf_segment hrequest', heq]

end Iconsmith.Naming
