import Iconsmith.Proofs.Naming.Identifiers

/-!
# Answers to requests

Which names are taken decides the answer to a request, and nothing else does. So a name that is set
aside changes no answers, unless it is the answer itself.

From the beginning on, just the answers are taken. So what a request gets can be told from the answers to
the requests before it, no answer comes twice, and the search for a number makes at most one try more than
names were given.
-/

namespace Iconsmith.Naming.Allocator

/-! ### One request -/

/-- A name is the first one for a request that is not taken: the request itself, or the request with
the least number. -/
structure IsFirst (a : Allocator) (request name : String) : Prop where
  fresh : name ∉ a.taken
  least : name = request ∨ ∃ k, 2 ≤ k ∧ name = numbered request k ∧ request ∈ a.taken
    ∧ ∀ j, 2 ≤ j → j < k → numbered request j ∈ a.taken

lemma isFirst_allocate (a : Allocator) (request : String) :
    a.IsFirst request (a.allocate request).1 := by
  refine ⟨a.allocate_notMem request, ?_⟩
  simp only [allocate]
  split_ifs with h
  · obtain ⟨htwo, -, hleast⟩ := a.freeNumber_spec request
    exact Or.inr ⟨_, htwo, rfl, contains_iff.mp h, hleast⟩
  · exact Or.inl rfl

lemma IsFirst.unique {a : Allocator} {request x y : String} (hx : a.IsFirst request x)
    (hy : a.IsFirst request y) : x = y := by
  obtain ⟨hxfresh, rfl | ⟨j, hj, rfl, hrequest, hbelow⟩⟩ := hx <;>
    obtain ⟨hyfresh, rfl | ⟨k, hk, rfl, hrequest', hbelow'⟩⟩ := hy
  · rfl
  · exact absurd hrequest' hxfresh
  · exact absurd hrequest hyfresh
  · rcases lt_trichotomy j k with hjk | rfl | hkj
    · exact absurd (hbelow' j hj hjk) hxfresh
    · rfl
    · exact absurd (hbelow k hk hkj) hyfresh

/-- The names taken in `b` are those taken in `a` and one more. -/
def Adds (a b : Allocator) (extra : String) : Prop :=
  ∀ x, x ∈ b.taken ↔ x = extra ∨ x ∈ a.taken

lemma adds_allocate (a : Allocator) (request : String) :
    a.Adds (a.allocate request).2 (a.allocate request).1 := by
  intro x
  rw [taken_allocate, List.mem_cons]

variable {a b : Allocator} {extra : String}

/-- A request gets the same name whether or not another name is set aside. -/
lemma Adds.allocate_eq (h : a.Adds b extra) {request : String}
    (hne : (a.allocate request).1 ≠ extra) : (b.allocate request).1 = (a.allocate request).1 := by
  obtain ⟨hfresh, hleast⟩ := a.isFirst_allocate request
  refine (b.isFirst_allocate request).unique ⟨fun hmem => ?_, hleast.imp_right ?_⟩
  · rcases (h _).mp hmem with heq | hmem
    · exact hne heq
    · exact hfresh hmem
  · rintro ⟨k, hk, hname, hrequest, hbelow⟩
    exact ⟨k, hk, hname, (h _).mpr (Or.inr hrequest),
      fun j hj hjk => (h _).mpr (Or.inr (hbelow j hj hjk))⟩

lemma Adds.allocate_adds (h : a.Adds b extra) {request : String}
    (hne : (a.allocate request).1 ≠ extra) :
    (a.allocate request).2.Adds (b.allocate request).2 extra := by
  intro x
  rw [taken_allocate, taken_allocate, List.mem_cons, List.mem_cons, h.allocate_eq hne, h x]
  tauto

/-! ### The search for a number -/

/-- Counting up from one number, a name is free for the first time at another one. -/
inductive Counts (a : Allocator) (name : String) : Nat → Nat → Prop where
  | stop {k : Nat} : a.contains (numbered name k) = false → Counts a name k k
  | next {k n : Nat} : a.contains (numbered name k) = true → Counts a name (k + 1) n →
    Counts a name k n

lemma counts_of_least {a : Allocator} {name : String} {k n : Nat} (hkn : k ≤ n)
    (hfree : numbered name n ∉ a.taken)
    (hbelow : ∀ j, k ≤ j → j < n → numbered name j ∈ a.taken) : a.Counts name k n := by
  induction hkn using Nat.decreasingInduction with
  | self => exact .stop (by simpa [contains] using hfree)
  | of_succ j hj ih =>
    have hrest := ih fun i hi => hbelow i (Nat.le_of_succ_le hi)
    exact .next (contains_iff.mpr (hbelow j le_rfl hj)) hrest

/-- The search from `2` on ends, and at the number that is given. -/
lemma counts_freeNumber (a : Allocator) (name : String) : a.Counts name 2 (a.freeNumber name) := by
  obtain ⟨htwo, hfree, hbelow⟩ := a.freeNumber_spec name
  exact counts_of_least htwo hfree hbelow

lemma freeNumber_le (a : Allocator) (name : String) : a.freeNumber name ≤ a.taken.length + 2 := by
  obtain ⟨k, htwo, hk, hfree⟩ := a.exists_free name
  by_contra hlarge
  exact hfree ((a.freeNumber_spec name).2.2 k htwo (by omega))

lemma isLeast_freeNumber (a : Allocator) (name : String) :
    IsLeast {k | 2 ≤ k ∧ numbered name k ∉ a.taken} (a.freeNumber name) := by
  obtain ⟨htwo, hfree, hbelow⟩ := a.freeNumber_spec name
  refine ⟨⟨htwo, hfree⟩, fun k hk => ?_⟩
  by_contra hlt
  exact hk.2 (hbelow k hk.1 (not_le.mp hlt))

/-! ### One request after another -/

lemma allocateAll_cons (a : Allocator) (name : String) (names : List String) :
    a.allocateAll (name :: names) = ((a.allocate name).1 :: ((a.allocate name).2.allocateAll names).1,
      ((a.allocate name).2.allocateAll names).2) := rfl

lemma allocateAll_append (a : Allocator) (names more : List String) :
    a.allocateAll (names ++ more) = ((a.allocateAll names).1 ++ ((a.allocateAll names).2.allocateAll more).1,
      ((a.allocateAll names).2.allocateAll more).2) := by
  induction names generalizing a with
  | nil => rfl
  | cons name names ih => simp [allocateAll_cons, ih]

lemma length_allocateAll (a : Allocator) (names : List String) :
    (a.allocateAll names).1.length = names.length := by
  induction names generalizing a with
  | nil => rfl
  | cons name names ih => simp [allocateAll_cons, ih]

/-- The names taken are those that were taken before and the answers, the last answer first. -/
lemma taken_allocateAll (a : Allocator) (names : List String) :
    (a.allocateAll names).2.taken = (a.allocateAll names).1.reverse ++ a.taken := by
  induction names generalizing a with
  | nil => rfl
  | cons name names ih => simp [allocateAll_cons, ih, taken_allocate]

lemma nodup_allocateAll {a : Allocator} (h : a.taken.Nodup) (names : List String) :
    (a.allocateAll names).2.taken.Nodup := by
  induction names generalizing a with
  | nil => exact h
  | cons name names ih =>
    have hone : (a.allocate name).2.taken.Nodup := List.nodup_cons.mpr ⟨a.allocate_notMem name, h⟩
    exact ih hone

lemma answers_allocateAll (a : Allocator) (names : List String) :
    List.Forall₂ Answers names (a.allocateAll names).1 := by
  induction names generalizing a with
  | nil => exact .nil
  | cons name names ih => exact .cons (a.allocate_answers name) (ih _)

/-! ### Requests from the beginning on -/

/-- The answers to some requests, when no name was taken before. -/
def answers (requests : List String) : List String :=
  (empty.allocateAll requests).1

/-- The allocator after some requests, when no name was taken before. -/
def answering (requests : List String) : Allocator :=
  (empty.allocateAll requests).2

lemma taken_answering (requests : List String) :
    (answering requests).taken = (answers requests).reverse := by
  have htaken := taken_allocateAll empty requests
  rwa [show empty.taken = [] from rfl, List.append_nil] at htaken

lemma mem_taken_answering {requests : List String} {name : String} :
    name ∈ (answering requests).taken ↔ name ∈ answers requests := by
  rw [taken_answering, List.mem_reverse]

lemma nodup_answers (requests : List String) : (answers requests).Nodup := by
  rw [← List.nodup_reverse, ← taken_answering]
  exact nodup_allocateAll List.nodup_nil requests

/-- What a request gets after other names were given: itself, or the least number that makes a new name. -/
structure IsNext (given : List String) (request answer : String) : Prop where
  fresh : request ∉ given → answer = request
  repeated : request ∈ given →
    ∃ k, IsLeast {k | 2 ≤ k ∧ numbered request k ∉ given} k ∧ answer = numbered request k

lemma isNext_allocate (requests : List String) (request : String) :
    IsNext (answers requests) request ((answering requests).allocate request).1 where
  fresh hnew := by
    rw [← mem_taken_answering, ← contains_iff] at hnew
    rw [allocate, if_neg hnew]
  repeated hgiven := by
    rw [← mem_taken_answering, ← contains_iff] at hgiven
    refine ⟨(answering requests).freeNumber request, ?_, ?_⟩
    · simpa only [mem_taken_answering] using (answering requests).isLeast_freeNumber request
    · rw [allocate, if_pos hgiven]

/-- Each answer comes next after the answers to the requests before it. -/
lemma exists_isNext (before after : List String) (request : String) :
    ∃ answer rest, answers (before ++ request :: after) = answers before ++ answer :: rest
      ∧ IsNext (answers before) request answer := by
  refine ⟨_, (((answering before).allocate request).2.allocateAll after).1, ?_,
    isNext_allocate before request⟩
  rw [answers, allocateAll_append, allocateAll_cons]
  rfl

lemma isIdentifier_answers {requests : List String} (h : ∀ r ∈ requests, isIdentifier r = true) :
    ∀ answer ∈ answers requests, isIdentifier answer = true := by
  intro answer hanswer
  obtain ⟨i, hi, rfl⟩ := List.getElem_of_mem hanswer
  obtain ⟨hlength, hget⟩ := List.forall₂_iff_get.mp (answers_allocateAll empty requests)
  have hanswers := hget i (hlength ▸ hi) hi
  exact hanswers.isIdentifier (h _ (List.get_mem _ _))

/-- The answers to requests that begin with no name taken are distinct, one for each request. Each one is
the request itself if it was not given before, and else has the least number from `2` on that makes a new
name; the search for that number ends. Just the answers are taken, and they can be declared if the requests
can. -/
theorem answers_of_requests (requests : List String) :
    (answers requests).length = requests.length
    ∧ (answers requests).Nodup
    ∧ (∀ before request after, requests = before ++ request :: after →
        ∃ answer rest, answers requests = answers before ++ answer :: rest
          ∧ IsNext (answers before) request answer)
    ∧ (∀ request, (answering requests).Counts request 2 ((answering requests).freeNumber request)
        ∧ (answering requests).freeNumber request ≤ requests.length + 2)
    ∧ (∀ name, (answering requests).contains name = true ↔ name ∈ answers requests)
    ∧ ((∀ request ∈ requests, isIdentifier request = true) →
        ∀ answer ∈ answers requests, isIdentifier answer = true) := by
  have hlength : (answers requests).length = requests.length := length_allocateAll empty requests
  refine ⟨hlength, nodup_answers requests, ?_, ?_, ?_, isIdentifier_answers⟩
  · rintro before request after rfl
    exact exists_isNext before after request
  · intro request
    refine ⟨counts_freeNumber _ request, ?_⟩
    have hbound := (answering requests).freeNumber_le request
    rwa [taken_answering, List.length_reverse, hlength] at hbound
  · intro name
    rw [contains_iff, mem_taken_answering]

/-- A name that ends with a digit was given before the name that would get the digit. -/
theorem answers_of_digits :
    answers ["Add2", "Add", "Add", "Add"] = ["Add2", "Add", "Add3", "Add4"]
    ∧ ∀ answer ∈ answers ["Add2", "Add", "Add", "Add"], isIdentifier answer = true :=
  ⟨by decide +kernel, (answers_of_requests _).2.2.2.2.2 (by decide)⟩

end Iconsmith.Naming.Allocator
