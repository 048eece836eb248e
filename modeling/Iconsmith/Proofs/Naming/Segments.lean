import Iconsmith.Naming.Siblings
import Iconsmith.Proofs.Naming.Reserved

/-!
# Package segments

A package segment is a nonempty word of small letters, digits and low lines. A numbered name has
another segment for each number, so the search for the name of a sibling group ends: among one name
more than there are segments, one has a segment of its own.
-/

namespace Iconsmith.Naming

/-! ### Letters of either case -/

lemma isUpper_of_isDigit {c : Char} (h : c.isDigit = true) : c.isUpper = false := by
  simp only [Char.isDigit, Char.isUpper] at *
  grind

lemma toLower_of_not_isUpper {c : Char} (h : c.isUpper = false) : c.toLower = c := by
  rw [Char.toLower, dif_neg]
  simpa [Char.isUpper] using h

lemma isLower_toLower {c : Char} (h : c.isUpper = true) : c.toLower.isLower = true := by
  simp only [Char.isUpper, decide_eq_true_eq] at h
  rw [Char.toLower, dif_pos h]
  simp only [Char.isLower]
  grind [UInt32.toNat_add, UInt32.le_iff_toNat_le]

lemma isUpper_toLower (c : Char) : c.toLower.isUpper = false := by
  by_cases hupper : c.isUpper = true
  · have hlower := isLower_toLower hupper
    simp only [Char.isLower, Char.isUpper] at *
    grind
  · rw [toLower_of_not_isUpper (by simpa using hupper)]
    simpa using hupper

/-! ### Package segments -/

/-- The characters of a group name that its package segment keeps. -/
def keptChars (name : String) : List Char :=
  (name.toList.filter fun c => isAlphanumeric c || c = '_').map Char.toLower

/-- Whether some characters make a word that cannot be part of a package name. -/
def isKeyword (kept : List Char) : Bool :=
  packageKeywords.contains (String.ofList kept)

/-- The characters of a package segment, by those that are kept. -/
def segmentChars (kept : List Char) : List Char :=
  match kept with
  | [] => ['_', 'u', 'n', 'n', 'a', 'm', 'e', 'd']
  | c :: s => if c.isDigit || isKeyword (c :: s) then '_' :: c :: s else c :: s

lemma toList_packageSegment (name : String) :
    (packageSegment name).toList = segmentChars (keptChars name) := by
  unfold packageSegment segmentChars
  change (match keptChars name with
    | [] => "_unnamed"
    | c :: _ => _ : String).toList = _
  split
  · simp
  · next c s h =>
    rw [show List.map Char.toLower _ = c :: s from h]
    change (if c.isDigit || isKeyword (c :: s) then _ else _ : String).toList = _
    split_ifs
    · rw [String.toList_append, String.toList_ofList]
      simp
    · exact String.toList_ofList

/-- A character that a package segment may hold. -/
def isSegmentChar (c : Char) : Bool :=
  isAlphanumeric c || c = '_'

lemma isBlank_eq_false {c : Char} (h : isSegmentChar c = true) : Text.isBlank c = false := by
  have hsmall : c.toNat < 123 := by
    simp only [isSegmentChar, isAlphanumeric, Char.isAlpha, Char.isUpper, Char.isLower,
      Char.isDigit, Bool.or_eq_true, Bool.and_eq_true, decide_eq_true_eq, ge_iff_le,
      UInt32.le_iff_toNat_le] at h
    rcases h with (((h | h) | h) | h)
    · exact Nat.lt_of_le_of_lt h.2 (by decide)
    · exact Nat.lt_of_le_of_lt h.2 (by decide)
    · exact Nat.lt_of_le_of_lt h.2 (by decide)
    · rw [h]
      decide
  have hchars : ∀ n < 123, isSegmentChar (Char.ofNat n) = true →
      Text.isBlank (Char.ofNat n) = false := by decide
  rw [← Char.ofNat_toNat c] at h ⊢
  exact hchars c.toNat hsmall h

lemma isSegmentChar_toLower {c : Char} (h : isSegmentChar c = true) :
    isSegmentChar c.toLower = true := by
  by_cases hup : c.isUpper = true
  · simp [isSegmentChar, isAlphanumeric, Char.isAlpha, isLower_toLower hup]
  · rwa [toLower_of_not_isUpper (by simpa using hup)]

/-- A nonempty text of characters that a package segment may hold. -/
def IsWord (name : String) : Prop :=
  name.toList ≠ [] ∧ ∀ c ∈ name.toList, isSegmentChar c = true

lemma IsWord.uncapitalize {name : String} (h : IsWord name) :
    ∀ c ∈ (uncapitalize name).toList, isSegmentChar c = true := by
  unfold Naming.uncapitalize
  cases hname : name.toList with
  | nil => nofun
  | cons c s =>
    have hchars := h.2
    rw [hname, List.forall_mem_cons] at hchars
    rw [String.toList_ofList]
    exact List.forall_mem_cons.mpr ⟨isSegmentChar_toLower hchars.1, hchars.2⟩

/-- A small letter at the start does not change whether a name can be declared. -/
lemma isIdentifier_uncapitalize (name : String) :
    isIdentifier (uncapitalize name) = isIdentifier name := by
  unfold uncapitalize
  cases hname : name.toList with
  | nil =>
    rw [isIdentifier, isIdentifier, hname]
    rfl
  | cons c s =>
    have hfirst : (c.toLower.isAlpha || decide (c.toLower = '_'))
        = (c.isAlpha || decide (c = '_')) := by
      by_cases hupper : c.isUpper = true
      · simp [Char.isAlpha, isLower_toLower hupper, hupper]
      · rw [toLower_of_not_isUpper (by simpa using hupper)]
    simp only [isIdentifier, hname, String.toList_ofList, hfirst]

lemma isWord_of_isIdentifier {name : String} (h : isIdentifier name = true) : IsWord name := by
  unfold isIdentifier at h
  unfold IsWord
  cases hname : name.toList with
  | nil => simp [hname] at h
  | cons c s =>
    simp only [hname, Bool.and_eq_true, Bool.or_eq_true, decide_eq_true_eq, List.all_eq_true] at h
    refine ⟨by simp, List.forall_mem_cons.mpr ⟨?_, fun d hd => ?_⟩⟩
    · rcases h.1 with halpha | rfl
      · simp [isSegmentChar, isAlphanumeric, halpha]
      · decide
    · simpa [isSegmentChar] using h.2 d hd

lemma isWord_packageSegment (name : String) : IsWord (packageSegment name) := by
  have hkept : ∀ c ∈ keptChars name, isSegmentChar c = true := by
    intro c hc
    obtain ⟨d, hd, rfl⟩ := List.mem_map.mp hc
    exact isSegmentChar_toLower (List.mem_filter.mp hd).2
  unfold IsWord
  rw [toList_packageSegment]
  unfold segmentChars
  split
  · decide
  · next c s h =>
    rw [h] at hkept
    split_ifs
    · exact ⟨by simp, List.forall_mem_cons.mpr ⟨by decide, hkept⟩⟩
    · exact ⟨by simp, hkept⟩

lemma keptChars_numbered (name : String) (k : Nat) :
    keptChars (Allocator.numbered name k) = keptChars name ++ Nat.toDigits 10 k := by
  have hdigit : ∀ c ∈ Nat.toDigits 10 k, c.isDigit = true := fun c hc =>
    Nat.isDigit_of_mem_toDigits (by decide) (by decide) hc
  have hkept : (Nat.toDigits 10 k).filter (fun c => isAlphanumeric c || c = '_')
      = Nat.toDigits 10 k :=
    List.filter_eq_self.mpr fun c hc => by simp [isAlphanumeric, hdigit c hc]
  have hlower : (Nat.toDigits 10 k).map Char.toLower = Nat.toDigits 10 k := by
    refine (List.map_congr_left fun c hc => ?_).trans (List.map_id _)
    exact toLower_of_not_isUpper (isUpper_of_isDigit (hdigit c hc))
  simp [keptChars, Allocator.toList_numbered, hkept, hlower]

/-- No keyword holds a digit or begins with a low line. -/
lemma keyword_spec {kept : List Char} (h : isKeyword kept = true) :
    (∀ c ∈ kept, c.isDigit = false) ∧ kept.head? ≠ some '_' := by
  have hmem : String.ofList kept ∈ packageKeywords := by
    simpa only [isKeyword, List.contains_eq_mem, decide_eq_true_eq] using h
  simpa only [String.toList_ofList] using arePlain_packageKeywords _ hmem

/-! ### Segments of segments -/

lemma isKeyword_lowLine (kept : List Char) : isKeyword ('_' :: kept) = false := by
  by_contra hkey
  exact (keyword_spec (Bool.eq_true_of_not_eq_false hkey)).2 rfl

/-- A low line goes before what needs one, and then it needs no more. -/
lemma segmentChars_spec (kept : List Char) : isKeyword (segmentChars kept) = false
    ∧ segmentChars (segmentChars kept) = segmentChars kept
    ∧ ∀ c ∈ (segmentChars kept).head?, c.isDigit = false := by
  have hlowLine (s : List Char) : isKeyword ('_' :: s) = false
      ∧ segmentChars ('_' :: s) = '_' :: s ∧ ∀ c ∈ ('_' :: s).head?, c.isDigit = false := by
    have hkey := isKeyword_lowLine s
    refine ⟨hkey, ?_, by rintro _ ⟨⟩; rfl⟩
    rw [segmentChars, hkey]
    rfl
  cases kept with
  | nil => exact hlowLine _
  | cons c s =>
    by_cases h : (c.isDigit || isKeyword (c :: s)) = true
    · have hself : segmentChars (c :: s) = '_' :: c :: s := if_pos h
      rw [hself]
      exact hlowLine (c :: s)
    · have hself : segmentChars (c :: s) = c :: s := if_neg h
      rw [Bool.or_eq_true, not_or, Bool.not_eq_true, Bool.not_eq_true] at h
      rw [hself]
      exact ⟨h.2, hself, by rintro _ ⟨⟩; exact h.1⟩

/-- A text that can be a package segment: it can be declared, has no capital letters and is no keyword, so it
is its own segment. -/
structure IsSegment (name : String) : Prop where
  nonempty : name ≠ ""
  declarable : isIdentifier name = true
  small : ∀ c ∈ name.toList, c.isUpper = false
  notKeyword : name ∉ packageKeywords
  segment_eq : packageSegment name = name

lemma isUpper_of_mem_packageSegment {name : String} {c : Char}
    (hc : c ∈ (packageSegment name).toList) : c.isUpper = false := by
  have hkept : ∀ c ∈ keptChars name, c.isUpper = false := by
    intro c hc
    obtain ⟨d, -, rfl⟩ := List.mem_map.mp hc
    exact isUpper_toLower d
  rw [toList_packageSegment] at hc
  unfold segmentChars at hc
  split at hc
  · revert c
    decide
  · next d s h =>
    rw [h] at hkept
    split_ifs at hc
    · rcases List.mem_cons.mp hc with rfl | hc
      · rfl
      · exact hkept c hc
    · exact hkept c hc

lemma keptChars_packageSegment (name : String) :
    keptChars (packageSegment name) = (packageSegment name).toList := by
  have hfilter : (packageSegment name).toList.filter (fun c => isAlphanumeric c || c = '_')
      = (packageSegment name).toList := List.filter_eq_self.mpr (isWord_packageSegment name).2
  rw [keptChars, hfilter]
  refine (List.map_congr_left fun c hc => ?_).trans (List.map_id _)
  exact toLower_of_not_isUpper (isUpper_of_mem_packageSegment hc)

lemma isSegment_packageSegment (name : String) : IsSegment (packageSegment name) := by
  obtain ⟨hkey, hself, hfirst⟩ := segmentChars_spec (keptChars name)
  have hword := isWord_packageSegment name
  rw [← toList_packageSegment] at hkey hself hfirst
  refine ⟨?_, ?_, fun c => isUpper_of_mem_packageSegment, ?_, ?_⟩
  · rintro heq
    exact hword.1 (by rw [heq]; rfl)
  · obtain ⟨c, s, hchars⟩ := List.exists_cons_of_ne_nil hword.1
    have hall := hword.2
    rw [hchars] at hfirst hall
    rw [List.forall_mem_cons] at hall
    have hdigit := hfirst c rfl
    simp only [isIdentifier, hchars, Bool.and_eq_true, List.all_eq_true]
    refine ⟨?_, hall.2⟩
    simpa [isSegmentChar, isAlphanumeric, hdigit] using hall.1
  · rw [isKeyword, String.ofList_toList] at hkey
    simpa using hkey
  · apply String.toList_inj.mp
    rw [toList_packageSegment, keptChars_packageSegment, hself]

/-! ### Segments of numbered names -/

lemma isDigit_toDigits {k : Nat} {c : Char} (h : c ∈ Nat.toDigits 10 k) : c.isDigit = true :=
  Nat.isDigit_of_mem_toDigits (by decide) (by decide) h

/-- With digits after them, characters that do not begin with a digit need no low line. -/
lemma segmentChars_append {c : Char} {s ds : List Char} (hc : c.isDigit = false) (hne : ds ≠ [])
    (hds : ∀ d ∈ ds, d.isDigit = true) : segmentChars (c :: s ++ ds) = c :: s ++ ds := by
  obtain ⟨d, hd⟩ := List.exists_mem_of_ne_nil ds hne
  have hkey : isKeyword (c :: (s ++ ds)) = false := by
    by_contra hkey
    have := (keyword_spec (Bool.eq_true_of_not_eq_false hkey)).1 d (by simp [hd])
    rw [hds d hd] at this
    contradiction
  simp only [segmentChars, List.cons_append, hc, hkey, Bool.or_self, Bool.false_eq_true, if_false]

/-- A name has another segment than with a number after it. -/
lemma segmentChars_append_ne {kept ds : List Char} (hne : ds ≠ [])
    (hds : ∀ d ∈ ds, d.isDigit = true) : segmentChars kept ≠ segmentChars (kept ++ ds) := by
  obtain ⟨d, ds, rfl⟩ := List.exists_cons_of_ne_nil hne
  have hd : d.isDigit = true := hds d (by simp)
  cases kept with
  | nil =>
    intro h
    simp only [segmentChars, List.nil_append, hd, Bool.true_or, if_true] at h
    obtain ⟨rfl, -⟩ := List.cons.inj (List.cons.inj h).2
    contradiction
  | cons c s =>
    cases hc : c.isDigit with
    | true => simp [segmentChars, hc]
    | false =>
      rw [segmentChars_append hc hne hds]
      simp only [segmentChars, hc, Bool.false_or]
      split_ifs with hkey
      · intro h
        rw [List.cons_append, List.cons.injEq] at h
        exact (keyword_spec hkey).2 (by rw [← h.1]; rfl)
      · simp

/-- The digits after a name can be read off its segment. -/
lemma segmentChars_append_injective {kept ds es : List Char} (hdn : ds ≠ []) (hen : es ≠ [])
    (hds : ∀ d ∈ ds, d.isDigit = true) (hes : ∀ e ∈ es, e.isDigit = true)
    (h : segmentChars (kept ++ ds) = segmentChars (kept ++ es)) : ds = es := by
  cases kept with
  | nil =>
    obtain ⟨d, ds, rfl⟩ := List.exists_cons_of_ne_nil hdn
    obtain ⟨e, es, rfl⟩ := List.exists_cons_of_ne_nil hen
    simpa [segmentChars, hds d (by simp), hes e (by simp)] using h
  | cons c s =>
    cases hc : c.isDigit with
    | true => simpa [segmentChars, hc] using h
    | false =>
      rw [segmentChars_append hc hdn hds, segmentChars_append hc hen hes] at h
      exact List.append_cancel_left h

namespace Allocator

lemma packageSegment_numbered_ne (name : String) (k : Nat) :
    packageSegment name ≠ packageSegment (numbered name k) := by
  intro h
  have h := congrArg String.toList h
  rw [toList_packageSegment, toList_packageSegment, keptChars_numbered] at h
  exact segmentChars_append_ne Nat.toDigits_ne_nil (fun _ => isDigit_toDigits) h

lemma packageSegment_numbered_injective (name : String) :
    Function.Injective fun k => packageSegment (numbered name k) := by
  intro j k h
  have h := congrArg String.toList h
  simp only [toList_packageSegment, keptChars_numbered] at h
  exact toDigits_injective (segmentChars_append_injective Nat.toDigits_ne_nil Nat.toDigits_ne_nil
    (fun _ => isDigit_toDigits) (fun _ => isDigit_toDigits) h)

/-- Two answers to one request have different segments if they differ. -/
lemma Answers.packageSegment_ne {request x y : String} (hx : Answers request x)
    (hy : Answers request y) (h : x ≠ y) : packageSegment x ≠ packageSegment y := by
  rcases hx with rfl | ⟨j, -, rfl⟩ <;> rcases hy with rfl | ⟨k, -, rfl⟩
  · exact absurd rfl h
  · exact packageSegment_numbered_ne x k
  · exact (packageSegment_numbered_ne y j).symm
  · exact fun hjk => h (congrArg _ (packageSegment_numbered_injective request hjk))

end Allocator

/-! ### The search for a sibling's name -/

namespace Siblings

/-- Names that were tried in vain for a request: each is taken, and so is its segment. -/
structure Tried (s : Siblings) (request : String) (tried : List String) : Prop where
  nodup : tried.Nodup
  answers : ∀ x ∈ tried, Allocator.Answers request x
  taken : ∀ x ∈ tried, x ∈ s.names.taken
  segments : ∀ x ∈ tried, packageSegment x ∈ s.segments

/-- A name is new among siblings and is recorded in those that follow. -/
structure Named (s : Siblings) (name : String) (s' : Siblings) : Prop where
  fresh : name ∉ s.names.taken
  segment : packageSegment name ∉ s.segments
  segments : s'.segments = packageSegment name :: s.segments
  taken : name ∈ s'.names.taken
  kept : ∀ x ∈ s.names.taken, x ∈ s'.names.taken

lemma tried_nil (s : Siblings) (request : String) : s.Tried request [] :=
  ⟨List.nodup_nil, by simp, by simp, by simp⟩

/-- There cannot be more names tried in vain than segments. -/
lemma Tried.length_le {s : Siblings} {request : String} {tried : List String}
    (h : s.Tried request tried) : tried.length ≤ s.segments.length := by
  have hinj : ∀ x ∈ tried, ∀ y ∈ tried, packageSegment x = packageSegment y → x = y := by
    intro x hx y hy hxy
    by_contra hne
    exact (h.answers x hx).packageSegment_ne (h.answers y hy) hne hxy
  have hsub : tried.map packageSegment ⊆ s.segments := by
    intro seg hseg
    obtain ⟨x, hx, rfl⟩ := List.mem_map.mp hseg
    exact h.segments x hx
  have := (List.subperm_of_subset (h.nodup.map_on hinj) hsub).length_le
  simpa using this

/-- One more name is tried in vain. -/
lemma Tried.cons {s : Siblings} {request : String} {tried : List String}
    (h : s.Tried request tried)
    (hseg : packageSegment (s.names.allocate request).1 ∈ s.segments) :
    ({ s with names := (s.names.allocate request).2 } : Siblings).Tried request
      ((s.names.allocate request).1 :: tried) where
  nodup := List.nodup_cons.mpr
    ⟨fun hmem => s.names.allocate_notMem request (h.taken _ hmem), h.nodup⟩
  answers := List.forall_mem_cons.mpr ⟨s.names.allocate_answers request, h.answers⟩
  taken := by
    intro x hx
    rw [Allocator.taken_allocate]
    rcases List.mem_cons.mp hx with rfl | hx
    · exact List.mem_cons_self
    · exact List.mem_cons_of_mem _ (h.taken x hx)
  segments := List.forall_mem_cons.mpr ⟨hseg, h.segments⟩

/-- After as many tries in vain as there are segments, the next name has a new one. -/
lemma Tried.notMem_segments {s : Siblings} {request : String} {tried : List String}
    (h : s.Tried request tried) (hlen : s.segments.length ≤ tried.length) :
    packageSegment (s.names.allocate request).1 ∉ s.segments := by
  intro hseg
  have := (h.cons hseg).length_le
  simp only [List.length_cons] at this
  omega

/-- An answer with a segment of its own is a new name. -/
lemma named_allocate {s : Siblings} {request : String}
    (hseg : packageSegment (s.names.allocate request).1 ∉ s.segments) :
    s.Named (s.names.allocate request).1 ⟨(s.names.allocate request).2,
      packageSegment (s.names.allocate request).1 :: s.segments⟩ where
  fresh := s.names.allocate_notMem request
  segment := hseg
  segments := rfl
  taken := List.mem_cons_self
  kept _ hx := List.mem_cons_of_mem _ hx

/-- The search ends with a new name. With the names tried before, it tries one name more than
there are segments. -/
lemma tryNames_spec (n : Nat) : ∀ (s : Siblings) (request : String) (tried : List String),
    s.Tried request tried → s.segments.length ≤ tried.length + n →
    ∃ name, (s.tryNames request n).1.getLast? = some name ∧ Allocator.Answers request name
      ∧ s.Named name (s.tryNames request n).2 := by
  induction n with
  | zero =>
    intro s request tried htried hlen
    exact ⟨_, rfl, s.names.allocate_answers request, named_allocate (htried.notMem_segments hlen)⟩
  | succ n ih =>
    intro s request tried htried hlen
    simp only [tryNames]
    split_ifs with hseg
    · have hseg : packageSegment (s.names.allocate request).1 ∈ s.segments := by
        simpa using hseg
      obtain ⟨name, hlast, hanswers, hnamed⟩ :=
        ih _ request _ (htried.cons hseg) (by simp only [List.length_cons]; omega)
      refine ⟨name, ?_, hanswers, ?_⟩
      · simp [List.getLast?_cons, hlast]
      · exact {
          fresh := fun hmem => hnamed.fresh (List.mem_cons_of_mem _ hmem)
          segment := hnamed.segment
          segments := hnamed.segments
          taken := hnamed.taken
          kept := fun x hx => hnamed.kept x (List.mem_cons_of_mem _ hx) }
    · have hseg : packageSegment (s.names.allocate request).1 ∉ s.segments := by
        simpa using hseg
      exact ⟨_, rfl, s.names.allocate_answers request, named_allocate hseg⟩

/-- The name that is chosen for a sibling group, the last one tried, is new. -/
lemma nameChild_spec (s : Siblings) (request : String) :
    ∃ name, (s.nameChild request).1.getLast? = some name ∧ Allocator.Answers request name
      ∧ s.Named name (s.nameChild request).2 :=
  tryNames_spec _ s request [] (s.tried_nil request) (by simp)

/-- The search sets aside answers to its request only. -/
lemma mem_taken_tryNames (n : Nat) {s : Siblings} {request x : String}
    (h : x ∈ (s.tryNames request n).2.names.taken) :
    x ∈ s.names.taken ∨ Allocator.Answers request x := by
  have hone : ∀ {a : Allocator}, x ∈ (a.allocate request).2.taken →
      x ∈ a.taken ∨ Allocator.Answers request x := by
    intro a hx
    rcases List.mem_cons.mp hx with rfl | hx
    · exact Or.inr (a.allocate_answers request)
    · exact Or.inl hx
  induction n generalizing s with
  | zero => exact hone h
  | succ n ih =>
    simp only [tryNames] at h
    split_ifs at h
    · exact (ih h).elim hone Or.inr
    · exact hone h

/-- A new name answers the request that it was chosen for. -/
lemma Named.answers {s : Siblings} {request name : String}
    (h : s.Named name (s.nameChild request).2) : Allocator.Answers request name :=
  (mem_taken_tryNames _ h.taken).resolve_left h.fresh

end Siblings

end Iconsmith.Naming
