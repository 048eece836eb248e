import Mathlib.Tactic
import Iconsmith.Files.Location

/-!
# Parts of locations

A name without slashes that does not stand for a directory is one part of a location. Joining such a
name to a location adds that part at the end, so a list of names can be read off its location.
-/

namespace Iconsmith.Location

/-- A text that names something inside a directory. -/
structure IsName (name : String) : Prop where
  nonempty : name ≠ ""
  noSlash : '/' ∉ name.toList
  notHere : name ≠ "."
  notAbove : name ≠ ".."

lemma IsName.part? {name : String} (h : IsName name) : part? name = some (.named name) := by
  simp [Location.part?, h.nonempty, h.notHere, h.notAbove]

lemma IsName.relative {name : String} (h : IsName name) : name.startsWith "/" = false := by
  rw [String.startsWith_string_eq_false_iff]
  rintro ⟨s, hs⟩
  exact h.noSlash (by rw [← hs]; exact List.mem_cons_self)

/-! ### Pieces -/

lemma pieces_ne_nil (location : String) : pieces location ≠ [] := by
  simp [pieces, List.splitOn_ne_nil]

lemma pieces_of_noSlash {name : String} (h : '/' ∉ name.toList) : pieces name = [name] := by
  simp [pieces, List.splitOn_eq_singleton h]

lemma pieces_slash (a b : String) : pieces (a ++ "/" ++ b) = pieces a ++ pieces b := by
  have hslash : "/".toList = ['/'] := rfl
  simp only [pieces, String.toList_append, hslash, List.append_assoc, List.singleton_append,
    List.splitOn_append_cons_self, List.map_append]

lemma eq_append_of_endsWith {dir : String} (h : dir.endsWith "/" = true) :
    ∃ base, dir = base ++ "/" := by
  rw [← String.endsWith_toSlice, String.Slice.endsWith_string_iff, String.copy_toSlice] at h
  obtain ⟨s, hs⟩ := h
  exact ⟨String.ofList s, by rw [← String.toList_inj, String.toList_append, String.toList_ofList, hs]⟩

/-- Joining puts the pieces of two locations one after the other, without an empty piece between
them. -/
lemma pieces_join (dir : String) {location : String} (hrel : location.startsWith "/" = false) :
    (dir = "" ∧ pieces (join dir location) = pieces location)
      ∨ ∃ ps, ps ≠ [] ∧ (pieces dir = ps ∧ dir ≠ "" ∨ pieces dir = ps ++ [""])
        ∧ pieces (join dir location) = ps ++ pieces location := by
  simp only [join, hrel, Bool.false_eq_true, if_false]
  by_cases hempty : dir = ""
  · subst hempty
    exact Or.inl ⟨rfl, by simp⟩
  · right
    cases hends : dir.endsWith "/" with
    | true =>
      obtain ⟨base, rfl⟩ := eq_append_of_endsWith hends
      refine ⟨pieces base, pieces_ne_nil base, Or.inr ?_, ?_⟩
      · have := pieces_slash base ""
        rwa [String.append_empty] at this
      · simp [pieces_slash]
    | false =>
      refine ⟨pieces dir, pieces_ne_nil dir, Or.inl ⟨rfl, hempty⟩, ?_⟩
      simp [hempty, pieces_slash]

/-! ### Parts -/

/-- The parts that some pieces make. -/
def partsOf : List String → List LocationPart
  | [] => []
  | first :: rest =>
    let lead : List LocationPart :=
      if first = "" && !rest.isEmpty then [.root]
      else if first = "." then [.here]
      else (part? first).toList
    lead ++ rest.filterMap part?

lemma parts_eq (location : String) : parts location = partsOf (pieces location) := by
  unfold parts partsOf
  cases pieces location <;> rfl

lemma partsOf_append {ps qs : List String} (hps : ps ≠ []) (hqs : qs ≠ []) :
    partsOf (ps ++ qs) = partsOf (ps ++ [""]) ++ qs.filterMap part? := by
  obtain ⟨first, rest, rfl⟩ := List.exists_cons_of_ne_nil hps
  obtain ⟨q, qs, rfl⟩ := List.exists_cons_of_ne_nil hqs
  simp [partsOf, Location.part?]

lemma partsOf_append_empty {ps : List String} (hps : ps ≠ []) (hne : ps ≠ [""]) :
    partsOf (ps ++ [""]) = partsOf ps := by
  obtain ⟨first, rest, rfl⟩ := List.exists_cons_of_ne_nil hps
  by_cases hfirst : first = ""
  · have hrest : rest ≠ [] := fun h => hne (by rw [hfirst, h])
    simp [partsOf, Location.part?, hrest]
  · simp [partsOf, Location.part?, hfirst]

lemma eq_empty_of_pieces {location : String} (h : pieces location = [""]) : location = "" := by
  have hsplit : location.toList.splitOn '/' = [[]] := by
    obtain ⟨s, hs, hempty⟩ := List.map_eq_singleton_iff.mp h
    rw [hs, ← String.toList_ofList (l := s), hempty]
    rfl
  have hjoin := @List.intercalate_splitOn _ location.toList _ _ '/'
  rw [hsplit] at hjoin
  exact String.toList_eq_nil_iff.mp hjoin.symm

lemma notMem_of_mem_splitOn {c : Char} {cs piece : List Char} (h : piece ∈ cs.splitOn c) :
    c ∉ piece := by
  induction hlength : cs.length using Nat.strong_induction_on generalizing cs with
  | _ n ih =>
    by_cases hc : c ∈ cs
    · obtain ⟨xs, ys, rfl, hxs⟩ := List.eq_append_cons_of_mem hc
      rw [List.splitOn_append_cons_self, List.splitOn_eq_singleton hxs, List.singleton_append,
        List.mem_cons] at h
      rcases h with rfl | h
      · exact hxs
      · refine ih ys.length ?_ h rfl
        simp only [← hlength, List.length_append, List.length_cons]
        omega
    · rw [List.splitOn_eq_singleton hc, List.mem_singleton] at h
      rwa [h]

lemma noSlash_of_mem_pieces {location piece : String} (h : piece ∈ pieces location) :
    '/' ∉ piece.toList := by
  obtain ⟨cs, hcs, rfl⟩ := List.mem_map.mp h
  rw [String.toList_ofList]
  exact notMem_of_mem_splitOn hcs

lemma isName_of_part? {piece name : String} (hslash : '/' ∉ piece.toList)
    (h : Location.part? piece = some (.named name)) : IsName name := by
  unfold Location.part? at h
  split_ifs at h with hidle habove
  · cases h
  obtain rfl : piece = name := by simpa using h
  rw [Bool.or_eq_true, decide_eq_true_eq, decide_eq_true_eq, not_or] at hidle
  exact ⟨hidle.1, hslash, hidle.2, habove⟩

/-- The name of a file is one part of its location. -/
lemma isName_of_fileName? {location name : String} (h : fileName? location = some name) :
    IsName name := by
  have hmem : LocationPart.named name ∈ partsOf (pieces location) := by
    rw [← parts_eq]
    unfold fileName? at h
    split at h
    · next hlast =>
      cases h
      exact List.mem_of_getLast? hlast
    · cases h
  have hpieces : ∀ piece ∈ pieces location, '/' ∉ piece.toList := fun _ => noSlash_of_mem_pieces
  cases hsplit : pieces location with
  | nil => exact absurd hsplit (pieces_ne_nil location)
  | cons first rest =>
    rw [hsplit] at hmem hpieces
    rw [List.forall_mem_cons] at hpieces
    rw [partsOf, List.mem_append, List.mem_filterMap] at hmem
    rcases hmem with hlead | ⟨piece, hpiece, hpart⟩
    · split_ifs at hlead
      · simp at hlead
      · simp at hlead
      · exact isName_of_part? hpieces.1 (Option.mem_toList.mp hlead)
    · exact isName_of_part? (hpieces.2 piece hpiece) hpart

/-- Joining a name to a location adds one part. -/
lemma parts_join (dir : String) {name : String} (h : IsName name) :
    parts (join dir name) = parts dir ++ [.named name] := by
  have hpieces := pieces_of_noSlash h.noSlash
  rw [parts_eq, parts_eq]
  rcases pieces_join dir h.relative with ⟨rfl, hjoin⟩ | ⟨ps, hps, hdir, hjoin⟩
  · rw [hjoin, hpieces, pieces_of_noSlash (by simp)]
    simp [partsOf, h.nonempty, h.notHere, h.notAbove, Location.part?]
  · rw [hjoin, hpieces, partsOf_append hps (by simp)]
    rcases hdir with ⟨hdir, hne⟩ | hdir
    · rw [hdir, partsOf_append_empty hps fun hps' => hne (eq_empty_of_pieces (hdir.trans hps'))]
      simp [h.part?]
    · rw [hdir]
      simp [h.part?]

/-! ### Names with another extension -/

lemma stemOf_isPrefix (name : String) : (stemOf name).toList <+: name.toList := by
  unfold stemOf
  split
  · next dot c cs hdrop =>
    obtain ⟨tail, htail⟩ := List.dropWhile_suffix (p := (· ≠ '.')) (l := name.toList.reverse)
    rw [hdrop] at htail
    have hname : name.toList = (c :: cs).reverse ++ ([dot] ++ tail.reverse) := by
      rw [← List.reverse_reverse name.toList, ← htail]
      simp
    rw [String.toList_ofList, hname]
    exact List.prefix_append _ _
  · exact List.prefix_rfl

/-- A name stays a name when its extension is replaced. -/
lemma isName_append_xml {stem : String} (h : '/' ∉ stem.toList) : IsName (stem ++ ".xml") := by
  have hlong : 4 ≤ (stem ++ ".xml").toList.length := by
    simp [String.toList_append]
  constructor
  · intro heq
    simp [heq] at hlong
  · rw [String.toList_append, List.mem_append, not_or]
    exact ⟨h, by decide⟩
  · intro heq
    simp [heq] at hlong
  · intro heq
    simp [heq] at hlong

/-! ### Lists of names -/

/-- The pieces of a list of names are the names. -/
lemma pieces_ofNames {names : List String} (hne : names ≠ []) (h : ∀ n ∈ names, IsName n) :
    pieces (ofNames names) = names := by
  induction names using List.reverseRecOn with
  | nil => contradiction
  | append_singleton names name ih =>
    have hname := h name (by simp)
    have hpieces := pieces_of_noSlash hname.noSlash
    rw [ofNames, List.foldl_append]
    change pieces (join (ofNames names) name) = _
    by_cases hnames : names = []
    · subst hnames
      simpa [ofNames, join, hname.relative] using hpieces
    · have ih := ih hnames fun n hn => h n (by simp [hn])
      have hnot : "" ∉ names := fun hmem => (h "" (by simp [hmem])).nonempty rfl
      rcases pieces_join (ofNames names) hname.relative with
        ⟨hempty, -⟩ | ⟨ps, -, ⟨hdir, -⟩ | hdir, hjoin⟩
      · rw [hempty, pieces_of_noSlash (by simp)] at ih
        exact absurd (by simp [← ih]) hnot
      · rw [hjoin, ← hdir, ih, hpieces]
      · rw [ih] at hdir
        exact absurd (by simp [hdir]) hnot

lemma pieces_of_startsWith {location : String} (h : location.startsWith "/" = true) :
    "" ∈ pieces location := by
  rw [String.startsWith_string_iff] at h
  obtain ⟨s, hs⟩ := h
  have hsplit := @List.splitOn_append_cons_self _ _ _ '/' [] s
  change ("/".toList ++ s).splitOn '/' = _ at hsplit
  rw [pieces, ← hs, hsplit]
  simp

lemma relative_ofNames {names : List String} (hne : names ≠ []) (h : ∀ n ∈ names, IsName n) :
    (ofNames names).startsWith "/" = false := by
  by_contra hstarts
  have := pieces_of_startsWith (Bool.eq_true_of_not_eq_false hstarts)
  rw [pieces_ofNames hne h] at this
  exact (h "" this).nonempty rfl

/-- The location of a list of names below a directory. -/
def below (dir : String) (names : List String) : String :=
  names.foldl join dir

lemma below_cons (dir name : String) (names : List String) :
    below dir (name :: names) = below (join dir name) names := rfl

lemma below_concat (dir : String) (names : List String) (name : String) :
    below dir (names ++ [name]) = join (below dir names) name := by
  simp [below]

/-- The parts of a location below a directory are those of the directory and the names. -/
lemma parts_below (dir : String) {names : List String} (h : ∀ n ∈ names, IsName n) :
    parts (below dir names) = parts dir ++ names.map .named := by
  induction names generalizing dir with
  | nil => simp [below]
  | cons name names ih =>
    rw [List.forall_mem_cons] at h
    change parts (below (join dir name) names) = _
    rw [ih (join dir name) h.2, parts_join dir h.1]
    simp

lemma parts_ofNames {names : List String} (h : ∀ n ∈ names, IsName n) :
    parts (ofNames names) = names.map .named :=
  (parts_below "" h).trans (by rw [parts_eq, pieces_of_noSlash (by simp)]; rfl)

end Iconsmith.Location
