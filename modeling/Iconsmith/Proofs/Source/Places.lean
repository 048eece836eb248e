import Iconsmith.Proofs.Files.Locations
import Iconsmith.Proofs.Naming.Groups
import Iconsmith.Proofs.Naming.Segments
import Iconsmith.Proofs.Results
import Iconsmith.Options.Basic
import Iconsmith.Source.Emission

/-!
# Places of generated files

Where a source belongs depends on its group and its name only. The directories on the way are words;
the name of the file itself ends in an extension.
-/

namespace Iconsmith

namespace Naming

lemma IsWord.notMem {name : String} (h : IsWord name) {c : Char} (hc : isSegmentChar c = false) :
    c ∉ name.toList := by
  intro hmem
  rw [h.2 c hmem] at hc
  contradiction

lemma IsWord.isName {name : String} (h : IsWord name) : Location.IsName name where
  nonempty hname := h.1 (by rw [hname]; rfl)
  noSlash := h.notMem (by decide)
  notHere hname := h.notMem (c := '.') (by decide) (by rw [hname]; decide)
  notAbove hname := h.notMem (c := '.') (by decide) (by rw [hname]; decide)

end Naming

namespace ImageVector

/-! ### Directories of packages -/

lemma packageDirectories_empty : packageDirectories "" = [] := rfl

lemma packageDirectories_dot (package segment : String) :
    packageDirectories (package ++ "." ++ segment)
      = packageDirectories package ++ packageDirectories segment := by
  have hdot : ".".toList = ['.'] := rfl
  simp only [packageDirectories, String.toList_append, hdot, List.append_assoc,
    List.singleton_append, List.splitOn_append_cons_self, List.map_append, List.filter_append]

lemma packageDirectories_word {segment : String} (h : Naming.IsWord segment) :
    packageDirectories segment = [segment] := by
  have hne : segment ≠ "" := h.isName.nonempty
  rw [packageDirectories, List.splitOn_eq_singleton (h.notMem (by decide))]
  simp [hne]

lemma packageDirectories_joinPackage (package : String) {segment : String}
    (h : Naming.IsWord segment) : packageDirectories (Group.joinPackage package segment)
      = packageDirectories package ++ [segment] := by
  unfold Group.joinPackage
  split_ifs with hempty
  · rw [String.isEmpty_iff.mp hempty, packageDirectories_empty, packageDirectories_word h]
    rfl
  · rw [packageDirectories_dot, packageDirectories_word h]

/-- The directories of a package below a base package are those of the base package and the
segments. -/
lemma packageDirectories_packageOf (basePackage : String) (names : List String) :
    packageDirectories (Group.packageOf basePackage names)
      = packageDirectories basePackage ++ names.map Naming.packageSegment := by
  induction names generalizing basePackage with
  | nil => simp [Group.packageOf]
  | cons name names ih =>
    change packageDirectories (Group.packageOf (Group.joinPackage basePackage _) names) = _
    rw [ih, packageDirectories_joinPackage _ (Naming.isWord_packageSegment name)]
    simp

lemma isWord_packageDirectories {package : String} (h : Options.isPackage package = true) :
    ∀ d ∈ packageDirectories package, Naming.IsWord d := by
  intro d hd
  obtain ⟨hd, -⟩ := List.mem_filter.mp hd
  obtain ⟨s, hs, rfl⟩ := List.mem_map.mp hd
  exact Naming.isWord_of_isIdentifier (List.all_eq_true.mp h s hs)

end ImageVector

namespace Source

/-! ### Files in directories -/

/-- Where a source belongs: the directories below those of the base package, and the name of the
file without its extension. -/
structure Place where
  directories : List String
  stem : String

namespace Backend

variable (b : Backend)

/-- The directories of the base package, for frameworks with packages. -/
def baseDirectories (package : String) : List String :=
  match b with
  | declarativeUi => ImageVector.packageDirectories package
  | nativeShape => []

/-- The names that lead to a place. -/
def namesOf (package : String) (p : Place) : List String :=
  b.baseDirectories package ++ p.directories ++ [b.fileNameOf p.stem]

/-- The place of an icon. -/
def iconPlace (group : Group) (symbol : String) : Place :=
  ⟨group.directory, symbol⟩

/-- The place of the accessor of a group. -/
def accessorPlace (allAssets : String) (group : Group) : Place :=
  match b with
  | declarativeUi => ⟨group.directory.dropLast, group.name⟩
  | nativeShape => ⟨group.directory, group.name ++ "+" ++ allAssets⟩

lemma fileNameOf_injective : Function.Injective b.fileNameOf := by
  intro s t h
  have h := congrArg String.toList h
  simp only [fileNameOf, String.toList_append] at h
  exact String.toList_inj.mp (List.append_cancel_right (List.append_cancel_right h))

lemma namesOf_injective (package : String) : Function.Injective (b.namesOf package) := by
  rintro ⟨dirs, stem⟩ ⟨dirs', stem'⟩ h
  obtain ⟨hdirs, hfile⟩ := List.append_inj' h rfl
  obtain rfl := List.append_cancel_left hdirs
  obtain rfl := b.fileNameOf_injective (List.singleton_injective hfile)
  rfl

variable {b}

lemma checkSymbol_eq_ok {symbol : String} :
    checkSymbol b symbol = .ok () ↔ Naming.isIdentifier symbol = true := by
  unfold checkSymbol
  split_ifs with h <;> simp [h]

/-- An icon has an identifier as its symbol and belongs into the directory of its group. -/
lemma names_icon {settings : Settings} {group : Group} {symbol : String} {g : Graphic Float}
    {f : File} (h : b.icon settings group symbol g = .ok f) :
    Naming.isIdentifier symbol = true
      ∧ f.names = b.namesOf group.basePackage (iconPlace group symbol) := by
  cases b with
  | declarativeUi =>
    obtain ⟨⟨⟩, hsymbol, h⟩ := bind_eq_ok.mp h
    obtain ⟨⟨⟩, -, h⟩ := bind_eq_ok.mp h
    obtain rfl := pure_eq_ok.mp h
    refine ⟨checkSymbol_eq_ok.mp hsymbol, ?_⟩
    dsimp only
    rw [Group.iconsPackage, ImageVector.packageDirectories_packageOf]
    rfl
  | nativeShape =>
    obtain ⟨⟨⟩, hsymbol, h⟩ := bind_eq_ok.mp h
    obtain ⟨⟨⟩, -, h⟩ := bind_eq_ok.mp h
    obtain rfl := pure_eq_ok.mp h
    exact ⟨checkSymbol_eq_ok.mp hsymbol, rfl⟩

/-- The accessor of a group belongs beside the icons of the group, or of the group above. -/
lemma names_accessor {settings : Settings} {m : Members} {f : File}
    (h : b.accessor settings m = .ok f) :
    Naming.isIdentifier m.group.name = true
      ∧ f.names
        = b.namesOf m.group.basePackage (b.accessorPlace settings.allAssets m.group) := by
  cases b with
  | declarativeUi =>
    obtain ⟨⟨⟩, hname, h⟩ := bind_eq_ok.mp h
    obtain ⟨⟨⟩, -, h⟩ := bind_eq_ok.mp h
    obtain rfl := pure_eq_ok.mp h
    refine ⟨checkSymbol_eq_ok.mp hname, ?_⟩
    dsimp only
    rw [Group.groupPackage, ImageVector.packageDirectories_packageOf, List.map_dropLast]
    rfl
  | nativeShape =>
    obtain ⟨⟨⟩, hname, h⟩ := bind_eq_ok.mp h
    obtain rfl := pure_eq_ok.mp h
    exact ⟨checkSymbol_eq_ok.mp hname, rfl⟩

end Backend

/-! ### Files side by side -/

/-- Neither of two files is the other one or lies below it. -/
def Apart (f g : File) : Prop :=
  ¬ Location.parts f.location <+: Location.parts g.location
    ∧ ¬ Location.parts g.location <+: Location.parts f.location

/-- Words lead to the directory of a file, whose name holds a point. -/
def Placed (names : List String) : Prop :=
  ∃ dirs file, names = dirs ++ [file] ∧ (∀ d ∈ dirs, Naming.IsWord d)
    ∧ Location.IsName file ∧ '.' ∈ file.toList

lemma Placed.isName {names : List String} (h : Placed names) :
    names ≠ [] ∧ ∀ n ∈ names, Location.IsName n := by
  obtain ⟨dirs, file, rfl, hdirs, hfile, -⟩ := h
  refine ⟨by simp, fun n hn => ?_⟩
  rcases List.mem_append.mp hn with hn | hn
  · exact (hdirs n hn).isName
  · rwa [List.mem_singleton.mp hn]

/-- No file lies below another one. -/
lemma Placed.not_isPrefix {names names' : List String} (h : Placed names) (h' : Placed names')
    (hne : names ≠ names') : ¬ names <+: names' := by
  obtain ⟨dirs, file, rfl, -, -, hpoint⟩ := h
  obtain ⟨dirs', file', rfl, hdirs', -, -⟩ := h'
  intro hprefix
  rcases List.prefix_concat_iff.mp hprefix with heq | hprefix
  · exact hne heq
  · have hmem : file ∈ dirs' := hprefix.subset (by simp)
    exact (hdirs' file hmem).notMem (by decide) hpoint

lemma apart_of_ne {f g : File} (hf : Placed f.names) (hg : Placed g.names)
    (hne : f.names ≠ g.names) : Apart f g := by
  have hnamed : Function.Injective LocationPart.named := fun a b h => LocationPart.named.inj h
  unfold Apart File.location
  rw [Location.parts_ofNames hf.isName.2, Location.parts_ofNames hg.isName.2,
    List.prefix_map_iff_of_injective hnamed, List.prefix_map_iff_of_injective hnamed]
  exact ⟨hf.not_isPrefix hg hne, hg.not_isPrefix hf hne.symm⟩

namespace Backend

variable {b : Backend}

/-- A name of words with plus signs between them, and an extension after it, is that of a file. -/
lemma isName_fileNameOf {stem : String} (hne : stem.toList ≠ [])
    (hstem : ∀ c ∈ stem.toList, Naming.isSegmentChar c = true ∨ c = '+') :
    Location.IsName (b.fileNameOf stem) ∧ '.' ∈ (b.fileNameOf stem).toList := by
  obtain ⟨c, s, hcs⟩ := List.exists_cons_of_ne_nil hne
  have htoList : (b.fileNameOf stem).toList = c :: (s ++ '.' :: b.fileExtension.toList) := by
    simp [fileNameOf, hcs]
  have hc : c ≠ '.' := by
    rintro rfl
    have := hstem '.' (by simp [hcs])
    revert this
    decide
  have hhead : ∀ t : List Char, (b.fileNameOf stem).toList ≠ '.' :: t := by
    intro t h
    rw [htoList] at h
    exact hc (List.cons.inj h).1
  refine ⟨⟨?_, ?_, ?_, ?_⟩, ?_⟩
  · intro h
    rw [h] at htoList
    simp at htoList
  · intro hslash
    have : '/' ∈ stem.toList ∨ '/' ∈ b.fileExtension.toList := by
      simpa [fileNameOf] using hslash
    rcases this with h | h
    · have := hstem '/' h
      revert this
      decide
    · revert h
      cases b <;> decide
  · exact fun h => hhead [] (by rw [h]; rfl)
  · exact fun h => hhead ['.'] (by rw [h]; rfl)
  · simp [htoList]

/-- Words lead to the directory of a file. The file is named by words with plus signs between them,
and by the extension of the framework. -/
def Confined (b : Backend) (names : List String) : Prop :=
  ∃ dirs stem, names = dirs ++ [b.fileNameOf stem] ∧ (∀ d ∈ dirs, Naming.IsWord d)
    ∧ stem.toList ≠ [] ∧ ∀ c ∈ stem.toList, Naming.isSegmentChar c = true ∨ c = '+'

lemma Confined.placed {names : List String} (h : b.Confined names) : Placed names := by
  obtain ⟨dirs, stem, hnames, hdirs, hne, hstem⟩ := h
  exact ⟨dirs, _, hnames, hdirs, isName_fileNameOf hne hstem⟩

end Backend

end Source

end Iconsmith
