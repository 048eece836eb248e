import Iconsmith.Proofs.ImageVector.Headers

/-!
# Packages of nested groups

The package of the icons of a group and the directory of the group render the same names. Split at its
points, the package is the base package followed by the directories, one for each name from the root down,
whatever characters the names are made of. A directory of a group can be a part of a package as it is.

A group is declared in the package of the icons of the group above, so what one file declares is what
another one imports.
-/

namespace Iconsmith

namespace ImageVector

/-! ### The names in a package -/

/-- The names that a package is made of. The empty package has none. -/
def packageNames (package : String) : List String :=
  if package = "" then [] else packageParts package

lemma packageNames_word {segment : String} (h : Naming.IsWord segment) :
    packageNames segment = [segment] := by
  rw [packageNames, if_neg h.isName.nonempty, packageParts,
    List.splitOn_eq_singleton (h.notMem (by decide)), List.map_singleton, String.ofList_toList]

lemma packageNames_joinPackage (package : String) {segment : String} (h : Naming.IsWord segment) :
    packageNames (Group.joinPackage package segment) = packageNames package ++ [segment] := by
  by_cases hempty : package = ""
  · subst hempty
    exact packageNames_word h
  · have hjoin : Group.joinPackage package segment ≠ "" := by
      simp [Group.joinPackage, hempty, h.isName.nonempty]
    rw [packageNames, if_neg hjoin, packageParts_joinPackage hempty h, packageNames, if_neg hempty]

/-- The names in a package below a base package are those of the base package and the segments. -/
lemma packageNames_packageOf (basePackage : String) (names : List String) :
    packageNames (Group.packageOf basePackage names)
      = packageNames basePackage ++ names.map Naming.packageSegment := by
  induction names generalizing basePackage with
  | nil => simp [Group.packageOf]
  | cons name names ih =>
    rw [Group.packageOf_cons, ih, packageNames_joinPackage _ (Naming.isWord_packageSegment name)]
    simp

/-- No directory is left out for a package that has nothing empty between its points. -/
lemma packageDirectories_eq_packageNames {package : String}
    (h : ∀ part ∈ packageNames package, part ≠ "") :
    packageDirectories package = packageNames package := by
  by_cases hempty : package = ""
  · subst hempty
    rfl
  · rw [packageNames, if_neg hempty] at h ⊢
    exact packageDirectories_of_ne_empty h

end ImageVector

namespace Group

open ImageVector (packageNames packageParts packageDirectories packageNames_packageOf
  packageDirectories_packageOf packageDirectories_eq_packageNames)

/-! ### Groups and their packages -/

lemma packageParts_iconsPackage (g : Group) :
    packageParts g.iconsPackage = packageNames g.basePackage ++ g.directory := by
  have hnames : packageNames g.iconsPackage = packageNames g.basePackage ++ g.directory :=
    packageNames_packageOf g.basePackage g.names
  rw [← hnames, packageNames, if_neg]
  intro hempty
  rw [hempty, packageNames, if_pos rfl] at hnames
  exact g.directory_ne_nil (List.append_eq_nil_iff.mp hnames.symm).2

lemma isSegment_directory (g : Group) : ∀ d ∈ g.directory, Naming.IsSegment d :=
  List.forall_mem_map.mpr fun name _ => Naming.isSegment_packageSegment name

lemma isName_directory (g : Group) : ∀ d ∈ g.directory, Location.IsName d :=
  List.forall_mem_map.mpr fun name _ => (Naming.isWord_packageSegment name).isName

/-- A child of a group has the group as its parent, and is declared where the icons of the group are. For a
base package that is empty or has nothing empty between its points, the package of the icons, split at its
points, is the base package and the directory of the group, and so is the directory of the package. The
directory has a part for each name, which is a segment. -/
theorem packages_of_nesting (basePackage root : String) (below : List String)
    (hbase : ∀ part ∈ packageNames basePackage, part ≠ "") :
    let g := below.foldl child (ofRoot basePackage root)
    g.names = root :: below
      ∧ (∀ name, (g.child name).parent? = some g ∧ (g.child name).groupPackage = g.iconsPackage)
      ∧ packageParts g.iconsPackage = packageNames basePackage ++ g.directory
      ∧ packageDirectories g.iconsPackage = packageNames basePackage ++ g.directory
      ∧ g.directory.length = g.names.length
      ∧ Location.parts (Location.ofNames g.directory) = g.directory.map .named
      ∧ ∀ d ∈ g.directory, Naming.IsSegment d := by
  intro g
  have hg : g = ⟨basePackage, root, below⟩ := foldl_child basePackage root below
  have hbasePackage : g.basePackage = basePackage := by rw [hg]
  have hparts := g.packageParts_iconsPackage
  have hdirectories : packageDirectories g.iconsPackage
      = packageDirectories g.basePackage ++ g.directory :=
    packageDirectories_packageOf g.basePackage g.names
  rw [hbasePackage] at hparts hdirectories
  rw [packageDirectories_eq_packageNames hbase] at hdirectories
  have hnames : g.names = root :: below := by rw [hg, names]
  have hlength : g.directory.length = g.names.length := by rw [directory, List.length_map]
  exact ⟨hnames, fun name => ⟨g.parent?_child name, g.groupPackage_child name⟩, hparts,
    hdirectories, hlength, Location.parts_ofNames g.isName_directory, g.isSegment_directory⟩

/-- Names with points, slashes, digits and keywords in them, and one of which nothing is left, each lead to
one directory. -/
theorem packages_of_odd_names :
    let g := ["a/b.C", "Object", "--", "3 d"].foldl child (ofRoot "com.example.app" "Icons")
    (∀ part ∈ packageNames "com.example.app", part ≠ "")
      ∧ g.iconsPackage = "com.example.app.icons.abc._object._unnamed._3d"
      ∧ packageParts g.iconsPackage = ["com", "example", "app"] ++ g.directory
      ∧ ∀ d ∈ g.directory, Naming.IsSegment d := by
  have hbase : ∀ part ∈ packageNames "com.example.app", part ≠ "" := by decide
  obtain ⟨-, -, hparts, -, -, -, hsegments⟩ :=
    packages_of_nesting "com.example.app" "Icons" ["a/b.C", "Object", "--", "3 d"] hbase
  exact ⟨hbase, by decide +kernel, hparts, hsegments⟩

end Group

end Iconsmith
