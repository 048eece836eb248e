import Iconsmith.Proofs.Decimal.ReadBack
import Iconsmith.Proofs.Source.Acceptance
import Iconsmith.Proofs.Source.Layouts
import Iconsmith.Shape.Accessor
import Iconsmith.Shape.Icon

/-!
# Types that shapes declare

A type is declared by a line that begins with one of a few words and then its name. What is inside of
something else is indented, so the types at the top level of a file are known by the lines that are not.
An icon declares its structure and that of its preview, and the accessor of the root group declares an
enumeration; the accessors of other groups only extend it.
-/

namespace Iconsmith.Shape

open Source (IsLine block indent isLine_append isLine_block isLine_commaList linesOf)

/-- The words behind which stands the name of a type. -/
def typeWords : List String :=
  ["class", "enum", "protocol", "struct", "typealias"]

/-- The name of the type that a line declares, if it does and is not indented. -/
def typeOf? (line : String) : Option String :=
  typeWords.findSome? fun word =>
    (Text.dropLeading? (word ++ " ").toList line.toList).map fun rest =>
      String.ofList (rest.takeWhile Naming.isSegmentChar)

/-- The types that a text declares at its top level. -/
def typesOf (text : String) : List String :=
  (linesOf text).filterMap typeOf?

/-- The structure that previews an icon. -/
def previewName (symbol : String) : String :=
  symbol ++ "_Previews"

/-! ### Lines -/

section Lines

variable {line : String} {xs ys : List String}

lemma typeOf?_of_head? (h : ∀ c ∈ line.toList.head?, c ∉ ['c', 'e', 'p', 's', 't']) :
    typeOf? line = none := by
  cases hline : line.toList with
  | nil => simp [typeOf?, typeWords, hline, Text.dropLeading?]
  | cons c s =>
    have hc := h c (by rw [hline]; rfl)
    simp only [List.mem_cons, List.not_mem_nil, or_false, not_or] at hc
    simp [typeOf?, typeWords, hline, Text.dropLeading?, eq_comm, hc]

/-- A declaration goes on behind the name with a character that no name has. -/
lemma typeOf?_declaration {word name : String} (hword : word ∈ typeWords)
    (hname : Naming.IsWord name) {rest : List Char} (hrest : Text.Avoids Naming.isSegmentChar rest)
    (hline : line.toList = word.toList ++ ' ' :: (name.toList ++ rest)) :
    typeOf? line = some name := by
  have htake := Text.takeWhile_append hname.2 hrest
  simp only [typeWords, List.mem_cons, List.not_mem_nil, or_false] at hword
  rcases hword with rfl | rfl | rfl | rfl | rfl <;>
    simp [typeOf?, typeWords, hline, Text.dropLeading?, htake]

lemma filterMap_typeOf?_indent (xs : List String) : (indent xs).filterMap typeOf? = [] := by
  rw [List.filterMap_eq_nil_iff]
  intro line hline
  obtain ⟨x, -, rfl⟩ := List.mem_map.mp hline
  apply typeOf?_of_head?
  split
  · rename_i hempty
    rw [String.isEmpty_iff.mp hempty]
    nofun
  · rw [String.toList_append]
    rintro _ ⟨⟩
    decide

lemma filterMap_typeOf?_block (head : String) (xs : List String) :
    (block head xs).filterMap typeOf? = (typeOf? (head ++ " \x7b")).toList := by
  have hend : typeOf? "\x7d" = none := by decide
  rw [block, List.cons_append, List.filterMap_cons, List.filterMap_append,
    filterMap_typeOf?_indent, List.filterMap_cons, hend]
  cases typeOf? (head ++ " \x7b") <;> rfl

lemma typesOf_textOf (hxs : ∀ x ∈ xs, IsLine x) (hne : xs ≠ []) :
    typesOf (Source.textOf xs) = xs.filterMap typeOf? := by
  rw [typesOf, Source.linesOf_textOf hxs hne]

end Lines

/-! ### Icons -/

section Icons

variable {settings : Source.Settings} {group : Group} {symbol : String} {g : Graphic Float}
  {f : Source.File}

lemma isLine_numberLiteral (x : Float) : IsLine (numberLiteral x) := by
  intro hmem
  have hchar := Decimal.mem_text .literal x '\n' hmem
  revert hchar
  decide

lemma isLine_pointArgument {label : String} (hlabel : IsLine label) (viewport p : Point Float) :
    IsLine (pointArgument viewport label p) := by
  have hx : IsLine "CGPoint(x: rect.minX + " := by decide
  have hy : IsLine " * width, y: rect.minY + " := by decide
  have hend : IsLine " * height)" := by decide
  have hcolon : IsLine ": " := by decide
  unfold pointArgument pointCall
  simp only [isLine_append, isLine_numberLiteral, hlabel, hx, hy, hend, hcolon, and_self]

lemma isLine_statement (viewport : Point Float) (s : Segment Float) :
    IsLine (statement viewport s) := by
  have hpath : IsLine "path." := by decide
  have hopen : IsLine "(" := by decide
  have hclose : IsLine ")" := by decide
  have hmethod : IsLine (methodName s) := by
    cases s <;> simp only [methodName] <;> decide
  have hlabels : ∀ a ∈ labelledPoints s, IsLine a.1 := by
    cases s <;> simp [labelledPoints] <;> decide
  have hlist := isLine_commaList (List.forall_mem_map.mpr fun a ha =>
    isLine_pointArgument (hlabels a ha) viewport a.2)
  unfold statement
  simp only [isLine_append, hpath, hopen, hclose, hmethod, true_and, and_true]
  exact hlist

lemma isLine_declaration (hsymbol : IsLine symbol) (g : Graphic Float) :
    ∀ line ∈ declaration symbol g, IsLine line := by
  have hhead : IsLine ("struct " ++ symbol ++ ": Shape") :=
    isLine_append.mpr ⟨isLine_append.mpr ⟨by decide, hsymbol⟩, by decide⟩
  refine isLine_block hhead (isLine_block (by decide) ?_)
  refine List.forall_mem_append.mpr ⟨List.forall_mem_append.mpr ⟨by decide, ?_⟩, by decide⟩
  exact List.forall_mem_map.mpr fun segment _ => isLine_statement g.viewport segment

lemma isLine_modifiers (g : Graphic Float) : ∀ line ∈ modifiers g, IsLine line := by
  refine List.forall_mem_append.mpr ⟨?_, ?_⟩
  · unfold fillModifier
    cases sharedFill? g.paths with
    | none => nofun
    | some fill =>
      have hopen : IsLine ".fill(" := by decide
      have hclose : IsLine ")" := by decide
      have hred : IsLine "Color(red: " := by decide
      have hgreen : IsLine ", green: " := by decide
      have hblue : IsLine ", blue: " := by decide
      have hopacity : IsLine ", opacity: " := by decide
      simp only [List.forall_mem_singleton]
      unfold colorCall
      simp only [isLine_append, isLine_numberLiteral, hopen, hclose, hred, hgreen, hblue, hopacity,
        and_self]
  · have hwidth : IsLine ".frame(width: " := by decide
    have hheight : IsLine ", height: " := by decide
    have hclose : IsLine ")" := by decide
    have hpadding : IsLine ".padding(12)" := by decide
    simp only [List.forall_mem_cons, isLine_append, isLine_numberLiteral, hwidth, hheight, hclose,
      hpadding, and_self, true_and]
    nofun

lemma isLine_preview (hsymbol : IsLine symbol) (g : Graphic Float) :
    ∀ line ∈ preview symbol g, IsLine line := by
  have hhead : IsLine ("struct " ++ symbol ++ "_Previews: PreviewProvider") :=
    isLine_append.mpr ⟨isLine_append.mpr ⟨by decide, hsymbol⟩, by decide⟩
  have hcall : IsLine (symbol ++ "()") := isLine_append.mpr ⟨hsymbol, by decide⟩
  refine List.forall_mem_append.mpr ⟨List.forall_mem_append.mpr ⟨by decide, ?_⟩, by decide⟩
  refine isLine_block hhead (isLine_block (by decide) ?_)
  exact List.forall_mem_cons.mpr ⟨hcall, Source.isLine_indent (isLine_modifiers g)⟩

lemma isLine_iconLines (hsymbol : IsLine symbol) (settings : Source.Settings) (g : Graphic Float) :
    ∀ line ∈ iconLines settings symbol g, IsLine line := by
  refine List.forall_mem_append.mpr ⟨List.forall_mem_append.mpr ⟨?_, ?_⟩, by decide⟩
  · exact List.forall_mem_append.mpr ⟨by decide, isLine_declaration hsymbol g⟩
  · split
    · exact List.forall_mem_cons.mpr ⟨by decide, isLine_preview hsymbol g⟩
    · nofun

lemma isWord_previewName (hsymbol : Naming.IsWord symbol) : Naming.IsWord (previewName symbol) := by
  have hsuffix : ∀ c ∈ "_Previews".toList, Naming.isSegmentChar c = true := by decide
  rw [Naming.IsWord, previewName, String.toList_append]
  exact ⟨List.append_ne_nil_of_left_ne_nil hsymbol.1 _,
    List.forall_mem_append.mpr ⟨hsymbol.2, hsuffix⟩⟩

lemma typeOf?_structure (hsymbol : Naming.IsWord symbol) {rest : String}
    (hrest : Text.Avoids Naming.isSegmentChar rest.toList) :
    typeOf? ("struct " ++ symbol ++ rest) = some symbol := by
  have hword : "struct" ∈ typeWords := by decide
  exact typeOf?_declaration hword hsymbol hrest (by simp)

lemma filterMap_typeOf?_declaration (hsymbol : Naming.IsWord symbol) (g : Graphic Float) :
    (declaration symbol g).filterMap typeOf? = [symbol] := by
  have hrest : Text.Avoids Naming.isSegmentChar ": Shape \x7b".toList :=
    Text.avoids_cons (by decide)
  have hhead : "struct " ++ symbol ++ ": Shape" ++ " \x7b" = "struct " ++ symbol ++ ": Shape \x7b" := by
    apply String.toList_inj.mp
    simp
  rw [declaration, filterMap_typeOf?_block, hhead, typeOf?_structure hsymbol hrest]
  rfl

lemma filterMap_typeOf?_preview (hsymbol : Naming.IsWord symbol) (g : Graphic Float) :
    (preview symbol g).filterMap typeOf? = [previewName symbol] := by
  have hrest : Text.Avoids Naming.isSegmentChar ": PreviewProvider \x7b".toList :=
    Text.avoids_cons (by decide)
  have hhead : "struct " ++ symbol ++ "_Previews: PreviewProvider" ++ " \x7b" =
      "struct " ++ previewName symbol ++ ": PreviewProvider \x7b" := by
    apply String.toList_inj.mp
    simp [previewName]
  have hif : typeOf? "#if DEBUG" = none := by decide
  have hend : typeOf? "#endif" = none := by decide
  rw [preview, List.filterMap_append, List.filterMap_append, filterMap_typeOf?_block, hhead,
    typeOf?_structure (isWord_previewName hsymbol) hrest]
  simp [hif, hend]

/-- An icon declares its structure, and that of its preview if there is one. -/
theorem typesOf_icon (h : icon settings group symbol g = .ok f) :
    typesOf f.text = symbol :: if settings.preview then [previewName symbol] else [] := by
  obtain ⟨⟨⟩, hsymbol, h⟩ := bind_eq_ok.mp h
  obtain ⟨⟨⟩, -, h⟩ := bind_eq_ok.mp h
  obtain rfl := pure_eq_ok.mp h
  have hword := Naming.isWord_of_isIdentifier (Source.Backend.checkSymbol_eq_ok.mp hsymbol)
  have himports : ["import SwiftUI", ""].filterMap typeOf? = [] := by decide
  have hempty : typeOf? "" = none := by decide
  have hne : iconLines settings symbol g ≠ [] := List.cons_ne_nil _ _
  rw [typesOf_textOf (isLine_iconLines (Source.isLine_of_isWord hword) settings g) hne, iconLines,
    List.filterMap_append, List.filterMap_append, List.filterMap_append, himports,
    filterMap_typeOf?_declaration hword]
  split_ifs
  · simp [hempty, filterMap_typeOf?_preview hword]
  · simp [hempty]

end Icons

/-! ### Accessors -/

section Accessors

variable {settings : Source.Settings} {allAssets : String} {m : Source.Members} {f : Source.File}

/-- All names that occur in an accessor are words. -/
structure Worded (allAssets : String) (m : Source.Members) : Prop where
  group : ∀ n ∈ m.group.names, Naming.IsWord n
  icons : ∀ n ∈ m.icons, Naming.IsWord n
  children : ∀ n ∈ m.children, Naming.IsWord n
  allAssets : Naming.IsWord allAssets

lemma isLine_memberName {name : String} (h : Naming.IsWord name) : IsLine (memberName name) := by
  have hquote : IsLine "\x60" := by decide
  have hmember : IsLine (Naming.uncapitalize name) :=
    fun hmem => absurd (h.uncapitalize _ hmem) (by decide)
  unfold memberName
  dsimp only
  split
  · exact isLine_append.mpr ⟨isLine_append.mpr ⟨hquote, hmember⟩, hquote⟩
  · exact hmember

lemma isLine_iconMembers {icons : List String} (h : ∀ n ∈ icons, Naming.IsWord n) :
    ∀ line ∈ iconMembers icons, IsLine line := by
  unfold iconMembers
  split
  · nofun
  · refine List.forall_mem_append.mpr ⟨List.forall_mem_map.mpr fun n hn => ?_, by decide⟩
    have hstatic : IsLine "static let " := by decide
    have hequals : IsLine " = " := by decide
    have hcall : IsLine "()" := by decide
    simp only [isLine_append, isLine_memberName (h n hn), Source.isLine_of_isWord (h n hn), hstatic,
      hequals, hcall, and_self]

lemma isLine_assetsExpression (h : Worded allAssets m) :
    IsLine (assetsExpression allAssets m) := by
  have hassets := isLine_memberName h.allAssets
  have hown : ∀ part ∈ m.icons.map memberName, IsLine part :=
    List.forall_mem_map.mpr fun n hn => isLine_memberName (h.icons n hn)
  have hparts : ∀ part ∈ (if (m.icons.map memberName).isEmpty then []
      else ["[" ++ Source.commaList (m.icons.map memberName) ++ "]"])
        ++ m.children.map fun child => child ++ "." ++ memberName allAssets,
      IsLine part := by
    refine List.forall_mem_append.mpr ⟨?_, List.forall_mem_map.mpr fun n hn => ?_⟩
    · split
      · nofun
      · have hlist := isLine_commaList hown
        exact List.forall_mem_singleton.mpr
          (isLine_append.mpr ⟨isLine_append.mpr ⟨by decide, hlist⟩, by decide⟩)
    · have hchild := Source.isLine_of_isWord (h.children n hn)
      exact isLine_append.mpr ⟨isLine_append.mpr ⟨hchild, by decide⟩, hassets⟩
  unfold assetsExpression
  dsimp only
  generalize (if (m.icons.map memberName).isEmpty then [] else _) ++ _ = parts at hparts ⊢
  split
  · decide
  · exact Source.isLine_intercalate (by decide) hparts

lemma isLine_enumeration (h : Worded allAssets m) :
    ∀ line ∈ enumeration allAssets m, IsLine line := by
  have hname := Source.isLine_of_isWord (h.group _ m.group.name_mem_names)
  have hvar : IsLine ("static var " ++ memberName allAssets ++ ": [any Shape]") :=
    isLine_append.mpr ⟨isLine_append.mpr ⟨by decide, isLine_memberName h.allAssets⟩, by decide⟩
  refine isLine_block (isLine_append.mpr ⟨by decide, hname⟩) ?_
  refine List.forall_mem_append.mpr ⟨isLine_iconMembers h.icons, isLine_block hvar ?_⟩
  exact List.forall_mem_singleton.mpr (isLine_assetsExpression h)

/-- The line that opens the extension of the group above. -/
def extensionHead (p : Group) : String :=
  "extension " ++ ".".intercalate p.names

lemma isLine_extensionHead (h : Worded allAssets m) {p : Group}
    (hp : m.group.parent? = some p) : IsLine (extensionHead p) := by
  have hnames : ∀ n ∈ p.names, Naming.IsWord n := by
    unfold Group.parent? at hp
    split_ifs at hp
    cases hp
    intro n hn
    refine h.group n ?_
    rcases List.mem_cons.mp hn with rfl | hn
    · exact List.mem_cons_self
    · exact List.mem_cons_of_mem _ (List.mem_of_mem_dropLast hn)
  exact isLine_append.mpr ⟨by decide, Source.isLine_intercalate (by decide)
    fun n hn => Source.isLine_of_isWord (hnames n hn)⟩

lemma isLine_accessorLines (h : Worded allAssets m) :
    ∀ line ∈ accessorLines allAssets m, IsLine line := by
  have henumeration := isLine_enumeration h
  refine List.forall_mem_append.mpr ⟨List.forall_mem_append.mpr ⟨by decide, ?_⟩, by decide⟩
  split
  · rename_i p hp
    exact isLine_block (isLine_extensionHead h hp) henumeration
  · exact henumeration

lemma filterMap_typeOf?_enumeration (hname : Naming.IsWord m.group.name) (allAssets : String) :
    (enumeration allAssets m).filterMap typeOf? = [m.group.name] := by
  have hword : "enum" ∈ typeWords := by decide
  have hrest : Text.Avoids Naming.isSegmentChar " \x7b".toList := Text.avoids_cons (by decide)
  have hhead : typeOf? ("enum " ++ m.group.name ++ " \x7b") = some m.group.name :=
    typeOf?_declaration hword hname hrest (by simp)
  rw [enumeration, filterMap_typeOf?_block, hhead]
  rfl

/-- An extension is no type of its own. -/
lemma filterMap_typeOf?_extension (p : Group) (inside : List String) :
    (block (extensionHead p) inside).filterMap typeOf? = [] := by
  have hhead : typeOf? (extensionHead p ++ " \x7b") = none := by
    simp [extensionHead, typeOf?, typeWords, Text.dropLeading?]
  rw [filterMap_typeOf?_block, hhead]
  rfl

lemma text_of_accessor (h : accessor settings m = .ok f) :
    f.text = Source.textOf (accessorLines settings.allAssets m) := by
  obtain ⟨⟨⟩, -, h⟩ := bind_eq_ok.mp h
  obtain rfl := pure_eq_ok.mp h
  rfl

/-- The accessor of the root group declares the enumeration of the group, and that of another group
declares nothing at its top level. -/
theorem typesOf_accessor (hm : Worded settings.allAssets m)
    (h : accessor settings m = .ok f) :
    typesOf f.text = if m.group.isRoot then [m.group.name] else [] := by
  have himports : ["import SwiftUI", ""].filterMap typeOf? = [] := by decide
  have hempty : [""].filterMap typeOf? = [] := by decide
  have hne : accessorLines settings.allAssets m ≠ [] := List.cons_ne_nil _ _
  rw [text_of_accessor h, typesOf_textOf (isLine_accessorLines hm) hne, accessorLines,
    List.filterMap_append, List.filterMap_append, himports, hempty]
  by_cases hroot : m.group.isRoot = true
  · have hparent : m.group.parent? = none := by rw [Group.parent?, if_pos hroot]
    rw [hparent, if_pos hroot, List.nil_append, List.append_nil]
    exact filterMap_typeOf?_enumeration (hm.group _ m.group.name_mem_names) settings.allAssets
  · obtain ⟨p, hparent⟩ : ∃ p, m.group.parent? = some p := by
      rw [Group.parent?, if_neg hroot]
      exact ⟨_, rfl⟩
    rw [hparent, if_neg hroot, List.nil_append, List.append_nil]
    exact filterMap_typeOf?_extension p (enumeration settings.allAssets m)

end Accessors

end Iconsmith.Shape
