import Iconsmith.Proofs.ImageVector.PlainGroups

/-!
# Names between quotes

The names of groups and paths are written between quotes. What stands there neither ends the literal nor
begins a template, whatever the name is, and a literal is read as the name again. So another name changes
nothing of a source but the inside of its literal.
-/

namespace Iconsmith

/-- The node under another name. -/
def Node.named {α : Type} (name : String) : Node α → Node α
  | .group _ transform children => .group (some name) transform children
  | .path p => .path { p with name := some name }

namespace ImageVector

open Source (textOf)

/-! ### What stands between quotes -/

/-- The number of backslashes at the end of a text. -/
def backslashes (s : List Char) : Nat :=
  (s.rtakeWhile (· = '\\')).length

/-- What is read between quotes: a backslash stands for what follows it if that is a backslash, a quote or
a dollar sign, and with an `n` for a line feed. Any other character stands for itself. -/
def unescape : List Char → List Char
  | [] => []
  | '\\' :: '\\' :: s => '\\' :: unescape s
  | '\\' :: '"' :: s => '"' :: unescape s
  | '\\' :: '$' :: s => '$' :: unescape s
  | '\\' :: 'n' :: s => '\n' :: unescape s
  | c :: s => c :: unescape s

lemma backslashes_concat_backslash (s : List Char) :
    backslashes (s ++ ['\\']) = backslashes s + 1 := by
  rw [backslashes, List.rtakeWhile_concat_pos _ _ _ (by simp), List.length_append, backslashes]
  rfl

lemma backslashes_concat {c : Char} (hc : c ≠ '\\') (s : List Char) :
    backslashes (s ++ [c]) = 0 := by
  rw [backslashes, List.rtakeWhile_concat_neg _ _ _ (by simpa using hc), List.length_nil]

lemma escape_append (s t : List Char) : escape (s ++ t) = escape s ++ escape t := by
  induction s with
  | nil => rfl
  | cons c s ih => rw [List.cons_append, escape_cons, escape_cons, ih, List.append_assoc]

lemma escape_concat (s : List Char) (c : Char) : escape (s ++ [c]) = escape s ++ escapeChar c := by
  rw [escape_append, escape_cons, escape, List.append_nil]

/-- A literal is not ended by an escaped quote. -/
lemma even_backslashes_escape (s : List Char) : Even (backslashes (escape s)) := by
  induction s using List.reverseRecOn with
  | nil => decide
  | append_singleton s c ih =>
    rw [escape_concat, escapeChar]
    split_ifs with hfeed hspecial
    · rw [← List.singleton_append, ← List.append_assoc, backslashes_concat (by decide)]
      decide
    · rw [← List.singleton_append, ← List.append_assoc]
      by_cases hc : c = '\\'
      · rw [hc, backslashes_concat_backslash, backslashes_concat_backslash, add_assoc]
        exact ih.add even_two
      · rw [backslashes_concat hc]
        decide
    · rw [backslashes_concat (by tauto)]
      decide

/-- Before a quote or a dollar sign there is a backslash of its own. -/
lemma eq_of_escapeChar {c d : Char} {s t : List Char} (hc : c = '"' ∨ c = '$')
    (h : escapeChar d = s ++ c :: t) : s = ['\\'] := by
  have hfeed : c ≠ 'n' := by
    rcases hc with rfl | rfl <;> decide
  have hslash : c ≠ '\\' := by
    rcases hc with rfl | rfl <;> decide
  unfold escapeChar at h
  -- at most two characters stand for one, and the first of two is a backslash
  split_ifs at h <;> rcases s with _ | ⟨a, _ | ⟨b, s⟩⟩ <;>
    grind [List.append_eq_nil_iff]

/-- Quotes and dollar signs are all escaped. -/
lemma odd_backslashes {s before after : List Char} {c : Char}
    (h : escape s = before ++ c :: after) (hc : c = '"' ∨ c = '$') : Odd (backslashes before) := by
  induction s using List.reverseRecOn generalizing after with
  | nil => simp [escape] at h
  | append_singleton s d ih =>
    rw [escape_concat] at h
    -- the character is one of those that the last one became, or stands before them
    rcases List.append_eq_append_iff.mp h with ⟨u, rfl, hlast⟩ | ⟨u, hs, hlast⟩
    · rw [eq_of_escapeChar hc hlast, backslashes_concat_backslash]
      exact (even_backslashes_escape s).add_one
    · cases u with
      | nil => simpa using eq_of_escapeChar (s := []) hc hlast.symm
      | cons a u =>
        obtain ⟨rfl, -⟩ := List.cons.inj hlast
        exact ih hs

lemma unescape_cons {c : Char} (hc : c ≠ '\\') (s : List Char) :
    unescape (c :: s) = c :: unescape s := by
  rw [unescape] <;> simp [hc]

/-- What was escaped is read as it was. -/
lemma unescape_escape (s : List Char) : unescape (escape s) = s := by
  induction s with
  | nil => rfl
  | cons c s ih =>
    rw [escape_cons, escapeChar]
    split_ifs with hfeed hspecial
    · rw [hfeed]
      simp [unescape, ih]
    · rcases hspecial with rfl | rfl | rfl <;> simp [unescape, ih]
    · rw [List.singleton_append, unescape_cons (by tauto), ih]

/-! ### Lines with a literal -/

/-- Lines that depend on a text just inside of a literal in one of them. -/
def HoldsLiteral (lines : String → List String) : Prop :=
  ∃ above before after below,
    ∀ n, lines n = above ++ [before ++ stringLiteral n ++ after] ++ below

namespace HoldsLiteral

variable {lines : String → List String}

lemma of_eq (hlines : HoldsLiteral lines) {lines' : String → List String}
    (h : ∀ n, lines' n = lines n) : HoldsLiteral lines' :=
  (funext h : lines' = lines) ▸ hlines

lemma of_line {line : String → String} (before after : String)
    (h : ∀ n, line n = before ++ stringLiteral n ++ after) : HoldsLiteral fun n => [line n] :=
  ⟨[], before, after, [], fun n => congrArg (fun l => [l]) (h n)⟩

lemma append (hlines : HoldsLiteral lines) (xs ys : List String) :
    HoldsLiteral fun n => xs ++ lines n ++ ys := by
  obtain ⟨above, before, after, below, h⟩ := hlines
  refine ⟨xs ++ above, before, after, below ++ ys, fun n => ?_⟩
  simp only [h, List.append_assoc]

lemma indent (hlines : HoldsLiteral lines) : HoldsLiteral fun n => Source.indent (lines n) := by
  obtain ⟨above, before, after, below, h⟩ := hlines
  refine ⟨Source.indent above, "    " ++ before, after, Source.indent below, fun n => ?_⟩
  have hline : Source.indent [before ++ stringLiteral n ++ after]
      = ["    " ++ before ++ stringLiteral n ++ after] := by
    rw [Source.indent_cons (by simp [stringLiteral])]
    simp only [String.append_assoc]
    rfl
  simp only [h, Source.indent_append, hline]

lemma block (hlines : HoldsLiteral lines) (head : String) :
    HoldsLiteral fun n => Source.block head (lines n) :=
  hlines.indent.append [head ++ " \x7b"] ["\x7d"]

/-- The text of the lines depends on the text just inside of the literal. -/
lemma textOf (hlines : HoldsLiteral lines) :
    ∃ before after, ∀ n, textOf (lines n) = before ++ stringLiteral n ++ after := by
  obtain ⟨above, before, after, below, h⟩ := hlines
  obtain ⟨front, back, htext⟩ := Source.exists_textOf above below
  refine ⟨front ++ before, after ++ back, fun n => ?_⟩
  simp only [h, htext, String.append_assoc]

end HoldsLiteral

/-- Code that depends on a text just inside of a literal. -/
structure CarriesLiteral (draft : String → Draft) : Prop where
  lines : HoldsLiteral fun n => (draft n).lines
  imports : ∀ n n', (draft n).imports = (draft n').imports

namespace CarriesLiteral

variable {draft : String → Draft}

lemma append (h : CarriesLiteral draft) (a b : Draft) : CarriesLiteral fun n => a ++ draft n ++ b where
  lines := h.lines.append a.lines b.lines
  imports n n' := by simp only [imports_append, h.imports n n']

/-- A group around the code keeps to that. -/
lemma group (h : CarriesLiteral draft) (arguments : List Phrase) :
    CarriesLiteral fun n => groupDraft arguments (draft n) := by
  unfold groupDraft
  split_ifs
  · exact h
  · exact ⟨h.lines.block _, fun n n' => congrArg (_ ++ ·) (h.imports n n')⟩

/-- The text of a file of the code depends on the text just inside of the literal. -/
lemma text (h : CarriesLiteral draft) (package : String) :
    ∃ before after, ∀ n, (CodeFile.ofDraft package (draft n)).text
      = before ++ stringLiteral n ++ after := by
  have himports (n : String) : (CodeFile.ofDraft package (draft n)).imports
      = (CodeFile.ofDraft package (draft "")).imports :=
    congrArg sortNames (h.imports n "")
  have hheader (n : String) : (CodeFile.ofDraft package (draft n)).header
      = (CodeFile.ofDraft package (draft "")).header := by
    rw [CodeFile.header, CodeFile.header, himports]
    rfl
  have hlines : HoldsLiteral fun n => (CodeFile.ofDraft package (draft n)).lines := by
    refine (h.lines.append (CodeFile.ofDraft package (draft "")).header []).of_eq fun n => ?_
    rw [CodeFile.lines_eq, hheader, List.append_nil]
    rfl
  exact hlines.textOf

end CarriesLiteral

/-! ### Nodes under other names -/

/-- A group depends on its name just inside of the literal in its head. -/
lemma carriesLiteral_group (t : Transform Float) (children : List (Node Float)) :
    CarriesLiteral fun n => nodeDraft (.group (some n) t children) where
  lines := by
    obtain ⟨after, hafter⟩ := Source.exists_intercalate_cons ", " (transformTexts t)
    have hhead (n : String) : groupHead (some n) t ++ " \x7b"
        = "group(name = " ++ stringLiteral n ++ (after ++ ") \x7b") := by
      rw [groupHead, texts_groupArguments_some, Source.commaList, hafter]
      exact String.toList_inj.mp (by simp [argument])
    have hlines := (HoldsLiteral.of_line _ _ hhead).append []
      (Source.indent (nodesDraft children).lines ++ ["\x7d"])
    exact hlines.of_eq fun n => lines_nodeDraft_group rfl children
  imports _ _ := by rw [imports_nodeDraft_group rfl, imports_nodeDraft_group rfl]

lemma pathArguments_some (n : String) (p : Path Float) :
    pathArguments { p with name := some n }
      = argument "name" ⟨stringLiteral n, []⟩ :: pathArguments { p with name := none } := rfl

/-- A path depends on its name just inside of the literal in its first argument. -/
lemma carriesLiteral_path (p : Path Float) :
    CarriesLiteral fun n => nodeDraft (.path { p with name := some n }) where
  lines := by
    have hargument (n : String) : (argument "name" ⟨stringLiteral n, []⟩).text ++ ","
        = "name = " ++ stringLiteral n ++ "," := rfl
    have hlines := (((HoldsLiteral.of_line _ _ hargument).append []
      ((pathArguments { p with name := none }).map (·.text ++ ","))).indent.append ["path("]
        [") \x7b"]).append [] (Source.indent (p.commands.map commandCall) ++ ["\x7d"])
    refine hlines.of_eq fun n => ?_
    rw [nodeDraft, pathDraft, pathArguments_some, pathHead, List.append_assoc]
    rfl
  imports _ _ := by
    rw [nodeDraft, nodeDraft]
    rfl

/-- What is drawn depends on the name of a node just inside of a literal, wherever the node stands. -/
lemma carriesLiteral_fill (c : Context Float) (m : Node Float) :
    CarriesLiteral fun n => nodesDraft (c.fill [m.named n]) := by
  have hamong {draft : String → Draft} (h : CarriesLiteral draft) {node : String → Node Float}
      (hnode : ∀ n, nodeDraft (node n) = draft n) (before after : List (Node Float)) :
      CarriesLiteral fun n => nodesDraft (before ++ [node n] ++ after) := by
    simpa only [nodesDraft_append, nodesDraft_singleton, hnode] using
      h.append (nodesDraft before) (nodesDraft after)
  induction c with
  | siblings before after =>
    cases m with
    | group name t children => exact hamong (carriesLiteral_group t children) (fun _ => rfl) before after
    | path p => exact hamong (carriesLiteral_path p) (fun _ => rfl) before after
  | inside before name t c after ih =>
    exact hamong (ih.group (groupArguments name t)) (fun n => by rw [nodeDraft]) before after

/-! ### Icons -/

/-- The property of an icon has the literal that its content has. -/
lemma HoldsLiteral.property {content : String → List String} (h : HoldsLiteral content)
    (receiver symbol : String) (g : Graphic Float) :
    HoldsLiteral fun n => ImageVector.property receiver symbol g (content n) := by
  have hassignment : HoldsLiteral fun n => assignment symbol g (content n) :=
    h.indent.append ((backingName symbol ++ " = ImageVector.Builder(")
      :: Source.indent (builderArguments symbol g) ++ [").apply \x7b"]) ["\x7d.build()"]
  have hgetter : HoldsLiteral fun n =>
      cachedGetter (backingName symbol) (assignment symbol g (content n)) :=
    (hassignment.append _ _).block "get()"
  exact hgetter.indent.append ["public val " ++ receiver ++ "." ++ symbol ++ ": ImageVector"] _

/-- So has the code of the icon. -/
lemma CarriesLiteral.icon {nodes : String → List (Node Float)}
    (h : CarriesLiteral fun n => nodesDraft (nodes n)) (settings : Source.Settings) (group : Group)
    (symbol : String) (g : Graphic Float) :
    CarriesLiteral fun n => iconDraft settings group symbol { g with nodes := nodes n } where
  lines := by
    have hproperty := h.lines.property group.name symbol g
    exact (hproperty.append [] _).append [] [""]
  imports n n' := by simp only [iconDraft, imports_append, h.imports n n']

/-- The nodes are checked under every name alike. -/
lemma checkFinite_named (g : Graphic Float) (c : Context Float) (m : Node Float) (n : String) :
    Source.checkFinite { g with nodes := c.fill [m.named n] }
      = Source.checkFinite { g with nodes := c.fill [m] } := by
  have hnode : Source.checkNodes [m.named n] = Source.checkNodes [m] := by
    cases m <;> rfl
  rw [Source.checkFinite, Source.checkNodes_fill_congr hnode c]
  rfl

/-- Between quotes there is no line feed, and no quote or dollar sign that is not escaped, nor is the quote
at the end; the text is read as it was. The source of an icon depends on the name of a node just inside of
a literal: whether there is a source, where it stands, how many lines it has and what is around the literal
is the same for all names. -/
theorem names_inside_literals :
    (∀ s : String, '\n' ∉ escape s.toList
        ∧ (∀ before after c, escape s.toList = before ++ c :: after → c = '"' ∨ c = '$' →
          Odd (backslashes before))
        ∧ Even (backslashes (escape s.toList)) ∧ unescape (escape s.toList) = s.toList)
      ∧ ∀ settings group symbol (g : Graphic Float) (c : Context Float) (m : Node Float),
        ∃ before after : String,
          (∀ n, icon settings group symbol { g with nodes := c.fill [m.named n] }
            = (icon settings group symbol { g with nodes := c.fill [m] }).map fun f =>
              { f with text := before ++ stringLiteral n ++ after })
          ∧ ∀ n n', (Source.linesOf (before ++ stringLiteral n ++ after)).length
            = (Source.linesOf (before ++ stringLiteral n' ++ after)).length := by
  refine ⟨fun s => ⟨notMem_escape s.toList, fun _ _ _ => odd_backslashes,
    even_backslashes_escape s.toList, unescape_escape s.toList⟩, fun settings group symbol g c m => ?_⟩
  obtain ⟨before, after, htext⟩ :=
    ((carriesLiteral_fill c m).icon settings group symbol g).text group.iconsPackage
  refine ⟨before, after, fun n => ?_, fun n n' => Source.length_linesOf_append
    (isLine_stringLiteral n) (isLine_stringLiteral n') before after⟩
  rw [icon, icon, checkFinite_named, iconFile, htext]
  cases Source.checkSymbol .declarativeUi symbol with
  | error e => rfl
  | ok =>
    cases Source.checkFinite { g with nodes := c.fill [m] } with
    | error e => rfl
    | ok => rfl

theorem names_inside_literals_dot :
    Odd (backslashes ['a', '\\']) ∧ ∃ f f' before after,
      icon ⟨true, "AllAssets"⟩ ⟨"com.app", "Icons", ["Shapes"]⟩ "Row"
          (rowGraphic (rowContext.fill [(dot 8).named "left"])) = .ok f
        ∧ icon ⟨true, "AllAssets"⟩ ⟨"com.app", "Icons", ["Shapes"]⟩ "Row"
          (rowGraphic (rowContext.fill [(dot 8).named "a\"\n$"])) = .ok f'
        ∧ f.text = before ++ "\"left\"" ++ after ∧ f'.text = before ++ "\"a\\\"\\n\\$\"" ++ after := by
  obtain ⟨hliterals, hicons⟩ := names_inside_literals
  obtain ⟨before, after, hicon, -⟩ := hicons ⟨true, "AllAssets"⟩ ⟨"com.app", "Icons", ["Shapes"]⟩ "Row"
    (rowGraphic []) rowContext (dot 8)
  obtain ⟨f, hf⟩ : ∃ f, icon ⟨true, "AllAssets"⟩ ⟨"com.app", "Icons", ["Shapes"]⟩ "Row"
      (rowGraphic (rowContext.fill [dot 8])) = .ok f :=
    exists_icon (by decide) (by decide +kernel)
  have hquote : escape "a\"\n$".toList = ['a', '\\'] ++ '"' :: ['\\', 'n', '\\', '$'] := by decide
  have hleft : stringLiteral "left" = "\"left\"" := by decide
  have hother : stringLiteral "a\"\n$" = "\"a\\\"\\n\\$\"" := by decide
  refine ⟨(hliterals "a\"\n$").2.1 _ _ _ hquote (.inl rfl), _, _, before, after,
    (hicon "left").trans (congrArg _ hf), (hicon "a\"\n$").trans (congrArg _ hf), ?_, ?_⟩
  · rw [hleft]
  · rw [hother]

end ImageVector

end Iconsmith
