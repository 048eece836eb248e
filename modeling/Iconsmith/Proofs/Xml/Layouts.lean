import Iconsmith.Proofs.Xml.Tags
import Mathlib.Tactic

/-!
# Documents read back

A document that is laid out line by line is read as the tree that was laid out, with the line ends
and the indentation as text between the elements.
-/

namespace Iconsmith.Xml

open Text (Avoids avoids_cons avoids_nil)

/-- The characters of some lines, each with its line end. -/
def chars (lines : List String) : List Char :=
  (String.join (lines.map (· ++ "\n"))).toList

/-- What stands between two tags: a line end and the indentation of the next line. -/
def gap (depth : Nat) : List Char :=
  '\n' :: List.replicate (4 * depth) ' '

/-- The text between two tags. -/
def gapNode (depth : Nat) : Node :=
  .text (String.ofList (gap depth))

/-- The settings of a tag as they are written. -/
def settingChars (settings : List Setting) : List Char :=
  (String.join (settings.map Setting.text)).toList

/-- What the start tag of an element is read as inside a scope to which it adds nothing. -/
def Opens (scope : Scope) (tag : String) (settings : List Setting) (name : Name)
    (attributes : List Attribute) : Prop :=
  ∃ q as, Named tag.toList q ∧ Settings (settingChars settings) as ∧
    Frame.begin? scope q as = some ⟨q, name, attributes, scope, []⟩

/-- The nodes that laid out elements are read as, each with the gap before it. -/
inductive Means (scope : Scope) : Nat → List Layout → List Node → Prop
  | nil {d : Nat} : Means scope d [] []
  | leaf {d : Nat} {tag : String} {settings : List Setting} {name : Name}
      {attributes : List Attribute} {es : List Layout} {ns : List Node} :
      Opens scope tag settings name attributes → Means scope d es ns →
      Means scope d (.leaf tag settings :: es)
        (gapNode d :: .element name attributes [] :: ns)
  | branch {d : Nat} {tag : String} {settings : List Setting} {name : Name}
      {attributes : List Attribute} {inside es : List Layout} {ms ns : List Node} :
      Opens scope tag settings name attributes → Means scope (d + 1) inside ms →
      Means scope d es ns →
      Means scope d (.branch tag settings inside :: es)
        (gapNode d :: .element name attributes (ms ++ [gapNode d]) :: ns)

/-! ### Settings -/

lemma settings_text {name value : String} {q : QName} (hname : Named name.toList q)
    (hvalue : IsQuotable value.toList) :
    Settings (Setting.text (name, value)).toList [(q, value.toList)] := by
  have htext : (Setting.text (name, value)).toList =
      [' '] ++ (name.toList ++ '=' :: '"' :: (value.toList ++ '"' :: [])) := by
    simp [Setting.text]
  rw [htext]
  exact .cons (List.cons_ne_nil _ _) (by decide) hname hvalue .nil

lemma settings_settingChars {α : Type} {l : List α} {f : α → Setting} {q : α → QName}
    (hnames : ∀ a ∈ l, Named (f a).1.toList (q a)) (hvalues : ∀ a ∈ l, IsQuotable (f a).2.toList) :
    Settings (settingChars (l.map f)) (l.map fun a => (q a, (f a).2.toList)) := by
  induction l with
  | nil => exact .nil
  | cons a l ih =>
    have hchars : settingChars ((a :: l).map f) =
        (Setting.text (f a)).toList ++ settingChars (l.map f) := by
      simp [settingChars, String.toList_join]
    rw [hchars]
    exact (settings_text (hnames a (by simp)) (hvalues a (by simp))).append
      (ih (fun b hb => hnames b (List.mem_cons_of_mem a hb))
        fun b hb => hvalues b (List.mem_cons_of_mem a hb))

/-! ### Steps -/

/-- A frame with more nodes inside it, the last one first. -/
def Frame.put (f : Frame) (ns : List Node) : Frame :=
  { f with inside := ns ++ f.inside }

@[simp] lemma Frame.put_scope (f : Frame) (ns : List Node) : (f.put ns).scope = f.scope :=
  rfl

@[simp] lemma Frame.put_inside (f : Frame) (ns : List Node) :
    (f.put ns).inside = ns ++ f.inside :=
  rfl

@[simp] lemma Frame.put_put (f : Frame) (ns ms : List Node) :
    (f.put ns).put ms = f.put (ms ++ ns) := by
  simp [Frame.put]

/-- From a text and a document to the rest of the text and the document with what was read. -/
def Steps (s : List Char) (d : Document) (r : List Char) (e : Document) : Prop :=
  ∃ ts, Token.readAll? s = (Token.readAll? r).map (ts ++ ·) ∧ ts.foldlM Document.step? d = some e

/-- Nodes to which text is added as a node of its own. -/
def NoText (ns : List Node) : Prop :=
  ∀ content rest, ns ≠ .text content :: rest

lemma Steps.trans {s r u : List Char} {d e f : Document} (h₁ : Steps s d r e)
    (h₂ : Steps r e u f) : Steps s d u f := by
  obtain ⟨ts, hts, hd⟩ := h₁
  obtain ⟨us, hus, he⟩ := h₂
  refine ⟨ts ++ us, ?_, ?_⟩
  · rw [hts, hus, Option.map_map]
    congr 1
    funext v
    exact (List.append_assoc ts us v).symm
  · rw [List.foldlM_append, hd]
    exact he

lemma Steps.of_token {s r : List Char} {d e : Document} {t : Token}
    (hread : Token.readAll? s = (Token.readAll? r).map (t :: ·)) (hstep : d.step? t = some e) :
    Steps s d r e := by
  refine ⟨[t], hread, ?_⟩
  rw [List.foldlM_cons, hstep]
  rfl

lemma normalizeText_layout {s : List Char} (h : ∀ c ∈ s, c = '\n' ∨ c = ' ') :
    normalizeText s = s := by
  rw [normalizeText]
  induction s with
  | nil => rfl
  | cons c s ih =>
    have hs := ih fun d hd => h d (List.mem_cons_of_mem c hd)
    rcases h c (by simp) with rfl | rfl
    all_goals
      rw [normalizeFrom]
      · rw [hs]
      all_goals simp

lemma expand?_layout {s : List Char} (h : ∀ c ∈ s, c = '\n' ∨ c = ' ') : expand? s = some s := by
  induction s with
  | nil => rw [expand?]
  | cons c s ih =>
    have hc : c ≠ '&' := by
      rcases h c (by simp) with rfl | rfl <;> decide
    rw [expand?_cons hc, ih fun d hd => h d (List.mem_cons_of_mem c hd)]
    rfl

lemma mem_gap {d : Nat} {c : Char} (h : c ∈ gap d) : c = '\n' ∨ c = ' ' := by
  rcases List.mem_cons.mp h with rfl | h
  · exact .inl rfl
  · exact .inr (List.eq_of_mem_replicate h)

lemma addText_noText {ns : List Node} (h : NoText ns) (content : String) :
    addText content ns = .text content :: ns := by
  rw [addText]
  intro before rest hns
  exact h before rest hns

section Stepping

variable {scope : Scope} {tag : String} {settings : List Setting} {name : Name}
  {attributes : List Attribute} (f : Frame) (fs : List Frame) (root : Option Node) (r : List Char)

lemma Steps.gap (d : Nat) (hf : NoText f.inside) :
    Steps (Xml.gap d ++ '<' :: r) ⟨f :: fs, root⟩ ('<' :: r)
      ⟨f.put [gapNode d] :: fs, root⟩ := by
  have hlayout : ∀ c ∈ Xml.gap d, Text.isLayout c = true := by
    intro c hc
    rcases mem_gap hc with rfl | rfl <;> decide
  refine .of_token (readAll?_layout (List.cons_ne_nil _ _) hlayout (avoids_cons (by decide))) ?_
  have hexpand : expand? (normalizeText (Xml.gap d)) = some (Xml.gap d) := by
    rw [normalizeText_layout fun c => mem_gap, expand?_layout fun c => mem_gap]
  simp [Document.step?, hexpand, Document.add?, addText_noText hf, Frame.put, gapNode]

lemma Steps.empty (hopens : Opens f.scope tag settings name attributes) :
    Steps ('<' :: (tag.toList ++ (settingChars settings ++ (closing true ++ r)))) ⟨f :: fs, root⟩ r
      ⟨f.put [.element name attributes []] :: fs, root⟩ := by
  obtain ⟨q, as, htag, has, hbegin⟩ := hopens
  refine .of_token (readAll?_startTag htag has true r) ?_
  simp [Document.step?, hbegin, Document.place?, Document.add?, Frame.close, Frame.put]

lemma Steps.branch (d : Nat) (hopens : Opens f.scope tag settings name attributes)
    {inside : List Char} {ns : List Node} (hns : NoText ns)
    (hinside : ∀ q u,
      Steps ('\n' :: (inside ++ u)) ⟨⟨q, name, attributes, f.scope, []⟩ :: f :: fs, root⟩
        ('\n' :: u) ⟨⟨q, name, attributes, f.scope, ns⟩ :: f :: fs, root⟩) :
    Steps
      ('<' :: (tag.toList ++ (settingChars settings ++ (closing false ++ '\n' :: (inside ++
        (List.replicate (4 * d) ' ' ++ '<' :: '/' :: (tag.toList ++ '>' :: r)))))))
      ⟨f :: fs, root⟩ r
      ⟨f.put [.element name attributes (ns.reverse ++ [gapNode d])] :: fs, root⟩ := by
  obtain ⟨q, as, htag, has, hbegin⟩ := hopens
  have hstart : Document.step? ⟨f :: fs, root⟩ (.startTag q as false) =
      some ⟨⟨q, name, attributes, f.scope, []⟩ :: f :: fs, root⟩ := by
    simp [Document.step?, hbegin]
  have hfinish : Document.step?
      ⟨Frame.put ⟨q, name, attributes, f.scope, ns⟩ [gapNode d] :: f :: fs, root⟩ (.endTag q) =
      some ⟨f.put [.element name attributes (ns.reverse ++ [gapNode d])] :: fs, root⟩ := by
    simp [Document.step?, Document.place?, Document.add?, Frame.close, Frame.put]
  have hgap := Steps.gap ⟨q, name, attributes, f.scope, ns⟩ (f :: fs) root
    ('/' :: (tag.toList ++ '>' :: r)) d hns
  have hafter := hgap.trans (.of_token (readAll?_endTag htag r) hfinish)
  exact ((Steps.of_token (readAll?_startTag htag has false _) hstart).trans (hinside q _)).trans
    hafter

end Stepping

/-! ### Lines -/

lemma chars_cons (line : String) (lines : List String) :
    chars (line :: lines) = line.toList ++ '\n' :: chars lines := by
  simp [chars, String.toList_join]

lemma chars_append (lines more : List String) : chars (lines ++ more) = chars lines ++ chars more := by
  simp [chars, String.toList_join]

lemma opening_toList (d : Nat) (tag : String) (settings : List Setting) :
    (Layout.opening d tag settings).toList =
      List.replicate (4 * d) ' ' ++ '<' :: (tag.toList ++ settingChars settings) := by
  simp [Layout.opening, Layout.indentation, settingChars]

lemma noText_element {name : Name} {attributes : List Attribute} {children ns : List Node} :
    NoText (.element name attributes children :: ns) :=
  nofun

lemma Means.noText {scope : Scope} {d : Nat} {es : List Layout} {ns : List Node}
    (h : Means scope d es ns) {before : List Node} (hbefore : NoText before) :
    NoText (ns.reverse ++ before) := by
  induction h generalizing before with
  | nil => exact hbefore
  | leaf _ _ ih =>
    rw [List.reverse_cons, List.reverse_cons, List.append_assoc, List.append_assoc]
    exact ih noText_element
  | branch _ _ _ _ ih =>
    rw [List.reverse_cons, List.reverse_cons, List.append_assoc, List.append_assoc]
    exact ih noText_element

/-- The lines of elements add to the innermost frame what the elements mean. -/
theorem Means.steps {scope : Scope} {d : Nat} {es : List Layout} {ns : List Node}
    (h : Means scope d es ns) {f : Frame} (hscope : f.scope = scope) (hf : NoText f.inside)
    (fs : List Frame) (root : Option Node) (r : List Char) :
    Steps ('\n' :: (chars (Layout.linesOf d es) ++ r)) ⟨f :: fs, root⟩ ('\n' :: r)
      ⟨f.put ns.reverse :: fs, root⟩ := by
  induction h generalizing f fs r with
  | nil => exact ⟨[], by simp [Layout.linesOf, chars], rfl⟩
  | @leaf d tag settings name attributes es ns hopens _ ih =>
    subst hscope
    have htext : '\n' :: (chars (Layout.linesOf d (.leaf tag settings :: es)) ++ r) =
        gap d ++ '<' :: (tag.toList ++ (settingChars settings ++
          (closing true ++ '\n' :: (chars (Layout.linesOf d es) ++ r)))) := by
      simp [Layout.linesOf, Layout.lines, chars_cons, opening_toList, gap, closing]
    have hrest := @ih (f.put [.element name attributes [], gapNode d]) rfl noText_element fs r
    rw [htext]
    simpa using ((Steps.gap f fs root _ d hf).trans (Steps.empty _ fs root _ hopens)).trans hrest
  | @branch d tag settings name attributes inside es ms ns hopens hinside _ ihinside ih =>
    subst hscope
    have htext : '\n' :: (chars (Layout.linesOf d (.branch tag settings inside :: es)) ++ r) =
        gap d ++ '<' :: (tag.toList ++ (settingChars settings ++
          (closing false ++ '\n' :: (chars (Layout.linesOf (d + 1) inside) ++
            (List.replicate (4 * d) ' ' ++ '<' :: '/' :: (tag.toList ++ '>' ::
              '\n' :: (chars (Layout.linesOf d es) ++ r))))))) := by
      simp [Layout.linesOf, Layout.lines, opening_toList, gap, closing, Layout.indentation, chars]
    have hmiddle : ∀ q u, Steps ('\n' :: (chars (Layout.linesOf (d + 1) inside) ++ u))
        ⟨⟨q, name, attributes, f.scope, []⟩ :: f.put [gapNode d] :: fs, root⟩
        ('\n' :: u)
        ⟨⟨q, name, attributes, f.scope, ms.reverse⟩ :: f.put [gapNode d] :: fs, root⟩ := by
      intro q u
      have := @ihinside ⟨q, name, attributes, f.scope, []⟩ rfl nofun (f.put [gapNode d] :: fs) u
      simpa [Frame.put] using this
    have hms : NoText ms.reverse := by
      simpa using @Means.noText _ _ _ _ hinside [] nofun
    have hbranch := Steps.branch (f.put [gapNode d]) fs root
      ('\n' :: (chars (Layout.linesOf d es) ++ r)) d hopens hms hmiddle
    have hrest := @ih (f.put [.element name attributes (ms ++ [gapNode d]), gapNode d]) rfl
      noText_element fs r
    rw [List.reverse_reverse, Frame.put_put] at hbranch
    rw [htext]
    simpa using ((Steps.gap f fs root _ d hf).trans hbranch).trans hrest

/-! ### The whole document -/

lemma Document.read?_of_steps {c : Char} {s : List Char} {root : Node} (hc : isNameChar c = true)
    (h : Steps ('<' :: c :: s) ⟨[], none⟩ [] ⟨[], some root⟩) :
    Document.read? (String.ofList ('<' :: c :: s)) = some root := by
  obtain ⟨ts, hread, hfold⟩ := h
  have hmark : Text.dropLeading? ['\uFEFF'] ('<' :: c :: s) = none := if_neg (by decide)
  have hquestion : '?' ≠ c := by
    rintro rfl
    exact absurd hc (by decide)
  have hdeclaration : Token.skipDeclaration? ('<' :: c :: s) = some ('<' :: c :: s) := by
    have : Text.dropLeading? ('<' :: '?' :: "xml ".toList) ('<' :: c :: s) = none := by
      rw [Text.dropLeading?, if_pos rfl, Text.dropLeading?, if_neg hquestion]
    rw [Token.skipDeclaration?]
    split
    · rfl
    · rename_i r hr
      rw [show "<?xml ".toList = '<' :: '?' :: "xml ".toList from rfl, this] at hr
      contradiction
  have hnil : Token.readAll? [] = some [] := by rw [Token.readAll?]
  have htokens : Document.tokens? (String.ofList ('<' :: c :: s)) = some ts := by
    rw [Document.tokens?, String.toList_ofList, hmark]
    simp only [Option.getD_none, hdeclaration, hread, hnil, Option.bind_eq_bind, Option.bind_some,
      Option.map_some, List.append_nil]
  rw [Document.read?, htokens]
  simp [Document.ofTokens?, hfold]

/-- A document that is laid out line by line is read as its root with what the lines mean. -/
theorem Document.read?_layout {tag t : List Char} {q : QName} {as : List (QName × List Char)}
    {name : Name} {attributes : List Attribute} {scope : Scope} {es : List Layout}
    {ns : List Node} (htag : Named tag q) (ht : Settings t as)
    (hbegin : Frame.begin? [] q as = some ⟨q, name, attributes, scope, []⟩)
    (h : Means scope 1 es ns) :
    Document.read? (String.ofList ('<' :: (tag ++ (t ++ (closing false ++ '\n' ::
      (chars (Layout.linesOf 1 es) ++ '<' :: '/' :: (tag ++ ['>', '\n']))))))) =
      some (.element name attributes (ns ++ [gapNode 0])) := by
  have hstart : Document.step? ⟨[], none⟩ (.startTag q as false) =
      some ⟨[⟨q, name, attributes, scope, []⟩], none⟩ := by
    simp [Document.step?, hbegin]
  have hinside := @Means.steps _ _ _ _ h ⟨q, name, attributes, scope, []⟩ rfl nofun [] none
    ('<' :: '/' :: (tag ++ ['>', '\n']))
  have hns : NoText (ns.reverse ++ []) := h.noText nofun
  have hgap := Steps.gap (Frame.put ⟨q, name, attributes, scope, []⟩ ns.reverse) [] none
    ('/' :: (tag ++ ['>', '\n'])) 0 hns
  have hend : Document.step?
      ⟨[(Frame.put ⟨q, name, attributes, scope, []⟩ ns.reverse).put [gapNode 0]], none⟩ (.endTag q) =
      some ⟨[], some (.element name attributes (ns ++ [gapNode 0]))⟩ := by
    simp [Document.step?, Document.place?, Frame.close, Frame.put]
  have hlast : Steps ['\n'] ⟨[], some (.element name attributes (ns ++ [gapNode 0]))⟩ []
      ⟨[], some (.element name attributes (ns ++ [gapNode 0]))⟩ :=
    .of_token (@readAll?_layout ['\n'] [] (List.cons_ne_nil _ _) (by decide) avoids_nil) rfl
  obtain ⟨c, u, rfl, hc⟩ := htag.exists_cons
  have hsteps := ((Steps.of_token (readAll?_startTag htag ht false _) hstart).trans hinside).trans
    ((hgap.trans (.of_token (readAll?_endTag htag ['\n']) hend)).trans hlast)
  exact Document.read?_of_steps hc hsteps

end Iconsmith.Xml
