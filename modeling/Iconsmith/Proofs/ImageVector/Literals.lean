import Iconsmith.ImageVector.Builder
import Iconsmith.Proofs.Decimal.ReadBack
import Iconsmith.Proofs.Graphic.Normal
import Iconsmith.Proofs.Source.Layouts

/-!
# Literals, commands and brushes

What a literal, a command or a brush was written from can be told from its text. Literals of numbers
hold no punctuation, so they end where the text around them goes on; in a literal of a text the closing
quote is the first one that is not escaped.
-/

namespace Iconsmith.ImageVector

open Double (unsigned)
open Source (IsLine IsPart append_cons_inj commaList commaList_inj isLine_append isLine_commaList)

/-! ### Numbers -/

/-- The characters in a literal of a number. -/
def isLiteralChar (c : Char) : Bool :=
  c.isAlphanum || c = '+' || c = '-' || c = '.'

lemma notMem_doubleLiteral (x : Float) {c : Char} (hc : isLiteralChar c = false) :
    c ∉ (doubleLiteral x).toList := by
  intro hmem
  have := Decimal.mem_text .literal x c hmem
  simp only [isLiteralChar, Bool.or_eq_false_iff, decide_eq_false_iff_not] at hc
  rcases this with h | h | h | h
  · simp [hc.1.1.1] at h
  · exact hc.1.1.2 h
  · exact hc.1.2 h
  · exact hc.2 h

lemma notMem_floatLiteral (x : Float) {c : Char} (hc : isLiteralChar c = false) :
    c ∉ (floatLiteral x).toList := by
  have hf : c ≠ 'f' := by
    rintro rfl
    contradiction
  simp [floatLiteral, notMem_doubleLiteral x hc, hf]

lemma isLine_doubleLiteral (x : Float) : IsLine (doubleLiteral x) :=
  notMem_doubleLiteral x (by decide)

lemma isLine_floatLiteral (x : Float) : IsLine (floatLiteral x) :=
  notMem_floatLiteral x (by decide)

lemma isPart_floatLiteral (x : Float) : IsPart (floatLiteral x) :=
  notMem_floatLiteral x (by decide)

/-- The number of a literal is known but for the sign of a zero. -/
lemma doubleLiteral_inj {x y : Float} (h : doubleLiteral x = doubleLiteral y) :
    unsigned x = unsigned y := by
  have hx := Decimal.floatOf?_text .literal x
  have hy := Decimal.floatOf?_text .literal y
  unfold doubleLiteral at h
  rw [h, hy] at hx
  exact (Option.some.inj hx).symm

lemma floatLiteral_inj {x y : Float} (h : floatLiteral x = floatLiteral y) :
    unsigned x = unsigned y :=
  doubleLiteral_inj ((String.append_left_inj "f").mp h)

/-- A literal of a number is not a word that ends in another letter. -/
lemma floatLiteral_ne (x : Float) (s : String) : floatLiteral x ≠ s ++ "e" := by
  intro h
  have h := congrArg String.toList h
  simp only [floatLiteral, String.toList_append] at h
  have := (List.append_inj' h rfl).2
  revert this
  decide

/-! ### Texts -/

/-- The characters that stand for one between quotes. -/
def escapeChar (c : Char) : List Char :=
  if c = '\n' then ['\\', 'n']
  else if c = '\\' ∨ c = '"' ∨ c = '$' then ['\\', c]
  else [c]

lemma escape_cons (c : Char) (s : List Char) : escape (c :: s) = escapeChar c ++ escape s := by
  unfold escapeChar
  split_ifs with hfeed hspecial
  · subst hfeed
    rfl
  · rcases hspecial with rfl | rfl | rfl <;> rfl
  · simp only [not_or] at hspecial
    simp [escape, hspecial]

lemma escapeChar_inj {c d : Char} {s t : List Char} (h : escapeChar c ++ s = escapeChar d ++ t) :
    c = d ∧ s = t := by
  unfold escapeChar at h
  split_ifs at h <;> grind

lemma escapeChar_ne_quote {c : Char} {s t : List Char} (h : escapeChar c ++ s = '"' :: t) :
    False := by
  unfold escapeChar at h
  split_ifs at h <;> grind

lemma notMem_escape (cs : List Char) : '\n' ∉ escape cs := by
  induction cs with
  | nil => simp [escape]
  | cons c cs ih =>
    rw [escape_cons, escapeChar]
    split_ifs <;> grind

lemma isLine_stringLiteral (s : String) : IsLine (stringLiteral s) := by
  have hquote : IsLine "\"" := by decide
  have hinside : IsLine (String.ofList (escape s.toList)) := by
    rw [IsLine, String.toList_ofList]
    exact notMem_escape s.toList
  exact isLine_append.mpr ⟨isLine_append.mpr ⟨hquote, hinside⟩, hquote⟩

/-- The closing quote is the first one that is not escaped. -/
lemma escape_append_inj {cs ds s t : List Char} (h : escape cs ++ '"' :: s = escape ds ++ '"' :: t) :
    cs = ds ∧ s = t := by
  induction cs generalizing ds with
  | nil =>
    cases ds with
    | nil => exact ⟨rfl, (List.cons.inj h).2⟩
    | cons d ds =>
      rw [escape_cons, List.append_assoc] at h
      exact (escapeChar_ne_quote h.symm).elim
  | cons c cs ih =>
    rw [escape_cons, List.append_assoc] at h
    cases ds with
    | nil => exact (escapeChar_ne_quote h).elim
    | cons d ds =>
      rw [escape_cons, List.append_assoc] at h
      obtain ⟨rfl, hrest⟩ := escapeChar_inj h
      obtain ⟨rfl, rfl⟩ := ih hrest
      exact ⟨rfl, rfl⟩

lemma toList_stringLiteral (s : String) :
    (stringLiteral s).toList = '"' :: (escape s.toList ++ ['"']) := by
  simp [stringLiteral]

/-- The text of a literal is known, and so is where the literal ends. -/
lemma stringLiteral_append_inj {s t : String} {r r' : List Char}
    (h : (stringLiteral s).toList ++ r = (stringLiteral t).toList ++ r') : s = t ∧ r = r' := by
  simp only [toList_stringLiteral, List.cons_append, List.append_assoc, List.nil_append] at h
  obtain ⟨hchars, hrest⟩ := escape_append_inj (List.cons.inj h).2
  exact ⟨String.toList_inj.mp hchars, hrest⟩

lemma stringLiteral_inj {s t : String} (h : stringLiteral s = stringLiteral t) : s = t := by
  have h : (stringLiteral s).toList ++ [] = (stringLiteral t).toList ++ [] := by rw [h]
  exact (stringLiteral_append_inj h).1

/-! ### Lists -/

/-- What the texts of things tell about them is told by the list of the texts. -/
lemma map_eq_of_map_eq {α β γ : Type} {f : α → β} {g : α → γ} {xs ys : List α}
    (hfg : ∀ x ∈ xs, ∀ y ∈ ys, f x = f y → g x = g y) (h : xs.map f = ys.map f) :
    xs.map g = ys.map g := by
  induction xs generalizing ys with
  | nil =>
    cases ys with
    | nil => rfl
    | cons y ys => contradiction
  | cons x xs ih =>
    cases ys with
    | nil => contradiction
    | cons y ys =>
      obtain ⟨hhead, htail⟩ := List.cons.inj h
      have hrest := ih (fun a ha b hb => hfg a (List.mem_cons_of_mem x ha) b
        (List.mem_cons_of_mem y hb)) htail
      rw [List.map_cons, List.map_cons, hrest,
        hfg x List.mem_cons_self y List.mem_cons_self hhead]

/-! ### Commands -/

lemma operandLiteral_inj {a b : Operand Float} (h : operandLiteral a = operandLiteral b) :
    a.map unsigned = b.map unsigned := by
  have hflag (on : Bool) : ∃ s, operandLiteral (.flag on) = s ++ "e" := by
    cases on
    · exact ⟨"fals", by decide⟩
    · exact ⟨"tru", by decide⟩
  cases a with
  | number x =>
    cases b with
    | number y => exact congrArg Operand.number (floatLiteral_inj h)
    | flag on =>
      obtain ⟨s, hs⟩ := hflag on
      exact absurd (h.trans hs) (floatLiteral_ne x s)
  | flag on =>
    cases b with
    | number y =>
      obtain ⟨s, hs⟩ := hflag on
      exact absurd (h.symm.trans hs) (floatLiteral_ne y s)
    | flag on' =>
      cases on <;> cases on' <;> first | rfl | exact absurd h (by decide)

lemma isPart_operandLiteral (a : Operand Float) : IsPart (operandLiteral a) := by
  cases a with
  | number x => exact isPart_floatLiteral x
  | flag on => cases on <;> decide

lemma isLine_operandLiteral (a : Operand Float) : IsLine (operandLiteral a) := by
  cases a with
  | number x => exact isLine_floatLiteral x
  | flag on => cases on <;> decide

/-- The name of the function for a verb in a mode. -/
def callWord (v : Verb) (relative : Bool) : String :=
  callName v ++ if relative then "Relative" else ""

lemma callWord_inj {v v' : Verb} {r r' : Bool} (h : callWord v r = callWord v' r') :
    v = v' ∧ r = r' := by
  let calls : List (Verb × Bool) :=
    [.move, .line, .horizontal, .vertical, .cubic, .smoothCubic, .quadratic, .smoothQuadratic, .arc,
      .close].flatMap fun v => [(v, false), (v, true)]
  have hmem (v : Verb) (r : Bool) : (v, r) ∈ calls := by
    cases v <;> cases r <;> decide
  have hnodup : (calls.map fun c => callWord c.1 c.2).Nodup := by
    decide
  exact Prod.mk.inj (List.inj_on_of_nodup_map hnodup (hmem v r) (hmem v' r') h)

lemma notMem_callWord (v : Verb) (r : Bool) : '(' ∉ (callWord v r).toList := by
  cases v <;> cases r <;> decide

lemma commandCall_eq (c : Command Float) :
    commandCall c = callWord c.verb c.isRelative ++ "(" ++ commaList (c.operands.map operandLiteral)
      ++ ")" := by
  simp [commandCall, callWord, String.append_assoc]

lemma toList_commandCall (c : Command Float) :
    (commandCall c).toList = (callWord c.verb c.isRelative).toList
      ++ '(' :: ((commaList (c.operands.map operandLiteral)).toList ++ [')']) := by
  simp [commandCall_eq]

/-- A command is told by its call. -/
lemma commandCall_inj {c d : Command Float} (h : commandCall c = commandCall d) :
    c.map unsigned = d.map unsigned := by
  have h := congrArg String.toList h
  rw [toList_commandCall, toList_commandCall] at h
  obtain ⟨hword, hlist⟩ := append_cons_inj (notMem_callWord _ _) (notMem_callWord _ _) h
  obtain ⟨hverb, hrelative⟩ := callWord_inj (String.toList_inj.mp hword)
  have hlist := String.toList_inj.mp (List.append_cancel_right hlist)
  have hlength : c.operands.length = d.operands.length := by
    have := congrArg (fun v : Verb => v.operands.length) hverb
    simpa [Command.operands_verb] using this
  have hoperands : c.operands.map (Operand.map unsigned) = d.operands.map (Operand.map unsigned) := by
    by_cases hnil : c.operands = []
    · have hnil' : d.operands = [] := List.length_eq_zero_iff.mp (by rw [← hlength, hnil]; rfl)
      rw [hnil, hnil']
    · have hnil' : d.operands ≠ [] := by
        intro hnil'
        exact hnil (List.length_eq_zero_iff.mp (by rw [hlength, hnil']; rfl))
      have htexts := commaList_inj (by simp [isPart_operandLiteral]) (by simp [isPart_operandLiteral])
        (by simpa using hnil) (by simpa using hnil') hlist
      exact map_eq_of_map_eq (fun _ _ _ _ => operandLiteral_inj) htexts
  have hc := Command.command?_operands (c.map unsigned)
  have hd := Command.command?_operands (d.map unsigned)
  simp only [Command.verb_map, Command.isRelative_map, Command.operands_map] at hc hd
  rw [hverb, hrelative, hoperands, hd] at hc
  exact (Option.some.inj hc).symm

lemma isLine_commandCall (c : Command Float) : IsLine (commandCall c) := by
  have hword : IsLine (callWord c.verb c.isRelative) := by
    cases c.verb <;> cases c.isRelative <;> decide
  have hlist : IsLine (commaList (c.operands.map operandLiteral)) :=
    isLine_commaList (by simp [isLine_operandLiteral])
  have hopen : IsLine "(" := by decide
  have hclose : IsLine ")" := by decide
  simp only [commandCall_eq, isLine_append, hword, hlist, hopen, hclose, and_self]

/-! ### Brushes -/

/-- The characters between which parts and lines are cut. -/
def IsCut (c : Char) : Prop :=
  c = ',' ∨ c = '\n'

section Cuts

variable {c : Char} (hc : IsCut c)

include hc

lemma notMem_number (x : Float) : c ∉ (floatLiteral x).toList := by
  rcases hc with rfl | rfl <;> exact notMem_floatLiteral x (by decide)

lemma notMem_colorCall {color : String} (h : IsHexColor color) :
    c ∉ (colorCall color).toList := by
  have hcolor : c ∉ color.toList := by
    rcases hc with rfl | rfl <;> exact h.notMem (by decide)
  rcases hc with rfl | rfl <;> simp [colorCall, hcolor]

lemma notMem_stopPair {s : ColorStop Float} (hs : IsHexColor s.color) :
    c ∉ (stopPair s).toList := by
  have hoffset := notMem_number hc s.offset
  have hcolor := notMem_colorCall hc hs
  rcases hc with rfl | rfl <;> simp [stopPair, hoffset, hcolor]

end Cuts

lemma colorCall_inj {c d : String} (h : colorCall c = colorCall d) : c = d := by
  simpa [colorCall] using h

lemma stopPair_inj {s t : ColorStop Float} (h : stopPair s = stopPair t) :
    s.map unsigned = t.map unsigned := by
  have h := congrArg String.toList h
  have htext (u : ColorStop Float) : (stopPair u).toList
      = (floatLiteral u.offset).toList ++ ' ' :: ("to " ++ colorCall u.color).toList := by
    simp [stopPair]
  rw [htext, htext] at h
  obtain ⟨hoffset, hcolor⟩ := append_cons_inj (notMem_floatLiteral _ (by decide))
    (notMem_floatLiteral _ (by decide)) h
  have hcolor := (String.append_right_inj "to ").mp (String.toList_inj.mp hcolor)
  rw [ColorStop.map, ColorStop.map, floatLiteral_inj (String.toList_inj.mp hoffset),
    colorCall_inj hcolor]

lemma stopPair_ne_empty (s : ColorStop Float) : stopPair s ≠ "" := by
  simp [stopPair]

/-- The parts of a list of stops. Without stops there is still an empty part. -/
def stopParts (stops : List (ColorStop Float)) : List String :=
  if stops.isEmpty then [""] else stops.map stopPair

lemma stopParts_ne_nil (stops : List (ColorStop Float)) : stopParts stops ≠ [] := by
  unfold stopParts
  split_ifs with h
  · simp
  · simpa using h

lemma commaList_stopParts (stops : List (ColorStop Float)) :
    commaList (stopParts stops) = stopPairs stops := by
  unfold stopParts
  split_ifs with h
  · rw [List.isEmpty_iff.mp h]
    rfl
  · rfl

lemma notMem_stopParts {c : Char} (hc : IsCut c) {stops : List (ColorStop Float)}
    (h : ∀ s ∈ stops, IsHexColor s.color) : ∀ p ∈ stopParts stops, c ∉ p.toList := by
  unfold stopParts
  split_ifs
  · simp
  · exact List.forall_mem_map.mpr fun s hs => notMem_stopPair hc (h s hs)

lemma stopParts_inj {ss ts : List (ColorStop Float)} (h : stopParts ss = stopParts ts) :
    ss.map (ColorStop.map unsigned) = ts.map (ColorStop.map unsigned) := by
  have hempty {us : List (ColorStop Float)} (hus : us.isEmpty = false)
      (hparts : [""] = us.map stopPair) : False := by
    have hmem : "" ∈ us.map stopPair := hparts ▸ List.mem_singleton_self ""
    obtain ⟨u, -, hu⟩ := List.mem_map.mp hmem
    exact stopPair_ne_empty u hu
  unfold stopParts at h
  split_ifs at h with hs ht ht
  · rw [List.isEmpty_iff.mp hs, List.isEmpty_iff.mp ht]
  · exact (hempty (by simpa using ht) h).elim
  · exact (hempty (by simpa using hs) h.symm).elim
  · exact map_eq_of_map_eq (fun _ _ _ _ => stopPair_inj) h

/-- The parts of a named point, between whose coordinates there is a comma. -/
def pointParts (name : String) (p : Point Float) : List String :=
  [name ++ " = Offset(" ++ floatLiteral p.x, floatLiteral p.y ++ ")"]

lemma commaList_pointParts (name : String) (p : Point Float) :
    commaList (pointParts name p) = name ++ " = " ++ offsetCall p := by
  rw [pointParts, commaList, String.intercalate_cons_cons, String.intercalate_singleton, offsetCall]
  exact String.toList_inj.mp (by simp)

lemma notMem_pointParts {c : Char} (hc : IsCut c) {name : String} (hname : c ∉ name.toList)
    (p : Point Float) : ∀ q ∈ pointParts name p, c ∉ q.toList := by
  have hx := notMem_number hc p.x
  have hy := notMem_number hc p.y
  rcases hc with rfl | rfl <;> simp [pointParts, hname, hx, hy]

lemma pointParts_inj {name : String} {p q : Point Float}
    (h : pointParts name p = pointParts name q) : p.map unsigned = q.map unsigned := by
  obtain ⟨hx, h⟩ := List.cons.inj h
  obtain ⟨hy, -⟩ := List.cons.inj h
  have hx := floatLiteral_inj ((String.append_right_inj _).mp hx)
  have hy := floatLiteral_inj ((String.append_left_inj ")").mp hy)
  rw [Point.map, Point.map, hx, hy]

lemma commaList_append {xs ys : List String} (hxs : xs ≠ []) (hys : ys ≠ []) :
    commaList (xs ++ ys) = commaList xs ++ ", " ++ commaList ys :=
  String.intercalate_append_of_ne_nil hxs hys

/-- The parts of the call for a gradient between its commas. -/
def linearParts (stops : List (ColorStop Float)) (start finish : Point Float) : List String :=
  stopParts stops ++ (pointParts "start" start ++ pointParts "end" finish)

/-- The same for a gradient around a center. -/
def radialParts (stops : List (ColorStop Float)) (center : Point Float) (radius : Float) :
    List String :=
  stopParts stops ++ (pointParts "center" center ++ ["radius = " ++ floatLiteral radius])

lemma text_linear (stops : List (ColorStop Float)) (start finish : Point Float) :
    (brush (.linear stops start finish)).text
      = "Brush.linearGradient(" ++ commaList (linearParts stops start finish) ++ ")" := by
  rw [linearParts, commaList_append (stopParts_ne_nil stops) (by simp [pointParts]),
    commaList_append (by simp [pointParts]) (by simp [pointParts]), commaList_stopParts,
    commaList_pointParts, commaList_pointParts]
  exact String.toList_inj.mp (by simp [brush, gradientBrush])

lemma text_radial (stops : List (ColorStop Float)) (center : Point Float) (radius : Float) :
    (brush (.radial stops center radius)).text
      = "Brush.radialGradient(" ++ commaList (radialParts stops center radius) ++ ")" := by
  rw [radialParts, commaList_append (stopParts_ne_nil stops) (by simp [pointParts]),
    commaList_append (by simp [pointParts]) (by simp), commaList_stopParts, commaList_pointParts,
    Source.commaList_singleton]
  exact String.toList_inj.mp (by simp [brush, gradientBrush])

lemma notMem_linearParts {c : Char} (hc : IsCut c) {stops : List (ColorStop Float)}
    (h : ∀ s ∈ stops, IsHexColor s.color) (start finish : Point Float) :
    ∀ p ∈ linearParts stops start finish, c ∉ p.toList := by
  have hstart : c ∉ "start".toList := by rcases hc with rfl | rfl <;> decide
  have hfinish : c ∉ "end".toList := by rcases hc with rfl | rfl <;> decide
  exact List.forall_mem_append.mpr ⟨notMem_stopParts hc h, List.forall_mem_append.mpr
    ⟨notMem_pointParts hc hstart start, notMem_pointParts hc hfinish finish⟩⟩

lemma notMem_radialParts {c : Char} (hc : IsCut c) {stops : List (ColorStop Float)}
    (h : ∀ s ∈ stops, IsHexColor s.color) (center : Point Float) (radius : Float) :
    ∀ p ∈ radialParts stops center radius, c ∉ p.toList := by
  have hcenter : c ∉ "center".toList := by rcases hc with rfl | rfl <;> decide
  have hradius : c ∉ ("radius = " ++ floatLiteral radius).toList := by
    have := notMem_number hc radius
    rcases hc with rfl | rfl <;> simp [this]
  exact List.forall_mem_append.mpr ⟨notMem_stopParts hc h, List.forall_mem_append.mpr
    ⟨notMem_pointParts hc hcenter center, by simpa using hradius⟩⟩

lemma isLine_brush {f : Fill Float} (hf : ∀ c ∈ f.colors, IsHexColor c) :
    IsLine (brush f).text := by
  have hcut : IsCut '\n' := Or.inr rfl
  have hclose : IsLine ")" := by decide
  cases f with
  | solid color =>
    have hcolor : IsLine (colorCall color) := notMem_colorCall hcut (hf color (by simp [Fill.colors]))
    exact isLine_append.mpr ⟨isLine_append.mpr ⟨by decide, hcolor⟩, hclose⟩
  | linear stops start finish =>
    have hparts := isLine_commaList
      (notMem_linearParts hcut (List.forall_mem_map.mp hf) start finish)
    rw [text_linear]
    exact isLine_append.mpr ⟨isLine_append.mpr ⟨by decide, hparts⟩, hclose⟩
  | radial stops center radius =>
    have hparts := isLine_commaList
      (notMem_radialParts hcut (List.forall_mem_map.mp hf) center radius)
    rw [text_radial]
    exact isLine_append.mpr ⟨isLine_append.mpr ⟨by decide, hparts⟩, hclose⟩

/-- The text of a brush tells what kind of fill it is for. -/
lemma head_brush (f : Fill Float) :
    (brush f).text.toList[6]? = some (match f with
      | .solid _ => 'o'
      | .linear .. => 'l'
      | .radial .. => 'r') := by
  cases f with
  | solid c => simp [brush, solidBrush]
  | linear stops start finish => simp [text_linear]
  | radial stops center radius => simp [text_radial]

/-- A fill is told by its brush. -/
lemma brush_inj {f g : Fill Float} (hf : ∀ c ∈ f.colors, IsHexColor c)
    (hg : ∀ c ∈ g.colors, IsHexColor c) (h : (brush f).text = (brush g).text) :
    f.map unsigned = g.map unsigned := by
  have hcut : IsCut ',' := Or.inl rfl
  have hkind := congrArg (fun s => s.toList[6]?) h
  simp only [head_brush, Option.some.injEq] at hkind
  cases f with
  | solid c =>
    cases g with
    | solid d =>
      have : c = d := by simpa [brush, solidBrush, colorCall] using h
      rw [this]
    | linear => simp at hkind
    | radial => simp at hkind
  | linear ss start finish =>
    cases g with
    | solid d => simp at hkind
    | linear ts start' finish' =>
      rw [text_linear, text_linear] at h
      have h := (String.append_right_inj _).mp ((String.append_left_inj ")").mp h)
      have hparts := commaList_inj
        (notMem_linearParts hcut (List.forall_mem_map.mp hf) start finish)
        (notMem_linearParts hcut (List.forall_mem_map.mp hg) start' finish')
        (by simp [linearParts, stopParts_ne_nil]) (by simp [linearParts, stopParts_ne_nil]) h
      obtain ⟨hstops, hpoints⟩ := List.append_inj' hparts (by simp [pointParts])
      obtain ⟨hstart, hfinish⟩ := List.append_inj hpoints (by simp [pointParts])
      rw [Fill.map, Fill.map, stopParts_inj hstops, pointParts_inj hstart, pointParts_inj hfinish]
    | radial => simp at hkind
  | radial ss center radius =>
    cases g with
    | solid d => simp at hkind
    | linear => simp at hkind
    | radial ts center' radius' =>
      rw [text_radial, text_radial] at h
      have h := (String.append_right_inj _).mp ((String.append_left_inj ")").mp h)
      have hparts := commaList_inj
        (notMem_radialParts hcut (List.forall_mem_map.mp hf) center radius)
        (notMem_radialParts hcut (List.forall_mem_map.mp hg) center' radius')
        (by simp [radialParts, stopParts_ne_nil]) (by simp [radialParts, stopParts_ne_nil]) h
      obtain ⟨hstops, hrest⟩ := List.append_inj' hparts (by simp [pointParts])
      obtain ⟨hcenter, hradius⟩ := List.append_inj hrest (by simp [pointParts])
      have hradius := (String.append_right_inj _).mp (List.singleton_injective hradius)
      rw [Fill.map, Fill.map, stopParts_inj hstops, pointParts_inj hcenter,
        floatLiteral_inj hradius]

end Iconsmith.ImageVector
