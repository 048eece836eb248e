import Iconsmith.Proofs.ImageVector.Literals

/-!
# Arguments

Arguments stand in a fixed order under different names, so which of them are left out can be told from
the names of those that are there. What a list of arguments was written from is then told by each
argument for itself.
-/

namespace Iconsmith.ImageVector

open Double (unsigned)
open Source (IsLine IsPart afterText_inj commaList commaList_inj isLine_append toList_commaList)

/-! ### Names of arguments -/

/-- The name of an argument: what stands before the first blank. -/
def nameOf (text : List Char) : List Char :=
  text.takeWhile (· ≠ ' ')

/-- A text of an argument with a name. -/
def IsNamed (name text : String) : Prop :=
  ' ' ∈ text.toList ∧ nameOf text.toList = name.toList

/-- Texts of arguments with the same name. -/
def AllNamed (name : String) (texts : List String) : Prop :=
  ∀ t ∈ texts, IsNamed name t

lemma nameOf_append {name rest : List Char} (hname : ' ' ∉ name) :
    nameOf (name ++ ' ' :: rest) = name := by
  have hkeep : ∀ c ∈ name, decide (c ≠ ' ') = true := by
    intro c hc
    simpa using ne_of_mem_of_not_mem hc hname
  rw [nameOf, List.takeWhile_append_of_pos hkeep]
  simp

/-- The name does not depend on what follows the text of the argument. -/
lemma nameOf_append_of_mem {text : List Char} (h : ' ' ∈ text) (rest : List Char) :
    nameOf (text ++ rest) = nameOf text := by
  obtain ⟨name, value, rfl, hname⟩ := List.eq_append_cons_of_mem h
  rw [List.append_assoc, List.cons_append, nameOf_append hname, nameOf_append hname]

lemma isNamed_argument {name : String} (hname : ' ' ∉ name.toList) (value : Phrase) :
    IsNamed name (argument name value).text := by
  have htext : (argument name value).text.toList
      = name.toList ++ ' ' :: '=' :: ' ' :: value.text.toList := by
    simp [argument]
  refine ⟨by simp [htext], ?_⟩
  rw [htext, nameOf_append hname]

lemma argument_inj {name : String} {v w : Phrase}
    (h : (argument name v).text = (argument name w).text) : v.text = w.text :=
  (String.append_right_inj _).mp h

section

variable {name : String} {names : List String} {xs : List String} {xss yss : List (List String)}

lemma exists_isNamed (hxss : List.Forall₂ AllNamed names xss) {t : String} (ht : t ∈ xss.flatten) :
    ∃ name ∈ names, IsNamed name t := by
  induction hxss with
  | nil => contradiction
  | cons hhead _ ih =>
    rcases List.mem_append.mp ht with ht | ht
    · exact ⟨_, List.mem_cons_self, hhead t ht⟩
    · obtain ⟨name, hname, hnamed⟩ := ih ht
      exact ⟨name, List.mem_cons_of_mem _ hname, hnamed⟩

lemma nameOf_ne_of_notMem (hname : name ∉ names) {other t : String} (hother : other ∈ names)
    (h : IsNamed other t) : nameOf t.toList ≠ name.toList := by
  rw [h.2]
  intro heq
  exact hname (String.toList_inj.mp heq ▸ hother)

/-- The first list in a row can be found by its name. -/
lemma filter_flatten_cons (hname : name ∉ names) (hxs : AllNamed name xs)
    (hxss : List.Forall₂ AllNamed names xss) :
    (xs :: xss).flatten.filter (fun t => nameOf t.toList = name.toList) = xs := by
  have hin : xs.filter (fun t => nameOf t.toList = name.toList) = xs :=
    List.filter_eq_self.mpr fun t ht => decide_eq_true (hxs t ht).2
  have hout : xss.flatten.filter (fun t => nameOf t.toList = name.toList) = [] := by
    refine List.filter_eq_nil_iff.mpr fun t ht => ?_
    obtain ⟨other, hother, hnamed⟩ := exists_isNamed hxss ht
    simpa using nameOf_ne_of_notMem hname hother hnamed
  rw [List.flatten_cons, List.filter_append, hin, hout, List.append_nil]

/-- Lists under different names can be told apart in a row. -/
lemma eq_of_flatten_eq (hnames : names.Nodup) (hxss : List.Forall₂ AllNamed names xss)
    (hyss : List.Forall₂ AllNamed names yss) (h : xss.flatten = yss.flatten) : xss = yss := by
  induction hxss generalizing yss with
  | nil =>
    cases hyss
    rfl
  | @cons name xs names xss hxs hxss ih =>
    cases hyss with
    | @cons _ ys _ yss hys hyss =>
      obtain ⟨hname, hnames⟩ := List.nodup_cons.mp hnames
      obtain rfl : xs = ys := by
        rw [← filter_flatten_cons hname hxs hxss, ← filter_flatten_cons hname hys hyss, h]
      rw [ih hnames hyss (List.append_cancel_left h)]

end

/-! ### Single arguments -/

/-- The texts of a list of phrases. -/
def texts (phrases : List Phrase) : List String :=
  phrases.map (·.text)

/-- The argument for a value that may be missing. -/
def optionArgument {α : Type} (name : String) (phrase : α → Phrase) (x : Option α) : List Phrase :=
  (x.map fun a => argument name (phrase a)).toList

section

variable {name : String} (hname : ' ' ∉ name.toList)

include hname

lemma allNamed_optionArgument {α : Type} (phrase : α → Phrase) (x : Option α) :
    AllNamed name (texts (optionArgument name phrase x)) := by
  cases x with
  | none => simp [AllNamed, texts, optionArgument]
  | some a => simpa [AllNamed, texts, optionArgument] using isNamed_argument hname (phrase a)

lemma allNamed_numberArgument (x default : Float) :
    AllNamed name (texts (numberArgument name x default)) := by
  unfold numberArgument
  split_ifs
  · simp [AllNamed, texts]
  · simpa [AllNamed, texts] using isNamed_argument hname ⟨floatLiteral x, []⟩

lemma allNamed_choiceArgument {α : Type} [DecidableEq α] (type : String) (constant : α → String)
    (x default : α) : AllNamed name (texts (choiceArgument name type constant x default)) := by
  unfold choiceArgument
  split_ifs
  · simp [AllNamed, texts]
  · simpa [AllNamed, texts] using isNamed_argument hname ⟨type ++ "." ++ constant x, [graphicsName type]⟩

end

section

variable {name : String}

lemma optionArgument_inj {α β : Type} {phrase : α → Phrase} {f : α → β} {x y : Option α}
    (hf : ∀ a ∈ x, ∀ b ∈ y, (phrase a).text = (phrase b).text → f a = f b)
    (h : texts (optionArgument name phrase x) = texts (optionArgument name phrase y)) :
    x.map f = y.map f := by
  cases x with
  | none =>
    cases y with
    | none => rfl
    | some b => contradiction
  | some a =>
    cases y with
    | none => contradiction
    | some b =>
      exact congrArg some (hf a rfl b rfl (argument_inj (List.singleton_injective h)))

lemma numberArgument_inj {x y default : Float} (hdefault : default.isFinite = true)
    (h : texts (numberArgument name x default) = texts (numberArgument name y default)) :
    unsigned x = unsigned y := by
  unfold numberArgument at h
  split_ifs at h with hx hy hy
  · rw [Double.unsigned_eq_of_beq hdefault hx, Double.unsigned_eq_of_beq hdefault hy]
  · contradiction
  · contradiction
  · exact floatLiteral_inj (argument_inj (List.singleton_injective h))

lemma choiceArgument_inj {α : Type} [DecidableEq α] {type : String} {constant : α → String}
    (hconstant : Function.Injective constant) {x y default : α}
    (h : texts (choiceArgument name type constant x default)
      = texts (choiceArgument name type constant y default)) : x = y := by
  unfold choiceArgument at h
  split_ifs at h with hx hy hy
  · rw [hx, hy]
  · contradiction
  · contradiction
  · exact hconstant ((String.append_right_inj _).mp (argument_inj (List.singleton_injective h)))

lemma isLine_argument (hname : IsLine name) {value : Phrase} (hvalue : IsLine value.text) :
    IsLine (argument name value).text :=
  isLine_append.mpr ⟨isLine_append.mpr ⟨hname, by decide⟩, hvalue⟩

lemma isLine_optionArgument {α : Type} (hname : IsLine name) {phrase : α → Phrase} {x : Option α}
    (hx : ∀ a ∈ x, IsLine (phrase a).text) :
    ∀ t ∈ texts (optionArgument name phrase x), IsLine t := by
  cases x with
  | none => simp [texts, optionArgument]
  | some a => simpa [texts, optionArgument] using isLine_argument hname (hx a rfl)

lemma isLine_choiceArgument {α : Type} [DecidableEq α] (hname : IsLine name) {type : String}
    {constant : α → String} {x : α} (hx : IsLine (type ++ "." ++ constant x)) (default : α) :
    ∀ t ∈ texts (choiceArgument name type constant x default), IsLine t := by
  unfold choiceArgument
  split_ifs
  · simp [texts]
  · have : IsLine (argument name ⟨type ++ "." ++ constant x, [graphicsName type]⟩).text :=
      isLine_argument hname hx
    simpa [texts] using this

lemma notMem_numberArgument {c : Char} (hc : IsCut c) (hname : c ∉ name.toList)
    (x default : Float) : ∀ t ∈ texts (numberArgument name x default), c ∉ t.toList := by
  have hx := notMem_number hc x
  unfold numberArgument
  split_ifs
  · simp [texts]
  · rcases hc with rfl | rfl <;> simp [texts, argument, hname, hx]

lemma isLine_numberArgument (hname : IsLine name) (x default : Float) :
    ∀ t ∈ texts (numberArgument name x default), IsLine t :=
  notMem_numberArgument (Or.inr rfl) hname x default

end

lemma capName_injective : Function.Injective capName := by
  intro a b h
  cases a <;> cases b <;> first | rfl | exact absurd h (by decide)

lemma joinName_injective : Function.Injective joinName := by
  intro a b h
  cases a <;> cases b <;> first | rfl | exact absurd h (by decide)

lemma fillRuleName_injective : Function.Injective fillRuleName := by
  intro a b h
  cases a <;> cases b <;> first | rfl | exact absurd h (by decide)

/-! ### Arguments of paths -/

/-- The names of the arguments of a path. -/
def pathNames : List String :=
  ["name", "fill", "fillAlpha", "stroke", "strokeAlpha", "strokeLineWidth", "strokeLineCap",
    "strokeLineJoin", "strokeLineMiter", "pathFillType"]

/-- The arguments of a path under each of the names. -/
def pathFields (p : Path Float) : List (List Phrase) :=
  [optionArgument "name" (fun n => ⟨stringLiteral n, []⟩) p.name,
    optionArgument "fill" brush p.fill,
    numberArgument "fillAlpha" p.fillAlpha 1,
    optionArgument "stroke" solidBrush p.strokeColor,
    numberArgument "strokeAlpha" p.strokeAlpha 1,
    optionArgument "strokeLineWidth" (fun w : Length Float => ⟨floatLiteral w.value, []⟩)
      p.strokeWidth,
    choiceArgument "strokeLineCap" "StrokeCap" capName p.cap .butt,
    choiceArgument "strokeLineJoin" "StrokeJoin" joinName p.join .miter,
    numberArgument "strokeLineMiter" p.miter Path.defaultMiter,
    choiceArgument "pathFillType" "PathFillType" fillRuleName p.fillRule .nonZero]

lemma texts_pathArguments (p : Path Float) :
    texts (pathArguments p) = ((pathFields p).map texts).flatten := by
  simp only [texts, pathArguments, nameArgument, pathFields, optionArgument, List.map_append,
    List.map_cons, List.map_nil, List.flatten_cons, List.flatten_nil, List.append_assoc,
    List.append_nil]

lemma allNamed_pathFields (p : Path Float) :
    List.Forall₂ AllNamed pathNames ((pathFields p).map texts) :=
  .cons (allNamed_optionArgument (by decide) _ _) <|
  .cons (allNamed_optionArgument (by decide) _ _) <|
  .cons (allNamed_numberArgument (by decide) _ _) <|
  .cons (allNamed_optionArgument (by decide) _ _) <|
  .cons (allNamed_numberArgument (by decide) _ _) <|
  .cons (allNamed_optionArgument (by decide) _ _) <|
  .cons (allNamed_choiceArgument (by decide) _ _ _ _) <|
  .cons (allNamed_choiceArgument (by decide) _ _ _ _) <|
  .cons (allNamed_numberArgument (by decide) _ _) <|
  .cons (allNamed_choiceArgument (by decide) _ _ _ _) .nil

lemma isFinite_defaultMiter : (Path.defaultMiter : Float).isFinite = true := by
  decide

lemma solidBrush_inj {c d : String} (h : (solidBrush c).text = (solidBrush d).text) : c = d := by
  simpa [solidBrush, colorCall] using h

lemma isLine_pathArguments {p : Path Float} (hp : p.Colored) :
    ∀ t ∈ texts (pathArguments p), IsLine t := by
  simp only [texts_pathArguments, pathFields, List.map_cons, List.map_nil, List.flatten_cons,
    List.flatten_nil, List.append_nil, List.forall_mem_append]
  refine ⟨isLine_optionArgument (by decide) fun n _ => isLine_stringLiteral n,
    isLine_optionArgument (by decide) fun f hf => isLine_brush fun c hc => hp c ?_,
    isLine_numberArgument (by decide) _ _,
    isLine_optionArgument (by decide) fun c hc => ?_,
    isLine_numberArgument (by decide) _ _,
    isLine_optionArgument (by decide) fun w _ => isLine_floatLiteral w.value,
    isLine_choiceArgument (by decide) ?_ _,
    isLine_choiceArgument (by decide) ?_ _,
    isLine_numberArgument (by decide) _ _,
    isLine_choiceArgument (by decide) ?_ _⟩
  · simp [Path.colors, Option.mem_def.mp hf, hc]
  · have hcolor := notMem_colorCall (Or.inr rfl) (hp c (by simp [Path.colors, Option.mem_def.mp hc]))
    exact isLine_append.mpr ⟨isLine_append.mpr ⟨by decide, hcolor⟩, by decide⟩
  · cases p.cap <;> decide
  · cases p.join <;> decide
  · cases p.fillRule <;> decide

/-- A style is told by its arguments. -/
lemma pathArguments_inj {p q : Path Float} (hp : p.Colored) (hq : q.Colored)
    (hcommands : p.commands.map (Command.map unsigned) = q.commands.map (Command.map unsigned))
    (h : texts (pathArguments p) = texts (pathArguments q)) : p.normal = q.normal := by
  have hone : (1 : Float).isFinite = true := by decide
  rw [texts_pathArguments, texts_pathArguments] at h
  have hfields := eq_of_flatten_eq (by decide) (allNamed_pathFields p) (allNamed_pathFields q) h
  simp only [pathFields, List.map_cons, List.map_nil, List.cons.injEq, and_true] at hfields
  obtain ⟨hname, hfill, hfillAlpha, hstroke, hstrokeAlpha, hwidth, hcap, hjoin, hmiter, hrule⟩ :=
    hfields
  have hname : p.name = q.name := by
    simpa using optionArgument_inj (f := id) (fun _ _ _ _ => stringLiteral_inj) hname
  have hfill : p.fill.map (Fill.map unsigned) = q.fill.map (Fill.map unsigned) := by
    refine optionArgument_inj (fun f hf g hg => brush_inj ?_ ?_) hfill
    · intro c hc
      exact hp c (by simp [Path.colors, Option.mem_def.mp hf, hc])
    · intro c hc
      exact hq c (by simp [Path.colors, Option.mem_def.mp hg, hc])
  have hstroke : p.strokeColor = q.strokeColor := by
    simpa using optionArgument_inj (f := id) (fun _ _ _ _ => solidBrush_inj) hstroke
  have hwidth : p.strokeWidth.map (fun w => (⟨unsigned w.value, none⟩ : Length Float))
      = q.strokeWidth.map fun w => ⟨unsigned w.value, none⟩ :=
    optionArgument_inj (fun _ _ _ _ heq => by rw [floatLiteral_inj heq]) hwidth
  simp only [Path.normal, Path.map, hname, hcommands, hfill, hstroke, hwidth,
    numberArgument_inj hone hfillAlpha, numberArgument_inj hone hstrokeAlpha,
    choiceArgument_inj capName_injective hcap, choiceArgument_inj joinName_injective hjoin,
    numberArgument_inj isFinite_defaultMiter hmiter,
    choiceArgument_inj fillRuleName_injective hrule]

/-! ### Arguments of groups -/

/-- The names of the arguments of a group, but for its own name. -/
def transformNames : List String :=
  ["rotate", "pivotX", "pivotY", "scaleX", "scaleY", "translationX", "translationY"]

/-- The arguments of a transform under each of the names. -/
def transformFields (t : Transform Float) : List (List Phrase) :=
  [numberArgument "rotate" t.rotation 0,
    numberArgument "pivotX" t.pivot.x 0, numberArgument "pivotY" t.pivot.y 0,
    numberArgument "scaleX" t.scale.x 1, numberArgument "scaleY" t.scale.y 1,
    numberArgument "translationX" t.shift.x 0, numberArgument "translationY" t.shift.y 0]

/-- The texts of the arguments of a transform. -/
def transformTexts (t : Transform Float) : List String :=
  ((transformFields t).map texts).flatten

lemma texts_groupArguments (name : Option String) (t : Transform Float) :
    texts (groupArguments name t) = texts (nameArgument name) ++ transformTexts t := by
  simp only [texts, groupArguments, transformTexts, transformFields, List.map_append, List.map_cons,
    List.map_nil, List.flatten_cons, List.flatten_nil, List.append_assoc, List.append_nil]

lemma allNamed_transformFields (t : Transform Float) :
    List.Forall₂ AllNamed transformNames ((transformFields t).map texts) :=
  .cons (allNamed_numberArgument (by decide) _ _) <|
  .cons (allNamed_numberArgument (by decide) _ _) <|
  .cons (allNamed_numberArgument (by decide) _ _) <|
  .cons (allNamed_numberArgument (by decide) _ _) <|
  .cons (allNamed_numberArgument (by decide) _ _) <|
  .cons (allNamed_numberArgument (by decide) _ _) <|
  .cons (allNamed_numberArgument (by decide) _ _) .nil

lemma transformTexts_inj {t u : Transform Float} (h : transformTexts t = transformTexts u) :
    t.map unsigned = u.map unsigned := by
  have hzero : (0 : Float).isFinite = true := by decide
  have hone : (1 : Float).isFinite = true := by decide
  have hfields := eq_of_flatten_eq (by decide) (allNamed_transformFields t)
    (allNamed_transformFields u) h
  simp only [transformFields, List.map_cons, List.map_nil, List.cons.injEq, and_true] at hfields
  obtain ⟨hrotation, hpivotX, hpivotY, hscaleX, hscaleY, hshiftX, hshiftY⟩ := hfields
  simp only [Transform.map, Point.map, numberArgument_inj hzero hrotation,
    numberArgument_inj hzero hpivotX, numberArgument_inj hzero hpivotY,
    numberArgument_inj hone hscaleX, numberArgument_inj hone hscaleY,
    numberArgument_inj hzero hshiftX, numberArgument_inj hzero hshiftY]

lemma notMem_transformTexts {c : Char} (hc : IsCut c) (t : Transform Float) :
    ∀ s ∈ transformTexts t, c ∉ s.toList := by
  have hnames : ∀ name ∈ transformNames, c ∉ name.toList := by
    rcases hc with rfl | rfl <;> decide
  simp only [transformNames, List.forall_mem_cons] at hnames
  obtain ⟨hrotate, hpivotX, hpivotY, hscaleX, hscaleY, hshiftX, hshiftY, -⟩ := hnames
  simp only [transformTexts, transformFields, List.map_cons, List.map_nil, List.flatten_cons,
    List.flatten_nil, List.append_nil, List.forall_mem_append]
  exact ⟨notMem_numberArgument hc hrotate _ _, notMem_numberArgument hc hpivotX _ _,
    notMem_numberArgument hc hpivotY _ _, notMem_numberArgument hc hscaleX _ _,
    notMem_numberArgument hc hscaleY _ _, notMem_numberArgument hc hshiftX _ _,
    notMem_numberArgument hc hshiftY _ _⟩

lemma isPart_transformTexts (t : Transform Float) : ∀ s ∈ transformTexts t, IsPart s :=
  notMem_transformTexts (Or.inl rfl) t

lemma isLine_groupArguments (name : Option String) (t : Transform Float) :
    ∀ s ∈ texts (groupArguments name t), IsLine s := by
  rw [texts_groupArguments, List.forall_mem_append]
  exact ⟨isLine_optionArgument (by decide) fun n _ => isLine_stringLiteral n,
    notMem_transformTexts (Or.inr rfl) t⟩

lemma nameOf_commaList_cons {name x : String} (h : IsNamed name x) (xs : List String) :
    nameOf (commaList (x :: xs)).toList = name.toList := by
  rw [toList_commaList, nameOf_append_of_mem h.1, h.2]

/-- The list of the arguments of a transform does not begin with a name. -/
lemma nameOf_transformTexts {t : Transform Float} (h : transformTexts t ≠ []) :
    nameOf (commaList (transformTexts t)).toList ≠ "name".toList := by
  obtain ⟨s, rest, htexts⟩ := List.exists_cons_of_ne_nil h
  have hs : s ∈ ((transformFields t).map texts).flatten := by
    rw [← transformTexts, htexts]
    exact List.mem_cons_self
  obtain ⟨other, hother, hnamed⟩ := exists_isNamed (allNamed_transformFields t) hs
  rw [htexts, nameOf_commaList_cons hnamed, ← hnamed.2]
  exact nameOf_ne_of_notMem (by decide) hother hnamed

lemma texts_groupArguments_none (t : Transform Float) :
    texts (groupArguments none t) = transformTexts t := by
  have hname : texts (nameArgument none) = [] := rfl
  rw [texts_groupArguments, hname, List.nil_append]

lemma texts_groupArguments_some (n : String) (t : Transform Float) :
    texts (groupArguments (some n) t)
      = (argument "name" ⟨stringLiteral n, []⟩).text :: transformTexts t := by
  have hname : texts (nameArgument (some n)) = [(argument "name" ⟨stringLiteral n, []⟩).text] := rfl
  rw [texts_groupArguments, hname, List.singleton_append]

/-- A name and a transform are told by the list of their arguments. -/
lemma groupArguments_inj {name name' : Option String} {t t' : Transform Float}
    (hne : texts (groupArguments name t) ≠ []) (hne' : texts (groupArguments name' t') ≠ [])
    (h : commaList (texts (groupArguments name t)) = commaList (texts (groupArguments name' t'))) :
    name = name' ∧ t.map unsigned = t'.map unsigned := by
  have hname (n : String) : IsNamed "name" (argument "name" ⟨stringLiteral n, []⟩).text :=
    isNamed_argument (by decide) _
  cases name with
  | none =>
    rw [texts_groupArguments_none] at h hne
    cases name' with
    | none =>
      rw [texts_groupArguments_none] at h hne'
      exact ⟨rfl, transformTexts_inj (commaList_inj (isPart_transformTexts t)
        (isPart_transformTexts t') hne hne' h)⟩
    | some n' =>
      rw [texts_groupArguments_some] at h
      refine absurd ?_ (nameOf_transformTexts hne)
      rw [h, nameOf_commaList_cons (hname n')]
  | some n =>
    rw [texts_groupArguments_some] at h
    cases name' with
    | none =>
      rw [texts_groupArguments_none] at h hne'
      refine absurd ?_ (nameOf_transformTexts hne')
      rw [← h, nameOf_commaList_cons (hname n)]
    | some n' =>
      have h := congrArg String.toList h
      simp only [texts_groupArguments_some, toList_commaList, argument,
        String.toList_append, List.append_assoc] at h
      obtain ⟨rfl, hafter⟩ := stringLiteral_append_inj
        (List.append_cancel_left (List.append_cancel_left h))
      exact ⟨rfl, transformTexts_inj (afterText_inj (isPart_transformTexts t)
        (isPart_transformTexts t') hafter)⟩

/-- A group has no arguments if it is no more than a list of its children. -/
lemma isEmpty_groupArguments (name : Option String) (t : Transform Float) :
    (groupArguments name t).isEmpty = isPlainGroup name t := by
  have hname : (nameArgument name).isEmpty = name.isNone := by
    cases name <;> rfl
  have hnumber (argument : String) (x default : Float) :
      (numberArgument argument x default).isEmpty = (x == default) := by
    unfold numberArgument
    split_ifs with h <;> simp [h]
  have happend (xs ys : List Phrase) : (xs ++ ys).isEmpty = (xs.isEmpty && ys.isEmpty) := by
    cases xs <;> rfl
  have htransform (u : Transform Float) : (t == u) = (t.rotation == u.rotation
      && (t.pivot == u.pivot && (t.scale == u.scale && t.shift == u.shift))) :=
    rfl
  have hpoint (p q : Point Float) : (p == q) = (p.x == q.x && p.y == q.y) :=
    rfl
  have hzero : (Scalar.lit 0 : Float) = 0 := by decide
  have hone : (Scalar.lit 1 : Float) = 1 := by decide
  simp only [groupArguments, happend, hname, hnumber, isPlainGroup, Transform.isIdentity,
    htransform, Transform.identity, hpoint, hzero, hone, Bool.and_assoc]

end Iconsmith.ImageVector
