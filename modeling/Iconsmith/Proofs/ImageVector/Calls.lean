import Iconsmith.Proofs.ImageVector.Arguments
import Iconsmith.Proofs.ImageVector.Links

/-!
# Calls

The calls for a tree of nodes tell the tree but for its plain groups, which have no calls of their own.
Calls nest by indentation, so the call for a node ends where its block does, whatever follows it.
-/

namespace Iconsmith.ImageVector

open Double (unsigned)
open Source (EndsBlock Filled IsLine commaList filled_append filled_cons indent indent_append_inj
  indent_injective isLine_append)

/-! ### Paths -/

/-- The lines of the arguments of a path, each of which ends with a comma. -/
def argumentLines (arguments : List Phrase) : List String :=
  arguments.map (·.text ++ ",")

lemma argumentLines_inj {as bs : List Phrase} (h : argumentLines as = argumentLines bs) :
    texts as = texts bs :=
  map_eq_of_map_eq (fun _ _ _ _ heq => (String.append_left_inj ",").mp heq) h

lemma argumentLine_ne_empty (as : List Phrase) : ∀ l ∈ argumentLines as, l ≠ "" := by
  simp [argumentLines]

/-- Whether there are arguments is told by the first line, and the arguments by those that follow. -/
lemma pathHead_append_inj {as bs : List Phrase} {s t : List String}
    (h : pathHead as ++ s = pathHead bs ++ t) : texts as = texts bs ∧ s = t := by
  have hend : EndsBlock ") \x7b" := by decide
  unfold pathHead at h
  split_ifs at h with has hbs hbs
  · rw [List.isEmpty_iff.mp has, List.isEmpty_iff.mp hbs]
    exact ⟨rfl, (List.cons.inj h).2⟩
  · exact absurd (List.cons.inj h).1 (by decide)
  · exact absurd (List.cons.inj h).1 (by decide)
  · simp only [List.cons_append, List.append_assoc, List.nil_append] at h
    obtain ⟨hlines, -, rfl⟩ := indent_append_inj (argumentLine_ne_empty as)
      (argumentLine_ne_empty bs) hend hend (List.cons.inj h).2
    exact ⟨argumentLines_inj hlines, rfl⟩

lemma commandCall_ne_empty (c : Command Float) : commandCall c ≠ "" := by
  simp [commandCall]

/-- A path is told by its call, whatever follows it. -/
lemma pathDraft_append_inj {p q : Path Float} (hp : p.Colored) (hq : q.Colored)
    {s t : List String} (h : (pathDraft p).lines ++ s = (pathDraft q).lines ++ t) :
    p.normal = q.normal ∧ s = t := by
  have hend : EndsBlock "\x7d" := by decide
  have hcalls (p : Path Float) : ∀ l ∈ p.commands.map commandCall, l ≠ "" :=
    List.forall_mem_map.mpr fun c _ => commandCall_ne_empty c
  simp only [pathDraft, List.append_assoc, List.singleton_append] at h
  obtain ⟨harguments, h⟩ := pathHead_append_inj h
  obtain ⟨hcommands, -, rfl⟩ := indent_append_inj (hcalls p) (hcalls q) hend hend h
  have hcommands := map_eq_of_map_eq (fun _ _ _ _ => commandCall_inj) hcommands
  exact ⟨pathArguments_inj hp hq hcommands harguments, rfl⟩

lemma filled_pathDraft {p : Path Float} (hp : p.Colored) : Filled (pathDraft p).lines := by
  have harguments : Filled (argumentLines (pathArguments p)) := by
    refine List.forall_mem_map.mpr fun a ha => ⟨by simp, isLine_append.mpr ⟨?_, by decide⟩⟩
    exact isLine_pathArguments hp a.text (List.mem_map_of_mem ha)
  have hhead : Filled (pathHead (pathArguments p)) := by
    unfold pathHead
    split_ifs
    · decide
    · exact filled_append.mpr ⟨filled_cons.mpr ⟨by decide, harguments.indent⟩, by decide⟩
  have hcommands : Filled (p.commands.map commandCall) :=
    List.forall_mem_map.mpr fun c _ => ⟨commandCall_ne_empty c, isLine_commandCall c⟩
  exact filled_append.mpr ⟨filled_append.mpr ⟨hhead, hcommands.indent⟩, by decide⟩

/-! ### Groups -/

/-- The first line of the call for a group. -/
def groupHead (name : Option String) (t : Transform Float) : String :=
  "group(" ++ commaList (texts (groupArguments name t)) ++ ")"

lemma groupHead_inj {name name' : Option String} {t t' : Transform Float}
    (h : isPlainGroup name t = false) (h' : isPlainGroup name' t' = false)
    (heq : groupHead name t = groupHead name' t') :
    name = name' ∧ t.map unsigned = t'.map unsigned := by
  have hne {name : Option String} {t : Transform Float} (h : isPlainGroup name t = false) :
      texts (groupArguments name t) ≠ [] := by
    rw [← isEmpty_groupArguments] at h
    simpa [texts] using h
  exact groupArguments_inj (hne h) (hne h')
    ((String.append_right_inj _).mp ((String.append_left_inj ")").mp heq))

lemma isLine_groupHead (name : Option String) (t : Transform Float) : IsLine (groupHead name t) :=
  isLine_append.mpr ⟨isLine_append.mpr ⟨by decide, Source.isLine_commaList (isLine_groupArguments name t)⟩,
    by decide⟩

lemma lines_nodeDraft_group {name : Option String} {t : Transform Float}
    (h : isPlainGroup name t = false) (children : List (Node Float)) :
    (nodeDraft (.group name t children)).lines
      = Source.block (groupHead name t) (nodesDraft children).lines := by
  rw [nodeDraft, groupDraft, isEmpty_groupArguments, h, if_neg Bool.false_ne_true]
  rfl

lemma nodesDraft_append (ms ns : List (Node Float)) :
    nodesDraft (ms ++ ns) = nodesDraft ms ++ nodesDraft ns := by
  induction ms with
  | nil => rfl
  | cons m ms ih => rw [List.cons_append, nodesDraft, nodesDraft, ih, Draft.append_assoc]

lemma nodesDraft_singleton (n : Node Float) : nodesDraft [n] = nodeDraft n := by
  rw [nodesDraft, nodesDraft, Draft.append_empty]

lemma lines_nodesDraft_cons (n : Node Float) (ns : List (Node Float)) :
    (nodesDraft (n :: ns)).lines = (nodeDraft n).lines ++ (nodesDraft ns).lines := by
  rw [nodesDraft, lines_append]

mutual

lemma lines_splice : ∀ n : Node Float, (nodesDraft n.splice).lines = (nodeDraft n).lines
  | .group name t children => by
    have hchildren := lines_spliceAll children
    rw [Node.splice]
    split_ifs with hplain
    · rw [nodeDraft_plain hplain, hchildren]
    · have hplain : isPlainGroup name t = false := by simpa using hplain
      rw [nodesDraft_singleton, lines_nodeDraft_group hplain, lines_nodeDraft_group hplain, hchildren]
  | .path p => by rw [Node.splice, nodesDraft_singleton]

/-- Plain groups leave no trace in the calls. -/
lemma lines_spliceAll : ∀ ns : List (Node Float),
    (nodesDraft (Node.spliceAll ns)).lines = (nodesDraft ns).lines
  | [] => rfl
  | n :: ns => by
    rw [Node.spliceAll, nodesDraft_append, lines_append, lines_splice n, lines_spliceAll ns,
      lines_nodesDraft_cons]

end

/-! ### Trees -/

mutual

lemma filled_nodeDraft : ∀ n : Node Float, (∀ p ∈ n.paths, p.Colored) → Filled (nodeDraft n).lines
  | .group name t children, h => by
    have hchildren := filled_nodesDraft children (by simpa [Node.paths] using h)
    cases hplain : isPlainGroup name t with
    | true => rwa [nodeDraft_plain hplain]
    | false =>
      rw [lines_nodeDraft_group hplain]
      refine filled_append.mpr ⟨filled_cons.mpr ⟨⟨by simp, ?_⟩, hchildren.indent⟩, by decide⟩
      exact isLine_append.mpr ⟨isLine_groupHead name t, by decide⟩
  | .path p, h => by
    rw [nodeDraft]
    exact filled_pathDraft (h p (by simp [Node.paths]))

/-- The calls hold no empty lines. -/
lemma filled_nodesDraft : ∀ ns : List (Node Float), (∀ p ∈ Node.pathsOf ns, p.Colored) →
    Filled (nodesDraft ns).lines
  | [], _ => by decide
  | n :: ns, h => by
    rw [Node.pathsOf, List.forall_mem_append] at h
    rw [lines_nodesDraft_cons]
    exact filled_append.mpr ⟨filled_nodeDraft n h.1, filled_nodesDraft ns h.2⟩

end

/-- What stands first in the calls: a `p` for a path or a `g` for a group. -/
def initial (lines : List String) : Option Char :=
  lines.head?.bind (·.toList.head?)

lemma initial_path (p : Path Float) (s : List String) :
    initial ((pathDraft p).lines ++ s) = some 'p' := by
  rw [pathDraft, pathHead]
  split_ifs <;> rfl

lemma initial_group {name : Option String} {t : Transform Float} (h : isPlainGroup name t = false)
    (children : List (Node Float)) (s : List String) :
    initial ((nodeDraft (.group name t children)).lines ++ s) = some 'g' := by
  rw [lines_nodeDraft_group h]
  simp [initial, Source.block, groupHead]

/-- Spliced nodes with full colors have calls. -/
lemma nodeDraft_ne_nil {n : Node Float} (h : n.Spliced) : (nodeDraft n).lines ≠ [] := by
  cases n with
  | group name t children =>
    rw [lines_nodeDraft_group h.1]
    simp [Source.block]
  | path p => simp [nodeDraft, pathDraft]

mutual

/-- A spliced node is told by its calls, whatever follows them. -/
lemma nodeDraft_append_inj : ∀ (n m : Node Float), n.Spliced → m.Spliced →
    (∀ p ∈ n.paths, p.Colored) → (∀ p ∈ m.paths, p.Colored) → ∀ {s t : List String},
    (nodeDraft n).lines ++ s = (nodeDraft m).lines ++ t → n.normal = m.normal ∧ s = t
  | .group name t children, .group name' t' children', hn, hm, hp, hq, _, _, h => by
    have hend : EndsBlock "\x7d" := by decide
    have hp : ∀ p ∈ Node.pathsOf children, p.Colored := by simpa [Node.paths] using hp
    have hq : ∀ p ∈ Node.pathsOf children', p.Colored := by simpa [Node.paths] using hq
    rw [lines_nodeDraft_group hn.1, lines_nodeDraft_group hm.1] at h
    simp only [Source.block, List.cons_append, List.append_assoc, List.nil_append] at h
    obtain ⟨hhead, hrest⟩ := List.cons.inj h
    obtain ⟨hinside, -, rfl⟩ := indent_append_inj (filled_nodesDraft children hp).ne_empty
      (filled_nodesDraft children' hq).ne_empty hend hend hrest
    obtain ⟨rfl, ht⟩ := groupHead_inj hn.1 hm.1 ((String.append_left_inj " \x7b").mp hhead)
    rw [Node.normal_group, Node.normal_group, ht,
      nodesDraft_inj children children' hn.2 hm.2 hp hq hinside]
    exact ⟨rfl, rfl⟩
  | .group name t children, .path q, hn, _, _, _, _, _, h => by
    have hinitial := congrArg initial h
    rw [initial_group hn.1, nodeDraft, initial_path] at hinitial
    simp at hinitial
  | .path p, .group name t children, _, hm, _, _, _, _, h => by
    have hinitial := congrArg initial h
    rw [initial_group hm.1, nodeDraft, initial_path] at hinitial
    simp at hinitial
  | .path p, .path q, _, _, hp, hq, _, _, h => by
    rw [nodeDraft, nodeDraft] at h
    obtain ⟨hnormal, hrest⟩ := pathDraft_append_inj (hp p (by simp [Node.paths]))
      (hq q (by simp [Node.paths])) h
    rw [Node.normal_path, Node.normal_path, hnormal]
    exact ⟨rfl, hrest⟩

/-- Spliced nodes are told by their calls. -/
lemma nodesDraft_inj : ∀ (ns ms : List (Node Float)), Node.SplicedAll ns → Node.SplicedAll ms →
    (∀ p ∈ Node.pathsOf ns, p.Colored) → (∀ p ∈ Node.pathsOf ms, p.Colored) →
    (nodesDraft ns).lines = (nodesDraft ms).lines → ns.map Node.normal = ms.map Node.normal
  | [], [], _, _, _, _, _ => rfl
  | [], m :: ms, _, hm, _, _, h => by
    rw [lines_nodesDraft_cons] at h
    exact absurd (List.append_eq_nil_iff.mp h.symm).1 (nodeDraft_ne_nil hm.1)
  | n :: ns, [], hn, _, _, _, h => by
    rw [lines_nodesDraft_cons] at h
    exact absurd (List.append_eq_nil_iff.mp h).1 (nodeDraft_ne_nil hn.1)
  | n :: ns, m :: ms, hn, hm, hp, hq, h => by
    rw [Node.pathsOf, List.forall_mem_append] at hp hq
    rw [lines_nodesDraft_cons, lines_nodesDraft_cons] at h
    obtain ⟨hhead, htail⟩ := nodeDraft_append_inj n m hn.1 hm.1 hp.1 hq.1 h
    rw [List.map_cons, List.map_cons, hhead, nodesDraft_inj ns ms hn.2 hm.2 hp.2 hq.2 htail]

end

end Iconsmith.ImageVector
