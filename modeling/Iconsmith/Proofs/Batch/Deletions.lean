import Iconsmith.Proofs.Batch.Shifts

/-!
# Directories without icons

A directory from which no icon comes is named like the other ones, since names are given before
directories are visited. Without it the icons come from the same files. Those in the directories
beside it that are visited later may be in a group of another name, but nothing else about a run can
change.
-/

namespace Iconsmith

/-! ### Views without a directory -/

namespace FileView

/-- A view without what some names lead to from a directory. Elsewhere below that directory there is
only one name less, where the names ended. -/
structure Deletes (v v' : FileView) (dir : String) (path : List String) : Prop where
  isDirectory : ∀ p, (∀ n ∈ p, Location.IsName n) → ¬ path <+: p →
    v'.isDirectory (Location.below dir p) = v.isDirectory (Location.below dir p)
  entries : ∀ p, (∀ n ∈ p, Location.IsName n) → ¬ path <+: p →
    v'.entries (Location.below dir p)
      = (v.entries (Location.below dir p)).map fun names => names.filter fun n => p ++ [n] ≠ path
  bytes : ∀ p, (∀ n ∈ p, Location.IsName n) → ¬ path <+: p →
    v'.bytes (Location.below dir p) = v.bytes (Location.below dir p)
  scratch : v'.scratch = v.scratch

/-- Whether a location is that of something that is gone, or below it. -/
def isGone (dir : String) (path : List String) (location : String) : Bool :=
  (Location.parts (Location.below dir path)).isPrefixOf (Location.parts location)

/-- Takes away what some names lead to from a directory. -/
def without (v : FileView) (dir : String) (path : List String) : FileView where
  isDirectory location := !isGone dir path location && v.isDirectory location
  entries location :=
    if isGone dir path location then .error .notFound
    else (v.entries location).map fun names =>
      names.filter fun n => !isGone dir path (Location.join location n)
  bytes location := if isGone dir path location then .error .notFound else v.bytes location
  lost := v.lost
  scratch := v.scratch

lemma isGone_below (dir : String) {path p : List String} (hpath : ∀ n ∈ path, Location.IsName n)
    (hp : ∀ n ∈ p, Location.IsName n) :
    isGone dir path (Location.below dir p) = true ↔ path <+: p := by
  rw [isGone, List.isPrefixOf_iff_prefix, Location.parts_below dir hpath,
    Location.parts_below dir hp, List.prefix_append_right_inj]
  exact List.prefix_map_iff_of_injective fun _ _ => LocationPart.named.inj

lemma ne_below_of_isGone {dir : String} {path p : List String}
    (hpath : ∀ n ∈ path, Location.IsName n) (hp : ∀ n ∈ p, Location.IsName n) {location : String}
    (h : isGone dir path location = false) : location ≠ Location.below dir (path ++ p) := by
  rintro rfl
  have hgone := isGone_below dir hpath (List.forall_mem_append.mpr ⟨hpath, hp⟩)
  rw [h] at hgone
  exact Bool.false_ne_true (hgone.mpr (List.prefix_append path p))

lemma deletes_without (v : FileView) (hv : v.Lawful) (dir : String) {path : List String}
    (hpath : ∀ n ∈ path, Location.IsName n) : v.Deletes (v.without dir path) dir path where
  isDirectory p hp hout := by
    rw [← isGone_below dir hpath hp, Bool.not_eq_true] at hout
    simp [without, hout]
  entries p hp hout := by
    have hgone := hout
    rw [← isGone_below dir hpath hp, Bool.not_eq_true] at hgone
    simp only [without, hgone, Bool.false_eq_true, if_false]
    cases hentries : v.entries (Location.below dir p) with
    | error fault => rfl
    | ok names =>
      refine congrArg Except.ok (List.filter_congr fun n hn => ?_)
      have hnames : ∀ m ∈ p ++ [n], Location.IsName m :=
        List.forall_mem_append.mpr ⟨hp, List.forall_mem_singleton.mpr (hv.isName hentries n hn)⟩
      rw [← Location.below_concat, Bool.eq_iff_iff, Bool.not_eq_true', ← Bool.not_eq_true,
        isGone_below dir hpath hnames, List.prefix_concat_iff, or_iff_left hout, decide_eq_true_iff,
        eq_comm]
  bytes p hp hout := by
    rw [← isGone_below dir hpath hp, Bool.not_eq_true] at hout
    simp [without, hout]
  scratch := rfl

lemma Deletes.join {v v' : FileView} {dir k : String} {path : List String}
    (h : Deletes v v' dir (k :: path)) (hk : Location.IsName k) :
    Deletes v v' (Location.join dir k) path := by
  refine ⟨fun p hp hout => ?_, fun p hp hout => ?_, fun p hp hout => ?_, h.scratch⟩
  · exact h.isDirectory (k :: p) (List.forall_mem_cons.mpr ⟨hk, hp⟩) (by simpa using hout)
  · have hentries := h.entries (k :: p) (List.forall_mem_cons.mpr ⟨hk, hp⟩) (by simpa using hout)
    rw [Location.below_cons] at hentries
    simpa using hentries
  · exact h.bytes (k :: p) (List.forall_mem_cons.mpr ⟨hk, hp⟩) (by simpa using hout)

end FileView

namespace Batch

open Naming (Siblings)

/-! ### Directories beside each other -/

/-- The directories of two names beside each other are both visited, in this order. -/
def Precedes (name m : String) : Prop :=
  Workshop.isVisible name = true ∧ Workshop.isVisible m = true ∧ name < m

/-- A location is below a directory that is visited after another one beside it. -/
def Behind (dir : String) (above : List String) (name location : String) : Prop :=
  ∃ m p, Precedes name m ∧ location = Location.below dir (above ++ m :: p)

/-- No directory that is visited after another one beside it asks for a name that could meet the
name of that one. -/
def LaterApart (backend : Source.Backend) (files : FileView) (dir name : String) : Prop :=
  ∀ names, files.entries dir = .ok names →
    ∀ m ∈ names, files.isDirectory (Location.join dir m) = true → Precedes name m →
      Naming.Apart (backend.identifier name) (backend.identifier m)

namespace Workshop

variable {w w' : Workshop}

/-! ### Workshops without a directory -/

/-- Two workshops with the same options, one of which does not find what some names lead to from a
directory. They make the same of whatever else is below the directory. -/
structure Deletes (w w' : Workshop) (dir : String) (path : List String) : Prop where
  options : w'.options = w.options
  files : w.files.Deletes w'.files dir path
  graphic : ∀ p, (∀ n ∈ p, Location.IsName n) → ¬ path <+: p →
    w'.graphic (Location.below dir p) = w.graphic (Location.below dir p)

variable {dir : String} {path : List String}

lemma Deletes.join {k : String} (h : Deletes w w' dir (k :: path)) (hk : Location.IsName k) :
    Deletes w w' (Location.join dir k) path where
  options := h.options
  files := h.files.join hk
  graphic p hp hout := h.graphic (k :: p) (List.forall_mem_cons.mpr ⟨hk, hp⟩) (by simpa using hout)

lemma Deletes.agree {k m : String} (h : Deletes w w' dir (k :: path)) (hm : Location.IsName m)
    (hne : m ≠ k) : Agree w w' (Location.join dir m) := by
  have hout (p : List String) : ¬ k :: path <+: m :: p := by
    simp [List.cons_prefix_cons, hne.symm]
  refine ⟨h.options, fun p hp => ?_, fun p hp => ?_, fun p hp => ?_⟩
  · exact h.files.isDirectory (m :: p) (List.forall_mem_cons.mpr ⟨hm, hp⟩) (hout p)
  · have hentries := h.files.entries (m :: p) (List.forall_mem_cons.mpr ⟨hm, hp⟩) (hout p)
    refine hentries.trans ?_
    have hall :
        (fun names : List String => names.filter fun n => m :: p ++ [n] ≠ k :: path) = id := by
      funext names
      refine List.filter_eq_self.mpr fun n _ => ?_
      simp [hne]
    rw [hall, Location.below_cons]
    cases w.files.entries (Location.below (Location.join dir m) p) <;> rfl
  · exact h.graphic (m :: p) (List.forall_mem_cons.mpr ⟨hm, hp⟩) (hout p)

/-! ### Visits without a directory -/

section Last

variable {name : String} {names : List String}

/-- What is left inside a directory when one directory there is gone. -/
lemma Deletes.inside (h : Deletes w w' dir [name]) (hfiles : w.files.Lawful)
    (hentries : w.files.entries dir = .ok names)
    (hdirectory : w.files.isDirectory (Location.join dir name) = true) :
    w'.files.entries dir = .ok (names.filter (· ≠ name))
      ∧ w'.fileNames dir (names.filter (· ≠ name)) = w.fileNames dir names
      ∧ w'.dirNames dir (names.filter (· ≠ name)) = (w.dirNames dir names).filter (· ≠ name) := by
  have hdir : ∀ m ∈ sorted (names.filter isVisible), m ≠ name →
      w'.files.isDirectory (Location.join dir m) = w.files.isDirectory (Location.join dir m) :=
    fun m hm hne =>
      (h.agree (hfiles.isName hentries m (mem_visibleNames.mp hm).1) hne).isDirectory [] (by simp)
  have hvisible : sorted ((names.filter (· ≠ name)).filter isVisible)
      = (sorted (names.filter isVisible)).filter (· ≠ name) := by
    rw [List.filter_comm, sorted_filter]
  refine ⟨?_, ?_, ?_⟩
  · have hlisted := h.files.entries [] (by simp) (by simp)
    change w'.files.entries dir = (w.files.entries dir).map _ at hlisted
    rw [hlisted, hentries]
    simp [Except.map]
  · rw [fileNames, fileNames, hvisible, List.filter_filter]
    refine List.filter_congr fun m hm => ?_
    by_cases hne : m = name
    · simp [hne, hdirectory]
    · simp [hne, hdir m hm hne]
  · rw [dirNames, dirNames, hvisible, List.filter_filter, List.filter_filter]
    refine List.filter_congr fun m hm => ?_
    by_cases hne : m = name
    · simp [hne]
    · simp [hne, hdir m hm hne]

/-- The directories inside a directory come in order, each of them once. -/
lemma dirNames_split (hfiles : w.files.Lawful) (hentries : w.files.entries dir = .ok names)
    (hname : name ∈ w.dirNames dir names) :
    ∃ before after, w.dirNames dir names = before ++ name :: after
      ∧ (w.dirNames dir names).filter (· ≠ name) = before ++ after ∧ name ∉ before
      ∧ ∀ m ∈ after, name < m := by
  obtain ⟨before, after, hsplit⟩ := List.append_of_mem hname
  have hnodup : (w.dirNames dir names).Nodup :=
    (nodup_visibleNames (hfiles.nodup hentries)).filter _
  have hpairwise : (w.dirNames dir names).Pairwise (· ≤ ·) := (pairwise_sorted _).filter _
  rw [hsplit] at hnodup hpairwise
  have hbefore : name ∉ before := fun hmem =>
    List.disjoint_of_nodup_append hnodup hmem List.mem_cons_self
  have hafter : name ∉ after := (List.nodup_cons.mp (List.nodup_append.mp hnodup).2.1).1
  refine ⟨before, after, hsplit, ?_, hbefore, fun m hm => ?_⟩
  · rw [hsplit, List.filter_append, List.filter_cons_of_neg (by simp)]
    congr 1
    · exact List.filter_eq_self.mpr fun m hm => by simpa using ne_of_mem_of_not_mem hm hbefore
    · exact List.filter_eq_self.mpr fun m hm => by simpa using ne_of_mem_of_not_mem hm hafter
  · have hle := (List.pairwise_cons.mp (List.pairwise_append.mp hpairwise).2.1).1 m hm
    exact lt_of_le_of_ne hle (ne_of_mem_of_not_mem hm hafter).symm

/-- The other directories inside the directory make the same icons, for the same groups. -/
lemma Deletes.flatMap_childGroups (h : Deletes w w' dir [name]) (hfiles : w.files.Lawful)
    (hentries : w.files.entries dir = .ok names) (n : Nat) (group : Group) (s : Siblings)
    {ms : List String} (hms : ∀ m ∈ ms, m ∈ names) (hnot : name ∉ ms) :
    (w.childGroups group s (ms.map (Location.join dir))).flatMap (fun c => w'.iconsOf n c.1 c.2)
      = (w.childGroups group s (ms.map (Location.join dir))).flatMap
        fun c => w.iconsOf n c.1 c.2 := by
  refine List.flatMap_congr fun c hc => ?_
  obtain ⟨m, hm, heq⟩ := exists_name_of_mem hc
  rw [← heq]
  have hname := hfiles.isName hentries m (hms m hm)
  exact (h.agree hname (ne_of_mem_of_not_mem hm hnot)).iconsOf hfiles n c.2

/-- No icon comes from a directory if it is none of those of the directory around it. -/
lemma iconsOf_eq_nil (hfiles : w.files.Lawful) (hentries : w.files.entries dir = .ok names)
    {n : Nat} {group g : Group}
    (hempty : ∀ e ∈ w.iconsOf (n + 1) dir group, ∀ p, (∀ m ∈ p, Location.IsName m) →
      e.2.1 ≠ Location.below dir (name :: p))
    (hchild : (Location.join dir name, g) ∈ w.childGroups group (w.firstSiblings dir names group)
      ((w.dirNames dir names).map (Location.join dir))) :
    w.iconsOf n (Location.join dir name) g = [] := by
  have hdir : w.files.isDirectory (Location.join dir name) = true := by
    obtain ⟨m, hm, heq⟩ := exists_name_of_mem hchild
    change Location.join dir m = Location.join dir name at heq
    rw [← heq]
    exact (mem_dirNames.mp hm).2.2
  refine List.eq_nil_iff_forall_not_mem.mpr fun e he => ?_
  obtain ⟨p, hp, heq⟩ := exists_path_of_mem hfiles hdir he
  exact hempty e (mem_iconsOf_of_child hentries hchild he) p hp heq

/-- The directories after one that is gone ask for their names where one name less is taken. -/
lemma shifted_after (hfiles : w.files.Lawful) (hentries : w.files.entries dir = .ok names)
    (hname : name ∈ names) {group : Group} (hroot : Naming.IsWord group.root) (n : Nat)
    (s : Siblings) {after : List String}
    (hafter : ∀ m ∈ after, m ∈ names ∧ w.files.isDirectory (Location.join dir m) = true
      ∧ Precedes name m) :
    Shifted (Behind dir [] name) (LaterApart w.backend w.files dir name)
      ((w.childGroups group (s.nameChild (w.identifierOf (Location.join dir name))).2
        (after.map (Location.join dir))).flatMap fun c => w.iconsOf n c.1 c.2)
      ((w.childGroups group s (after.map (Location.join dir))).flatMap
        fun c => w.iconsOf n c.1 c.2) := by
  refine shifted_siblings hroot ?_ fun hapart => ⟨Siblings.agreeOff_nameChild _ _, ?_⟩
  · intro d hd g e he
    obtain ⟨m, hm, rfl⟩ := List.mem_map.mp hd
    obtain ⟨p, -, heq⟩ := exists_path_of_mem hfiles (hafter m hm).2.1 he
    exact ⟨m, p, (hafter m hm).2.2, heq⟩
  · intro d hd
    obtain ⟨m, hm, rfl⟩ := List.mem_map.mp hd
    obtain ⟨hlisted, hdir, hprecedes⟩ := hafter m hm
    rw [identifierOf_join dir (hfiles.isName hentries m hlisted),
      identifierOf_join dir (hfiles.isName hentries name hname)]
    exact hapart names hentries m hlisted hdir hprecedes

/-- What the icons of the directories inside a directory become when one of them is gone from which
none came. -/
lemma Deletes.shifted_children (h : Deletes w w' dir [name]) (hfiles : w.files.Lawful)
    (hentries : w.files.entries dir = .ok names) {n : Nat} {group : Group}
    (hroot : Naming.IsWord group.root)
    (hempty : ∀ e ∈ w.iconsOf (n + 1) dir group, ∀ p, (∀ m ∈ p, Location.IsName m) →
      e.2.1 ≠ Location.below dir (name :: p)) :
    Shifted (Behind dir [] name) (LaterApart w.backend w.files dir name)
      ((w.childGroups group (w.firstSiblings dir names group)
        ((w.dirNames dir names).map (Location.join dir))).flatMap fun c => w.iconsOf n c.1 c.2)
      ((w.childGroups group (w.firstSiblings dir names group)
        (((w.dirNames dir names).filter (· ≠ name)).map (Location.join dir))).flatMap
          fun c => w'.iconsOf n c.1 c.2) := by
  by_cases hmem : name ∈ w.dirNames dir names
  · obtain ⟨before, after, hsplit, hfilter, hnot, hafter⟩ := dirNames_split hfiles hentries hmem
    have hlist : ∀ m ∈ before ++ name :: after, m ∈ names ∧ isVisible m = true
        ∧ w.files.isDirectory (Location.join dir m) = true :=
      fun m hm => mem_dirNames.mp (hsplit ▸ hm)
    obtain ⟨hlistBefore, hlistRest⟩ := List.forall_mem_append.mp hlist
    obtain ⟨⟨hname, hvisible, -⟩, hlistAfter⟩ := List.forall_mem_cons.mp hlistRest
    have hbefore := h.flatMap_childGroups hfiles hentries n group
      (w.firstSiblings dir names group) (fun m hm => (hlistBefore m hm).1) hnot
    have hlater := h.flatMap_childGroups hfiles hentries n group
      (w.siblingsAfter (w.firstSiblings dir names group) (before.map (Location.join dir)))
      (fun m hm => (hlistAfter m hm).1) fun hm => lt_irrefl _ (hafter name hm)
    have hgone {g : Group} := iconsOf_eq_nil hfiles hentries (g := g) hempty
    rw [hfilter, List.map_append, childGroups_append, List.flatMap_append, hbefore, hlater]
    rw [hsplit, List.map_append, childGroups_append, List.map_cons, childGroups] at hgone ⊢
    rw [List.flatMap_append, List.flatMap_cons,
      hgone (List.mem_append_right _ List.mem_cons_self), List.nil_append]
    refine Shifted.append (.refl _) (shifted_after hfiles hentries hname hroot n _ fun m hm => ?_)
    obtain ⟨hlisted, hvisible', hdir⟩ := hlistAfter m hm
    exact ⟨hlisted, hdir, hvisible, hvisible', hafter m hm⟩
  · rw [List.filter_eq_self.mpr fun m hm => by simpa using ne_of_mem_of_not_mem hm hmem,
      h.flatMap_childGroups hfiles hentries n group _ (fun m hm => (mem_dirNames.mp hm).1) hmem]
    exact .refl _

/-- What the icons of a directory become when a directory inside it is gone from which none came. -/
lemma Deletes.shifted_last (h : Deletes w w' dir [name]) (hfiles : w.files.Lawful) {n : Nat}
    {group : Group} (hroot : Naming.IsWord group.root)
    (hdirectory : w.files.isDirectory (Location.join dir name) = true)
    (hempty : ∀ e ∈ w.iconsOf n dir group, ∀ p, (∀ m ∈ p, Location.IsName m) →
      e.2.1 ≠ Location.below dir (name :: p)) :
    Shifted (Behind dir [] name) (LaterApart w.backend w.files dir name) (w.iconsOf n dir group)
      (w'.iconsOf n dir group) := by
  cases hentries : w.files.entries dir with
  | error fault =>
    have hlisted := h.files.entries [] (by simp) (by simp)
    change w'.files.entries dir = (w.files.entries dir).map _ at hlisted
    rw [hentries] at hlisted
    rw [iconsOf_of_error hentries, iconsOf_of_error hlisted]
    exact .refl []
  | ok names =>
    obtain ⟨hlisted, hfileNames, hdirNames⟩ := h.inside hfiles hentries hdirectory
    obtain ⟨hfileEntries, hfirst⟩ := fileEntries_congr h.options hfileNames (fun m hm => by
      obtain ⟨hmem, -, hisFile⟩ := mem_fileNames.mp hm
      have hne : m ≠ name := by
        rintro rfl
        rw [hdirectory] at hisFile
        contradiction
      exact (h.agree (hfiles.isName hentries m hmem) hne).graphic [] (by simp)) group
    rw [iconsOf_eq hentries, iconsOf_eq hlisted, hfileEntries, hfirst, childGroups_congr h.options,
      hdirNames]
    refine Shifted.append (.refl _) ?_
    cases n with
    | zero => exact .refl []
    | succ n => exact h.shifted_children hfiles hentries hroot hempty

end Last

lemma Deletes.entries_above {k name : String} {above : List String}
    (h : Deletes w w' dir (k :: above ++ [name])) : w'.files.entries dir = w.files.entries dir := by
  have hall : (fun names : List String => names.filter fun n => [] ++ [n] ≠ k :: above ++ [name])
      = id := by
    funext names
    exact List.filter_eq_self.mpr fun n _ => by simp
  have hentries := h.files.entries [] (by simp) (by simp)
  rw [hall] at hentries
  refine hentries.trans ?_
  change (w.files.entries dir).map id = _
  cases w.files.entries dir <;> rfl

/-- What the icons of a directory become when a directory below it is gone from which none came. The
induction follows the names that lead to the directory around the one that is gone. -/
lemma Deletes.shifted {name : String} (above : List String) {w w' : Workshop} {dir : String}
    (h : Deletes w w' dir (above ++ [name])) (hfiles : w.files.Lawful) {n : Nat} {group : Group}
    (hroot : Naming.IsWord group.root)
    (hdirectory : w.files.isDirectory (Location.below dir (above ++ [name])) = true)
    (hempty : ∀ e ∈ w.iconsOf n dir group, ∀ p, (∀ m ∈ p, Location.IsName m) →
      e.2.1 ≠ Location.below dir (above ++ name :: p)) :
    Shifted (Behind dir above name) (LaterApart w.backend w.files (Location.below dir above) name)
      (w.iconsOf n dir group) (w'.iconsOf n dir group) := by
  induction above generalizing dir n group with
  | nil => exact h.shifted_last hfiles hroot hdirectory hempty
  | cons k above ih =>
    have hlisted := h.entries_above
    cases hentries : w.files.entries dir with
    | error fault =>
      rw [iconsOf_of_error hentries, iconsOf_of_error (hlisted.trans hentries)]
      exact .refl []
    | ok names =>
      have hnames : ∀ m ∈ names, ∀ k' ∈ [m], Location.IsName k' := fun m hm => by
        simpa using hfiles.isName hentries m hm
      rw [iconsOf_eq hentries, iconsOf_congr h.options hentries hlisted
        (fun m hm => h.files.isDirectory [m] (hnames m hm) (by simp))
        fun m hm => h.graphic [m] (hnames m hm) (by simp)]
      refine Shifted.append (.refl _) ?_
      cases n with
      | zero => exact .refl []
      | succ n =>
        refine Shifted.flatMap fun c hc => ?_
        obtain ⟨m, hm, heq⟩ := exists_name_of_mem hc
        have hname := hfiles.isName hentries m (mem_dirNames.mp hm).1
        by_cases hmk : m = k
        · subst hmk
          rw [← w.root_of_mem_childGroups hc] at hroot
          rw [← heq]
          exact ih (h.join hname) hroot hdirectory fun e he =>
            hempty e (mem_iconsOf_of_child hentries hc (heq ▸ he))
        · rw [← heq, (h.agree hname hmk).iconsOf hfiles]
          exact .refl _

/-- Workshops over views with and without some names, if what is made a drawable does not depend on
what they lead to. -/
lemma deletes_of_files {files' : FileView} (hfiles : w.files.Deletes files' dir path)
    (hnormalize : w.options.inputFormat = .svg → ∀ p, (∀ n ∈ p, Location.IsName n) → ¬ path <+: p →
      (w.normalize files' (Location.below dir p)).drawable
        = (w.normalize w.files (Location.below dir p)).drawable) :
    w.Deletes { w with files := files' } dir path where
  options := rfl
  files := hfiles
  graphic p hp hout := by
    unfold graphic drawable
    cases hformat : w.options.inputFormat with
    | drawable => simp only [FileView.text, hfiles.bytes p hp hout]
    | svg => simp only [hnormalize hformat p hp hout]

/-- The graphic of an icon is the same, since its file is not below the directory that is gone. -/
lemma Deletes.graphic_of_mem {name : String} {above : List String}
    (h : w.Deletes w' dir (above ++ [name])) (hfiles : w.files.Lawful)
    (hdir : w.files.isDirectory dir = true) {n : Nat} {group : Group} {e : Entry}
    (he : e ∈ w.iconsOf n dir group)
    (hgone : ∀ p, (∀ m ∈ p, Location.IsName m) → e.2.1 ≠ Location.below dir (above ++ name :: p)) :
    w'.graphic e.2.1 = w.graphic e.2.1 := by
  obtain ⟨p, hp, hlocation⟩ := exists_path_of_mem hfiles hdir he
  rw [hlocation]
  refine h.graphic p hp ?_
  rintro ⟨rest, rfl⟩
  rw [List.append_assoc] at hp hlocation
  exact hgone rest (List.forall_mem_cons.mp (List.forall_mem_append.mp hp).2).2 hlocation

/-- What two reports have in common, one of which is about a directory less. -/
lemma Deletes.made {name root : String} {above : List String} {r r' : Report}
    (h : w.Deletes w' root (above ++ [name])) (hfiles : w.files.Lawful)
    (hvalid : w.options.validate = .ok ()) (hroot : w.files.isDirectory root = true)
    (hdirectory : w.files.isDirectory (Location.below root (above ++ [name])) = true)
    (hr : r.artifacts = (w.generate (.directory root)).artifacts
      ∧ r.root = (w.generate (.directory root)).value)
    (hr' : r'.artifacts = (w'.generate (.directory root)).artifacts
      ∧ r'.root = (w'.generate (.directory root)).value)
    (hempty : ∀ x ∈ r.made, ∀ p, (∀ n ∈ p, Location.IsName n) →
      x.1 ≠ Location.below root (above ++ name :: p)) :
    r.made.map (·.2) = r.artifacts ∧ r'.made.map (·.2) = r'.artifacts
      ∧ List.Forall₂ (Follows (·.1) (·.2.group) (Behind root above name)) r.made r'.made
      ∧ (LaterApart w.backend w.files (Location.below root above) name →
        r'.artifacts = r.artifacts) := by
  have hgenerated := w.generate_generated (.directory root)
  have hgenerated' := w'.generate_generated (.directory root)
  rw [← hr.1, ← hr.2] at hgenerated
  rw [← hr'.1, ← hr'.2] at hgenerated'
  have hentries : r.root.entries = w.iconsOf maxDepth root w.options.rootGroup := by
    rw [hr.2]
    rfl
  have hentries' : r'.root.entries = w'.iconsOf maxDepth root w.options.rootGroup := by
    rw [hr'.2, ← h.options]
    rfl
  obtain ⟨hlocations, hmade⟩ := made_of_generated hgenerated
  have hgone : ∀ e ∈ r.root.entries, ∀ p, (∀ n ∈ p, Location.IsName n) →
      e.2.1 ≠ Location.below root (above ++ name :: p) := by
    intro e he
    obtain ⟨x, hx, heq⟩ := List.mem_map.mp (hlocations ▸ List.mem_map_of_mem he)
    exact heq ▸ hempty x hx
  have hshifted := h.shifted above hfiles
    (Naming.isWord_of_isIdentifier (isIdentifier_accessor hvalid)) hdirectory (hentries ▸ hgone)
  rw [← hentries, ← hentries'] at hshifted
  have hgraphic : ∀ e ∈ r'.root.entries, w'.graphic e.2.1 = w.graphic e.2.1 := by
    intro e' he'
    have hmem : e'.2.1 ∈ r.root.entries.map (·.2.1) := hshifted.map_file ▸ List.mem_map_of_mem he'
    obtain ⟨e, he, heq⟩ := List.mem_map.mp hmem
    rw [← heq]
    exact h.graphic_of_mem hfiles hroot (hentries ▸ he) (hgone e he)
  have hsame : List.Forall₂ w.Generated r'.root.entries r'.artifacts := by
    have hboth := (List.forall₂_and_left _ _).mpr ⟨hgraphic, hgenerated'⟩
    exact hboth.imp fun _ _ ⟨hequal, ha⟩ => ha.congr h.options hequal
  refine ⟨hmade, (made_of_generated hsame).2, hshifted.made hgenerated hsame, fun hapart => ?_⟩
  rw [hshifted.same hapart] at hsame
  exact (List.right_unique_forall₂' generated_unique hgenerated hsame).symm

end Workshop

/-! ### Runs without a directory -/

section Run

variable {normalize : FileView → String → Normalized} {files files' : FileView} {options : Options}
  {root : String} {path : List String}

/-- A run over a directory begins without a directory in it as well, if its colors are elsewhere. -/
lemma prepare_of_deletes {w : Workshop} {notices : List Log.Record}
    (hprepare : prepare options files normalize (.directory root) = .ok (w, notices))
    (hdeletes : files.Deletes files' root path) (hpath : path ≠ [])
    (hcolors : ∀ location, options.colorResources = some location →
      files'.text location = files.text location) :
    prepare options files' normalize (.directory root)
      = .ok ({ w with files := files' }, notices) := by
  have hroot : files'.isDirectory root = files.isDirectory root :=
    hdeletes.isDirectory [] (by simp) (by simpa using hpath)
  have hinput : checkInput files' (.directory root) = checkInput files (.directory root) := by
    simp only [checkInput, hroot]
  have hloaded : loadColors files' options.colorResources
      = loadColors files options.colorResources := by
    cases hlocation : options.colorResources with
    | none => rfl
    | some location => simp only [loadColors, hcolors location hlocation]
  have hscratch : checkScratch files' = checkScratch files := by
    rw [checkScratch, checkScratch, hdeletes.scratch]
  rw [prepare_congr options normalize hinput hscratch hloaded, hprepare]
  rfl

end Run

/-- A run without a directory from which no icon came gives icons for the same files, in the same
order. Only icons in the directories beside it that are visited later can differ, and only those
whose group has another name then. None differs if none of these directories asks for a name that
could meet that of the directory. -/
theorem deletion_moves_later_groups {σ : Type}
    (write : String → String → StateM σ (Except Failure Unit))
    (normalize : FileView → String → Normalized) (files files' : FileView) (options : Options)
    (out : Option String) (root : String) (above : List String) (name : String) (s s' t : σ)
    (log : List Log.Record) (r : Report)
    (hfiles : files.Lawful)
    (hdeletes : files.Deletes files' root (above ++ [name]))
    (hdirectory : files.isDirectory (Location.below root (above ++ [name])) = true)
    (hcolors : ∀ location, options.colorResources = some location →
      files'.text location = files.text location)
    (hnormalize : options.inputFormat = .svg → ∀ p, (∀ n ∈ p, Location.IsName n) →
      ¬ above ++ [name] <+: p → (normalize files' (Location.below root p)).drawable
        = (normalize files (Location.below root p)).drawable)
    (hrun : (run write normalize files options out (.directory root)).run s = ((log, .ok r), s'))
    (hempty : ∀ x ∈ r.made, ∀ p, (∀ n ∈ p, Location.IsName n) →
      x.1 ≠ Location.below root (above ++ name :: p)) :
    ∃ log' r' t', (run write normalize files' options out (.directory root)).run t
        = ((log', .ok r'), t')
      ∧ r.made.map (·.2) = r.artifacts ∧ r'.made.map (·.2) = r'.artifacts
      ∧ List.Forall₂ (Follows (·.1) (·.2.group) (Behind root above name)) r.made r'.made
      ∧ (LaterApart options.backend files (Location.below root above) name →
        r'.artifacts = r.artifacts) := by
  obtain ⟨w, notices, hprepare⟩ := exists_prepare hrun
  have hr := run_eq_ok hprepare hrun
  obtain ⟨hvalid, hinput, rfl, rfl, rfl⟩ := prepare_eq_ok hprepare
  have hroot := isDirectory_of_checkInput hinput
  have hprepare' := prepare_of_deletes hprepare hdeletes (by simp) hcolors
  obtain ⟨log', r', t', hrun', hartifacts', hroot', -⟩ := @exists_run σ write w.normalize files'
    w.options out (.directory root) _ notices hprepare' t
  have hwithout := w.deletes_of_files hdeletes hnormalize
  have hmade := hwithout.made hfiles hvalid hroot hdirectory hr ⟨hartifacts', hroot'⟩ hempty
  exact ⟨log', r', t', hrun', hmade⟩

/-- A directory with three more inside: an empty one, one in which there are colors only, and one
with a file. -/
def shelves : FileView where
  isDirectory location := ["in", "in/bare", "in/sub_a", "in/suba"].contains location
  entries location :=
    if location = "in" then .ok ["bare", "sub_a", "suba"]
    else if location = "in/bare" then .ok []
    else if location = "in/sub_a" then .ok ["colors.xml"]
    else if location = "in/suba" then .ok ["star.xml"]
    else .error .notDirectory
  bytes location :=
    .ok (if location = "in/suba/star.xml" then drawing "M1 2z" else "<resources/>").toUTF8

/-- The names inside the directories of shelves. -/
def shelfNames : List String := ["bare", "sub_a", "suba", "colors.xml", "star.xml"]

lemma isName_of_mem_shelfNames : ∀ n ∈ shelfNames, Location.IsName n := by
  intro n hn
  simp only [shelfNames, List.mem_cons, List.not_mem_nil, or_false] at hn
  rcases hn with rfl | rfl | rfl | rfl | rfl <;> constructor <;> decide

lemma shelves_entries {dir : String} {names : List String} (h : shelves.entries dir = .ok names) :
    names.Nodup ∧ ∀ n ∈ names, n ∈ shelfNames := by
  simp only [shelves] at h
  split_ifs at h <;> cases h <;> simp [shelfNames]

lemma shelves_lawful : shelves.Lawful where
  nodup h := (shelves_entries h).1
  isName h n hn := isName_of_mem_shelfNames n ((shelves_entries h).2 n hn)

/-- A run over shelves, which have no colors by name. -/
def shelvesShop : Workshop :=
  { mixedShop with files := shelves }

lemma exists_made {files : FileView} {options : Options} {w : Workshop} {notices : List Log.Record}
    (hprepare : prepare options files mixedShop.normalize (.directory "in") = .ok (w, notices)) :
    ∃ log r, (run (m := StateM Unit) writeNothing mixedShop.normalize files options none
        (.directory "in")).run () = ((log, .ok r), ())
      ∧ r.made = ((w.generate (.directory "in")).value.entries.map (·.2.1)).zip
        (w.generate (.directory "in")).artifacts := by
  obtain ⟨log, hrun⟩ := run_none (m := StateM Unit) writeNothing hprepare
  exact ⟨log, _, congrArg (·.run ()) hrun, rfl⟩

lemma prepare_shelves :
    prepare mixedOptions shelves mixedShop.normalize (.directory "in") = .ok (shelvesShop, []) :=
  rfl

lemma exists_made_shelves :
    ∃ log r, (run (m := StateM Unit) writeNothing mixedShop.normalize shelves mixedOptions none
        (.directory "in")).run () = ((log, .ok r), ())
      ∧ r.made.map (fun x => (x.1, x.2.name, x.2.group))
        = [("in/suba/star.xml", "Star", "Icons.suba2")] := by
  obtain ⟨log, r, hrun, hmade⟩ := exists_made prepare_shelves
  refine ⟨log, r, hrun, ?_⟩
  rw [hmade, shelvesShop.generate_of_pairwise rfl rfl (by decide +kernel) (by decide +kernel)]
  decide +kernel

lemma laterApart_bare : LaterApart .nativeShape shelves "in" "bare" := by
  rintro names ⟨⟩ m hm - ⟨-, -, hlt⟩
  simp only [List.mem_cons, List.not_mem_nil, or_false] at hm
  rcases hm with rfl | rfl | rfl
  · exact absurd hlt (lt_irrefl _)
  · exact Naming.apart_of_stemOf (by decide) (by decide) (by decide)
  · exact Naming.apart_of_stemOf (by decide) (by decide) (by decide)

/-- Without an empty directory nothing changes in the group after it, whose name it cannot meet. -/
theorem deletion_of_bare_directory :
    ∃ log r s' log' r' t',
      (run (m := StateM Unit) writeNothing mixedShop.normalize shelves mixedOptions none
        (.directory "in")).run () = ((log, .ok r), s')
      ∧ (run (m := StateM Unit) writeNothing mixedShop.normalize (shelves.without "in" ["bare"])
        mixedOptions none (.directory "in")).run () = ((log', .ok r'), t')
      ∧ r.made.map (fun x => (x.1, x.2.name, x.2.group))
        = [("in/suba/star.xml", "Star", "Icons.suba2")]
      ∧ r'.artifacts = r.artifacts := by
  obtain ⟨log, r, hrun, hmade⟩ := exists_made_shelves
  have hname : ∀ n ∈ ["bare"], Location.IsName n :=
    List.forall_mem_singleton.mpr (isName_of_mem_shelfNames _ (by decide))
  have hempty : ∀ x ∈ r.made, FileView.isGone "in" ["bare"] x.1 = false := by
    intro x hx
    have hmem : (x.1, x.2.name, x.2.group) ∈ [("in/suba/star.xml", "Star", "Icons.suba2")] :=
      hmade ▸ List.mem_map_of_mem hx
    rw [List.mem_singleton] at hmem
    rw [(Prod.ext_iff.mp hmem).1]
    decide +kernel
  obtain ⟨log', r', t', hrun', -, -, -, hequal⟩ := deletion_moves_later_groups writeNothing
    mixedShop.normalize shelves (shelves.without "in" ["bare"]) mixedOptions none "in" [] "bare"
    () () () log r shelves_lawful (shelves.deletes_without shelves_lawful "in" hname)
    (by decide +kernel) nofun nofun hrun
    fun x hx p hp => FileView.ne_below_of_isGone hname hp (hempty x hx)
  exact ⟨log, r, (), log', r', t', hrun, hrun', hmade, hequal laterApart_bare⟩

/-- Options for which the colors are in a directory of shelves. -/
def coloredOptions : Options :=
  { mixedOptions with colorResources := some "in/sub_a/colors.xml" }

lemma prepare_colored :
    prepare coloredOptions shelves mixedShop.normalize (.directory "in")
      = .ok ({ shelvesShop with options := coloredOptions },
        [⟨.debug, .resources, "loaded 0 color resources"⟩]) := by
  have hloaded : (loadColors shelves coloredOptions.colorResources).toOption
      = some (.empty, ["loaded 0 color resources"]) := by
    decide +kernel
  have hcolors : loadColors shelves coloredOptions.colorResources
      = .ok (.empty, ["loaded 0 color resources"]) := by
    cases hloads : loadColors shelves coloredOptions.colorResources with
    | error e =>
      rw [hloads] at hloaded
      contradiction
    | ok colors =>
      rw [hloads] at hloaded
      exact congrArg Except.ok (Option.some.inj hloaded)
  exact prepare_of_ok mixedShop.normalize rfl rfl rfl hcolors

lemma prepare_colored_without :
    prepare coloredOptions (shelves.without "in" ["sub_a"]) mixedShop.normalize (.directory "in")
      = .error (.filesystem "in/sub_a/colors.xml" .notFound) := by
  have hroot : (shelves.without "in" ["sub_a"]).isDirectory "in" = true := by decide +kernel
  have hgone : FileView.isGone "in" ["sub_a"] "in/sub_a/colors.xml" = true := by decide +kernel
  have htext : (shelves.without "in" ["sub_a"]).text "in/sub_a/colors.xml" = .error .notFound := by
    simp only [FileView.text, FileView.without, hgone, if_true]
    rfl
  unfold prepare
  simp only [checkInput, hroot, if_true, loadColors, coloredOptions, htext]
  rfl

/-- Without a directory that has no icons, the group after it has another name. If the colors were
in there, a run does not even begin. -/
theorem deletion_of_namesake :
    ∃ log r log' r' l q l',
      (run (m := StateM Unit) writeNothing mixedShop.normalize shelves mixedOptions none
        (.directory "in")).run () = ((log, .ok r), ())
      ∧ r.made.map (fun x => (x.1, x.2.name, x.2.group))
        = [("in/suba/star.xml", "Star", "Icons.suba2")]
      ∧ (run (m := StateM Unit) writeNothing mixedShop.normalize (shelves.without "in" ["sub_a"])
        mixedOptions none (.directory "in")).run () = ((log', .ok r'), ())
      ∧ r'.made.map (fun x => (x.1, x.2.name, x.2.group))
        = [("in/suba/star.xml", "Star", "Icons.suba")]
      ∧ (run (m := StateM Unit) writeNothing mixedShop.normalize shelves coloredOptions none
        (.directory "in")).run () = ((l, .ok q), ())
      ∧ q.made.map (fun x => (x.1, x.2.name, x.2.group))
        = [("in/suba/star.xml", "Star", "Icons.suba2")]
      ∧ (run (m := StateM Unit) writeNothing mixedShop.normalize (shelves.without "in" ["sub_a"])
        coloredOptions none (.directory "in")).run ()
          = ((l', .error (.filesystem "in/sub_a/colors.xml" .notFound)), ()) := by
  have hname : ∀ n ∈ ["sub_a"], Location.IsName n :=
    List.forall_mem_singleton.mpr (isName_of_mem_shelfNames _ (by decide))
  have hdeletes := shelves.deletes_without shelves_lawful "in" hname
  have hentries : (shelves.without "in" ["sub_a"]).entries "in" = .ok ["bare", "suba"] :=
    (hdeletes.entries [] (by simp) (by simp)).trans (congrArg Except.ok (by decide +kernel))
  obtain ⟨log, r, hrun, hmade⟩ := exists_made_shelves
  obtain ⟨log', r', hrun', hmade'⟩ :=
    exists_made (prepare_of_deletes prepare_shelves hdeletes (by simp) nofun)
  obtain ⟨l, q, hcolored, hq⟩ := exists_made prepare_colored
  refine ⟨log, r, log', r', l, q, [], hrun, hmade, hrun', ?_, hcolored, ?_, ?_⟩
  · rw [hmade', Workshop.generate_of_pairwise _ hentries rfl (by decide +kernel) (by decide +kernel)]
    decide +kernel
  · rw [hq, Workshop.generate_of_pairwise _ rfl rfl (by decide +kernel) (by decide +kernel)]
    decide +kernel
  · rw [run_of_prepare_error _ prepare_colored_without]
    rfl

end Batch

end Iconsmith
