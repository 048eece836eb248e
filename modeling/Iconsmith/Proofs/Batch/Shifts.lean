import Iconsmith.Proofs.Batch.Descents

/-!
# Icons of two runs

Workshops that find the same below a directory make the same icons of it. Where the directories
beside each other are named after one more name is taken, the icons of both runs still come from the
same files; and what is in a group of the same name is the same.
-/

namespace Iconsmith.Batch

open Naming (Siblings)

namespace Workshop

/-! ### Workshops that agree -/

/-- Two workshops with the same options find the same below a directory, and make the same of it. -/
structure Agree (w w' : Workshop) (dir : String) : Prop where
  options : w'.options = w.options
  isDirectory : ∀ p, (∀ n ∈ p, Location.IsName n) →
    w'.files.isDirectory (Location.below dir p) = w.files.isDirectory (Location.below dir p)
  entries : ∀ p, (∀ n ∈ p, Location.IsName n) →
    w'.files.entries (Location.below dir p) = w.files.entries (Location.below dir p)
  graphic : ∀ p, (∀ n ∈ p, Location.IsName n) →
    w'.graphic (Location.below dir p) = w.graphic (Location.below dir p)

variable {w w' : Workshop}

lemma identifierOf_congr (h : w'.options = w.options) : w'.identifierOf = w.identifierOf := by
  unfold identifierOf backend
  rw [h]

lemma childGroups_congr (h : w'.options = w.options) (group : Group) (s : Siblings)
    (dirs : List String) : w'.childGroups group s dirs = w.childGroups group s dirs := by
  induction dirs generalizing s with
  | nil => rfl
  | cons dir dirs ih =>
    rw [childGroups, childGroups, childName, childName, identifierOf_congr h, ih]

lemma outcome_congr (h : w'.options = w.options) {file : String}
    (hgraphic : w'.graphic file = w.graphic file) (group : Group) (names : Naming.Allocator) :
    w'.outcome group names file = w.outcome group names file := by
  unfold outcome emission artifactOf identifierOf backend
  rw [h, hgraphic]

lemma outcomes_congr (h : w'.options = w.options) {files : List String}
    (hgraphic : ∀ f ∈ files, w'.graphic f = w.graphic f) (group : Group)
    (names : Naming.Allocator) :
    w'.outcomes group names files = w.outcomes group names files := by
  induction files generalizing names with
  | nil => rfl
  | cons file files ih =>
    rw [List.forall_mem_cons] at hgraphic
    simp only [outcomes, outcome_congr h hgraphic.1, ih hgraphic.2]

variable {dir : String} {names names' : List String}

/-- The icons of the files in a directory, and the names taken then, depend on these files only. -/
lemma fileEntries_congr (h : w'.options = w.options)
    (hfiles : w'.fileNames dir names' = w.fileNames dir names)
    (hgraphic : ∀ n ∈ w.fileNames dir names,
      w'.graphic (Location.join dir n) = w.graphic (Location.join dir n)) (group : Group) :
    w'.fileEntries dir names' group = w.fileEntries dir names group
      ∧ w'.firstSiblings dir names' group = w.firstSiblings dir names group := by
  have houtcomes : w'.outcomes group (ownNames group) (w'.filesIn dir names')
      = w.outcomes group (ownNames group) (w.filesIn dir names) := by
    rw [filesIn_eq, filesIn_eq, hfiles]
    refine outcomes_congr h (fun f hf => ?_) group _
    obtain ⟨n, hn, rfl⟩ := List.mem_map.mp hf
    exact hgraphic n hn
  exact ⟨by rw [fileEntries, fileEntries, houtcomes],
    by rw [firstSiblings, firstSiblings, houtcomes]⟩

lemma fileNames_congr (h : ∀ n ∈ names, w'.files.isDirectory (Location.join dir n)
      = w.files.isDirectory (Location.join dir n)) :
    w'.fileNames dir names = w.fileNames dir names := by
  refine List.filter_congr fun n hn => ?_
  rw [h n (mem_visibleNames.mp hn).1]

lemma dirNames_congr (h : ∀ n ∈ names, w'.files.isDirectory (Location.join dir n)
      = w.files.isDirectory (Location.join dir n)) :
    w'.dirNames dir names = w.dirNames dir names := by
  refine List.filter_congr fun n hn => ?_
  rw [h n (mem_visibleNames.mp hn).1]

/-- Where a directory holds the same files and directories, its files make the same icons, and the
directories inside are visited for the same groups. -/
lemma iconsOf_congr (h : w'.options = w.options) (hentries : w.files.entries dir = .ok names)
    (hlisted : w'.files.entries dir = w.files.entries dir)
    (hdir : ∀ m ∈ names, w'.files.isDirectory (Location.join dir m)
      = w.files.isDirectory (Location.join dir m))
    (hgraphic : ∀ m ∈ names, w'.graphic (Location.join dir m) = w.graphic (Location.join dir m))
    (n : Nat) (group : Group) :
    w'.iconsOf n dir group = w.fileEntries dir names group
      ++ w'.childIcons n (w.childGroups group (w.firstSiblings dir names group)
        ((w.dirNames dir names).map (Location.join dir))) := by
  obtain ⟨hfileEntries, hfirst⟩ := fileEntries_congr h (fileNames_congr hdir)
    (fun m hm => hgraphic m (mem_fileNames.mp hm).1) group
  rw [iconsOf_eq (hlisted.trans hentries), hfileEntries, hfirst, childGroups_congr h,
    dirNames_congr hdir]

lemma Agree.join (h : Agree w w' dir) {name : String} (hname : Location.IsName name) :
    Agree w w' (Location.join dir name) where
  options := h.options
  isDirectory p hp := h.isDirectory (name :: p) (List.forall_mem_cons.mpr ⟨hname, hp⟩)
  entries p hp := h.entries (name :: p) (List.forall_mem_cons.mpr ⟨hname, hp⟩)
  graphic p hp := h.graphic (name :: p) (List.forall_mem_cons.mpr ⟨hname, hp⟩)

/-- Workshops that agree below a directory make the same icons of it. -/
lemma Agree.iconsOf (h : Agree w w' dir) (hfiles : w.files.Lawful) (n : Nat) (group : Group) :
    w'.iconsOf n dir group = w.iconsOf n dir group := by
  induction n using Nat.strong_induction_on generalizing dir group with
  | _ n ih =>
    have hentries : w'.files.entries dir = w.files.entries dir := h.entries [] (by simp)
    cases hlisted : w.files.entries dir with
    | error fault => rw [iconsOf_of_error hlisted, iconsOf_of_error (hentries.trans hlisted)]
    | ok names =>
      have hinside : ∀ m ∈ names, Agree w w' (Location.join dir m) :=
        fun m hm => h.join (hfiles.isName hlisted m hm)
      rw [iconsOf_eq hlisted, iconsOf_congr h.options hlisted hentries
        (fun m hm => (hinside m hm).isDirectory [] (by simp))
        fun m hm => (hinside m hm).graphic [] (by simp)]
      congr 1
      cases n with
      | zero => rfl
      | succ n =>
        refine List.flatMap_congr fun c hc => ?_
        obtain ⟨m, hm, heq⟩ := exists_name_of_mem hc
        rw [← heq]
        exact ih n n.lt_succ_self (hinside m (mem_dirNames.mp hm).1) c.2

end Workshop

/-! ### Icons of two runs -/

/-- What an icon has to do with that of the same file in another run: it is the same one if the
groups have one name, and it can be another one only if its file is among some that may be affected.
-/
structure Follows {α : Type} (fileOf groupOf : α → String) (affected : String → Prop) (x x' : α) :
    Prop where
  file : fileOf x' = fileOf x
  same : groupOf x' = groupOf x → x' = x
  affected : x' = x ∨ affected (fileOf x)

lemma Follows.refl {α : Type} (fileOf groupOf : α → String) (affected : String → Prop) (x : α) :
    Follows fileOf groupOf affected x x where
  file := rfl
  same _ := rfl
  affected := Or.inl rfl

/-- The icons of two runs come from the same files, and they are the same under some condition. -/
structure Shifted (affected : String → Prop) (apart : Prop) (es es' : List Entry) : Prop where
  follows : List.Forall₂ (Follows (·.2.1) (·.1.qualifiedName) affected) es es'
  same : apart → es' = es

namespace Shifted

variable {affected : String → Prop} {apart : Prop} {es es' fs fs' : List Entry}

lemma refl (es : List Entry) : Shifted affected apart es es where
  follows := List.forall₂_same.mpr fun _ _ => .refl ..
  same _ := rfl

lemma append (h : Shifted affected apart es es') (h' : Shifted affected apart fs fs') :
    Shifted affected apart (es ++ fs) (es' ++ fs') where
  follows := List.rel_append h.follows h'.follows
  same hapart := by rw [h.same hapart, h'.same hapart]

lemma flatMap {α : Type} {l : List α} {f g : α → List Entry}
    (h : ∀ a ∈ l, Shifted affected apart (f a) (g a)) :
    Shifted affected apart (l.flatMap f) (l.flatMap g) := by
  induction l with
  | nil => exact refl []
  | cons a l ih =>
    rw [List.forall_mem_cons] at h
    exact h.1.append (ih h.2)

end Shifted

namespace Workshop

variable {w w' : Workshop} {affected : String → Prop} {apart : Prop}

/-- A directory that gets another name gives the icons of the same files. -/
lemma shifted_child {request a b : String} (ha : Naming.Allocator.Answers request a)
    (hb : Naming.Allocator.Answers request b) {group : Group} (hroot : Naming.IsWord group.root)
    {n : Nat} {dir : String} (hdir : ∀ e ∈ w.iconsOf n dir (group.child a), affected e.2.1)
    (hapart : apart → b = a) :
    Shifted affected apart (w.iconsOf n dir (group.child a)) (w.iconsOf n dir (group.child b)) := by
  by_cases hab : a = b
  · rw [hab]
    exact .refl _
  refine ⟨?_, fun h => absurd (hapart h).symm hab⟩
  have hsegment := ha.packageSegment_ne hb hab
  have hfiles := w.files_iconsOf n dir (group.child a) (group.child b)
  rw [← List.forall₂_eq_eq_eq, List.forall₂_map_left_iff, List.forall₂_map_right_iff] at hfiles
  have hleft := (List.forall₂_and_left _ _).mpr ⟨fun e he => he, hfiles⟩
  have hboth := (List.forall₂_and_left _ _).mpr ⟨fun e he => he, hleft.flip⟩
  refine hboth.flip.imp ?_
  rintro e e' ⟨he', he, hfile⟩
  have hne := (isWithin_of_mem he).qualifiedName_ne (isWithin_of_mem he') hroot hsegment
  exact ⟨hfile.symm, fun hname => absurd hname.symm hne, Or.inr (hdir e he)⟩

/-- Directories that are named after one more sibling give the icons of the same files; and the same
icons, if they ask for other names than that sibling. -/
lemma shifted_siblings {request : String} {group : Group} (hroot : Naming.IsWord group.root)
    {n : Nat} {dirs : List String} {s s' : Siblings}
    (hdirs : ∀ d ∈ dirs, ∀ g, ∀ e ∈ w.iconsOf n d g, affected e.2.1)
    (hapart : apart → Siblings.AgreeOff request s' s
      ∧ ∀ d ∈ dirs, Naming.Apart request (w.identifierOf d)) :
    Shifted affected apart ((w.childGroups group s dirs).flatMap fun c => w.iconsOf n c.1 c.2)
      ((w.childGroups group s' dirs).flatMap fun c => w.iconsOf n c.1 c.2) := by
  induction dirs generalizing s s' with
  | nil => exact .refl []
  | cons d dirs ih =>
    rw [List.forall_mem_cons] at hdirs
    rw [childGroups, childGroups, List.flatMap_cons, List.flatMap_cons]
    have hnext (h : apart) :
        (s.nameChild (w.identifierOf d)).1 = (s'.nameChild (w.identifierOf d)).1
        ∧ Siblings.AgreeOff request (s'.nameChild (w.identifierOf d)).2
          (s.nameChild (w.identifierOf d)).2 :=
      (hapart h).1.nameChild ((hapart h).2 d List.mem_cons_self)
    refine Shifted.append ?_ (ih hdirs.2 fun h => ?_)
    · refine shifted_child (w.answers_childName s d) (w.answers_childName s' d) hroot
        (hdirs.1 _) fun h => ?_
      rw [childName, childName, (hnext h).1]
    · exact ⟨(hnext h).2, fun d' hd' => (hapart h).2 d' (List.mem_cons_of_mem d hd')⟩

end Workshop

/-! ### What is generated -/

/-- The icons of a report, with the files that they come from. -/
def Report.made (r : Report) : List (String × Artifact) :=
  (r.root.entries.map (·.2.1)).zip r.artifacts

namespace Workshop

variable {w w' : Workshop}

lemma generated_unique : Relator.RightUnique w.Generated := by
  rintro e a b ⟨g, source, hg, hsource, rfl⟩ ⟨g', source', hg', hsource', rfl⟩
  cases hg.symm.trans hg'
  cases hsource.symm.trans hsource'
  rfl

lemma Generated.congr (h : w'.options = w.options) {e : Entry} {a : Artifact}
    (hgraphic : w'.graphic e.2.1 = w.graphic e.2.1) (ha : w'.Generated e a) : w.Generated e a := by
  obtain ⟨g, source, hg, hsource, rfl⟩ := ha
  refine ⟨g, source, hgraphic ▸ hg, ?_, ?_⟩
  · rwa [backend, h] at hsource
  · rw [artifactOf, h, artifactOf]

lemma Generated.group {e : Entry} {a : Artifact} (h : w.Generated e a) :
    a.group = e.1.qualifiedName := by
  obtain ⟨g, source, -, -, rfl⟩ := h
  rfl

/-- What is generated follows what is generated in another run as the icons do. -/
lemma Generated.follows {affected : String → Prop} {e e' : Entry} {a a' : Artifact}
    (ha : w.Generated e a) (ha' : w.Generated e' a')
    (h : Follows (·.2.1) (·.1.qualifiedName) affected e e') :
    Follows (·.1) (·.2.group) affected (e.2.1, a) (e'.2.1, a') := by
  have hequal (he : e' = e) : (e'.2.1, a') = (e.2.1, a) := by
    subst he
    rw [generated_unique ha' ha]
  refine ⟨h.file, fun hgroup => hequal (h.same ?_), h.affected.imp_left hequal⟩
  rwa [← ha.group, ← ha'.group]

lemma made_of_generated {r : Report}
    (h : List.Forall₂ w.Generated r.root.entries r.artifacts) :
    r.made.map (·.1) = r.root.entries.map (·.2.1) ∧ r.made.map (·.2) = r.artifacts := by
  have hlength := h.length_eq
  exact ⟨List.map_fst_zip (by simp [hlength]), List.map_snd_zip (by simp [hlength])⟩

end Workshop

namespace Shifted

variable {w : Workshop} {affected : String → Prop} {apart : Prop} {es es' : List Entry}
  {as as' : List Artifact}

lemma map_file (h : Shifted affected apart es es') : es'.map (·.2.1) = es.map (·.2.1) := by
  rw [← List.forall₂_eq_eq_eq, List.forall₂_map_left_iff, List.forall₂_map_right_iff]
  exact h.follows.flip.imp fun _ _ hfollows => hfollows.file

/-- What is generated in one run follows what is generated in the other. -/
lemma made (h : Shifted affected apart es es') (has : List.Forall₂ w.Generated es as)
    (has' : List.Forall₂ w.Generated es' as') :
    List.Forall₂ (Follows (·.1) (·.2.group) affected) ((es.map (·.2.1)).zip as)
      ((es'.map (·.2.1)).zip as') := by
  obtain ⟨hfollows, -⟩ := h
  induction hfollows generalizing as as' with
  | nil => exact .nil
  | cons hfollows _ ih =>
    cases has with
    | cons ha has =>
      cases has' with
      | cons ha' has' => exact .cons (ha.follows ha' hfollows) (ih has has')

end Shifted

end Iconsmith.Batch
