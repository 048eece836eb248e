import Iconsmith.Proofs.Batch.Links
import Iconsmith.Proofs.Batch.Names
import Iconsmith.Proofs.ImageVector.Imports

/-!
# Imports of a run

The file of an icon imports the object of its group beside the types and functions that it uses. These
may have the name of the group in common. The name of the root group is chosen with the options, and
no list of reserved words is looked at; the names of the groups below keep away from the reserved words,
but not every type that is imported is one of them.
-/

namespace Iconsmith.Batch

open ImageVector (importsOf receiver simpleName)

namespace Workshop.Reports

variable {w : Workshop} {input : Input} {r : Report}

/-- Every group but the root is named after a directory. -/
lemma group_cases (h : w.Reports input r) {u : Tree} (hu : u ∈ r.root.walk) :
    u.group = w.options.rootGroup ∨ w.NamedAfter u.group.name := by
  rcases Tree.exists_parent hu with rfl | ⟨v, hv, hchild⟩
  · exact Or.inl h.group
  · exact Or.inr (h.namedAfter hv _ (List.mem_append_right _ (List.mem_map_of_mem hchild)))

/-- The names in the code of a group can be declared. -/
lemma named (h : w.Reports input r) (hbackend : w.options.backend = .declarativeUi) {u : Tree}
    (hu : u ∈ r.root.walk) : ImageVector.Named u.group where
  package := by
    rw [h.sound.basePackage hu, h.group]
    exact ImageVector.isPackage_of_options ((validate_eq_ok h.valid).1 hbackend)
  name := by
    have hdeclarable : r.root.Declarable := by
      rw [h.root]
      exact w.generate_declarable input (isIdentifier_accessor h.valid)
    exact hdeclarable u hu

/-- The imports of the source of an icon are those of its file. -/
lemma importsOf_generated (h : w.Reports input r) (hbackend : w.options.backend = .declarativeUi)
    {e : Entry} {a : Artifact} (he : e ∈ r.root.entries) (ha : w.Generated e a) :
    ImageVector.Named e.1 ∧ ∃ g,
      importsOf a.source.text = (ImageVector.iconFile w.options.settings e.1 e.2.2 g).imports := by
  obtain ⟨u, hu, hgroup, -⟩ := Tree.mem_entries.mp he
  have hnamed := h.named hbackend hu
  rw [hgroup] at hnamed
  obtain ⟨g, source, -, hicon, rfl⟩ := ha
  rw [Workshop.backend, hbackend] at hicon
  obtain ⟨hsymbol, -, htext⟩ := ImageVector.icon_eq_ok hicon
  refine ⟨hnamed, g, ?_⟩
  change importsOf source.text = _
  rw [htext]
  exact (ImageVector.regular_iconFile hnamed hsymbol).readable.importsOf_text

end Workshop.Reports

/-- The imports of an icon have different simple names just if none but that of the object of its group
has the name of the group. Any other that has it is a fixed name, and then the group is the root, or its
name is among those that are not reserved. -/
theorem simple_names_of_imports {σ : Type}
    (write : String → String → StateM σ (Except Failure Unit))
    (normalize : FileView → String → Normalized) (files : FileView) (options : Options)
    (out : Option String) (input : Input) (s s' : σ) (log : List Log.Record) (r : Report)
    (hbackend : options.backend = .declarativeUi)
    (hrun : (run write normalize files options out input).run s = ((log, .ok r), s')) :
    List.Forall₂ (fun (e : Entry) (a : Artifact) =>
      a.group = e.1.qualifiedName
      ∧ (((importsOf a.source.text).map simpleName).Nodup
        ↔ ∀ n ∈ importsOf a.source.text, simpleName n = e.1.name → n = receiver e.1)
      ∧ ∀ n ∈ importsOf a.source.text, simpleName n = e.1.name → n ≠ receiver e.1 →
        n ∈ ImageVector.apiNames
          ∧ (e.1 = options.rootGroup ∨ e.1.name ∈ ImageVector.unreservedNames))
      r.root.entries r.artifacts := by
  obtain ⟨w, rfl, hreports⟩ := exists_reports hrun
  have hgenerated := (List.forall₂_and_left r.root.entries r.artifacts).mpr
    ⟨fun _ he => he, hreports.generated⟩
  refine hgenerated.imp ?_
  rintro e a ⟨he, ha⟩
  obtain ⟨hnamed, g, himports⟩ := hreports.importsOf_generated hbackend he ha
  have hgroup : a.group = e.1.qualifiedName := by
    obtain ⟨g, source, -, -, rfl⟩ := ha
    rfl
  rw [himports]
  refine ⟨hgroup, ImageVector.nodup_simpleNames_iff hnamed, fun n hn hname hother => ?_⟩
  have hfixed := (ImageVector.imports_iconFile hn).resolve_right hother
  obtain ⟨u, hu, hentry, -⟩ := Tree.mem_entries.mp he
  rw [← hentry] at hname ⊢
  refine ⟨hfixed, (hreports.group_cases hu).imp_right fun hafter => ?_⟩
  rw [← hname] at hafter ⊢
  have hreserved := hafter.notMem_reserved
  rw [Workshop.backend, hbackend] at hreserved
  exact ImageVector.mem_unreservedNames hfixed hafter.isCapital hreserved

/-- The imports of an icon in a nested directory have different simple names. -/
theorem imports_of_nested_directories :
    ∃ log r s', (run (m := StateM Unit) writeNothing mixedShop.normalize nestedFiles nestedOptions
        (some "out") (.directory "in")).run () = ((log, .ok r), s')
      ∧ ∃ a ∈ r.artifacts, a.group = "Icons.b" ∧ ((importsOf a.source.text).map simpleName).Nodup := by
  have hreport : ((run (m := StateM Unit) writeNothing mixedShop.normalize nestedFiles nestedOptions
      (some "out") (.directory "in")).run ()).1.2.toOption.map (fun r => r.root.entries.map (·.1))
      = some [nestedOptions.rootGroup.child "B"] := by
    decide +kernel
  obtain ⟨log, r, s', hrun, hentries⟩ := exists_report hreport
  have himports := simple_names_of_imports writeNothing mixedShop.normalize nestedFiles nestedOptions
    (some "out") (.directory "in") () s' log r rfl hrun
  obtain ⟨e, he, hgroup⟩ : ∃ e ∈ r.root.entries, e.1 = nestedOptions.rootGroup.child "B" := by
    rw [← List.mem_map, hentries]
    exact List.mem_cons_self
  obtain ⟨a, ha, hname, hnodup, hfixed⟩ := Compiled.exists_of_forall₂ himports he
  rw [hgroup] at hname hnodup hfixed
  refine ⟨log, r, s', hrun, a, ha, hname.trans (by decide), hnodup.mpr fun n hn hsimple => ?_⟩
  by_contra hother
  exact absurd (hfixed n hn hsimple hother).2 (by decide)

/-- A directory that is called like a type, with a drawable in it. -/
def boxFiles : FileView where
  isDirectory location := location = "in" || location = "in/box"
  entries location :=
    if location = "in" then .ok ["box"]
    else if location = "in/box" then .ok ["add.xml"]
    else .error .notDirectory
  bytes _ := .ok (drawing "M1 2z").toUTF8

/-- The icon in that directory imports two types of the same simple name. -/
theorem imports_of_box_directory :
    ∃ log r s', (run (m := StateM Unit) writeNothing mixedShop.normalize boxFiles nestedOptions
        (some "out") (.directory "in")).run () = ((log, .ok r), s')
      ∧ ∃ a ∈ r.artifacts, "androidx.compose.foundation.layout.Box" ∈ importsOf a.source.text
        ∧ "p.icons.Box" ∈ importsOf a.source.text
        ∧ ¬ ((importsOf a.source.text).map simpleName).Nodup := by
  have hreport : ((run (m := StateM Unit) writeNothing mixedShop.normalize boxFiles nestedOptions
      (some "out") (.directory "in")).run ()).1.2.toOption.map (fun r => r.root.entries.map (·.1))
      = some [nestedOptions.rootGroup.child "Box"] := by
    decide +kernel
  obtain ⟨log, r, s', hrun, hentries⟩ := exists_report hreport
  obtain ⟨e, he, hgroup⟩ : ∃ e ∈ r.root.entries, e.1 = nestedOptions.rootGroup.child "Box" := by
    rw [← List.mem_map, hentries]
    exact List.mem_cons_self
  obtain ⟨w, hoptions, hreports⟩ := exists_reports hrun
  have hbackend : w.options.backend = .declarativeUi := by rw [hoptions]; rfl
  obtain ⟨a, ha, hgenerated⟩ := Compiled.exists_of_forall₂ hreports.generated he
  obtain ⟨hnamed, g, himports⟩ := hreports.importsOf_generated hbackend he hgenerated
  have hbox : "androidx.compose.foundation.layout.Box" ∈ importsOf a.source.text := by
    rw [himports]
    refine ImageVector.mem_imports_iff.mpr (.preview ?_ (by decide))
    rw [hoptions]
    rfl
  have hgroupBox : "p.icons.Box" ∈ importsOf a.source.text := by
    have hreceiver : receiver e.1 = "p.icons.Box" := by
      rw [hgroup]
      decide +kernel
    rw [himports, ← hreceiver]
    exact ImageVector.receiver_mem_imports hnamed
  refine ⟨log, r, s', hrun, a, ha, hbox, hgroupBox, fun hnodup => ?_⟩
  have heq := List.inj_on_of_nodup_map hnodup hbox hgroupBox (by decide +kernel)
  exact absurd heq (by decide)

end Iconsmith.Batch
