import Iconsmith.Proofs.Batch.Assets
import Iconsmith.Proofs.Batch.Failures
import Iconsmith.Proofs.Shape.Members

/-!
# Names that are declared

Options are checked before a run, so that the names made from them can be declared. The check of the
name for the lists of all icons leaves out its first character. Where that is a digit, one framework
has no accessor for any group and the other declares a variable that cannot be declared; otherwise
nothing but a number keeps an icon from having a source, and nothing a group from having an accessor.

The accessor of a group has a constant for each icon and a variable for the list of all icons. Symbols of
one group are told apart before they get a small letter at the start, which keeps them apart, but the
name of the list is never compared with them.
-/

namespace Iconsmith

/-! ### Names in a language -/

namespace Source.Backend

/-- A name can be declared: it is an identifier, which Swift also takes between backquotes. -/
def CanDeclare : Backend → String → Prop
  | declarativeUi, name => Naming.isIdentifier name = true
  | nativeShape, name => Naming.isIdentifier name = true
      ∨ ∃ plain, Naming.isIdentifier plain = true ∧ name = "\x60" ++ plain ++ "\x60"

/-- The properties with lists of icons that the accessor of a group declares. -/
def listsOf : Backend → String → List String
  | declarativeUi => ImageVector.listPropertiesOf
  | nativeShape => Shape.variablesOf

/-- A member can be declared just if its name is that of an identifier. -/
lemma canDeclare_memberName {name : String} (h : Naming.IsWord name) :
    nativeShape.CanDeclare (Shape.memberName name) ↔ Naming.isIdentifier name = true := by
  have hquoted {plain : String} {m : String} (hm : m = "\x60" ++ plain ++ "\x60") :
      '\x60' ∈ m.toList := by
    rw [hm]
    simp
  rw [← Naming.isIdentifier_uncapitalize]
  unfold Shape.memberName CanDeclare
  dsimp only
  split_ifs
  · constructor
    · rintro (hname | ⟨plain, hplain, heq⟩)
      · exact absurd (hquoted rfl) ((Naming.isWord_of_isIdentifier hname).notMem (by decide))
      · rwa [(String.append_right_inj "\x60").mp ((String.append_left_inj "\x60").mp heq)]
    · exact fun hname => Or.inr ⟨_, hname, rfl⟩
  · refine or_iff_left ?_
    rintro ⟨plain, -, heq⟩
    exact absurd (h.uncapitalize _ (hquoted heq)) (by decide)

end Source.Backend

/-! ### Messages -/

namespace Source.Error

lemma head?_message_invalidSymbol (symbol language : String) :
    (invalidSymbol symbol language).message.toList.head? = some '\'' := by
  change ("'" ++ symbol ++ "' is not a valid " ++ language ++ " identifier").toList.head? = _
  simp

lemma head?_message_nonFinite (value : Float) (quantity : Quantity) :
    (nonFinite value quantity).message.toList.head? = some 'n' := by
  change ("non-finite value " ++ Decimal.Style.plain.text value ++ " in "
    ++ quantity.name).toList.head? = _
  simp

end Source.Error

namespace Failure

/-- A failure is that a name cannot be declared. -/
def IsUndeclarable (e : Failure) : Prop :=
  ∃ location symbol language,
    e = .emit location (Source.Error.invalidSymbol symbol language).message

/-- The message about a name begins with a quotation mark, and that about a number does not. -/
lemma not_isUndeclarable_nonFinite (location : String) (value : Float) (quantity : Source.Quantity) :
    ¬ (emit location (Source.Error.nonFinite value quantity).message).IsUndeclarable := by
  rintro ⟨location', symbol, language, heq⟩
  have hhead := Source.Error.head?_message_nonFinite value quantity
  rw [(emit.inj heq).2, Source.Error.head?_message_invalidSymbol] at hhead
  exact absurd hhead (by decide)

end Failure

lemma Svg.SceneReader.not_isUndeclarable_normalize {read : SceneReader} {files : FileView}
    {location : String} {e : Failure} (h : (read.normalize files location).drawable = .error e) :
    ¬ e.IsUndeclarable := by
  rcases normalize_eq_error h with ⟨fault, rfl⟩ | ⟨message, rfl⟩
  · rintro ⟨_, _, _, ⟨⟩⟩
  · rintro ⟨_, _, _, ⟨⟩⟩

lemma Disk.not_isUndeclarable_save {location text : String} {d : Disk} {e : Failure}
    (h : ((save location text).run d).1 = .error e) : ¬ e.IsUndeclarable := by
  obtain ⟨location', fault, rfl⟩ := save_eq_error h
  rintro ⟨_, _, _, ⟨⟩⟩

namespace Batch

namespace Workshop

/-- No failure of generation is that a name cannot be declared, as the names of icons are made from
files. -/
lemma not_isUndeclarable_generate (w : Workshop)
    (hnormalize : ∀ location e, (w.normalize w.files location).drawable = .error e →
      ¬ e.IsUndeclarable)
    (input : Input) : ∀ e ∈ (w.generate input).failures, ¬ e.IsUndeclarable := by
  have hadmits : w.Admits (¬ ·.IsUndeclarable) := {
    format := by
      rintro location extension ⟨_, _, _, ⟨⟩⟩
    filesystem := by
      rintro location fault ⟨_, _, _, ⟨⟩⟩
    reading := by
      rintro location e ⟨_, _, _, heq⟩
      cases e <;> cases heq
    normalizer := hnormalize
    emission := by
      intro location group names g e he
      obtain ⟨quantity, value, -, rfl⟩ := (w.backend.icon_eq_error w.options.settings group
        (w.isIdentifier_allocate names location) g e).mp he
      exact Failure.not_isUndeclarable_nonFinite location value quantity }
  exact hadmits.generate input

namespace Reports

variable {w : Workshop} {input : Input} {r : Report} {u : Tree}

/-- The accessor of a group declares one list, under a name that can be declared if and only if the
name in the options can. For image vectors there is no accessor if it cannot. -/
lemma accessor_cases (h : w.Reports input r) (hu : u ∈ r.root.walk) :
    if w.options.backend = .declarativeUi ∧ Naming.isIdentifier w.options.allAssets = false then
      w.options.backend.accessor w.options.settings u.members
        = .error (.invalidSymbol w.options.allAssets "Kotlin")
    else
      ∃ f name, w.options.backend.accessor w.options.settings u.members = .ok f
        ∧ w.options.backend.listsOf f.text = [name]
        ∧ (w.options.backend.CanDeclare name ↔ Naming.isIdentifier w.options.allAssets = true) := by
  have hdeclarable : r.root.Declarable := by
    rw [h.root]
    exact w.generate_declarable input (isIdentifier_accessor h.valid)
  have hname : Naming.isIdentifier u.members.group.name = true := hdeclarable u hu
  cases hbackend : w.options.backend with
  | declarativeUi =>
    cases hassets : Naming.isIdentifier w.options.allAssets with
    | false => exact ImageVector.accessor_of_not_isIdentifier hname hassets
    | true =>
      obtain ⟨f, haccessor, -, htext⟩ := @ImageVector.accessor_of_isIdentifier w.options.settings
        u.members hname hassets
      have hmembers := (h.compiled hbackend hassets).namedMembers hu
      refine ⟨f, w.options.allAssets, haccessor, ?_, fun _ => rfl, fun _ => hassets⟩
      rw [htext]
      exact ImageVector.listPropertiesOf_accessorFile hmembers
  | nativeShape =>
    have hshaped := h.shaped hbackend
    have hcapital : ∀ c ∈ u.members.children, Naming.IsCapital c := fun c hc =>
      (h.namedAfter hu c (List.mem_append_right _ hc)).isCapital
    obtain ⟨f, -, haccessor, -⟩ := hshaped.accessor?_eq hu
    refine ⟨f, Shape.memberName w.options.allAssets, haccessor, ?_,
      Source.Backend.canDeclare_memberName hshaped.allAssets⟩
    rw [Shape.text_of_accessor haccessor]
    exact Shape.variablesOf_accessorLines (hshaped.worded hu) hcapital

end Reports

end Workshop

/-! ### Runs -/

/-- No icon of a run fails because of its name. A group does just if the name for the lists of all
icons is no identifier, and the framework is that of image vectors; then no group has an accessor.
Otherwise every group has one, which declares one list, under a name that can be declared just if that
of the options is an identifier. -/
theorem undeclarable_names {σ : Type} (write : String → String → StateM σ (Except Failure Unit))
    (normalize : FileView → String → Normalized) (files : FileView) (options : Options)
    (out : Option String) (input : Input) (s s' : σ) (log : List Log.Record) (r : Report)
    (hnormalize : ∀ location e, (normalize files location).drawable = .error e →
      ¬ e.IsUndeclarable)
    (hwrite : ∀ location text s e, ((write location text).run s).1 = .error e → ¬ e.IsUndeclarable)
    (hrun : (run write normalize files options out input).run s = ((log, .ok r), s')) :
    (∀ e : Failure, e.IsUndeclarable → (e ∈ r.failures ↔ out.isSome
      ∧ options.backend = .declarativeUi ∧ Naming.isIdentifier options.allAssets = false
      ∧ ∃ u ∈ r.root.walk, e = .emit (Location.ofNames u.group.directory)
        (Source.Error.invalidSymbol options.allAssets "Kotlin").message))
    ∧ ∀ u ∈ r.root.walk,
      if options.backend = .declarativeUi ∧ Naming.isIdentifier options.allAssets = false then
        options.backend.accessor options.settings u.members
          = .error (.invalidSymbol options.allAssets "Kotlin")
      else
        ∃ f name, options.backend.accessor options.settings u.members = .ok f
          ∧ options.backend.listsOf f.text = [name]
          ∧ (options.backend.CanDeclare name ↔ Naming.isIdentifier options.allAssets = true) := by
  obtain ⟨w, notices, hprepare⟩ := exists_prepare hrun
  obtain ⟨-, -, -, hfiles, hnormalizer⟩ := prepare_eq_ok hprepare
  obtain ⟨rfl, hreports⟩ := reports_of_prepare hprepare hrun
  have haccessors {u : Tree} (hu : u ∈ r.root.walk) := hreports.accessor_cases hu
  refine ⟨fun e he => ?_, fun u hu => haccessors hu⟩
  have hgenerate : e ∉ (w.generate input).failures := by
    refine fun hmem => w.not_isUndeclarable_generate ?_ input e hmem he
    rw [hfiles, hnormalizer]
    exact hnormalize
  have hstore (dir : String) : e ∉ ((store write dir (w.sources input)).run s).1.failures :=
    fun hmem => forall_failures_store hwrite dir _ s e hmem he
  rw [mem_failures_run hprepare hrun, or_iff_right hgenerate]
  simp only [or_iff_left (hstore _), Workshop.mem_failures_accessors]
  constructor
  · rintro ⟨dir, rfl, u, hu, e', haccessor, rfl⟩
    have hcases := haccessors hu
    split_ifs at hcases with hundeclarable
    · obtain rfl := Except.error.inj (haccessor.symm.trans hcases)
      exact ⟨rfl, hundeclarable.1, hundeclarable.2, u, hu, rfl⟩
    · obtain ⟨f, -, hok, -⟩ := hcases
      rw [hok] at haccessor
      cases haccessor
  · rintro ⟨hout, hbackend, hassets, u, hu, rfl⟩
    obtain ⟨dir, rfl⟩ := Option.isSome_iff_exists.mp hout
    have hcases := haccessors hu
    rw [if_pos ⟨hbackend, hassets⟩] at hcases
    exact ⟨dir, rfl, u, hu, _, hcases, rfl⟩

/-- A disk with a drawable on it. -/
def drawableDisk : Disk :=
  ⟨[(["add.xml"], .file blankText.toUTF8)]⟩

/-- Options with a name for the lists of all icons. -/
def listOptions (b : Source.Backend) (allAssets : String) : Options where
  allAssets := allAssets
  backend := b
  inputFormat := .drawable

/-- A run over the drawable. -/
def listRun (b : Source.Backend) (allAssets : String) :
    (List Log.Record × Except Failure Report) × Disk :=
  (run Disk.save Svg.normalize drawableDisk.view (listOptions b allAssets) (some "out")
    (.files ["add.xml"])).run drawableDisk

/-- The lists that the accessors in the report of a run declare. -/
def declaredLists (b : Source.Backend) (allAssets : String) (r : Report) : List (Option (List String)) :=
  r.root.walk.map fun u => (b.accessor (listOptions b allAssets).settings u.members).toOption.map
    fun f => b.listsOf f.text

/-- With a name that begins with a digit the root group has no accessor, and with a keyword it has
one that declares the keyword between backquotes. -/
theorem undeclarable_names_of_drawable :
    (∃ log r d', listRun .declarativeUi "2x" = ((log, .ok r), d')
      ∧ ∀ u ∈ r.root.walk, .emit (Location.ofNames u.group.directory)
        (Source.Error.invalidSymbol "2x" "Kotlin").message ∈ r.failures)
    ∧ ∃ log r d', listRun .nativeShape "Default" = ((log, .ok r), d')
      ∧ ∀ u ∈ r.root.walk, ∃ f name,
        Source.Backend.nativeShape.accessor (listOptions .nativeShape "Default").settings u.members
            = .ok f
          ∧ Source.Backend.nativeShape.listsOf f.text = [name]
          ∧ Source.Backend.nativeShape.CanDeclare name := by
  have hreport {b : Source.Backend} {allAssets : String}
      (h : (listRun b allAssets).1.2.toOption.map (fun _ => ()) = some ()) :
      ∃ log r d', listRun b allAssets = ((log, .ok r), d') := by
    obtain ⟨log, r, d', hrun, -⟩ := exists_report h
    exact ⟨log, r, d', hrun⟩
  have hnames {b : Source.Backend} {allAssets : String} {log : List Log.Record} {r : Report}
      {d' : Disk} (hrun : listRun b allAssets = ((log, .ok r), d')) :=
    undeclarable_names Disk.save Svg.normalize drawableDisk.view (listOptions b allAssets)
      (some "out") (.files ["add.xml"]) drawableDisk d' log r
      (fun _ _ => Svg.SceneReader.not_isUndeclarable_normalize)
      (fun _ _ _ _ => Disk.not_isUndeclarable_save) hrun
  constructor
  · obtain ⟨log, r, d', hrun⟩ := @hreport .declarativeUi "2x" (by decide +kernel)
    refine ⟨log, r, d', hrun, fun u hu => ?_⟩
    exact ((hnames hrun).1 _ ⟨_, _, _, rfl⟩).mpr ⟨rfl, rfl, by decide, u, hu, rfl⟩
  · obtain ⟨log, r, d', hrun⟩ := @hreport .nativeShape "Default" (by decide +kernel)
    refine ⟨log, r, d', hrun, fun u hu => ?_⟩
    obtain ⟨f, name, haccessor, hlists, hname⟩ := (hnames hrun).2 u hu
    exact ⟨f, name, haccessor, hlists, hname.mpr (by decide)⟩

/-- A name that begins with a digit passes the check of the options. -/
theorem undeclarable_digit_name :
    (listRun .declarativeUi "2x").1.2.toOption.map (·.failures.map (·.message))
        = some ["failed to generate source for icons: '2x' is not a valid Kotlin identifier"]
      ∧ (listRun .nativeShape "2x").1.2.toOption.map (declaredLists .nativeShape "2x")
        = some [some ["2x"]]
      ∧ ¬ Source.Backend.nativeShape.CanDeclare "2x" := by
  have hmember : Shape.memberName "2x" = "2x" := by decide
  have hword : Naming.IsWord "2x" := by
    constructor <;> decide
  refine ⟨by decide +kernel, by decide +kernel, ?_⟩
  rw [← hmember, Source.Backend.canDeclare_memberName hword]
  decide

/-! ### Members -/

section Members

open Shape (memberName memberNamesOf)

/-- The members of an accessor are one for each icon of the group and the list of all icons. Those of the
icons have different names. All of them have just if no icon has the name of the list, when both begin
with a small letter. -/
theorem members_of_accessors {σ : Type} (write : String → String → StateM σ (Except Failure Unit))
    (normalize : FileView → String → Normalized) (files : FileView) (options : Options)
    (out : String) (input : Input) (s s' : σ) (log : List Log.Record) (r : Report)
    (hbackend : options.backend = .nativeShape)
    (hrun : (run write normalize files options (some out) input).run s = ((log, .ok r), s')) :
    ∀ u ∈ r.root.walk, ∃ f ∈ r.sources options,
      options.backend.accessor options.settings u.members = .ok f
      ∧ memberNamesOf f.text
        = u.members.icons.map memberName ++ [memberName options.allAssets]
      ∧ (u.members.icons.map memberName).Nodup
      ∧ ((memberNamesOf f.text).Nodup ↔ ∀ icon ∈ u.members.icons,
        Naming.uncapitalize icon ≠ Naming.uncapitalize options.allAssets) := by
  intro u hu
  obtain ⟨w, rfl, hreports⟩ := exists_reports hrun
  have hshaped := hreports.shaped hbackend
  have hworded := hshaped.worded hu
  have hicons : ∀ icon ∈ u.members.icons, Naming.IsCapital icon := fun icon hicon =>
    (hreports.namedAfter hu icon (List.mem_append_left _ hicon)).isCapital
  have hchildren : ∀ c ∈ u.members.children, Naming.IsCapital c := fun c hc =>
    (hreports.namedAfter hu c (List.mem_append_right _ hc)).isCapital
  have hdistinct : u.members.icons.Nodup :=
    (List.nodup_cons.mp (hreports.sound u hu).members).2.of_append_left
  obtain ⟨f, hf, haccessor, -⟩ := hshaped.accessor?_eq hu
  have hmembers : memberNamesOf f.text
      = u.members.icons.map memberName ++ [memberName w.options.allAssets] := by
    rw [Shape.text_of_accessor haccessor]
    exact Shape.memberNamesOf_accessorLines hworded hchildren
  obtain ⟨hconstants, hall⟩ := Shape.nodup_memberNames_iff hworded hicons hdistinct
  refine ⟨f, List.mem_append_right _ (List.mem_filterMap.mpr ⟨u, hu, hf⟩), ?_, hmembers, hconstants,
    ?_⟩
  · rw [hbackend]
    exact haccessor
  · rwa [hmembers]

/-- The members that the accessors in the report of a run declare, which depend on names only. -/
def declaredMembers (options : Options) (r : Report) : List (Option (List String)) :=
  r.root.walk.map fun u => (options.backend.accessor options.settings u.members).toOption.map
    fun f => memberNamesOf f.text

/-- A run over one file, which holds a drawable without content. -/
def plainRun (file : String) : (List Log.Record × Except Failure Report) × Unit :=
  (run (m := StateM Unit) writeNothing mixedShop.normalize echoFiles (echoOptions "Icons")
    (some "out") (.files [file])).run ()

/-- An icon and the list of all icons are members of the one accessor, under different names. -/
theorem members_of_plain_icon :
    ∃ log r s', plainRun "default.xml" = ((log, .ok r), s') ∧
      ∀ u ∈ r.root.walk, ∃ f ∈ r.sources (echoOptions "Icons"),
        memberNamesOf f.text = ["\x60default\x60", "allAssets"] ∧ (memberNamesOf f.text).Nodup := by
  have hreport : (plainRun "default.xml").1.2.toOption.map
      (fun r => r.root.walk.map fun u => u.members.icons) = some [["Default"]] := by
    decide +kernel
  obtain ⟨log, r, s', hrun, hicons⟩ := exists_report hreport
  refine ⟨log, r, s', hrun, fun u hu => ?_⟩
  obtain ⟨f, hf, -, hmembers, -, hdistinct⟩ := members_of_accessors writeNothing mixedShop.normalize
    echoFiles (echoOptions "Icons") "out" (.files ["default.xml"]) () s' log r rfl hrun u hu
  have hu := List.mem_map_of_mem (f := fun u : Tree => u.members.icons) hu
  rw [hicons, List.mem_singleton] at hu
  rw [hu] at hmembers hdistinct
  refine ⟨f, hf, hmembers.trans (by decide), hdistinct.mpr ?_⟩
  rw [List.forall_mem_singleton]
  decide

/-- An icon can have the name of the list of all icons. -/
theorem members_of_icon_like_list :
    (plainRun "all_assets.xml").1.2.toOption.map (declaredMembers (echoOptions "Icons"))
      = some [some ["allAssets", "allAssets"]] := by
  decide +kernel

end Members

end Batch

end Iconsmith
