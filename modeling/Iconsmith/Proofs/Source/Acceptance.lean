import Iconsmith.Proofs.Source.Finite
import Iconsmith.Proofs.Source.Places

/-!
# What can be generated

Whether there is a source for an icon depends on its symbol and on its numbers, and for the accessor of
a group on names only. Under names that can be declared, nothing but a number can stand in the way, and
then the same number for either framework.
-/

namespace Iconsmith.Source.Backend

/-- Under an identifier there is a source for a graphic just if its numbers are finite. -/
lemma icon_of_isIdentifier (b : Backend) (settings : Settings) (group : Group) {symbol : String}
    (h : Naming.isIdentifier symbol = true) (g : Graphic Float) :
    (b.icon settings group symbol g).map (fun _ => ()) = checkFinite g := by
  have hsymbol : checkSymbol b symbol = .ok () := checkSymbol_eq_ok.mpr h
  cases b with
  | declarativeUi =>
    rw [icon, ImageVector.icon, hsymbol, ok_bind]
    cases checkFinite g <;> rfl
  | nativeShape =>
    rw [icon, Shape.icon, hsymbol, ok_bind]
    cases checkFinite g <;> rfl

/-- Under an identifier nothing but a number keeps a graphic from having a source: the first one that is
not finite. -/
lemma icon_eq_error (b : Backend) (settings : Settings) (group : Group) {symbol : String}
    (h : Naming.isIdentifier symbol = true) (g : Graphic Float) (e : Error) :
    b.icon settings group symbol g = .error e
      ↔ ∃ q x, firstFault? g.quantities = some (q, x) ∧ e = .nonFinite x q := by
  rw [← verdict_eq_error, ← checkFinite_eq, ← b.icon_of_isIdentifier settings group h g]
  cases b.icon settings group symbol g <;> simp [Except.map]

lemma exists_icon_iff (b : Backend) (settings : Settings) (group : Group) {symbol : String}
    (h : Naming.isIdentifier symbol = true) (g : Graphic Float) :
    (∃ f, b.icon settings group symbol g = .ok f) ↔ ∀ x ∈ g.numbers, x.isFinite = true := by
  rw [← checkFinite_eq_ok, ← b.icon_of_isIdentifier settings group h g]
  cases b.icon settings group symbol g <;> simp [Except.map]

/-- No graphic has a source under a name that cannot be declared. -/
lemma icon_of_not_isIdentifier (b : Backend) (settings : Settings) (group : Group) {symbol : String}
    (h : Naming.isIdentifier symbol = false) (g : Graphic Float) :
    b.icon settings group symbol g = .error (.invalidSymbol symbol b.language) := by
  have hsymbol : checkSymbol b symbol = .error (.invalidSymbol symbol b.language) := by
    rw [checkSymbol, h]
    rfl
  cases b with
  | declarativeUi =>
    rw [icon, ImageVector.icon, hsymbol]
    rfl
  | nativeShape =>
    rw [icon, Shape.icon, hsymbol]
    rfl

/-- A graphic has a source just if the symbol is an identifier and no number at any depth is undefined or
infinite. Otherwise the symbol is rejected, or else the first of those numbers, with what it stands for.
Neither the framework nor the group nor the settings make a difference. -/
theorem icons_accepted_alike (b : Backend) (settings : Settings) (group : Group) (symbol : String)
    (g : Graphic Float) :
    (b.icon settings group symbol g = .error (.invalidSymbol symbol b.language)
        ↔ Naming.isIdentifier symbol = false)
      ∧ (∀ q x, b.icon settings group symbol g = .error (.nonFinite x q)
        ↔ Naming.isIdentifier symbol = true ∧ firstFault? g.quantities = some (q, x))
      ∧ ((∃ q x, b.icon settings group symbol g = .error (.nonFinite x q))
        ↔ Naming.isIdentifier symbol = true ∧ ∃ x ∈ g.numbers, x.isNaN = true ∨ x.isInf = true)
      ∧ ((∃ f, b.icon settings group symbol g = .ok f)
        ↔ Naming.isIdentifier symbol = true ∧ ¬ ∃ x ∈ g.numbers, x.isNaN = true ∨ x.isInf = true)
      ∧ ∀ (b' : Backend) (settings' : Settings) (group' : Group),
        (∃ f, b.icon settings group symbol g = .ok f)
          ↔ ∃ f, b'.icon settings' group' symbol g = .ok f := by
  cases hsymbol : Naming.isIdentifier symbol with
  | false =>
    have hicon (b : Backend) (settings : Settings) (group : Group) :=
      b.icon_of_not_isIdentifier settings group hsymbol g
    simp [hicon]
  | true =>
    have herror (e : Error) := b.icon_eq_error settings group hsymbol g e
    have hfaulty (x : Float) : x.isFinite = true ↔ ¬ (x.isNaN = true ∨ x.isInf = true) := by
      rw [← Bool.or_eq_true, isNaN_or_isInf]
      simp
    have hok (b : Backend) (settings : Settings) (group : Group) :
        (∃ f, b.icon settings group symbol g = .ok f)
          ↔ ¬ ∃ x ∈ g.numbers, x.isNaN = true ∨ x.isInf = true := by
      rw [b.exists_icon_iff settings group hsymbol g]
      simp only [hfaulty, not_exists, not_and]
    have hnonFinite : (∃ q x, b.icon settings group symbol g = .error (.nonFinite x q))
        ↔ ¬ ∃ f, b.icon settings group symbol g = .ok f := by
      constructor
      · rintro ⟨q, x, he⟩ ⟨f, hf⟩
        simp [he] at hf
      · intro hnot
        cases hicon : b.icon settings group symbol g with
        | ok f => exact absurd ⟨f, hicon⟩ hnot
        | error e =>
          obtain ⟨q, x, -, rfl⟩ := (herror e).mp hicon
          exact ⟨q, x, rfl⟩
    refine ⟨?_, ?_, ?_, ?_, ?_⟩
    · simp [herror]
    · simp [herror]
    · rw [hnonFinite, hok, not_not]
      simp
    · simpa using hok b settings group
    · intro b' settings' group'
      rw [hok, hok]

end Iconsmith.Source.Backend

namespace Iconsmith.ImageVector

variable {settings : Source.Settings} {group : Group} {symbol : String} {g : Graphic Float}
  {f : Source.File} {m : Source.Members}

lemma icon_eq_ok (h : icon settings group symbol g = .ok f) :
    Naming.isIdentifier symbol = true
      ∧ f.names.dropLast = packageDirectories group.iconsPackage
      ∧ f.text = (iconFile settings group symbol g).text := by
  obtain ⟨⟨⟩, hsymbol, h⟩ := bind_eq_ok.mp h
  obtain ⟨⟨⟩, -, h⟩ := bind_eq_ok.mp h
  obtain rfl := pure_eq_ok.mp h
  exact ⟨Source.Backend.checkSymbol_eq_ok.mp hsymbol, List.dropLast_concat, rfl⟩

/-- Under identifiers there is an accessor for every group. -/
lemma accessor_of_isIdentifier (hname : Naming.isIdentifier m.group.name = true)
    (hassets : Naming.isIdentifier settings.allAssets = true) :
    ∃ f, accessor settings m = .ok f
      ∧ f.names.dropLast = packageDirectories m.group.groupPackage
      ∧ f.text = (accessorFile settings.allAssets m).text := by
  have hname : Source.checkSymbol .declarativeUi m.group.name = .ok () :=
    Source.Backend.checkSymbol_eq_ok.mpr hname
  have hassets : Source.checkSymbol .declarativeUi settings.allAssets = .ok () :=
    Source.Backend.checkSymbol_eq_ok.mpr hassets
  rw [accessor, hname, ok_bind, hassets, ok_bind]
  exact ⟨_, rfl, List.dropLast_concat, rfl⟩

/-- There is no accessor with a list under a name that cannot be declared. -/
lemma accessor_of_not_isIdentifier (hname : Naming.isIdentifier m.group.name = true)
    (hassets : Naming.isIdentifier settings.allAssets = false) :
    accessor settings m = .error (.invalidSymbol settings.allAssets "Kotlin") := by
  have hname : Source.checkSymbol .declarativeUi m.group.name = .ok () :=
    Source.Backend.checkSymbol_eq_ok.mpr hname
  have hassets : Source.checkSymbol .declarativeUi settings.allAssets
      = .error (.invalidSymbol settings.allAssets "Kotlin") := by
    rw [Source.checkSymbol, hassets]
    rfl
  rw [accessor, hname, ok_bind, hassets]
  rfl

end Iconsmith.ImageVector
