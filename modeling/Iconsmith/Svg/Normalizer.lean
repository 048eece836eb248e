import Iconsmith.Batch.Generate
import Iconsmith.Drawable.Writer
import Iconsmith.Svg.Flatten

/-!
# Normalizing SVG files

In a run, an SVG file is first made a drawable, which is then read like any other. It gives none because
the file cannot be read or because of what is in it. What a document resolves to is for a reader of
scenes to say; here any will do.
-/

namespace Iconsmith.Svg

/-- What makes a scene of a text, with pictures that may be kept in files, or says why there is none. -/
abbrev SceneReader := FileView → String → Except String Scene

/-- A record of what happens while a scene is flattened. -/
def record (level : Log.Level) (text : String) : Log.Record :=
  ⟨level, .normalizer, text⟩

/-- The records of the notices about a scene. -/
def Scene.records (s : Scene) : List Log.Record :=
  s.notices.map fun n => record .warning n.message

/-- The record that a file was made a drawable. -/
def normalizedRecord (location : String) (g : Graphic Float) : Log.Record :=
  record .debug s!"normalized {location} ({g.pathCount} paths)"

namespace SceneReader

/-- Makes a drawable of the SVG file at a location. -/
def normalize (read : SceneReader) (files : FileView) (location : String) : Batch.Normalized :=
  match files.text location with
  | .error fault => ⟨[], .error (.filesystem location fault)⟩
  | .ok text =>
    match read files text with
    | .error message => ⟨[], .error (.normalize location message)⟩
    | .ok scene =>
      ⟨scene.records ++ [normalizedRecord location scene.graphic],
        .ok (Drawable.write scene.graphic)⟩

/-! ### What a file is made -/

variable {read : SceneReader} {files : FileView} {location : String}

theorem normalize_eq_ok {drawable : String}
    (h : (read.normalize files location).drawable = .ok drawable) :
    ∃ text scene, files.text location = .ok text ∧ read files text = .ok scene
      ∧ Drawable.write scene.graphic = drawable := by
  unfold normalize at h
  cases htext : files.text location with
  | error fault => simp [htext] at h
  | ok text =>
    cases hscene : read files text with
    | error message => simp [htext, hscene] at h
    | ok scene =>
      simp only [htext, hscene, Except.ok.injEq] at h
      exact ⟨text, scene, rfl, hscene, h⟩

theorem normalize_eq_error {e : Failure}
    (h : (read.normalize files location).drawable = .error e) :
    (∃ fault, e = .filesystem location fault) ∨ ∃ message, e = .normalize location message := by
  unfold normalize at h
  cases htext : files.text location with
  | error fault =>
    simp only [htext, Except.error.injEq] at h
    exact Or.inl ⟨fault, h.symm⟩
  | ok text =>
    cases hscene : read files text with
    | error message =>
      simp only [htext, hscene, Except.error.injEq] at h
      exact Or.inr ⟨message, h.symm⟩
    | ok scene => simp [htext, hscene] at h

end SceneReader

end Iconsmith.Svg
