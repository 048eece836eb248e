import Iconsmith.Batch.Failure
import Iconsmith.Files.Disk
import Iconsmith.Source.Basic
import Iconsmith.Log

/-!
# Productions

A run goes through many files. What it makes of them is a `Production`: the icons that were
generated, the failures, and the records of the log, each in order. On the way it keeps drawables in
a scratch directory: `Work` is a production that can write and read there.
-/

namespace Iconsmith.Batch

/-- A generated icon. -/
structure Artifact where
  /-- The symbol that the source declares. -/
  name : String
  /-- The qualified name of the group. -/
  group : String
  source : Source.File
  /-- A file that shows the icon. -/
  preview : Option String
  deriving DecidableEq, Repr

/-- A result with what was made on the way to it. -/
@[ext]
structure Production (α : Type) where
  value : α
  artifacts : List Artifact
  failures : List Failure
  records : List Log.Record

namespace Production

instance : Monad Production where
  pure x := ⟨x, [], [], []⟩
  bind p f :=
    let q := f p.value
    ⟨q.value, p.artifacts ++ q.artifacts, p.failures ++ q.failures, p.records ++ q.records⟩
  map f p := ⟨f p.value, p.artifacts, p.failures, p.records⟩

/-- Adds records to the log. -/
def log (records : List Log.Record) : Production Unit :=
  ⟨(), [], [], records⟩

/-- Adds texts of one level and source to the log. -/
def notes (level : Log.Level) (source : Log.Source) (texts : List String) : Production Unit :=
  log (texts.map (⟨level, source, ·⟩))

/-- Adds a text to the log. -/
def note (level : Log.Level) (source : Log.Source) (text : String) : Production Unit :=
  notes level source [text]

/-- Adds an icon. -/
def artifact (a : Artifact) : Production Unit :=
  ⟨(), [a], [], []⟩

/-- The record of a failure. A file of another format is only skipped. -/
def failureRecord (e : Failure) : Log.Record :=
  match e with
  | .inputFormat .. => ⟨.warning, .batch, "skipped: " ++ e.message⟩
  | _ => ⟨.error, .batch, e.message⟩

/-- Adds failures. -/
def fails (es : List Failure) : Production Unit :=
  ⟨(), [], es, es.map failureRecord⟩

/-- Adds a failure. -/
def fail (e : Failure) : Production Unit :=
  fails [e]

/-- The value of a result, or its failure. -/
def accept {α : Type} : Except Failure α → Production (Option α)
  | .ok x => pure (some x)
  | .error e => do
    fail e
    return none

/-! ### What is in a production -/

section Lemmas

variable {α β : Type} (x : α) (p : Production α) (f : α → Production β)

@[simp] theorem value_pure : (pure x : Production α).value = x := rfl

@[simp] theorem artifacts_pure : (pure x : Production α).artifacts = [] := rfl

@[simp] theorem failures_pure : (pure x : Production α).failures = [] := rfl

@[simp] theorem records_pure : (pure x : Production α).records = [] := rfl

@[simp] theorem value_bind : (p >>= f).value = (f p.value).value := rfl

@[simp] theorem artifacts_bind : (p >>= f).artifacts = p.artifacts ++ (f p.value).artifacts := rfl

@[simp] theorem failures_bind : (p >>= f).failures = p.failures ++ (f p.value).failures := rfl

@[simp] theorem records_bind : (p >>= f).records = p.records ++ (f p.value).records := rfl

variable (g : α → β)

@[simp] theorem value_map : (g <$> p).value = g p.value := rfl

@[simp] theorem artifacts_map : (g <$> p).artifacts = p.artifacts := rfl

@[simp] theorem failures_map : (g <$> p).failures = p.failures := rfl

@[simp] theorem records_map : (g <$> p).records = p.records := rfl

variable (records : List Log.Record) (level : Log.Level) (source : Log.Source)

@[simp] theorem artifacts_log : (log records).artifacts = [] := rfl

@[simp] theorem failures_log : (log records).failures = [] := rfl

@[simp] theorem artifacts_notes (texts : List String) :
    (notes level source texts).artifacts = [] := rfl

@[simp] theorem failures_notes (texts : List String) :
    (notes level source texts).failures = [] := rfl

@[simp] theorem artifacts_note (text : String) : (note level source text).artifacts = [] := rfl

@[simp] theorem failures_note (text : String) : (note level source text).failures = [] := rfl

@[simp] theorem artifacts_artifact (a : Artifact) : (artifact a).artifacts = [a] := rfl

@[simp] theorem failures_artifact (a : Artifact) : (artifact a).failures = [] := rfl

@[simp] theorem artifacts_fails (es : List Failure) : (fails es).artifacts = [] := rfl

@[simp] theorem failures_fails (es : List Failure) : (fails es).failures = es := rfl

@[simp] theorem artifacts_fail (e : Failure) : (fail e).artifacts = [] := rfl

@[simp] theorem failures_fail (e : Failure) : (fail e).failures = [e] := rfl

@[simp] theorem value_accept (r : Except Failure α) : (accept r).value = r.toOption := by
  cases r <;> rfl

@[simp] theorem artifacts_accept (r : Except Failure α) : (accept r).artifacts = [] := by
  cases r <;> rfl

@[simp] theorem failures_accept_ok : (accept (.ok x)).failures = [] := rfl

@[simp] theorem failures_accept_error (e : Failure) :
    (accept (.error e : Except Failure α)).failures = [e] := rfl

theorem fails_nil : fails [] = pure () := rfl

theorem accept_ok : accept (.ok x) = pure (some x) := rfl

theorem accept_error (e : Failure) :
    accept (.error e : Except Failure α) = (do fail e; return none) := rfl

end Lemmas

instance : LawfulMonad Production :=
  LawfulMonad.mk' Production (fun _ => rfl) (fun _ _ => rfl) (fun _ _ _ => by ext1 <;> simp)
    (fun _ _ => rfl) (fun _ _ => by ext1 <;> simp [SeqLeft.seqLeft])
    (fun _ _ => by ext1 <;> simp [SeqRight.seqRight]) (fun _ _ => by ext1 <;> simp)
    (fun _ _ => rfl)

end Production

/-! ### Work with a scratch directory -/

/-- A production that uses the scratch directory of its run. Locations are meant from there. -/
abbrev Work := StateT Disk Production

namespace Work

/-- The production of some work whose scratch directory is empty at first, and is not kept. -/
def alone {α : Type} (x : Work α) : Production α :=
  (·.1) <$> x.run Disk.empty

/-- Writes a text into a file of the scratch directory. -/
def write (location text : String) : Work (Except FileFault Unit) := fun scratch =>
  let (scratch, result) := scratch.write location text
  pure (result, scratch)

/-- The text in a file of the scratch directory. -/
def text (location : String) : Work (Except FileFault String) := fun scratch =>
  pure (scratch.view.text location, scratch)

@[simp] theorem run_write (location text : String) (scratch : Disk) :
    (write location text).run scratch
      = pure ((scratch.write location text).2, (scratch.write location text).1) := rfl

@[simp] theorem run_text (location : String) (scratch : Disk) :
    (Work.text location).run scratch = pure (scratch.view.text location, scratch) := rfl

end Work

end Iconsmith.Batch
