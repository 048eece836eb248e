import Iconsmith.Proofs.Batch.Links

/-!
# Writing what was generated

Writing comes after generating and only adds to the report. There is one request for each icon and
one for each group. A request ends with the location of a file that was written or with a failure,
and whatever becomes of it, the next one follows.
-/

namespace Iconsmith

open Source (File)

/-! ### Requests -/

/-- The accessor of a group, or the failure to generate it. -/
def Options.accessorOf (options : Options) (t : Batch.Tree) : Except Failure File :=
  (options.backend.accessor options.settings t.members).mapError
    fun e => .emit (Location.ofNames t.group.directory) e.message

namespace Batch

/-- What is to be written of a report: a source for each icon, and then one for each group. -/
def Report.requests (r : Report) (options : Options) : List (Except Failure File) :=
  r.artifacts.map (fun a => .ok a.source) ++ r.root.walk.map options.accessorOf

lemma Report.length_requests (r : Report) (options : Options) :
    (r.requests options).length = r.artifacts.length + r.root.walk.length := by
  simp [requests]

section Deposit

variable {σ : Type} (write : String → String → StateM σ (Except Failure Unit)) (out : String)

/-- Writes the file of a request below a directory, and gives its location. -/
def deposit : Except Failure File → StateM σ (Except Failure String)
  | .error e => return .error e
  | .ok f => do
    let result ← write (Location.join out f.location) f.text
    return result.map fun _ => Location.join out f.location

lemma deposits_error (e : Failure) (requests : List (Except Failure File)) (s : σ) :
    ((.error e :: requests).mapM (deposit write out)).run s =
      let xs := (requests.mapM (deposit write out)).run s
      (.error e :: xs.1, xs.2) := by
  rw [List.mapM_cons]
  rfl

lemma deposits_ok (f : File) (requests : List (Except Failure File)) (s : σ) :
    ((.ok f :: requests).mapM (deposit write out)).run s =
      let r := (write (Location.join out f.location) f.text).run s
      let xs := (requests.mapM (deposit write out)).run r.2
      (r.1.map (fun _ => Location.join out f.location) :: xs.1, xs.2) := by
  rw [List.mapM_cons]
  rfl

lemma length_deposits (requests : List (Except Failure File)) (s : σ) :
    ((requests.mapM (deposit write out)).run s).1.length = requests.length := by
  induction requests generalizing s with
  | nil => rfl
  | cons request requests ih =>
    cases request with
    | error e =>
      rw [deposits_error]
      exact congrArg (· + 1) (ih s)
    | ok f =>
      rw [deposits_ok]
      exact congrArg (· + 1) (ih _)

lemma failures_store_cons (f : File) (fs : List File) (s : σ) :
    ((store write out (f :: fs)).run s).1.failures =
      let r := (write (Location.join out f.location) f.text).run s
      errors r.1 ++ ((store write out fs).run r.2).1.failures := by
  rw [store_cons]
  dsimp only
  cases ((write (Location.join out f.location) f.text).run s).1 <;> simp [errors]

/-- Some results are those of storing files, and of failures that were there before. -/
structure Deposited (before : List Failure) (stored : Production (List String))
    (xs : List (Except Failure String)) : Prop where
  locations : xs.filterMap Except.toOption = stored.value
  failures : (before ++ stored.failures).Perm (xs.flatMap errors)

/-- Requests that are met one after the other come to the same as storing the files that are there;
only the order of the failures may differ. -/
lemma deposits_eq_store (requests : List (Except Failure File)) (s : σ) :
    let stored := (store write out (requests.filterMap Except.toOption)).run s
    let deposits := (requests.mapM (deposit write out)).run s
    deposits.2 = stored.2 ∧ Deposited (requests.flatMap errors) stored.1 deposits.1 := by
  induction requests generalizing s with
  | nil => exact ⟨rfl, rfl, .nil⟩
  | cons request requests ih =>
    cases request with
    | error e =>
      obtain ⟨hstate, hlocations, hfailures⟩ := ih s
      rw [deposits_error]
      exact ⟨hstate, hlocations, hfailures.cons e⟩
    | ok f =>
      have hfiles : (Except.ok f :: requests).filterMap Except.toOption
          = f :: requests.filterMap Except.toOption := rfl
      rw [deposits_ok, hfiles]
      refine ⟨(ih _).1, ?_, ?_⟩
      · rw [value_store_cons]
        obtain ⟨-, hlocations, -⟩ := ih ((write (Location.join out f.location) f.text).run s).2
        dsimp only
        rw [← hlocations]
        cases ((write (Location.join out f.location) f.text).run s).1 <;> rfl
      · rw [failures_store_cons]
        obtain ⟨-, -, hfailures⟩ := ih ((write (Location.join out f.location) f.text).run s).2
        dsimp only
        cases ((write (Location.join out f.location) f.text).run s).1 with
        | error e => exact List.perm_middle.trans (hfailures.cons e)
        | ok => exact hfailures

end Deposit

/-! ### Runs -/

namespace Workshop

variable (w : Workshop) (r : Report)

lemma filterMap_requests :
    (r.requests w.options).filterMap Except.toOption = r.sources w.options := by
  have hicons : r.artifacts.filterMap (Except.toOption ∘ fun a => (.ok a.source : Except Failure File))
      = r.artifacts.map (·.source) := congrFun List.filterMap_eq_map r.artifacts
  have haccessors : Except.toOption ∘ w.options.accessorOf
      = fun t => (w.options.backend.accessor w.options.settings t.members).toOption := by
    funext t
    rw [Function.comp_apply, Options.accessorOf]
    cases w.options.backend.accessor w.options.settings t.members <;> rfl
  rw [Report.requests, Report.sources, List.filterMap_append, List.filterMap_map,
    List.filterMap_map, hicons, haccessors]

lemma errors_accessorOf (ts : List Tree) :
    (ts.map w.options.accessorOf).flatMap errors = (w.accessors ts).failures := by
  induction ts with
  | nil => rfl
  | cons t ts ih =>
    rw [List.map_cons, List.flatMap_cons, ih, accessors, Production.failures_bind,
      Production.failures_bind, Production.failures_pure, List.append_nil, accessor]
    change errors ((w.backend.accessor w.options.settings t.members).mapError _) ++ _ = _
    cases w.backend.accessor w.options.settings t.members <;> rfl

lemma errors_requests :
    (r.requests w.options).flatMap errors = (w.accessors r.root.walk).failures := by
  have hicons : (r.artifacts.map fun a => (.ok a.source : Except Failure File)).flatMap errors = [] := by
    rw [List.flatMap_map]
    exact List.flatMap_eq_nil_iff.mpr fun a _ => rfl
  rw [Report.requests, List.flatMap_append, hicons, List.nil_append, errors_accessorOf]

end Workshop

section Run

variable {σ : Type} (write : String → String → StateM σ (Except Failure Unit))
  {normalize : FileView → String → Normalized} {files : FileView} {options : Options}
  {input : Input} {w : Workshop} {notices : List Log.Record}

/-- A run that writes gives what it generates, the failures of accessors and of writing after those
of files, and the locations of the files that were stored. -/
lemma run_some (hprepare : prepare options files normalize input = .ok (w, notices))
    (out : String) (s : σ) :
    let stored := (store write out (w.sources input)).run s
    ∃ log, (run write normalize files options (some out) input).run s = ((log, .ok
      { artifacts := (w.generate input).artifacts
        failures := (w.generate input).failures
          ++ ((w.accessors (w.generate input).value.walk).failures ++ stored.1.failures)
        root := (w.generate input).value
        written := stored.1.value }), stored.2) := by
  rw [run_of_prepare hprepare]
  dsimp only
  rw [output_eq]
  simp only [report, Production.artifacts_bind, Production.artifacts_pure,
    Production.failures_bind, Production.failures_pure, Production.value_bind,
    Production.value_pure, List.append_nil, w.artifacts_accessors, artifacts_store]
  exact ⟨_, rfl⟩

end Run

/-- Whether and where a run writes, it fails to begin for the same reason, or gives the same icons
in the same tree. It meets one request for each icon and each group, in order, and each ends with
one location among those that were written or with one failure after those of the files. -/
theorem writing_follows_generating {σ : Type}
    (write : String → String → StateM σ (Except Failure Unit))
    (normalize : FileView → String → Normalized) (files : FileView) (options : Options)
    (out : String) (input : Input) (s : σ) :
    (∃ e, (run write normalize files options none input).run s = (([], .error e), s)
      ∧ (run write normalize files options (some out) input).run s = (([], .error e), s))
    ∨ ∃ log r log' r' s' xs added,
      (run write normalize files options none input).run s = ((log, .ok r), s)
      ∧ (run write normalize files options (some out) input).run s = ((log', .ok r'), s')
      ∧ r'.artifacts = r.artifacts ∧ r'.root = r.root ∧ r.written = []
      ∧ ((r.requests options).mapM (deposit write out)).run s = (xs, s')
      ∧ xs.length = r.artifacts.length + r.root.walk.length
      ∧ r'.written = xs.filterMap Except.toOption
      ∧ r'.failures = r.failures ++ added ∧ added.Perm (xs.flatMap errors) := by
  cases hprepare : prepare options files normalize input with
  | error e =>
    refine Or.inl ⟨e, ?_, ?_⟩ <;> rw [run_of_prepare_error write hprepare] <;> rfl
  | ok prepared =>
    obtain ⟨w, notices⟩ := prepared
    obtain ⟨log, hnone⟩ := run_none (m := StateM σ) write hprepare
    obtain ⟨log', hsome⟩ := run_some write hprepare out s
    obtain ⟨-, -, rfl, -, -⟩ := prepare_eq_ok hprepare
    let r : Report :=
      { artifacts := (w.generate input).artifacts
        failures := (w.generate input).failures
        root := (w.generate input).value
        written := [] }
    have hnone : (run write normalize files w.options none input).run s = ((log, .ok r), s) :=
      congrArg (·.run s) hnone
    have hspec := deposits_eq_store write out (r.requests w.options) s
    rw [w.filterMap_requests, w.errors_requests, sources_eq hprepare hnone] at hspec
    obtain ⟨hstate, hlocations, hfailures⟩ := hspec
    refine Or.inr ⟨log, r, log', _, _, _, _, hnone, hsome, rfl, rfl, rfl, Prod.ext rfl hstate, ?_,
      hlocations.symm, rfl, hfailures⟩
    rw [length_deposits, r.length_requests]

/-- Writes nothing, and refuses the file at one location. -/
def refusing (full : String) (location _ : String) : StateM Unit (Except Failure Unit) :=
  return if location = full then .error (.filesystem location (.other "full")) else .ok ()

/-- The files after one that is refused are written. -/
example : ((run (refusing "out/p/Icons.kt") mixedShop.normalize nestedFiles nestedOptions (some "out")
      (.directory "in")).run ()).1.2.toOption.map
        (fun r => (r.written, r.failures.map (·.location?)))
    = some (["out/p/icons/b/Add.kt", "out/p/icons/B.kt"], [some "out/p/Icons.kt"]) := by
  decide +kernel

end Batch

end Iconsmith
