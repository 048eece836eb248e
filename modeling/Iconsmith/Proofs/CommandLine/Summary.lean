import Iconsmith.CommandLine.Run
import Iconsmith.Proofs.Batch.Declarations
import Iconsmith.Proofs.Batch.Tallies
import Iconsmith.Proofs.Source.Layouts

/-!
# Summaries of runs

The last line that is shown of a run in which something failed has two numbers in it, that of the
failures and that of the failures and the icons. Failures are not only about files, and a file can have
an icon and a failure, so the numbers are those of the files only if nothing else fails and each icon
is written.
-/

namespace Iconsmith.CommandLine

/-! ### The record -/

/-- The record that some of all files failed. -/
def counts (failed all : Nat) : Log.Record :=
  record .warning s!"{failed} of {all} files failed"

lemma toList_counts (failed all : Nat) : (counts failed all).text.toList
    = Nat.toDigits 10 failed
      ++ ' ' :: ("of ".toList ++ (Nat.toDigits 10 all ++ ' ' :: "files failed".toList)) := by
  simp [counts, record]
  rfl

/-- The record tells both numbers. -/
lemma counts_inj {failed all failed' all' : Nat} :
    counts failed all = counts failed' all' ↔ failed = failed' ∧ all = all' := by
  have hspace (n : Nat) : ' ' ∉ Nat.toDigits 10 n := by
    intro h
    have hdigit := Nat.isDigit_of_mem_toDigits (by decide) (by decide) h
    exact absurd hdigit (by decide)
  constructor
  · intro h
    have htext := congrArg (fun x => x.text.toList) h
    rw [toList_counts, toList_counts] at htext
    obtain ⟨hfailed, hrest⟩ := Source.append_cons_inj (hspace failed) (hspace failed') htext
    have hrest := List.append_cancel_left hrest
    obtain ⟨hall, -⟩ := Source.append_cons_inj (hspace all) (hspace all') hrest
    exact ⟨Naming.Allocator.toDigits_injective hfailed, Naming.Allocator.toDigits_injective hall⟩
  · rintro ⟨rfl, rfl⟩
    rfl

lemma summary_of_ne_nil {r : Batch.Report} (h : r.failures ≠ []) :
    summary r = [counts r.failures.length (r.failures.length + r.artifacts.length)] :=
  if_neg (mt List.eq_nil_of_length_eq_zero h)

/-! ### What is shown -/

/-- The summary is what is shown last, except where only errors are shown. -/
lemma notices_finished {a : Arguments} (hquiet : a.quiet = false) (log : List Log.Record)
    (r : Batch.Report) :
    ∃ before, (a.finished log r).notices = before ++ (summary r).map Log.Record.line := by
  have hlevel : Log.upTo a.level (summary r) = summary r := by
    refine List.filter_eq_self.mpr fun x hx => ?_
    by_cases hfailures : r.failures = []
    · simp [summary, hfailures] at hx
    · rw [summary_of_ne_nil hfailures, List.mem_singleton] at hx
      rw [hx, Arguments.level, hquiet]
      cases a.verbose <;> rfl
  have hshown (printed : String) (records : List Log.Record) :
      (a.outcome 0 printed (records ++ summary r)).notices
        = (Log.upTo a.level records).map Log.Record.line ++ (summary r).map Log.Record.line := by
    change (Log.upTo a.level (records ++ summary r)).map Log.Record.line = _
    rw [Log.upTo, List.filter_append, List.map_append, ← Log.upTo, ← Log.upTo, hlevel]
  cases houtput : a.output with
  | none =>
    rw [Arguments.finished, houtput]
    exact ⟨_, hshown _ _⟩
  | some out =>
    rw [Arguments.finished, houtput]
    exact ⟨_, hshown _ _⟩

/-! ### Runs -/

/-- Where something failed, the summary counts the failures of files, of what could not be listed and of
accessors, and next to it all of these and the files without a failure, where a file counts twice if its
icon could not be written. Those are the numbers of files that failed and of all files exactly if
nothing but files fails and each icon is written. -/
theorem summary_of_run {σ : Type} (write : String → String → StateM σ (Except Failure Unit))
    (normalize : FileView → String → Batch.Normalized) (files : FileView) (words : List String)
    (a : Arguments) (options : Options) (s s' : σ) (log : List Log.Record) (r : Batch.Report)
    (hwords : Request.ofWords? words = some (.run a))
    (hfiles : ∀ root, a.input files = .directory root → files.Lawful)
    (hoptions : a.options files = .ok options)
    (hnormalize : options.inputFormat = .svg → Batch.Blames normalize files)
    (hrun : (Batch.run write normalize files options a.output (a.input files)).run s
      = ((log, .ok r), s')) :
    (runWith write normalize files words).run s = (a.finished log r, s')
    ∧ (a.quiet = false → ∃ before,
      (a.finished log r).notices = before ++ (summary r).map Log.Record.line)
    ∧ (∃ t : Batch.Tally, t.Explains files (a.input files) r
      ∧ t.Stores write options r s s' a.output)
    ∧ (r.failures = [] → summary r = [])
    ∧ (r.failures ≠ [] → ∀ t : Batch.Tally, t.Explains files (a.input files) r →
      summary r = [counts (t.failed + t.others) (t.files.length + t.others + t.unwritten)]
      ∧ (summary r = [counts t.failed t.files.length] ↔ t.others = 0 ∧ t.unwritten = 0)) := by
  refine ⟨?_, fun hquiet => notices_finished hquiet log r,
    Batch.exists_tally hfiles hnormalize hrun,
    fun h => if_pos (congrArg List.length h), fun h t hexplains => ?_⟩
  · have ha : runWith write normalize files words = a.run write normalize files := by
      rw [runWith, hwords]
    rw [ha, Arguments.run, hoptions]
    dsimp only
    rw [StateT.run_bind, hrun]
    rfl
  · have hsummary := summary_of_ne_nil h
    rw [hexplains.length_all, hexplains.length_failures] at hsummary
    refine ⟨hsummary, ?_⟩
    rw [hsummary, List.singleton_inj, counts_inj]
    omega

/-- Arguments to print the icons of two files. -/
def pairArguments : Arguments where
  inputs := ["add.xml", "b.xml"]
  inputFormat := some .drawable

/-- Of two files one is missing. As nothing is written and no directory is listed, the summary has the
numbers of files in it. -/
theorem summary_of_missing_file :
    ∃ log r d', ∃ t : Batch.Tally,
      (run Disk.save Batch.drawableDisk.view ["add.xml", "b.xml", "-t", "xml"]).run
          Batch.drawableDisk = (pairArguments.finished log r, d')
      ∧ t.Explains Batch.drawableDisk.view (.files ["add.xml", "b.xml"]) r
      ∧ t.failed = 1 ∧ t.files.length = 2
      ∧ summary r = [counts t.failed t.files.length] := by
  have hreport : ((Batch.run Disk.save Svg.normalize Batch.drawableDisk.view
      { inputFormat := .drawable } none (.files ["add.xml", "b.xml"])).run
        Batch.drawableDisk).1.2.toOption.map (fun r => (r.failures.length, r.artifacts.length))
      = some (1, 1) := by
    decide +kernel
  obtain ⟨log, r, d', hrun, hlengths⟩ := Batch.exists_report hreport
  obtain ⟨hfailures, hartifacts⟩ := Prod.mk.inj hlengths
  obtain ⟨hfinished, -, ⟨t, hexplains, hstores⟩, -, hcounts⟩ :=
    summary_of_run Disk.save Svg.normalize Batch.drawableDisk.view
      ["add.xml", "b.xml", "-t", "xml"] pairArguments { inputFormat := .drawable } Batch.drawableDisk d'
      log r (by decide +kernel) nofun rfl (fun _ => Batch.blames_normalize Svg.Scene.reader _) hrun
  obtain ⟨hunwritten, hgroups, -⟩ := hstores
  have hunlisted : t.unlisted = [] := by
    refine List.eq_nil_iff_forall_not_mem.mpr fun o ho => ?_
    obtain ⟨⟨root, hroot⟩, -⟩ := hexplains.unlisted o ho
    exact nomatch hroot
  have hothers : t.others = 0 := by
    rw [Batch.Tally.others, hunlisted, hgroups]
    rfl
  have hfailed := hexplains.length_failures
  have hall := hexplains.length_all
  have hsome : r.failures ≠ [] := by
    rintro hnil
    simp [hnil] at hfailures
  refine ⟨log, r, d', t, hfinished, hexplains, by omega, by omega, ?_⟩
  exact (hcounts hsome t hexplains).2.mpr ⟨hothers, hunwritten⟩

/-- A disk with a drawable on it, and with a file where the output should go. -/
def blockedDisk : Disk :=
  ⟨[(["add.xml"], .file Batch.blankText.toUTF8), (["out"], .file .empty)]⟩

/-- Neither the icon of the only file nor the accessor of its group can be written. These are two
failures, and next to the icon they are three. -/
theorem summary_on_blocked_disk :
    ((run Disk.save blockedDisk.view ["add.xml", "-t", "xml", "-o", "out"]).run
        blockedDisk).1.notices.getLast? = some "Warning (in vecgen): 2 of 3 files failed"
      ∧ ∀ (r : Batch.Report) (t : Batch.Tally),
        t.Explains blockedDisk.view (.files ["add.xml"]) r →
          t.files.length = 1 ∧ t.failed ≤ 1 := by
  refine ⟨by decide +kernel, fun r t ht => ?_⟩
  obtain ⟨hsublist, hlocations⟩ := ht.covers
  obtain ⟨x, hx, -⟩ := hlocations "add.xml" (List.mem_singleton_self _)
  have hle := hsublist.length_le
  have hpos := List.length_pos_of_mem hx
  simp only [List.length_map, List.length_singleton] at hle hpos
  have hlength : t.files.length = 1 := by omega
  refine ⟨hlength, ?_⟩
  rw [← hlength]
  exact List.countP_le_length

end Iconsmith.CommandLine
