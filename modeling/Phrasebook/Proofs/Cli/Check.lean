/-
  Phrasebook.Proofs.Cli.Check
  ────────────────────────────────
  **THE VERDICTS OF A CHECK ARE STRICT.**

  A check reads its files with recovery only, yet what it says of them is what
  strict reading says: its verdicts, its counts, its first errors, and its exit
  code:

      AccountsFor        —  the errors to report of a text
      Judged             —  a file, and what strict reading says of it
      Report.Shows       —  a report shows an error in a file
      Judged.Reported    —  the reports that have to be made of a file
      verdict_checked, document_checked, reported
                         —  a check says the same of one file
      readAll_readable, readAll_unreadable
                         —  the files are read, by induction on them
      checks_are_strict  —  what comes of a check, in both modes
-/
import Phrasebook.Cli.Program
import Phrasebook.Proofs.Cli.Report

namespace Phrasebook

namespace Cli

open Phrasebook.Resource

/-! ## §1. What has to be reported of a text. -/

/-- The errors account for what strict reading makes of the text. -/
structure AccountsFor (text : String) (errors : List SyntaxError) : Prop where
  none_iff : errors = [] ↔ ∃ entries, read text = .ok entries
  /-- The first error is that of strict reading. -/
  first : ∀ e, read text = .error e → errors.head? = some e
  length : errors.length = (salvage text).entries.countP isJunk

theorem salvage_accounts (text : String) : AccountsFor text (salvage text).errors where
  none_iff := by
    rcases read_cases text with ⟨es, hread, hsalvage⟩ | ⟨e, hread, hfirst⟩
    · rw [hsalvage]
      exact iff_of_true rfl ⟨es, hread⟩
    · refine iff_of_false (fun hnone => ?_) fun ⟨es, hok⟩ => ?_
      · rw [hnone] at hfirst
        exact nomatch hfirst
      · rw [hread] at hok
        exact nomatch hok
  first := by
    intro e he
    rcases read_cases text with ⟨es, hread, -⟩ | ⟨e', hread, hfirst⟩
    · rw [he] at hread
      exact nomatch hread
    · rw [he] at hread
      obtain rfl := Except.error.inj hread
      exact hfirst
  length := salvage_errors_length text

end Cli

/-- Is the entry an entity? -/
def Entry.isEntity : Entry → Bool
  | .entity _ => true
  | .macroDef _ | .importing _ | .comment _ | .junk _ => false

/-- Is the entry a macro? -/
def Entry.isMacro : Entry → Bool
  | .macroDef _ => true
  | .entity _ | .importing _ | .comment _ | .junk _ => false

namespace Cli

open Phrasebook.Resource

/-- A file that can be read. -/
structure Judged where
  file : String
  text : String

namespace Judged

/-- The errors that are reported of the file. -/
def errors (j : Judged) : List SyntaxError :=
  (salvage j.text).errors

/-- The entries of strict reading; if that fails, those of a reading with
recovery. -/
def entries (j : Judged) : List Entry :=
  match read j.text with
  | .ok entries => entries
  | .error _ => (salvage j.text).entries

/-- The verdict as a line. -/
def line (j : Judged) : String :=
  match read j.text with
  | .ok entries =>
    Colour.green.paint "ok" ++ " " ++ j.file ++ " (" ++ integerText (entries.countP Entry.isEntity)
      ++ " entities, " ++ integerText (entries.countP Entry.isMacro) ++ " macros)"
  | .error _ =>
    Colour.red.paint "error" ++ " " ++ j.file ++ " (" ++ integerText j.errors.length ++ " errors)"

/-- The verdict as a document. -/
def document (j : Judged) : Json.Document :=
  .object
    [("file", .text j.file), ("entities", .natural (j.entries.countP Entry.isEntity)),
     ("macros", .natural (j.entries.countP Entry.isMacro)),
     ("errors", .list (j.errors.map fun e => .object
      [("line", .natural e.position.line), ("column", .natural e.position.column),
       ("message", .text e.complaint)]))]

end Judged

/-- The report shows the error in the file: it has the message, the line and
the column of the error, and points at the byte where it was raised. -/
structure Report.Shows (r : Report) (j : Judged) (e : SyntaxError) : Prop where
  file : r.file = j.file
  text : r.text = j.text
  message : r.message = "syntax error: " ++ e.complaint
  position : r.position = e.position
  place : r.place
    = j.file ++ ":" ++ integerText e.position.line ++ ":" ++ integerText e.position.column
  raised : ∃ consumed rest, Raised j.text e consumed rest ∧ r.span = ⟨byteLength consumed, 1⟩
    ∧ r.help = if rest = [] then some "the resource ended early" else none
  /-- All of this is written. -/
  written : (Complaint.report r).text
    = r.place ++ ": " ++ r.message ++ r.help.elim "" fun help => " (" ++ help ++ ")"

theorem Complaint.text_report (r : Report) : (Complaint.report r).text
    = r.place ++ ": " ++ r.message ++ r.help.elim "" fun help => " (" ++ help ++ ")" := by
  obtain ⟨file, text, span, complaint, help⟩ := r
  cases help <;> rfl

namespace Judged

/-- The reports of a file are those that have to be made: none if strict
reading succeeds; else the first of them shows its error, and there is one for
each piece of junk. -/
structure Reported (j : Judged) (reports : List Report) : Prop where
  none_iff : reports = [] ↔ ∃ entries, read j.text = .ok entries
  first : ∀ e, read j.text = .error e → ∃ r, reports.head? = some r ∧ r.Shows j e
  length : reports.length = (salvage j.text).entries.countP isJunk
  /-- All of them show the errors of the file, in order. -/
  shows : List.Forall₂ (fun r e => r.Shows j e) reports j.errors

/-! ## §2. One file. -/

/-- The file as a check has it, read with recovery. -/
def checked (j : Judged) : Checked :=
  ⟨j.file, j.text, salvage j.text⟩

variable (j : Judged)

theorem entries_eq : j.entries = (salvage j.text).entries := by
  unfold entries
  rcases read_cases j.text with ⟨es, hread, hsalvage⟩ | ⟨e, hread, -⟩
  · rw [hread, hsalvage]
  · rw [hread]

theorem entityCount_checked : j.checked.entityCount = j.entries.countP Entry.isEntity := by
  rw [entries_eq]
  unfold Checked.entityCount
  refine List.countP_congr fun e _ => ?_
  cases e <;> exact Iff.rfl

theorem macroCount_checked : j.checked.macroCount = j.entries.countP Entry.isMacro := by
  rw [entries_eq]
  unfold Checked.macroCount
  refine List.countP_congr fun e _ => ?_
  cases e <;> exact Iff.rfl

/-- There is junk in a file if strict reading of it fails. -/
theorem hasJunk_checked : j.checked.hasJunk = true ↔ ∃ e, read j.text = .error e := by
  have haccounts := salvage_accounts j.text
  have hjunk : j.checked.hasJunk = true ↔ 0 < (salvage j.text).entries.countP isJunk := by
    unfold Checked.hasJunk
    rw [List.any_eq_true, List.countP_pos_iff]
    refine exists_congr fun e => and_congr_right fun _ => ?_
    cases e <;> exact Iff.rfl
  rw [hjunk, ← haccounts.length, List.length_pos_iff, Ne, haccounts.none_iff]
  cases read j.text with
  | ok es => exact iff_of_false (fun h => h ⟨es, rfl⟩) nofun
  | error e => exact iff_of_true nofun ⟨e, rfl⟩

/-- The verdict on a file is that of strict reading. -/
theorem verdict_checked : j.checked.verdict = j.line := by
  have haccounts := salvage_accounts j.text
  have hentries : ∀ es, read j.text = .ok es → j.entries = es := by
    intro es hread
    unfold entries
    rw [hread]
  unfold Checked.verdict line
  rw [entityCount_checked, macroCount_checked]
  cases hread : read j.text with
  | ok es =>
    have hnone : j.checked.salvage.errors = [] := haccounts.none_iff.2 ⟨es, hread⟩
    rw [hnone, hentries es hread]
    rfl
  | error e =>
    have hsome : j.checked.salvage.errors.isEmpty = false := by
      rw [List.isEmpty_eq_false_iff]
      intro hnone
      obtain ⟨es, hok⟩ := haccounts.none_iff.1 hnone
      rw [hread] at hok
      exact nomatch hok
    rw [hsome]
    rfl

theorem document_checked : j.checked.document = j.document := by
  unfold Checked.document document
  rw [entityCount_checked, macroCount_checked]
  rfl

/-- The reports of the errors of a file. -/
def reports : List Report :=
  j.errors.map (Report.ofError j.file j.text)

theorem reports_checked : j.checked.reports = j.reports.map Complaint.report := by
  unfold reports
  rw [List.map_map]
  rfl

variable {j}

/-- The report of an error shows it. -/
theorem shows_ofError {e : SyntaxError} (he : e ∈ j.errors) :
    (Report.ofError j.file j.text e).Shows j e := by
  obtain ⟨consumed, rest, hraised⟩ := raised_of_reported (.inr he)
  have hposition := Report.position_ofError hraised j.file
  refine ⟨rfl, rfl, rfl, hposition, ?_, ⟨consumed, rest, hraised,
    Report.span_ofError hraised j.file, Report.help_ofError hraised j.file⟩,
    Complaint.text_report _⟩
  unfold Report.place
  rw [hposition]
  rfl

variable (j)

/-- The reports of a file are those that have to be made. -/
theorem reported : j.Reported j.reports := by
  have haccounts := salvage_accounts j.text
  refine ⟨List.map_eq_nil_iff.trans haccounts.none_iff, fun e he => ?_,
    (List.length_map _).trans haccounts.length, ?_⟩
  · have hfirst : j.errors.head? = some e := haccounts.first e he
    have hmem : e ∈ j.errors := List.mem_of_mem_head? hfirst
    refine ⟨_, ?_, shows_ofError hmem⟩
    unfold reports
    rw [List.head?_map, hfirst]
    rfl
  · exact List.forall₂_map_left_iff.2 (List.forall₂_same.2 fun e he => shows_ofError he)

end Judged

/-- A line says `ok` in front if strict reading succeeds, and else it does
not. -/
theorem Judged.line_ok_iff (j : Judged) :
    (Colour.green.paint "ok").toList <+: j.line.toList ↔ ∃ entries, read j.text = .ok entries := by
  unfold line
  cases h : read j.text with
  | ok entries =>
    refine iff_of_true ?_ ⟨entries, rfl⟩
    simp only [String.toList_append, List.append_assoc]
    exact List.prefix_append _ _
  | error e =>
    refine iff_of_false (fun ⟨rest, hline⟩ => ?_) nofun
    -- the two colours differ in their fourth character
    have hgreen : (Colour.green.paint "ok").toList.take 4 = ['\x1b', '[', '3', '2'] := by decide
    have hred : (Colour.red.paint "error").toList.take 4 = ['\x1b', '[', '3', '1'] := by decide
    have htake := congrArg (List.take 4) hline
    simp only [String.toList_append, List.append_assoc] at htake
    rw [List.take_append_of_le_length (by decide), List.take_append_of_le_length (by decide),
        hgreen, hred] at htake
    exact absurd htake (by decide)

/-! ## §3. All files. -/

section

variable {answers : String → Reading} {file text : String} {files : List String}

theorem readAll_cons_ok (h : answers file = .ok text) (files : List String) :
    ((readAll (file :: files)).run answers).1
      = ((Judged.mk file text).checked :: ((readAll files).run answers).1.1,
        ((readAll files).run answers).1.2) := by
  have hlater := Errand.run_bind answers (readAll files) fun r =>
    pure ((Judged.mk file text).checked :: r.1, r.2)
  rw [readAll, Errand.run, h]
  exact congrArg Prod.fst hlater

theorem readAll_cons_error {e : ReadError} (h : answers file = .error e) (files : List String) :
    ((readAll (file :: files)).run answers).1 = ([], some (.unreadableFile file e)) := by
  rw [readAll, Errand.run, h]
  rfl

/-- Files that can be read are all read. -/
theorem readAll_readable (h : ∀ file ∈ files, ∃ text, answers file = .ok text) :
    ∃ judged : List Judged, judged.map Judged.file = files
      ∧ (∀ j ∈ judged, answers j.file = .ok j.text)
      ∧ ((readAll files).run answers).1 = (judged.map Judged.checked, none) := by
  induction files with
  | nil => exact ⟨[], rfl, nofun, rfl⟩
  | cons file files ih =>
    obtain ⟨text, htext⟩ := h file List.mem_cons_self
    obtain ⟨judged, hfiles, hanswers, hrun⟩ := ih fun f hf => h f (List.mem_cons_of_mem _ hf)
    refine ⟨⟨file, text⟩ :: judged, ?_, List.forall_mem_cons.2 ⟨htext, hanswers⟩, ?_⟩
    · rw [List.map_cons, hfiles]
    · rw [readAll_cons_ok htext, hrun]
      rfl

/-- One file that cannot be read is fatal. -/
theorem readAll_unreadable (h : ∃ file ∈ files, ∃ e, answers file = .error e) :
    ∃ fatal, ((readAll files).run answers).1.2 = some fatal := by
  induction files with
  | nil =>
    obtain ⟨file, hfile, -⟩ := h
    exact absurd hfile List.not_mem_nil
  | cons first files ih =>
    cases hfirst : answers first with
    | error e => exact ⟨_, by rw [readAll_cons_error hfirst]⟩
    | ok text =>
      -- the first file is not the one, so it is one of the others
      rw [readAll_cons_ok hfirst]
      refine ih ?_
      obtain ⟨file, hfile, e, he⟩ := h
      rcases List.mem_cons.1 hfile with rfl | hfile
      · rw [hfirst] at he
        exact nomatch he
      · exact ⟨file, hfile, e, he⟩

end

/-- What comes of files that have all been read. -/
theorem checkOutcome_checked (json : Bool) (judged : List Judged) :
    checkOutcome json (judged.map Judged.checked) none
      = { code := if judged.any (fun j => j.checked.hasJunk) then dataFault else success
          output :=
            if json then [(Json.Document.list (judged.map Judged.document)).write]
            else judged.map Judged.line
          complaints :=
            if json then [] else (judged.map Judged.reports).flatten.map Complaint.report } := by
  have hdocuments : Checked.document ∘ Judged.checked = Judged.document :=
    funext Judged.document_checked
  have hlines : Checked.verdict ∘ Judged.checked = Judged.line := funext Judged.verdict_checked
  have hreports : (judged.map Judged.checked).flatMap Checked.reports
      = (judged.map Judged.reports).flatten.map Complaint.report := by
    rw [List.flatMap_map, List.map_flatten, List.map_map, List.flatMap_def]
    exact congrArg List.flatten (List.map_congr_left fun j _ => j.reports_checked)
  unfold checkOutcome
  dsimp only
  rw [List.map_map, hdocuments, List.map_map, hlines, List.any_map, hreports]
  cases json <;> rfl

theorem run_check (answers : String → Reading) (importDepth : Nat) (files : List String)
    (json : Bool) :
    (((Command.check files json).run importDepth).run answers).1
      = checkOutcome json ((readAll files).run answers).1.1 ((readAll files).run answers).1.2 := by
  unfold Command.run runCheck
  dsimp only
  rw [Errand.bind_eq, Errand.run_bind]
  rfl

/-- **A check is strict.**  If all files can be read, each of them is judged by
what strict reading says of it, as a line or as a document; the exit code is 65
if strict reading fails for one of them, and 0 otherwise.  If one cannot be
read, the exit code is 70.  The errors that are reported of a file are none if
strict reading succeeds; else the first of them is its error, and there is one
for each piece of junk.  A document has their lines, columns and messages; with
lines, each of them has a report that shows it. -/
theorem checks_are_strict (answers : String → Reading) (importDepth : Nat) (files : List String)
    (json : Bool) :
    let outcome := (((Command.check files json).run importDepth).run answers).1
    ((∀ file ∈ files, ∃ text, answers file = .ok text) →
      ∃ judged : List Judged, judged.map Judged.file = files
        ∧ (∀ j ∈ judged, answers j.file = .ok j.text)
        ∧ ((∃ j ∈ judged, ∃ e, read j.text = .error e) → outcome.code = 65)
        ∧ ((∀ j ∈ judged, ∃ entries, read j.text = .ok entries) → outcome.code = 0)
        ∧ outcome.output
          = (if json then [(Json.Document.list (judged.map Judged.document)).write]
            else judged.map Judged.line)
        ∧ (json = true → outcome.complaints = [])
        ∧ (json = false → ∃ reports : List (List Report),
          outcome.complaints = reports.flatten.map Complaint.report
            ∧ List.Forall₂ Judged.Reported judged reports))
      ∧ ((∃ file ∈ files, ∃ e, answers file = .error e) → outcome.code = 70)
      ∧ ∀ j : Judged, AccountsFor j.text j.errors
        ∧ ((Colour.green.paint "ok").toList <+: j.line.toList
          ↔ ∃ entries, read j.text = .ok entries) := by
  intro outcome
  have hrun : outcome = _ := run_check answers importDepth files json
  refine ⟨fun hreadable => ?_, fun hunreadable => ?_, fun j => ?_⟩
  · obtain ⟨judged, hfiles, hanswers, hread⟩ := readAll_readable hreadable
    rw [hread, checkOutcome_checked] at hrun
    rw [hrun]
    refine ⟨judged, hfiles, hanswers, fun ⟨j, hj, hfails⟩ => ?_, fun hall => ?_, rfl,
      fun hjson => ?_, fun hjson => ⟨judged.map Judged.reports, ?_, ?_⟩⟩
    · have hany : judged.any (fun j => j.checked.hasJunk) = true :=
        List.any_eq_true.2 ⟨j, hj, j.hasJunk_checked.2 hfails⟩
      exact if_pos hany
    · have hnone : ¬ judged.any (fun j => j.checked.hasJunk) = true := by
        intro hany
        obtain ⟨j, hj, hjunk⟩ := List.any_eq_true.1 hany
        obtain ⟨es, hok⟩ := hall j hj
        obtain ⟨e, hfails⟩ := j.hasJunk_checked.1 hjunk
        rw [hok] at hfails
        exact nomatch hfails
      exact if_neg hnone
    · subst hjson
      rfl
    · subst hjson
      rfl
    · -- file by file, the reports are those that have to be made
      exact List.forall₂_map_right_iff.2 (List.forall₂_same.2 fun j _ => j.reported)
  · obtain ⟨fatal, hfatal⟩ := readAll_unreadable hunreadable
    rw [hrun, hfatal]
    rfl
  · exact ⟨salvage_accounts j.text, j.line_ok_iff⟩

end Cli

end Phrasebook
