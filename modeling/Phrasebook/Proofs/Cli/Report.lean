/-
  Phrasebook.Proofs.Cli.Report
  ────────────────────────────────
  **REPORTS FIND THE ERRORS AGAIN.**

  A report of a syntax error is made from the text and from the line and the
  column of the error only.  The byte that it points at is the one behind those
  that had been consumed when the error was raised:

      Raised               —  where an error was raised
      salvageFrom_raised   —  every error has such a place, by induction on
                              the budget
      reports_find_errors  —  reports lead back there
-/
import Phrasebook.Cli.Outcome
import Phrasebook.Proofs.Resource.Agreement

namespace Phrasebook

namespace Resource

open Phrasebook.Parser

/-! ## §1. Where errors are raised. -/

/-- The reader of an entry raised the error when it had consumed the source up
to `rest`. -/
structure Raised (source : String) (e : SyntaxError) (consumed rest : List Char) : Prop where
  text : source.toList = consumed ++ rest
  reader : ∃ start, start <:+ source.toList ∧ entry start = .fail e.expected rest
  located : e = .locate source.toList e.expected rest

theorem Raised.position_eq {source : String} {e : SyntaxError} {consumed rest : List Char}
    (h : Raised source e consumed rest) : e.position = .after consumed := by
  rw [h.located, h.text, locate_append]

/-- A reader that fails in the source raises an error there. -/
theorem exists_raised {source : String} {start rest : List Char} {x : Expected}
    (hstart : start <:+ source.toList) (h : entry start = .fail x rest) :
    ∃ consumed, Raised source (.locate source.toList x rest) consumed rest := by
  have hsuffix := entry_suffix start
  rw [h] at hsuffix
  have hrest : rest <:+ start := hsuffix
  obtain ⟨consumed, htext⟩ := hrest.trans hstart
  exact ⟨consumed, htext.symm, ⟨start, hstart, h⟩, rfl⟩

theorem salvageFrom_raised (source : String) (budget : List Char) : ∀ start : List Char,
    start <:+ source.toList → ∀ e ∈ (salvageFrom source.toList budget start).errors,
      ∃ consumed rest, Raised source e consumed rest := by
  induction budget with
  | nil =>
    intro start _ e he
    cases start <;> exact absurd he List.not_mem_nil
  | cons b budget ih =>
    intro start hstart e he
    by_cases hne : start = []
    · subst hne
      exact absurd he List.not_mem_nil
    · cases h : entry start with
      | ok e' r =>
        -- reading goes on behind the entry
        have hr : r <:+ start := entry_closes.suffix_ok h
        rw [salvageFrom_ok _ hne h] at he
        exact ih (dropBlank r) (((List.dropWhile_suffix _).trans hr).trans hstart) e he
      | fail x r =>
        rw [salvageFrom_fail _ hne h (rfl : splitJunk start r = (_, _))] at he
        rcases List.mem_cons.1 he with rfl | he
        · obtain ⟨consumed, hraised⟩ := exists_raised hstart h
          exact ⟨consumed, r, hraised⟩
        · -- and behind the junk, which takes the text up to some character
          have hresume : (splitJunk start r).2 <:+ start :=
            (List.dropWhile_suffix _).trans (List.drop_suffix _ _)
          exact ih _ (((List.dropWhile_suffix _).trans hresume).trans hstart) e he

/-- Every error that is reported was raised somewhere in the source. -/
theorem raised_of_reported {source : String} {e : SyntaxError}
    (h : read source = .error e ∨ e ∈ (salvage source).errors) :
    ∃ consumed rest, Raised source e consumed rest := by
  have hmem : e ∈ (salvage source).errors := by
    rcases h with hread | hmem
    · rcases read_cases source with ⟨es, hok, -⟩ | ⟨e', herror, hfirst⟩
      · rw [hread] at hok
        exact nomatch hok
      · rw [hread] at herror
        obtain rfl := Except.error.inj herror
        exact List.mem_of_mem_head? hfirst
    · exact hmem
  exact salvageFrom_raised source source.toList _ (List.dropWhile_suffix _) e hmem

end Resource

namespace Cli

open Phrasebook.Resource

/-! ## §2. Reports. -/

section

variable {source : String} {e : SyntaxError} {consumed rest : List Char}

theorem offset_of_raised (h : Raised source e consumed rest) :
    e.position.offset source.toList = byteLength consumed := by
  rw [h.position_eq, h.text, Position.offset_after]

/-- A report points at the byte behind those that had been consumed. -/
theorem Report.span_ofError (h : Raised source e consumed rest) (file : String) :
    (Report.ofError file source e).span = ⟨byteLength consumed, 1⟩ := by
  have hoffset := offset_of_raised h
  show Span.mk (e.position.offset source.toList) 1 = _
  rw [hoffset]

/-- That byte is in the line and the column of the error. -/
theorem Report.position_ofError (h : Raised source e consumed rest) (file : String) :
    (Report.ofError file source e).position = e.position := by
  have hspan := Report.span_ofError h file
  unfold Report.position
  show Position.ofOffset (Report.ofError file source e).span.offset source.toList = _
  rw [hspan, h.position_eq, h.text]
  exact Position.ofOffset_byteLength consumed rest

/-- There is help for an error at the end of the source only. -/
theorem Report.help_ofError (h : Raised source e consumed rest) (file : String) :
    (Report.ofError file source e).help
      = if rest = [] then some "the resource ended early" else none := by
  have hoffset := offset_of_raised h
  have hend : byteLength consumed = byteLength source.toList ↔ rest = [] := by
    rw [h.text, byteLength_append]
    constructor
    · intro hbytes
      by_contra hne
      have hpos := byteLength_pos hne
      omega
    · rintro rfl
      rfl
  unfold Report.ofError
  dsimp only
  rw [hoffset]
  simp only [hend]

end

/-- **Reports find the errors again.**  Every error that is reported was raised
somewhere in the source.  Its line and column reach as many bytes as had been
consumed there, which is never past the end.  A report of it points there, and
so leads back to the line and the column; there is help for errors at the end
and for no others.  Two errors share a line and a column only if they were
raised at one place. -/
theorem reports_find_errors (source : String) :
    (∀ e, read source = .error e ∨ e ∈ (salvage source).errors →
      ∃ consumed rest, Raised source e consumed rest)
      ∧ (∀ e consumed rest, Raised source e consumed rest →
        e.position.reach source.toList = byteLength consumed
          ∧ byteLength consumed ≤ byteLength source.toList
          ∧ e.position.offset source.toList = byteLength consumed
          ∧ ∀ file, (Report.ofError file source e).span = ⟨byteLength consumed, 1⟩
            ∧ (Report.ofError file source e).position = e.position
            ∧ (Report.ofError file source e).help
              = if rest = [] then some "the resource ended early" else none)
      ∧ ∀ e e' consumed consumed' rest rest', Raised source e consumed rest →
        Raised source e' consumed' rest' →
          (e.position = e'.position ↔ consumed = consumed') := by
  refine ⟨fun e => raised_of_reported, fun e consumed rest h => ?_, ?_⟩
  · have hreach : e.position.reach source.toList = byteLength consumed := by
      rw [h.position_eq, h.text, Position.reach_after]
    have hle : byteLength consumed ≤ byteLength source.toList := by
      rw [h.text, byteLength_append]
      exact Nat.le_add_right _ _
    -- the reach is within the source, so it is not cut off
    refine ⟨hreach, hle, ?_, fun file => ?_⟩
    · rw [Position.offset_eq_min, hreach]
      exact Nat.min_eq_left hle
    · exact ⟨Report.span_ofError h file, Report.position_ofError h file, Report.help_ofError h file⟩
  · intro e e' consumed consumed' rest rest' h h'
    rw [h.position_eq, h'.position_eq]
    have hin : consumed <+: source.toList := ⟨rest, h.text.symm⟩
    have hin' : consumed' <+: source.toList := ⟨rest', h'.text.symm⟩
    exact ⟨Position.after_injective hin hin', congrArg Position.after⟩

/-- Columns count bytes, and a carriage return is one of them. -/
example :
    let source := "/*é*/\r\n<a \r"
    (salvage source).errors.map (fun e => (e.position, e.position.offset source.toList))
      = [(⟨2, 5⟩, 12)] := by
  decide +kernel

end Cli

end Phrasebook
