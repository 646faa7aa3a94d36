/-
  Phrasebook.Proofs.Load.Always
  ────────────────────────────────
  **WHAT HOLDS HOWEVER READS ARE ANSWERED.**

  `Always P errand` says that every result of an errand has the property `P`,
  whatever is read on the way; it then has it in every run and at the end of
  every course.  Whatever is loaded has been read from some text, so it can be
  defined:

      Always.bind, Always.forEach   —  errands one after the other
      Always.run, Always.course     —  what it says of runs and courses
      Loader.load_holds, Loader.load_definable
                                    —  of all resources, by induction on how
                                       deep they import one another
-/
import Phrasebook.Load.Schedule
import Phrasebook.Proofs.Entry.Definable

namespace Phrasebook

namespace Errand

variable {α β : Type}

/-! ## §1. Errands. -/

/-- Every result of the errand has the property. -/
def Always (P : α → Prop) : Errand α → Prop
  | .done a => P a
  | .read _ next => ∀ answer, Always P (next answer)
  | .announce _ next => Always P next

namespace Always

variable {P : α → Prop} {Q : β → Prop}

theorem trivial (e : Errand α) : e.Always fun _ => True := by
  induction e with
  | done a => exact True.intro
  | read path next ih => exact ih
  | announce event next ih => exact ih

theorem mono {P' : α → Prop} {e : Errand α} (he : e.Always P) (h : ∀ a, P a → P' a) :
    e.Always P' := by
  induction e with
  | done a => exact h a he
  | read path next ih => exact fun answer => ih answer (he answer)
  | announce event next ih => exact ih he

theorem bind {e : Errand α} {f : α → Errand β} (he : e.Always P)
    (hf : ∀ a, P a → (f a).Always Q) : (e >>= f).Always Q := by
  induction e with
  | done a => exact hf a he
  | read path next ih => exact fun answer => ih answer (he answer)
  | announce event next ih => exact ih he

theorem forEach {f : α → Errand β} (hf : ∀ a, (f a).Always Q) (as : List α) :
    (Errand.forEach f as).Always fun bs => ∀ b ∈ bs, Q b := by
  induction as with
  | nil => exact fun b hb => absurd hb List.not_mem_nil
  | cons a as ih =>
    refine bind (hf a) fun b hb => bind ih fun bs hbs => ?_
    intro b' hb'
    rcases List.mem_cons.1 hb' with rfl | hb'
    · exact hb
    · exact hbs b' hb'

theorem run {e : Errand α} (he : e.Always P) (answers : String → Reading) :
    P (e.run answers).1 := by
  induction e with
  | done a => exact he
  | read path next ih => exact ih _ (he _)
  | announce event next ih => exact ih he

theorem course {e : Errand α} (he : e.Always P) (answers : String → Reading) (pace : Pace)
    (wakings : List Nat) : ∀ a ∈ (e.course answers pace wakings).result, P a := by
  induction e generalizing wakings with
  | done a =>
    intro b hb
    obtain rfl := Option.some.inj hb
    exact he
  | announce event next ih =>
    intro a ha
    rw [Errand.course, Course.noting_result] at ha
    exact ih he wakings a ha
  | read path next ih =>
    intro a ha
    -- a load that breaks off has no result, and every other one reads on
    have hreading : ∀ wakings, a ∈ (if pace.breaksOff path then Course.ending wakings none
        else ((next (answers path)).course answers pace wakings).noting (.read path)).result →
        P a := by
      intro wakings hread
      split at hread
      · exact nomatch hread
      · rw [Course.noting_result] at hread
        exact ih _ (he _) wakings a hread
    rw [Errand.course] at ha
    cases hw : pace.wait path with
    | none =>
      rw [hw] at ha
      exact hreading _ ha
    | some duration =>
      rw [hw] at ha
      exact hreading _ ha

end Always

end Errand

/-! ## §2. Loads. -/

namespace Loader

/-- Every entry that was loaded has the property. -/
def Loaded.Holds (P : Entry → Prop) (l : Loaded) : Prop :=
  ∀ entries, l = .ok entries → ∀ e ∈ entries, P e

/-- Everything that was loaded can be defined. -/
def Loaded.Definable (l : Loaded) : Prop :=
  ∀ entries, l = .ok entries → ∀ e ∈ entries, e.Definable

section

variable {P : Entry → Prop}

theorem Loaded.holds_error (failure : LoadFailure) : Loaded.Holds P (.error failure) :=
  fun _ h => nomatch h

theorem expand_holds {load : String → Errand Loaded}
    (hload : ∀ uri, (load uri).Always (Loaded.Holds P)) (around : List String)
    {entries : List Entry} (h : ∀ e ∈ entries, P e) :
    (expand load around entries).Always fun es => ∀ e ∈ es, P e := by
  induction entries with
  | nil => exact fun e he => absurd he List.not_mem_nil
  | cons entry entries ih =>
    have hlater := ih fun e he => h e (List.mem_cons_of_mem _ he)
    -- an entry that is not an import is kept
    have hkept : (do
        let later ← expand load around entries
        pure (entry :: later) : Errand (List Entry)).Always fun es => ∀ e ∈ es, P e := by
      refine .bind hlater fun later hl => ?_
      intro e he
      rcases List.mem_cons.1 he with rfl | he
      · exact h e List.mem_cons_self
      · exact hl e he
    cases entry with
    | entity _ | macroDef _ | comment _ | junk _ => exact hkept
    | importing uri =>
      -- an import gives way to what it imports, or to nothing if that fails
      have hafter : ∀ rest : Loaded → Errand (List Entry),
          (∀ found, rest (.ok found)
            = expand load around entries >>= fun es => pure (found ++ es)) →
          (∀ failure, rest (.error failure) = expand load around entries >>= pure) →
          ∀ imported : Loaded, imported.Holds P →
            (rest imported).Always fun es => ∀ e ∈ es, P e := by
        intro rest hok herror imported hi
        cases imported with
        | error failure =>
          rw [herror]
          exact .bind hlater fun later hl => hl
        | ok found =>
          rw [hok]
          refine .bind hlater fun later hl e he => ?_
          rcases List.mem_append.1 he with he | he
          · exact hi found rfl e he
          · exact hl e he
      have hnothing : Loaded.Holds P (.ok []) := by
        intro es hes e he
        obtain rfl := Except.ok.inj hes
        exact absurd he List.not_mem_nil
      rw [expand]
      -- an import of a resource that is being loaded brings nothing
      split
      · exact .bind (P := Loaded.Holds P) hnothing (hafter _ (fun _ => rfl) fun _ => rfl)
      · exact .bind (hload uri) (hafter _ (fun _ => rfl) fun _ => rfl)

theorem loadWithin_holds (hP : ∀ source, ∀ e ∈ (Resource.salvage source).entries, P e)
    (loader : Loader) (depth : Nat) :
    ∀ around uri, (loader.loadWithin depth around uri).Always (Loaded.Holds P) := by
  induction depth with
  | zero => exact fun around uri => Loaded.holds_error _
  | succ depth ih =>
    intro around uri
    unfold loadWithin
    split
    · exact Loaded.holds_error _
    · refine .bind (.trivial _) fun text _ => ?_
      split
      · exact Loaded.holds_error _
      · next text =>
        refine .bind (.trivial _) fun _ _ => ?_
        refine .bind (expand_holds (ih _) _ (hP text)) fun entries he => ?_
        intro es hes
        obtain rfl := Except.ok.inj hes
        exact he

/-- What holds of all that can be read holds of all that is loaded. -/
theorem load_holds (hP : ∀ source, ∀ e ∈ (Resource.salvage source).entries, P e)
    (loader : Loader) (uri : String) : (loader.load uri).Always (Loaded.Holds P) :=
  loadWithin_holds hP loader _ _ uri

end

/-- Whatever is loaded can be defined. -/
theorem load_definable (loader : Loader) (uri : String) :
    (loader.load uri).Always Loaded.Definable :=
  load_holds Resource.definable_of_salvage loader uri

end Loader

/-! ## §3. Loads that run side by side. -/

/-- What comes of the load of a resource has the property. -/
def Joinable.Holds (P : Entry → Prop) : Joinable → Prop
  | .loaded result => result.Holds P
  | .pending _ course => ∀ result ∈ course.result, Loader.Loaded.Holds P result

/-- What comes of the load of a resource can be defined. -/
def Joinable.Definable : Joinable → Prop
  | .loaded result => Loader.Loaded.Definable result
  | .pending _ course => ∀ result ∈ course.result, Loader.Loaded.Definable result

theorem Joinable.join_holds {P : Entry → Prop} {j : Joinable} (hj : j.Holds P)
    (allowed now : Nat) : (j.join allowed now).1.Holds P := by
  cases j with
  | loaded result => exact hj
  | pending uri course =>
    unfold Joinable.join
    dsimp only
    split
    · cases hr : course.result with
      | none => exact Loader.Loaded.holds_error _
      | some result => exact hj result hr
    · exact Loader.Loaded.holds_error _

theorem joinAll_holds {P : Entry → Prop} {js : List Joinable} (h : ∀ j ∈ js, j.Holds P)
    (allowed now : Nat) : ∀ result ∈ (joinAll allowed now js).1, Loader.Loaded.Holds P result := by
  induction js generalizing now with
  | nil => exact fun result hr => absurd hr List.not_mem_nil
  | cons j js ih =>
    intro result hr
    rcases List.mem_cons.1 hr with rfl | hr
    · exact j.join_holds (h j List.mem_cons_self) allowed now
    · exact ih (fun j hj => h j (List.mem_cons_of_mem _ hj)) _ result hr

theorem joinAll_definable {js : List Joinable} (h : ∀ j ∈ js, j.Definable) (allowed now : Nat) :
    ∀ result ∈ (joinAll allowed now js).1, Loader.Loaded.Definable result := by
  refine joinAll_holds (fun j hj => ?_) allowed now
  cases j with
  | loaded result => exact h _ hj
  | pending uri course => exact h _ hj

end Phrasebook
