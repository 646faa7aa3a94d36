/-
  Phrasebook.Load.Failure
  ────────────────────────────────
  **WHY A RESOURCE IS LEFT OUT.**

      ReadError    —  why there is no text at a path
      FetchError   —  why there is no text for a URI
      LoadFailure  —  why a resource is missing from a context

  A failed load never fails the context: it is recorded there, and the other
  resources are used without it.
-/
import Phrasebook.Number.Duration
import Phrasebook.Reference

namespace Phrasebook

/-- Why there is no text at a path. -/
inductive ReadError where
  /-- Nothing is there. -/
  | missing
  /-- Something is there that cannot be read as text. -/
  | failed (reason : String)
  deriving Repr, DecidableEq

/-- Why there is no text for a URI. -/
inductive FetchError where
  | notFound (uri : String)
  | unreadable (path reason : String)
  deriving Repr, DecidableEq

/-- The wording of the error. -/
def FetchError.message : FetchError → String
  | notFound uri => "resource not found: '" ++ uri ++ "'"
  | unreadable path reason => "failed to read '" ++ path ++ "': " ++ reason

/-- Why a resource could not be loaded. -/
inductive LoadFailure where
  | malformed (e : MalformedReference)
  /-- No candidate could be fetched; the last one failed like this. -/
  | unfetched (uri : String) (last : FetchError)
  /-- The load was not done in time; the time allowed is in milliseconds. -/
  | timedOut (uri : String) (allowed : Nat)
  /-- The load ended without a result. -/
  | aborted (uri : String)
  deriving Repr, DecidableEq

/-- The wording of the failure. -/
def LoadFailure.message : LoadFailure → String
  | malformed e => e.message
  | unfetched uri last => "could not fetch '" ++ uri ++ "': " ++ last.message
  | timedOut uri allowed =>
    "loading '" ++ uri ++ "' timed out after " ++ durationText allowed
  | aborted uri => "loading '" ++ uri ++ "' was aborted"

end Phrasebook
