/-
  Phrasebook.Load.Loader
  ────────────────────────────────
  **LOADING A RESOURCE.**

  The candidates of a reference are fetched in order, up to the first that
  has a text.  The text is read with recovery, its errors are announced, and
  each import in it is replaced, in place, by the entries of the resource it
  names.  An import is left out if loading it fails, or if it is already
  being loaded around it, so that cycles end.
-/
import Phrasebook.Load.Errand

namespace Phrasebook

/-- How resources of one locale are loaded. -/
structure Loader where
  /-- The path of the text of a URI. -/
  path : String → String
  /-- More resources than can import one another in a row. -/
  depth : Nat
  locale : Option String
  schemes : List String

namespace Loader

variable (loader : Loader)

/-! ## §1. Fetching a text. -/

/-- Fetch the text of a URI. -/
def fetch (uri : String) : Errand (Except FetchError String) :=
  let path := loader.path uri
  .read path fun
    | .ok text => .done (.ok text)
    | .error .missing => .done (.error (.notFound uri))
    | .error (.failed reason) => .done (.error (.unreadable path reason))

/-- Fetch the first of several URIs that has a text.  If none has, the last
failure counts, or `failure` if there are no URIs. -/
def fetchFirst (failure : FetchError) : List String → Errand (Except FetchError String)
  | [] => pure (.error failure)
  | uri :: uris => do
    match ← loader.fetch uri with
    | .ok text => pure (.ok text)
    | .error e => fetchFirst e uris

/-! ## §2. Imports. -/

/-- What comes of a load. -/
abbrev Loaded : Type := Except LoadFailure (List Entry)

/-- Replace imports by what they name.  `around` are the resources that are
being loaded; an import of one of them is left out. -/
def expand (load : String → Errand Loaded) (around : List String) :
    List Entry → Errand (List Entry)
  | [] => pure []
  | .importing uri :: entries => do
    let imported ← if uri ∈ around then pure (.ok []) else load uri
    let later ← expand load around entries
    match imported with
    | .ok found => pure (found ++ later)
    | .error _ => pure later
  | entry :: entries => do
    let later ← expand load around entries
    pure (entry :: later)

/-- Load a resource inside of others, at most `depth` of them in a row. -/
def loadWithin : (depth : Nat) → (around : List String) → (uri : String) → Errand Loaded
  | 0, _, uri => pure (.error (.aborted uri))
  | depth + 1, around, uri =>
    match resolve uri loader.locale loader.schemes with
    | .error e => pure (.error (.malformed e))
    | .ok candidates => do
      match ← loader.fetchFirst (.notFound uri) candidates with
      | .error e => pure (.error (.unfetched uri e))
      | .ok text =>
        let salvage := Resource.salvage text
        Errand.reportAll salvage.errors
        let inside := uri :: around
        let entries ← expand (loadWithin depth inside) inside salvage.entries
        pure (.ok entries)

/-- Load a resource. -/
def load (uri : String) : Errand Loaded :=
  loader.loadWithin loader.depth [] uri

end Loader

end Phrasebook
