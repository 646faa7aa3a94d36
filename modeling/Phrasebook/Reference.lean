/-
  Phrasebook.Reference
  ────────────────────────────────
  **REFERENCES TO RESOURCES.**

  A reference `l10n:resource` or `l10n:app:resource` stands for one
  candidate URI per scheme, in the order of the schemes; a scheme is a
  template over `locale`, `app` and `resource`.  Any other URI stands for
  itself.
-/
import Phrasebook.Template

namespace Phrasebook

/-- A reference that is neither `l10n:resource` nor `l10n:app:resource`. -/
structure MalformedReference where
  uri : String
  deriving Repr, DecidableEq

/-- The wording of the error. -/
def MalformedReference.message (e : MalformedReference) : String :=
  "malformed l10n reference: '" ++ e.uri ++ "'"

/-- What a reference names. -/
structure Reference where
  /-- The application; a reference may leave it out. -/
  app : List Char
  resource : List Char
  deriving Repr, DecidableEq

namespace Reference

/-- How a reference starts. -/
def scheme : List Char := ['l', '1', '0', 'n', ':']

/-- Read what follows the scheme: one or two segments, neither of them
empty. -/
def ofSegments? : List (List Char) → Option Reference
  | [resource] => if resource.isEmpty then none else some ⟨[], resource⟩
  | [app, resource] =>
    if app.isEmpty || resource.isEmpty then none else some ⟨app, resource⟩
  | _ => none

/-- The value of a placeholder of a scheme.  Without a locale its placeholder
has none; a missing app is the empty text. -/
def placeholder (r : Reference) (locale : Option String) (name : List Char) :
    Option (List Char) :=
  if name = "locale".toList then locale.map String.toList
  else if name = "app".toList then some r.app
  else if name = "resource".toList then some r.resource
  else none

/-- The candidate URI of a reference by a scheme. -/
def candidate (r : Reference) (locale : Option String) (template : String) : String :=
  String.ofList (Template.fill (r.placeholder locale) template.toList)

end Reference

/-- The candidate URIs of a resource, in the order to try them. -/
def resolve (uri : String) (locale : Option String) (schemes : List String) :
    Except MalformedReference (List String) :=
  match after? Reference.scheme uri.toList with
  | none => .ok [uri]
  | some segments =>
    match Reference.ofSegments? (segments.splitOn ':') with
    | some r => .ok (schemes.map (r.candidate locale))
    | none => .error ⟨uri⟩

end Phrasebook
