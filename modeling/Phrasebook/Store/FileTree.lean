/-
  Phrasebook.Store.FileTree
  ────────────────────────────────
  **TEXTS IN A TREE OF FILES.**

  A path is walked name by name.  Each name but the last must lead to a
  directory, `.` and the empty name stay where they are, `..` goes up.  What
  lies outside of the tree is taken for directories without any files.

  A URI is a path relative to a root directory; `./` in front of it means
  nothing.
-/
import Phrasebook.Store.Basic
import Phrasebook.Text.Search

namespace Phrasebook

/-! ## §1. Paths. -/

namespace Path

/-- A URI without any `./` in front; `budget` bounds their number. -/
def dropHereWithin : (budget uri : List Char) → List Char
  | [], uri => uri
  | _ :: budget, uri =>
    match after? ['.', '/'] uri with
    | some rest => dropHereWithin budget rest
    | none => uri

/-- A URI without any `./` in front. -/
def dropHere (uri : List Char) : List Char :=
  dropHereWithin uri uri

/-- A path taken relative to a root.  An absolute path leaves the root. -/
def join (root path : List Char) : List Char :=
  if path.head? = some '/' then path
  else if root.isEmpty then path
  else if root.getLast? = some '/' then root ++ path
  else root ++ '/' :: path

/-- The path of a URI below a root. -/
def ofUri (root uri : String) : String :=
  String.ofList (join root.toList (dropHere uri.toList))

/-- The names in a path. -/
def names (path : List Char) : List (List Char) :=
  path.splitOn '/'

/-- Does the name stay in the directory where it is used? -/
def isHere (name : List Char) : Bool :=
  name = [] || name = ['.']

/-- Does the name lead to the directory around? -/
def isUp (name : List Char) : Bool :=
  name = ['.', '.']

/-- The longest name, in bytes. -/
def maxName : Nat := 255

/-- The longest path, in bytes. -/
def maxPath : Nat := 4095

end Path

/-! ## §2. Trees. -/

/-- What there can be at a place. -/
inductive FileNode where
  /-- A file; its bytes may be no text. -/
  | file (text : Option String)
  | directory
  deriving Repr, DecidableEq

/-- Files and directories, each with the names that lead to it, the last one
first.  A directory around another node need not be listed. -/
structure FileTree where
  nodes : List (List (List Char) × FileNode)

namespace FileTree

/-- What is at a place, which is given by the names that lead there, the last
one first. -/
def node? (tree : FileTree) (place : List (List Char)) : Option FileNode :=
  match tree.nodes.find? fun (known, _) => known = place with
  | some (_, node) => some node
  | none =>
    if place.isEmpty || tree.nodes.any (fun (known, _) => place <:+ known)
    then some .directory
    else none

/-- A tree of nodes that are given by their paths. -/
def ofPaths (nodes : List (String × FileNode)) : FileTree where
  nodes := nodes.map fun (path, node) =>
    (((Path.names path.toList).filter fun name => !Path.isHere name).reverse, node)

/-! ## §3. Reading. -/

def notADirectory : ReadError := .failed "Not a directory (os error 20)"
def isADirectory : ReadError := .failed "Is a directory (os error 21)"
def nameTooLong : ReadError := .failed "File name too long (os error 36)"
def notText : ReadError := .failed "stream did not contain valid UTF-8"
def nulInName : ReadError := .failed "file name contained an unexpected NUL byte"

/-- Where a walk has come to. -/
inductive Place where
  /-- Inside the tree, at the end of these names, the last one first. -/
  | inside (names : List (List Char))
  /-- In a directory around the tree. -/
  | outside
  deriving Repr, DecidableEq

/-- What there is at the end of a walk. -/
def Place.node? (tree : FileTree) : Place → Option FileNode
  | .inside names => tree.node? names
  | .outside => some .directory

/-- Follow a name out of a directory. -/
def Place.follow (place : Place) (name : List Char) : Option Place :=
  if Path.isHere name then some place
  else match place with
    | .outside => if Path.isUp name then some .outside else none
    | .inside [] => if Path.isUp name then some .outside else some (.inside [name])
    | .inside (here :: around) =>
      if Path.isUp name then some (.inside around) else some (.inside (name :: here :: around))

/-- Follow several names; what the walk comes to, or why it ends before. -/
def walk (tree : FileTree) : Place → List (List Char) → Except ReadError FileNode
  | place, [] =>
    match place.node? tree with
    | some node => .ok node
    | none => .error .missing
  | place, name :: names =>
    match place.node? tree with
    | none => .error .missing
    | some (.file _) => .error notADirectory
    | some .directory =>
      if Path.maxName < byteLength name then .error nameTooLong
      else match place.follow name with
        | some place => walk tree place names
        | none => .error .missing

/-- The text of a node. -/
def nodeText : FileNode → Reading
  | .file (some text) => .ok text
  | .file none => .error notText
  | .directory => .error isADirectory

/-- The text at a path. -/
def read (tree : FileTree) (path : String) : Reading :=
  let path := path.toList
  if '\x00' ∈ path then .error nulInName
  else if Path.maxPath < byteLength path then .error nameTooLong
  else if path.isEmpty then .error .missing
  else
    let start := if path.head? = some '/' then .outside else .inside []
    match tree.walk start (Path.names path) with
    | .ok node => nodeText node
    | .error e => .error e

/-- The number of characters of a node. -/
def nodeSize : FileNode → Nat
  | .file (some text) => text.length
  | .file none | .directory => 0

/-- The files as a store. -/
def store (tree : FileTree) : Store where
  read := tree.read
  size := tree.nodes.foldr (fun (_, node) n => nodeSize node + n) 0

end FileTree

end Phrasebook
