/-
  Phrasebook.Proofs.Store.Finite
  ────────────────────────────────
  **FINITE STORES NAME FINITELY MANY RESOURCES.**

  A store holds a list of texts, and its size counts all of their characters
  (`Store.Holds`).  Each import takes a character at least, so there are no
  more names of imports in a store than its size says:

      salvage_length_le   —  a text has no more entries than characters
      Holds.names         —  the names of imports, and how many they are
      Memory.holds, FileTree.holds
                          —  texts in memory and in files are finite stores
-/
import Mathlib
import Phrasebook.Resource
import Phrasebook.Store.FileTree
import Phrasebook.Store.Memory

namespace Phrasebook

/-! ## §1. The imports of a text. -/

/-- The name that an import names. -/
def Entry.imported? : Entry → Option String
  | .importing uri => some uri
  | .entity _ | .macroDef _ | .comment _ | .junk _ => none

theorem Entry.imported?_eq_some_iff {e : Entry} {uri : String} :
    e.imported? = some uri ↔ e = .importing uri := by
  cases e <;> simp [imported?]

namespace Resource

/-- There are no more entries than the budget of the reading. -/
theorem salvageFrom_length_le (source budget : List Char) : ∀ start : List Char,
    (salvageFrom source budget start).entries.length ≤ budget.length := by
  induction budget with
  | nil =>
    intro start
    cases start <;> exact Nat.le_refl _
  | cons b budget ih =>
    intro start
    cases start with
    | nil => exact Nat.zero_le _
    | cons c s =>
      rw [salvageFrom]
      split <;> exact Nat.succ_le_succ (ih _)

/-- A text has no more entries than characters. -/
theorem salvage_length_le (source : String) :
    (salvage source).entries.length ≤ source.length := by
  rw [← String.length_toList]
  exact salvageFrom_length_le _ _ _

/-- The names of the imports of a text. -/
def importNames (source : String) : List String :=
  (salvage source).entries.filterMap Entry.imported?

theorem mem_importNames {source uri : String} :
    uri ∈ importNames source ↔ .importing uri ∈ (salvage source).entries := by
  unfold importNames
  simp only [List.mem_filterMap, Entry.imported?_eq_some_iff, exists_eq_right]

theorem importNames_length_le (source : String) : (importNames source).length ≤ source.length :=
  Nat.le_trans (List.length_filterMap_le _ _) (salvage_length_le source)

end Resource

/-! ## §2. Finite stores. -/

namespace Store

/-- The store has no other texts than these, and its size counts all of their
characters. -/
structure Holds (store : Store) (texts : List String) : Prop where
  mem : ∀ path text, store.read path = .ok text → text ∈ texts
  size : (texts.map String.length).sum ≤ store.size

variable {store : Store} {texts : List String}

/-- The names of the imports in a finite store are no more than its size
says. -/
theorem Holds.names (h : store.Holds texts) :
    ∃ names : List String, names.length ≤ store.size
      ∧ ∀ path text, store.read path = .ok text →
        ∀ uri, .importing uri ∈ (Resource.salvage text).entries → uri ∈ names := by
  refine ⟨texts.flatMap Resource.importNames, ?_, fun path text hread uri huri => ?_⟩
  · have hnames : (texts.map fun text => (Resource.importNames text).length).sum
        ≤ (texts.map String.length).sum :=
      List.sum_le_sum fun text _ => Resource.importNames_length_le text
    rw [List.length_flatMap]
    exact Nat.le_trans hnames h.size
  · exact List.mem_flatMap.2 ⟨text, h.mem path text hread, Resource.mem_importNames.2 huri⟩

end Store

/-! ## §3. Texts in memory, and in files. -/

namespace Memory

/-- The texts in memory. -/
def texts (memory : Memory) : List String :=
  memory.filterMap fun known => known.2.toOption

theorem mem_texts {memory : Memory} {uri text : String} (h : memory.read uri = .ok text) :
    text ∈ memory.texts := by
  induction memory with
  | nil => exact nomatch h
  | cons known memory ih =>
    obtain ⟨name, answer⟩ := known
    rw [read] at h
    split at h
    · exact List.mem_filterMap.2 ⟨_, List.mem_cons_self, by rw [h]; rfl⟩
    · obtain ⟨known, hmem, hknown⟩ := List.mem_filterMap.1 (ih h)
      exact List.mem_filterMap.2 ⟨known, List.mem_cons_of_mem _ hmem, hknown⟩

theorem sum_texts (memory : Memory) :
    (memory.texts.map String.length).sum = memory.store.size := by
  induction memory with
  | nil => rfl
  | cons known memory ih =>
    obtain ⟨name, answer⟩ := known
    have hsize : (store ((name, answer) :: memory)).size
        = answerSize answer + (store memory).size := rfl
    rw [hsize, ← ih]
    cases answer with
    | ok text => rfl
    | error e => exact (Nat.zero_add _).symm

/-- Texts in memory are a finite store. -/
theorem holds (memory : Memory) : memory.store.Holds memory.texts where
  mem _ _ h := mem_texts h
  size := Nat.le_of_eq (sum_texts memory)

end Memory

namespace FileTree

/-- The text of a node, if it is a file with one. -/
def textOf? : FileNode → Option String
  | .file text => text
  | .directory => none

/-- The texts of the files. -/
def texts (tree : FileTree) : List String :=
  tree.nodes.filterMap fun listed => textOf? listed.2

theorem node?_text {tree : FileTree} {names : List (List Char)} {text : String}
    (h : tree.node? names = some (.file (some text))) : text ∈ tree.texts := by
  unfold node? at h
  split at h
  · next known node hfind =>
    obtain rfl := Option.some.inj h
    exact List.mem_filterMap.2 ⟨_, List.mem_of_find?_eq_some hfind, rfl⟩
  · split at h
    · exact nomatch Option.some.inj h
    · exact nomatch h

theorem walk_text {tree : FileTree} {text : String} (names : List (List Char)) : ∀ place : Place,
    tree.walk place names = .ok (.file (some text)) → text ∈ tree.texts := by
  induction names with
  | nil =>
    intro place h
    unfold walk at h
    split at h
    · next node hnode =>
      obtain rfl := Except.ok.inj h
      -- outside of the tree there are directories only
      cases place with
      | inside names => exact node?_text hnode
      | outside => exact nomatch Option.some.inj hnode
    · exact nomatch h
  | cons name names ih =>
    intro place h
    unfold walk at h
    split at h
    · exact nomatch h
    · exact nomatch h
    · split at h
      · exact nomatch h
      · split at h
        · next place' _ => exact ih place' h
        · exact nomatch h

theorem mem_texts {tree : FileTree} {path text : String} (h : tree.read path = .ok text) :
    text ∈ tree.texts := by
  unfold read at h
  dsimp only at h
  split at h
  · exact nomatch h
  split at h
  · exact nomatch h
  split at h
  · exact nomatch h
  split at h
  · next node hwalk =>
    cases node with
    | directory => exact nomatch h
    | file content =>
      cases content with
      | none => exact nomatch h
      | some text' =>
        obtain rfl := Except.ok.inj h
        exact walk_text _ _ hwalk
  · exact nomatch h

theorem sum_texts (tree : FileTree) :
    (tree.texts.map String.length).sum = tree.store.size := by
  obtain ⟨nodes⟩ := tree
  induction nodes with
  | nil => rfl
  | cons listed nodes ih =>
    obtain ⟨place, node⟩ := listed
    have hsize : (store ⟨(place, node) :: nodes⟩).size
        = nodeSize node + (store ⟨nodes⟩).size := rfl
    rw [hsize, ← ih]
    cases node with
    | directory => exact (Nat.zero_add _).symm
    | file content =>
      cases content with
      | none => exact (Nat.zero_add _).symm
      | some text => rfl

/-- Files are a finite store. -/
theorem holds (tree : FileTree) : tree.store.Holds tree.texts where
  mem _ _ h := mem_texts h
  size := Nat.le_of_eq (sum_texts tree)

end FileTree

end Phrasebook
