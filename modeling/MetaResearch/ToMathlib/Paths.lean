import Mathlib.Data.List.Infix
import Mathlib.Data.List.Pairwise
import Mathlib.Tactic.Common
import Mathlib.Tactic.SplitIfs

/-! # Paths and directory trees

A path is a text whose components stand between slashes. A tree gives a directory its entries by name.
-/

namespace MetaResearch

namespace Paths

/-- `path.split("/")` -/
def components (path : String) : List String := (path.toList.splitOn '/').map String.ofList

/-- `path.startswith(start + "/")` -/
def under (start path : String) : Bool := (start ++ "/").toList.isPrefixOf path.toList

/-- The path is the start, or it is below the start. -/
def Within (start path : String) : Prop := path = start ∨ under start path = true

/-- Neither path is within the other. -/
def Apart (first second : String) : Prop := ¬ Within first second ∧ ¬ Within second first

variable {start path rest : String}

theorem under_iff : under start path = true ↔ ∃ rest, path = start ++ "/" ++ rest := by
  rw [under, List.isPrefixOf_iff_prefix]
  constructor
  · rintro ⟨rest, same⟩
    refine ⟨String.ofList rest, String.toList_inj.mp ?_⟩
    rw [String.toList_append, String.toList_ofList]
    exact same.symm
  · rintro ⟨rest, rfl⟩
    exact ⟨rest.toList, String.toList_append.symm⟩

theorem components_ne_nil : components path ≠ [] := by
  simp [components, List.splitOn_ne_nil]

theorem components_join : components (start ++ "/" ++ rest) = components start ++ components rest := by
  have slash : (start ++ "/" ++ rest).toList = start.toList ++ '/' :: rest.toList := by
    simp [String.toList_append]
  rw [components, slash, List.splitOn_append_cons_self, List.map_append]
  rfl

theorem components_of_no_slash (solid : '/' ∉ path.toList) : components path = [path] := by
  rw [components, List.splitOn_eq_singleton solid, List.map_singleton, String.ofList_toList]

/-- A path is the join of its components. -/
theorem intercalate_components : "/".intercalate (components path) = path := by
  apply String.toList_inj.mp
  have cancel : String.toList ∘ String.ofList = id := funext fun _ => String.toList_ofList
  have chars : (components path).map String.toList = path.toList.splitOn '/' := by
    rw [components, List.map_map, cancel, List.map_id]
  have slash : "/".toList = ['/'] := rfl
  rw [String.toList_intercalate, chars, slash, List.intercalate_splitOn]

theorem components_injective {first second : String} (same : components first = components second) :
    first = second := by
  rw [← @intercalate_components first, same, intercalate_components]

/-- What is within a start has the components of the start first. -/
theorem within_iff : Within start path ↔ components start <+: components path := by
  constructor
  · rintro (rfl | below)
    · exact List.prefix_refl _
    · obtain ⟨rest, rfl⟩ := under_iff.mp below
      rw [components_join]
      exact List.prefix_append _ _
  · rintro ⟨tail, same⟩
    by_cases whole : tail = []
    · left
      rw [whole, List.append_nil] at same
      exact (components_injective same).symm
    · right
      refine under_iff.mpr ⟨"/".intercalate tail, ?_⟩
      rw [← @intercalate_components path, ← same,
        String.intercalate_append_of_ne_nil components_ne_nil whole, intercalate_components]

theorem Within.trans {middle : String} (first : Within start middle) (second : Within middle path) :
    Within start path :=
  within_iff.mpr ((within_iff.mp first).trans (within_iff.mp second))

theorem within_join : Within start (start ++ "/" ++ rest) := .inr (under_iff.mpr ⟨rest, rfl⟩)

/-- Paths that hold a common path within them are nested. -/
theorem not_apart_of_within {first second : String} (one : Within first path) (two : Within second path) :
    ¬ Apart first second := by
  rintro ⟨forward, backward⟩
  rcases List.prefix_or_prefix_of_prefix (within_iff.mp one) (within_iff.mp two) with below | below
  · exact forward (within_iff.mpr below)
  · exact backward (within_iff.mpr below)

instance : Std.Symm Apart := ⟨fun _ _ apart => apart.symm⟩

/-- What is within different entries of a directory is apart. -/
theorem apart_of_siblings {first second one two : String} (firstSolid : '/' ∉ first.toList)
    (secondSolid : '/' ∉ second.toList) (different : first ≠ second)
    (oneWithin : Within (start ++ "/" ++ first) one) (twoWithin : Within (start ++ "/" ++ second) two) :
    Apart one two := by
  rw [within_iff, components_join, components_of_no_slash firstSolid] at oneWithin
  rw [within_iff, components_join, components_of_no_slash secondSolid] at twoWithin
  have never {longest : List String} (left : components start ++ [first] <+: longest)
      (right : components start ++ [second] <+: longest) : False := by
    have same := List.prefix_of_prefix_length_le left right (by simp)
    have ends := same.eq_of_length (by simp)
    exact different (List.singleton_inj.mp (List.append_cancel_left ends))
  constructor
  · intro nested
    exact never (oneWithin.trans (within_iff.mp nested)) twoWithin
  · intro nested
    exact never oneWithin (twoWithin.trans (within_iff.mp nested))

/-! ### Trees -/

/-- What a directory holds under a name. A special file is a pipe, a device or a socket; some of them cannot
be opened. -/
inductive Node where
  | file (content : List UInt8)
  | directory (entries : List (String × Node))
  | symlink
  | special (opens : Bool)

abbrev Entries := List (String × Node)

/-- The name of an entry. -/
def isName (limit : ℕ) (name : String) : Bool :=
  name ≠ "" && name ≠ "." && name ≠ ".." && !name.toList.contains '/' && name.utf8ByteSize ≤ limit

mutual

/-- Each directory names its entries once. -/
def Node.formed (limit : ℕ) : Node → Bool
  | .directory entries => decide (entries.map Prod.fst).Nodup && entriesFormed limit entries
  | _ => true
  termination_by structural node => node

def entriesFormed (limit : ℕ) : List (String × Node) → Bool
  | [] => true
  | (name, node) :: rest => isName limit name && node.formed limit && entriesFormed limit rest
  termination_by structural entries => entries

end

/-- The node at the end of some components. -/
def Node.descend : Node → List String → Option Node
  | node, [] => some node
  | .directory entries, name :: rest => (entries.lookup name).bind (·.descend rest)
  | _, _ :: _ => none

/-- A directory, and the length of the names that its file system admits. -/
structure Tree where
  limit : ℕ
  entries : Entries
  formed : (Node.directory entries).formed limit = true

/-- The node at a path; no link is followed. -/
def Tree.find (tree : Tree) (path : String) : Option Node :=
  (Node.directory tree.entries).descend (components path)

variable {limit : ℕ} {node : Node} {entries : Entries} {name : String} {before after : List String}

@[simp] theorem descend_nil : node.descend [] = some node := by
  cases node <;> rfl

theorem descend_directory_cons :
    (Node.directory entries).descend (name :: after) = (entries.lookup name).bind (·.descend after) := rfl

theorem descend_append : node.descend (before ++ after) = (node.descend before).bind (·.descend after) := by
  induction before generalizing node with
  | nil => simp
  | cons first rest ih =>
    cases node with
    | directory entries =>
      rw [List.cons_append, descend_directory_cons, descend_directory_cons]
      cases entries.lookup first with
      | none => rfl
      | some inner => exact ih
    | _ => rfl

theorem entriesFormed_iff :
    entriesFormed limit entries = true ↔
      ∀ entry ∈ entries, isName limit entry.1 = true ∧ entry.2.formed limit = true := by
  induction entries with
  | nil => simp [entriesFormed]
  | cons entry rest ih =>
    rw [entriesFormed, Bool.and_eq_true, Bool.and_eq_true, ih, List.forall_mem_cons]

theorem mem_of_lookup (found : entries.lookup name = some node) : (name, node) ∈ entries := by
  induction entries with
  | nil => cases found
  | cons entry rest ih =>
    rw [List.lookup_cons] at found
    split at found
    · rename_i same
      obtain rfl := Option.some.inj found
      rw [beq_iff_eq.mp same]
      exact List.mem_cons_self
    · exact List.mem_cons_of_mem _ (ih found)

/-- Every node of a formed tree is formed. -/
theorem formed_of_descend {inner : Node} {parts : List String} (formed : node.formed limit = true)
    (found : node.descend parts = some inner) : inner.formed limit = true := by
  induction parts generalizing node with
  | nil =>
    rw [descend_nil] at found
    exact Option.some.inj found ▸ formed
  | cons first rest ih =>
    cases node with
    | directory entries =>
      rw [descend_directory_cons] at found
      obtain ⟨next, here, later⟩ := Option.bind_eq_some_iff.mp found
      rw [Node.formed, Bool.and_eq_true] at formed
      exact ih (entriesFormed_iff.mp formed.2 _ (mem_of_lookup here)).2 later
    | _ => cases found

theorem find_join (tree : Tree) {node : Node} (found : tree.find path = some node) :
    tree.find (path ++ "/" ++ rest) = node.descend (components rest) := by
  rw [Tree.find] at found
  rw [Tree.find, components_join, descend_append, found, Option.bind_some]

theorem isName_of_mem {tree : Tree} (found : tree.find path = some (.directory entries))
    (member : (name, node) ∈ entries) : isName tree.limit name = true := by
  have formed := formed_of_descend tree.formed found
  rw [Node.formed, Bool.and_eq_true] at formed
  exact (entriesFormed_iff.mp formed.2 _ member).1

theorem no_slash_of_isName (valid : isName limit name = true) : '/' ∉ name.toList := by
  simp only [isName, Bool.and_eq_true, Bool.not_eq_true', List.contains_eq_mem, decide_eq_false_iff_not]
    at valid
  exact valid.1.2

/-- A node is smaller than the directory that holds it. -/
theorem sizeOf_lt_of_lookup (found : entries.lookup name = some node) :
    sizeOf node < sizeOf (Node.directory entries) := by
  have inside := List.sizeOf_lt_of_mem (mem_of_lookup found)
  simp only [Prod.mk.sizeOf_spec, Node.directory.sizeOf_spec] at *
  omega

end Paths

end MetaResearch
