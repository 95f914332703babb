import MetaResearch.Model.Bundle.Report
import MetaResearch.ToMathlib.Paths

/-! # The artifact paths of a target workspace

A start path is split along the boundaries that a result document declares. An error is the code of an
`OwnerConflict`.
-/

namespace MetaResearch.Retention

open Paths
open MetaResearch.Bundle.Completion (sortedSet)

/-- `IMPLEMENTATION_PATH_MAX_BYTES` -/
def implementationPathMaxBytes : ℕ := 1024

/-- `validate_bundle_relative_path`, of a text. A path of one dot is its own normal form and has no parts. -/
def validateBundleRelativePath (value : String) : Bool :=
  value ≠ "" && decide (value.utf8ByteSize ≤ implementationPathMaxBytes) && value = Text.strip value &&
    !(value.toList.any fun char => char = '\\' || char = '\x00' || char = '\r' || char = '\n') &&
    !(components value).contains "" &&
    (value = "." || !(components value).any fun part => part = "." || part = "..")

/-- The last loop of `_declared_artifact_boundaries`, over what the document selects. -/
def declaredArtifactBoundaries (selected : List String) (relativePath : String) : List String :=
  sortedSet (selected.filter fun path =>
    validateBundleRelativePath path && (path = relativePath || under relativePath path))

def missing : String := "target_root_artifact_missing"
def symlinkForbidden : String := "target_root_artifact_symlink_forbidden"
def typeUnsupported : String := "target_root_artifact_type_unsupported"
def unavailable : String := "target_root_artifact_unavailable"
def pathInvalid : String := "target_root_artifact_path_invalid"

/-- `_open_directory_component` -/
def openDirectoryComponent (limit : ℕ) (entries : Entries) (name : String) : Except String Entries :=
  if limit < name.utf8ByteSize then .error unavailable
  else match entries.lookup name with
    | none => .error missing
    | some .symlink => .error symlinkForbidden
    | some (.directory inner) => .ok inner
    | some (.file _) | some (.special _) => .error typeUnsupported

/-- `_open_artifact_component` -/
def openArtifactComponent (limit : ℕ) (entries : Entries) (name : String) : Except String Node :=
  if limit < name.utf8ByteSize then .error unavailable
  else match entries.lookup name with
    | none => .error missing
    | some .symlink => .error symlinkForbidden
    | some (.special false) => .error unavailable
    | some node => .ok node

/-- The loop of `_open_workspace_artifact` over the parts but for the last, and the last one. -/
def openParts (limit : ℕ) : Entries → List String → Except String Node
  | _, [] => .error pathInvalid
  | entries, [last] => openArtifactComponent limit entries last
  | entries, part :: rest => do
    let inner ← openDirectoryComponent limit entries part
    openParts limit inner rest

/-- A part that no entry has for its name. -/
def isReserved (part : String) : Bool := part = "" || part = "." || part = ".."

/-- `_open_workspace_artifact` -/
def openWorkspaceArtifact (tree : Tree) (relativePath : String) : Except String Node :=
  if (components relativePath).any isReserved then .error pathInvalid
  else openParts tree.limit tree.entries (components relativePath)

/-- `_workspace_artifact_exists` -/
def workspaceArtifactExists (tree : Tree) (relativePath : String) : Except String Bool :=
  match openWorkspaceArtifact tree relativePath with
  | .ok _ => .ok true
  | .error code =>
    if code = missing then .ok false else if code = symlinkForbidden then .ok true else .error code

/-- `sorted(os.listdir(descriptor))` -/
def sortedNames (entries : Entries) : List String := (entries.map Prod.fst).insertionSort (· ≤ ·)

/-! ### Opening -/

variable {limit : ℕ} {entries : Entries} {node : Node} {tree : Tree} {name path : String}
  {parts : List String}

theorem mem_sortedNames : name ∈ sortedNames entries ↔ ∃ node, (name, node) ∈ entries := by
  simp [sortedNames]

theorem nodup_sortedNames (found : tree.find path = some (.directory entries)) :
    (sortedNames entries).Nodup := by
  have formed := formed_of_descend tree.formed found
  rw [Node.formed, Bool.and_eq_true, decide_eq_true_iff] at formed
  exact (List.perm_insertionSort _ _).nodup_iff.mpr formed.1

/-- How a node of the tree answers when it is opened. -/
def opening : Node → Except String Node
  | .symlink => .error symlinkForbidden
  | .special false => .error unavailable
  | node => .ok node

theorem opening_ok {inner : Node} (opened : opening node = .ok inner) : node = inner := by
  unfold opening at opened
  split at opened <;> cases opened
  rfl

theorem openParts_cons_cons {first second : String} {rest : List String} :
    openParts limit entries (first :: second :: rest) =
      openDirectoryComponent limit entries first >>= fun inner => openParts limit inner (second :: rest) := rfl

theorem openDirectoryComponent_eq_ok_iff {inner : Entries} :
    openDirectoryComponent limit entries name = .ok inner ↔
      name.utf8ByteSize ≤ limit ∧ entries.lookup name = some (.directory inner) := by
  unfold openDirectoryComponent
  split_ifs with long
  · simp [Nat.not_le.mpr long]
  · cases found : entries.lookup name with
    | none => simp
    | some node => cases node <;> simp [Nat.not_lt.mp long]

theorem openArtifactComponent_of_lookup (short : name.utf8ByteSize ≤ limit)
    (found : entries.lookup name = some node) : openArtifactComponent limit entries name = opening node := by
  rw [openArtifactComponent, if_neg (Nat.not_lt.mpr short), found]
  cases node with
  | special opens => cases opens <;> rfl
  | _ => rfl

theorem openArtifactComponent_ok (opened : openArtifactComponent limit entries name = .ok node) :
    entries.lookup name = some node := by
  unfold openArtifactComponent at opened
  split_ifs at opened
  cases found : entries.lookup name with
  | none => simp [found] at opened
  | some inner =>
    rw [found] at opened
    cases inner with
    | special opens => cases opens <;> simp_all
    | _ => simp_all

/-- What is opened is found in the tree. -/
theorem descend_of_openParts (opened : openParts limit entries parts = .ok node) :
    (Node.directory entries).descend parts = some node := by
  induction parts generalizing entries with
  | nil => cases opened
  | cons first rest ih =>
    cases rest with
    | nil =>
      rw [descend_directory_cons, openArtifactComponent_ok opened, Option.bind_some, descend_nil]
    | cons second others =>
      rw [openParts_cons_cons] at opened
      obtain ⟨inner, here, later⟩ := bind_eq_ok_iff.mp opened
      rw [descend_directory_cons, (openDirectoryComponent_eq_ok_iff.mp here).2, Option.bind_some]
      exact ih later

theorem find_of_open (opened : openWorkspaceArtifact tree path = .ok node) : tree.find path = some node := by
  unfold openWorkspaceArtifact at opened
  split_ifs at opened
  exact descend_of_openParts opened

/-- The size of what is opened at a path: a recursion over the entries gets smaller. -/
noncomputable def weight (tree : Tree) (relativePath : String) : ℕ :=
  match openWorkspaceArtifact tree relativePath with
  | .ok node => sizeOf node
  | .error _ => 0

/-- An entry of a directory weighs less than the directory. -/
theorem weight_entry_lt (opened : openWorkspaceArtifact tree path = .ok (.directory entries))
    (member : name ∈ sortedNames entries) : weight tree (path ++ "/" ++ name) < weight tree path := by
  obtain ⟨held, member⟩ := mem_sortedNames.mp member
  have found := find_of_open opened
  have solid := no_slash_of_isName (isName_of_mem found member)
  have total : weight tree path = sizeOf (Node.directory entries) := by rw [weight, opened]
  rw [total, weight]
  split
  · rename_i inner answer
    have there := find_of_open answer
    rw [find_join tree found, components_of_no_slash solid, descend_directory_cons] at there
    obtain ⟨next, here, done⟩ := Option.bind_eq_some_iff.mp there
    rw [descend_nil] at done
    exact sizeOf_lt_of_lookup (Option.some.inj done ▸ here)
  · simp only [Node.directory.sizeOf_spec]
    omega

/-! ### Splitting -/

/-- `_dataset_boundary_artifact_paths` -/
def datasetBoundaryArtifactPaths (tree : Tree) (relativePath : String) (boundaries : List String) :
    List String :=
  if boundaries.contains relativePath then [relativePath]
  else if !boundaries.any (under relativePath) then [relativePath]
  else match _ : openWorkspaceArtifact tree relativePath with
    | .error _ => [relativePath]
    | .ok (.directory entries) =>
      if entries.isEmpty then [relativePath]
      else (sortedNames entries).attach.flatMap fun name =>
        datasetBoundaryArtifactPaths tree (relativePath ++ "/" ++ name.1) boundaries
    | .ok _ => [relativePath]
  termination_by weight tree relativePath
  decreasing_by exact weight_entry_lt ‹_› name.2

/-- One round of the loop of `_declared_boundary_artifact_paths`, over the declared boundaries. -/
def selectBoundary (tree : Tree) (selected : List String) (path : String) : Except String (List String) :=
  if selected.contains path then .ok selected
  else match workspaceArtifactExists tree path with
    | .ok true => .ok (selected ++ [path])
    | .ok false => .ok selected
    | .error code => if code = typeUnsupported then .ok selected else .error code

/-- `_declared_boundary_artifact_paths` -/
def declaredBoundaryArtifactPaths (tree : Tree) (relativePath : String) (boundaries : List String) :
    Except String (List String) := do
  let selected ← boundaries.foldlM (selectBoundary tree) (datasetBoundaryArtifactPaths tree relativePath boundaries)
  pure (sortedSet selected)

end MetaResearch.Retention
