import MetaResearch.Model.Retention.Boundaries

/-! # Splitting a workspace along its boundaries

A split descends only into directories, and a directory is replaced by all of its entries. So the paths
of a split are apart, and each file below the start is within exactly one of them. The declared
boundaries are then added to the split.
-/

namespace MetaResearch.Retention

open Paths
open MetaResearch.Bundle.Completion (sortedSet)

variable {tree : Tree} {boundaries : List String} {start path : String}

/-! ### The split -/

/-- A split is its start alone, or the splits of all entries of the directory at the start. -/
theorem split_cases (tree : Tree) (boundaries : List String) (start : String) :
    datasetBoundaryArtifactPaths tree start boundaries = [start] ∨
      ∃ entries, openWorkspaceArtifact tree start = .ok (.directory entries) ∧
        datasetBoundaryArtifactPaths tree start boundaries =
          (sortedNames entries).flatMap fun name =>
            datasetBoundaryArtifactPaths tree (start ++ "/" ++ name) boundaries := by
  rw [datasetBoundaryArtifactPaths]
  split_ifs with held outside
  · exact .inl rfl
  · exact .inl rfl
  · split
    · exact .inl rfl
    · split_ifs
      · exact .inl rfl
      · refine .inr ⟨_, ‹_›, ?_⟩
        rw [List.flatMap_subtype (g := fun name =>
          datasetBoundaryArtifactPaths tree (start ++ "/" ++ name) boundaries) fun _ _ => rfl,
          List.unattach_attach]
    · exact .inl rfl

/-- An induction over the directories that a split descends into. -/
theorem split_induction (tree : Tree) (boundaries : List String)
    {motive : String → List String → Prop} (whole : ∀ start, motive start [start])
    (entries : ∀ start entries, tree.find start = some (.directory entries) →
      (∀ name ∈ sortedNames entries, motive (start ++ "/" ++ name)
        (datasetBoundaryArtifactPaths tree (start ++ "/" ++ name) boundaries)) →
      motive start ((sortedNames entries).flatMap fun name =>
        datasetBoundaryArtifactPaths tree (start ++ "/" ++ name) boundaries)) (start : String) :
    motive start (datasetBoundaryArtifactPaths tree start boundaries) := by
  induction size : weight tree start using Nat.strong_induction_on generalizing start with
  | _ size ih =>
    rcases split_cases tree boundaries start with single | ⟨inner, opened, split⟩
    · rw [single]
      exact whole start
    · rw [split]
      refine entries start inner (find_of_open opened) fun name member => ?_
      exact ih _ (size ▸ weight_entry_lt opened member) _ rfl

theorem within_of_mem_split (start : String) :
    ∀ part ∈ datasetBoundaryArtifactPaths tree start boundaries, Within start part := by
  induction start using split_induction tree boundaries with
  | whole start => exact fun part member => .inl (List.mem_singleton.mp member)
  | entries start entries _ ih =>
    intro part member
    obtain ⟨name, named, inside⟩ := List.mem_flatMap.mp member
    exact within_join.trans (ih name named part inside)

/-- No path of a split is within another. -/
theorem pairwise_apart_split (start : String) :
    (datasetBoundaryArtifactPaths tree start boundaries).Pairwise Apart := by
  induction start using split_induction tree boundaries with
  | whole start => exact List.pairwise_singleton _ _
  | entries start entries found ih =>
    have solid {name : String} (member : name ∈ sortedNames entries) : '/' ∉ name.toList := by
      obtain ⟨node, held⟩ := mem_sortedNames.mp member
      exact no_slash_of_isName (isName_of_mem found held)
    refine List.pairwise_flatMap.mpr ⟨ih, (nodup_sortedNames found).imp_of_mem ?_⟩
    intro first second firstIn secondIn different one oneIn two twoIn
    exact apart_of_siblings (solid firstIn) (solid secondIn) different
      (within_of_mem_split _ one oneIn) (within_of_mem_split _ two twoIn)

/-- A node below a directory is within one of its entries. -/
theorem exists_entry_within {entries : Entries} {node : Node}
    (found : tree.find start = some (.directory entries)) (below : under start path = true)
    (there : tree.find path = some node) :
    ∃ name ∈ sortedNames entries, Within (start ++ "/" ++ name) path := by
  obtain ⟨rest, rfl⟩ := under_iff.mp below
  rw [find_join tree found] at there
  obtain ⟨name, others, parts⟩ := List.exists_cons_of_ne_nil (@components_ne_nil rest)
  rw [parts, descend_directory_cons] at there
  obtain ⟨inner, held, _⟩ := Option.bind_eq_some_iff.mp there
  have member := mem_of_lookup held
  refine ⟨name, mem_sortedNames.mpr ⟨inner, member⟩, within_iff.mpr ?_⟩
  rw [components_join, components_join, parts,
    components_of_no_slash (no_slash_of_isName (isName_of_mem found member))]
  exact ⟨others, by simp⟩

/-- Every file within the start is within a path of the split. -/
theorem exists_part_of_file (start : String) :
    ∀ path node, tree.find path = some node → (∀ entries, node ≠ .directory entries) →
      Within start path → ∃ part ∈ datasetBoundaryArtifactPaths tree start boundaries, Within part path := by
  induction start using split_induction tree boundaries with
  | whole start => exact fun path _ _ _ within => ⟨start, List.mem_singleton_self _, within⟩
  | entries start entries found ih =>
    rintro path node there leaf (rfl | below)
    · exact absurd (Option.some.inj (there.symm.trans found)) (leaf entries)
    · obtain ⟨name, member, within⟩ := exists_entry_within found below there
      obtain ⟨part, inside, holds⟩ := ih name member path node there leaf within
      exact ⟨part, List.mem_flatMap.mpr ⟨name, member, inside⟩, holds⟩

/-- Every file within the start is within exactly one path of the split. -/
theorem existsUnique_part_of_file {node : Node} (found : tree.find path = some node)
    (leaf : ∀ entries, node ≠ .directory entries) (within : Within start path) :
    ∃! part, part ∈ datasetBoundaryArtifactPaths tree start boundaries ∧ Within part path := by
  obtain ⟨part, member, holds⟩ := exists_part_of_file start path node found leaf within
  refine ⟨part, ⟨member, holds⟩, ?_⟩
  rintro other ⟨otherIn, otherHolds⟩
  by_contra different
  exact not_apart_of_within otherHolds holds
    ((pairwise_apart_split start).forall otherIn member different)

/-! ### The declared boundaries -/

variable {limit : ℕ} {entries : Entries} {name : String} {parts : List String}

/-- A link stands on the way, or at its end. -/
def Links (node : Node) (parts : List String) : Prop :=
  ∃ before, before <+: parts ∧ node.descend before = some .symlink

/-- The way leads to a name that is too long for the file system, or to a special file that cannot be
opened. -/
inductive Unreachable (limit : ℕ) : Node → List String → Prop where
  | closed : Unreachable limit (.special false) []
  | long {entries : Entries} {name : String} {rest : List String} (exceeds : limit < name.utf8ByteSize) :
    Unreachable limit (.directory entries) (name :: rest)
  | entry {entries : Entries} {name : String} {rest : List String} {node : Node}
    (found : entries.lookup name = some node) (later : Unreachable limit node rest) :
    Unreachable limit (.directory entries) (name :: rest)

theorem links_symlink : Links .symlink parts := ⟨[], List.nil_prefix, descend_nil⟩

theorem links_directory_nil : ¬ Links (.directory entries) [] := by
  rintro ⟨before, nothing, found⟩
  rw [List.prefix_nil.mp nothing, descend_nil] at found
  cases found

theorem links_directory_cons {rest : List String} :
    Links (.directory entries) (name :: rest) ↔
      ∃ node, entries.lookup name = some node ∧ Links node rest := by
  constructor
  · rintro ⟨before, way, found⟩
    cases before with
    | nil =>
      rw [descend_nil] at found
      cases found
    | cons first others =>
      obtain ⟨rfl, shorter⟩ := List.cons_prefix_cons.mp way
      rw [descend_directory_cons] at found
      obtain ⟨node, held, later⟩ := Option.bind_eq_some_iff.mp found
      exact ⟨node, held, others, shorter, later⟩
  · rintro ⟨node, held, before, way, found⟩
    refine ⟨name :: before, List.cons_prefix_cons.mpr ⟨rfl, way⟩, ?_⟩
    rw [descend_directory_cons, held, Option.bind_some, found]

/-- In a formed directory an entry has a short name and is formed. -/
theorem short_of_lookup {node : Node} (formed : (Node.directory entries).formed limit = true)
    (found : entries.lookup name = some node) :
    name.utf8ByteSize ≤ limit ∧ node.formed limit = true := by
  rw [Node.formed, Bool.and_eq_true] at formed
  obtain ⟨valid, inner⟩ := entriesFormed_iff.mp formed.2 _ (mem_of_lookup found)
  simp only [isName, Bool.and_eq_true, decide_eq_true_eq] at valid
  exact ⟨valid.2, inner⟩

/-- What is found opens as the node does. -/
theorem openParts_of_descend {node : Node} (formed : (Node.directory entries).formed limit = true)
    (nonempty : parts ≠ []) (found : (Node.directory entries).descend parts = some node) :
    openParts limit entries parts = opening node := by
  induction parts generalizing entries with
  | nil => exact absurd rfl nonempty
  | cons first rest ih =>
    rw [descend_directory_cons] at found
    obtain ⟨inner, held, later⟩ := Option.bind_eq_some_iff.mp found
    obtain ⟨short, innerFormed⟩ := short_of_lookup formed held
    cases rest with
    | nil =>
      rw [descend_nil] at later
      rw [openParts, openArtifactComponent_of_lookup short held, Option.some.inj later]
    | cons second others =>
      cases inner with
      | directory entries =>
        have opened := openDirectoryComponent_eq_ok_iff.mpr ⟨short, held⟩
        rw [openParts_cons_cons, opened]
        exact ih innerFormed (List.cons_ne_nil _ _) later
      | _ => cases later

theorem openParts_of_links (formed : (Node.directory entries).formed limit = true)
    (links : Links (.directory entries) parts) : openParts limit entries parts = .error symlinkForbidden := by
  induction parts generalizing entries with
  | nil => exact absurd links links_directory_nil
  | cons first rest ih =>
    obtain ⟨inner, held, later⟩ := links_directory_cons.mp links
    obtain ⟨short, innerFormed⟩ := short_of_lookup formed held
    have within : ¬ limit < first.utf8ByteSize := Nat.not_lt.mpr short
    cases rest with
    | nil =>
      obtain ⟨before, nothing, found⟩ := later
      rw [List.prefix_nil.mp nothing, descend_nil] at found
      rw [openParts, openArtifactComponent_of_lookup short held, Option.some.inj found]
      rfl
    | cons second others =>
      rw [openParts_cons_cons]
      cases inner with
      | directory entries =>
        rw [openDirectoryComponent_eq_ok_iff.mpr ⟨short, held⟩]
        exact ih innerFormed later
      | symlink => simp [openDirectoryComponent, within, held, bind, Except.bind]
      | file content =>
        obtain ⟨before, _, found⟩ := later
        cases before <;> cases found
      | special opens =>
        obtain ⟨before, _, found⟩ := later
        cases before <;> cases found

theorem openParts_of_unreachable (formed : (Node.directory entries).formed limit = true)
    (unreachable : Unreachable limit (.directory entries) parts) :
    openParts limit entries parts = .error unavailable := by
  induction parts generalizing entries with
  | nil => cases unreachable
  | cons first rest ih =>
    cases unreachable with
    | long exceeds =>
      cases rest with
      | nil => rw [openParts, openArtifactComponent, if_pos exceeds]
      | cons second others =>
        rw [openParts_cons_cons, openDirectoryComponent, if_pos exceeds]
        rfl
    | entry held later =>
      obtain ⟨short, innerFormed⟩ := short_of_lookup formed held
      cases later with
      | closed =>
        rw [openParts, openArtifactComponent_of_lookup short held]
        rfl
      | long exceeds =>
        rw [openParts_cons_cons, openDirectoryComponent_eq_ok_iff.mpr ⟨short, held⟩]
        exact ih innerFormed (.long exceeds)
      | entry found rest =>
        rw [openParts_cons_cons, openDirectoryComponent_eq_ok_iff.mpr ⟨short, held⟩]
        exact ih innerFormed (.entry found rest)

theorem openArtifactComponent_error {code : String}
    (failed : openArtifactComponent limit entries name = .error code) :
    code = missing ∨ code = typeUnsupported ∨
      code = symlinkForbidden ∧ Links (.directory entries) [name] ∨
      code = unavailable ∧ Unreachable limit (.directory entries) [name] := by
  unfold openArtifactComponent at failed
  split_ifs at failed with long
  · exact .inr (.inr (.inr ⟨(Except.error.inj failed).symm, .long long⟩))
  · split at failed
    · exact .inl (Except.error.inj failed).symm
    · rename_i held
      exact .inr (.inr (.inl ⟨(Except.error.inj failed).symm,
        links_directory_cons.mpr ⟨.symlink, held, links_symlink⟩⟩))
    · rename_i held
      exact .inr (.inr (.inr ⟨(Except.error.inj failed).symm, .entry held .closed⟩))
    · cases failed

theorem openDirectoryComponent_error {code : String} {rest : List String}
    (failed : openDirectoryComponent limit entries name = .error code) :
    code = missing ∨ code = typeUnsupported ∨
      code = symlinkForbidden ∧ Links (.directory entries) (name :: rest) ∨
      code = unavailable ∧ Unreachable limit (.directory entries) (name :: rest) := by
  unfold openDirectoryComponent at failed
  split_ifs at failed with long
  · exact .inr (.inr (.inr ⟨(Except.error.inj failed).symm, .long long⟩))
  · split at failed
    · exact .inl (Except.error.inj failed).symm
    · rename_i held
      exact .inr (.inr (.inl ⟨(Except.error.inj failed).symm,
        links_directory_cons.mpr ⟨.symlink, held, links_symlink⟩⟩))
    · cases failed
    · exact .inr (.inl (Except.error.inj failed).symm)
    · exact .inr (.inl (Except.error.inj failed).symm)

/-- Why a node is not opened. -/
theorem openParts_error {code : String} (nonempty : parts ≠ [])
    (failed : openParts limit entries parts = .error code) :
    code = missing ∨ code = typeUnsupported ∨
      code = symlinkForbidden ∧ Links (.directory entries) parts ∨
      code = unavailable ∧ Unreachable limit (.directory entries) parts := by
  induction parts generalizing entries with
  | nil => exact absurd rfl nonempty
  | cons first rest ih =>
    cases rest with
    | nil => exact openArtifactComponent_error failed
    | cons second others =>
      rw [openParts_cons_cons] at failed
      cases here : openDirectoryComponent limit entries first with
      | error other =>
        rw [here] at failed
        obtain rfl := Except.error.inj failed
        exact openDirectoryComponent_error here
      | ok inner =>
        rw [here] at failed
        obtain ⟨_, held⟩ := openDirectoryComponent_eq_ok_iff.mp here
        refine (ih (List.cons_ne_nil _ _) failed).imp_right (Or.imp_right (Or.imp ?_ ?_))
        · exact And.imp_right fun links => links_directory_cons.mpr ⟨_, held, links⟩
        · exact And.imp_right fun later => .entry held later

/-! ### The loop over the declared boundaries -/

/-- The declared boundaries of a start: valid paths within it. -/
structure Declared (start : String) (boundaries : List String) : Prop where
  valid : ∀ path ∈ boundaries, validateBundleRelativePath path = true
  within : ∀ path ∈ boundaries, Within start path

theorem declared_declaredArtifactBoundaries (selected : List String) (start : String) :
    Declared start (declaredArtifactBoundaries selected start) := by
  have kept {path : String} (member : path ∈ declaredArtifactBoundaries selected start) :
      validateBundleRelativePath path = true ∧ (path = start ∨ under start path = true) := by
    simp only [declaredArtifactBoundaries, sortedSet, List.mem_insertionSort, List.mem_dedup,
      List.mem_filter, Bool.and_eq_true, Bool.or_eq_true, decide_eq_true_eq] at member
    exact member.2
  exact ⟨fun path member => (kept member).1, fun path member => (kept member).2⟩

/-- A boundary other than the start has no reserved part. -/
theorem not_reserved (valid : validateBundleRelativePath path = true) (other : path ≠ ".") :
    (components path).any isReserved = false := by
  simp only [validateBundleRelativePath, Bool.and_eq_true, Bool.or_eq_true, decide_eq_true_eq,
    Bool.not_eq_true', other, false_or] at valid
  obtain ⟨⟨_, full⟩, plain⟩ := valid
  refine List.any_eq_false.mpr fun part member => ?_
  have dots := List.any_eq_false.mp plain part member
  have empty : part ≠ "" := by
    rintro rfl
    simp [member] at full
  simp only [isReserved, Bool.or_eq_true, decide_eq_true_eq, not_or] at dots ⊢
  exact ⟨⟨empty, dots.1⟩, dots.2⟩

/-- The components of the path lead through a link. -/
def BehindLink (tree : Tree) (path : String) : Prop := Links (.directory tree.entries) (components path)

/-- The path cannot be examined. -/
def Unexaminable (tree : Tree) (path : String) : Prop :=
  Unreachable tree.limit (.directory tree.entries) (components path)

section Existence

variable (plain : (components path).any isReserved = false)

include plain

theorem open_of_plain :
    openWorkspaceArtifact tree path = openParts tree.limit tree.entries (components path) := by
  rw [openWorkspaceArtifact, plain]
  rfl

theorem exists_of_links (links : BehindLink tree path) : workspaceArtifactExists tree path = .ok true := by
  have answer := (open_of_plain plain).trans (openParts_of_links tree.formed links)
  simp [workspaceArtifactExists, answer, symlinkForbidden, missing]

theorem exists_of_unexaminable (hidden : Unexaminable tree path) :
    workspaceArtifactExists tree path = .error unavailable := by
  have answer := (open_of_plain plain).trans (openParts_of_unreachable tree.formed hidden)
  simp [workspaceArtifactExists, answer, symlinkForbidden, missing, unavailable]

theorem exists_error {code : String} (failed : workspaceArtifactExists tree path = .error code) :
    code = typeUnsupported ∨ code = unavailable ∧ Unexaminable tree path := by
  unfold workspaceArtifactExists at failed
  split at failed
  · cases failed
  · rename_i other answer
    split_ifs at failed with absent linked
    obtain rfl := Except.error.inj failed
    rcases openParts_error components_ne_nil ((open_of_plain plain).symm.trans answer) with
      same | same | ⟨same, _⟩ | hidden
    · exact absurd same absent
    · exact .inl same
    · exact absurd same linked
    · exact .inr hidden

/-- What is found exists, unless it is a special file that cannot be opened. -/
theorem exists_of_found {node : Node} (found : tree.find path = some node)
    (seen : ¬ Unexaminable tree path) : workspaceArtifactExists tree path = .ok true := by
  have answer := (open_of_plain plain).trans (openParts_of_descend tree.formed components_ne_nil found)
  cases node with
  | file content => simp [workspaceArtifactExists, answer, opening]
  | directory entries => simp [workspaceArtifactExists, answer, opening]
  | symlink => simp [workspaceArtifactExists, answer, opening, symlinkForbidden, missing]
  | special opens =>
    cases opens with
    | true => simp [workspaceArtifactExists, answer, opening]
    | false =>
      have failed : workspaceArtifactExists tree path = .error unavailable := by
        simp [workspaceArtifactExists, answer, opening, symlinkForbidden, missing, unavailable]
      rcases exists_error plain failed with same | ⟨_, hidden⟩
      · exact absurd same (by decide)
      · exact absurd hidden seen

theorem found_or_links_of_exists (present : workspaceArtifactExists tree path = .ok true) :
    (tree.find path).isSome = true ∨ BehindLink tree path := by
  unfold workspaceArtifactExists at present
  split at present
  · rename_i node answer
    exact .inl (Option.isSome_iff_exists.mpr ⟨node, find_of_open answer⟩)
  · rename_i code answer
    split_ifs at present with absent linked
    · cases present
    · rcases openParts_error components_ne_nil ((open_of_plain plain).symm.trans answer) with
        same | same | ⟨_, links⟩ | ⟨same, _⟩
      · exact absurd same absent
      · exact absurd (linked.symm.trans same) (by decide)
      · exact .inr links
      · exact absurd (linked.symm.trans same) (by decide)

end Existence

variable {selected result : List String}

/-- One round: a boundary that exists is added, and one whose examination fails is not passed over. -/
theorem selectBoundary_ok {first : String} (done : selectBoundary tree selected first = .ok result) :
    (∀ path, path ∈ result ↔
      path ∈ selected ∨ path = first ∧ workspaceArtifactExists tree first = .ok true) ∧
    (first ∉ selected → ∀ code, workspaceArtifactExists tree first = .error code → code = typeUnsupported) := by
  unfold selectBoundary at done
  split_ifs at done with held
  · obtain rfl := Except.ok.inj done
    have member := List.contains_iff_mem.mp held
    refine ⟨fun path => ⟨.inl, ?_⟩, fun new => absurd member new⟩
    rintro (inside | ⟨rfl, _⟩)
    · exact inside
    · exact member
  · split at done
    · rename_i present
      obtain rfl := Except.ok.inj done
      simp [present]
    · rename_i absent
      obtain rfl := Except.ok.inj done
      simp [absent]
    · rename_i code failed
      split_ifs at done with skipped
      obtain rfl := Except.ok.inj done
      refine ⟨by simp [failed], fun _ other answer => ?_⟩
      rw [failed] at answer
      exact (Except.error.inj answer).symm.trans skipped

/-- One run of the loop: the boundaries that exist are added, and each boundary could be examined. -/
theorem selectBoundary_run (done : boundaries.foldlM (selectBoundary tree) selected = .ok result) :
    (∀ path, path ∈ result ↔
      path ∈ selected ∨ path ∈ boundaries ∧ workspaceArtifactExists tree path = .ok true) ∧
    ∀ path ∈ boundaries, path ∉ selected →
      ∀ code, workspaceArtifactExists tree path = .error code → code = typeUnsupported := by
  induction boundaries generalizing selected with
  | nil =>
    cases done
    simp
  | cons first rest ih =>
    obtain ⟨next, here, later⟩ := bind_eq_ok_iff.mp done
    obtain ⟨step, examined⟩ := selectBoundary_ok here
    obtain ⟨run, others⟩ := ih later
    constructor
    · intro path
      rw [run path, step path, List.mem_cons]
      constructor
      · rintro ((member | ⟨rfl, present⟩) | ⟨member, present⟩)
        · exact .inl member
        · exact .inr ⟨.inl rfl, present⟩
        · exact .inr ⟨.inr member, present⟩
      · rintro (member | ⟨rfl | member, present⟩)
        · exact .inl (.inl member)
        · exact .inl (.inr ⟨rfl, present⟩)
        · exact .inr ⟨member, present⟩
    · intro path member new code failed
      rcases List.mem_cons.mp member with rfl | member
      · exact examined new code failed
      · refine others path member (fun old => ?_) code failed
        rcases (step path).mp old with old | ⟨rfl, present⟩
        · exact new old
        · rw [present] at failed
          cases failed

/-- The loop fails on a boundary that is not selected yet and could not be examined. -/
theorem selectBoundary_error {code : String}
    (failed : boundaries.foldlM (selectBoundary tree) selected = .error code) :
    ∃ path ∈ boundaries, path ∉ selected ∧ code ≠ typeUnsupported ∧
      workspaceArtifactExists tree path = .error code := by
  induction boundaries generalizing selected with
  | nil => cases failed
  | cons first rest ih =>
    rw [List.foldlM_cons] at failed
    cases here : selectBoundary tree selected first with
    | ok next =>
      rw [here] at failed
      obtain ⟨path, member, new, facts⟩ := ih failed
      exact ⟨path, List.mem_cons_of_mem _ member,
        fun old => new (((selectBoundary_ok here).1 path).mpr (.inl old)), facts⟩
    | error other =>
      rw [here] at failed
      obtain rfl := Except.error.inj failed
      unfold selectBoundary at here
      split_ifs at here with held
      split at here
      · cases here
      · cases here
      · rename_i raised answer
        split_ifs at here with allowed
        obtain rfl := Except.error.inj here
        exact ⟨first, List.mem_cons_self, fun member => held (List.contains_iff_mem.mpr member), allowed, answer⟩

/-! ### Both together -/

/-- A declared boundary that is not in the split has no reserved part: the path of one dot is only declared
for itself. -/
theorem plain_of_declared (declared : Declared start boundaries) (member : path ∈ boundaries)
    (new : path ∉ datasetBoundaryArtifactPaths tree start boundaries) :
    (components path).any isReserved = false := by
  refine not_reserved (declared.valid path member) fun dot => new ?_
  have way := within_iff.mp (declared.within path member)
  have single : components path = [path] := components_of_no_slash (by rw [dot]; decide)
  obtain ⟨head, tail, parts⟩ := List.exists_cons_of_ne_nil (@components_ne_nil start)
  rw [single, parts] at way
  obtain ⟨same, nothing⟩ := List.cons_prefix_cons.mp way
  rw [List.prefix_nil.mp nothing, same, ← single] at parts
  obtain rfl := components_injective parts
  rw [datasetBoundaryArtifactPaths, if_pos (List.contains_iff_mem.mpr member)]
  exact List.mem_singleton_self _

theorem declared_eq_error_iff {code : String} :
    declaredBoundaryArtifactPaths tree start boundaries = .error code ↔
      boundaries.foldlM (selectBoundary tree) (datasetBoundaryArtifactPaths tree start boundaries) =
        .error code := by
  rw [declaredBoundaryArtifactPaths]
  cases boundaries.foldlM (selectBoundary tree) (datasetBoundaryArtifactPaths tree start boundaries) <;>
    simp [bind, Except.bind, pure, Except.pure]

/-- The declared boundaries cannot be added exactly when one of them cannot be examined. -/
theorem declared_fails_iff (declared : Declared start boundaries) (code : String) :
    declaredBoundaryArtifactPaths tree start boundaries = .error code ↔
      code = unavailable ∧ ∃ path ∈ boundaries,
        path ∉ datasetBoundaryArtifactPaths tree start boundaries ∧ Unexaminable tree path := by
  rw [declared_eq_error_iff]
  constructor
  · intro failed
    obtain ⟨path, member, new, other, answer⟩ := selectBoundary_error failed
    obtain ⟨same, hidden⟩ := (exists_error (plain_of_declared declared member new) answer).resolve_left other
    exact ⟨same, path, member, new, hidden⟩
  · rintro ⟨rfl, path, member, new, hidden⟩
    have answer := exists_of_unexaminable (plain_of_declared declared member new) hidden
    cases run : boundaries.foldlM (selectBoundary tree)
        (datasetBoundaryArtifactPaths tree start boundaries) with
    | ok result => exact absurd ((selectBoundary_run run).2 path member new _ answer) (by decide)
    | error other =>
      obtain ⟨second, secondIn, secondNew, apart, failed⟩ := selectBoundary_error run
      obtain ⟨rfl, _⟩ :=
        (exists_error (plain_of_declared declared secondIn secondNew) failed).resolve_left apart
      rfl

/-- What the declared boundaries add to the split. -/
theorem mem_declared_iff (declared : Declared start boundaries) {paths : List String}
    (done : declaredBoundaryArtifactPaths tree start boundaries = .ok paths) (path : String) :
    path ∈ paths ↔ path ∈ datasetBoundaryArtifactPaths tree start boundaries ∨
      path ∈ boundaries ∧ ((tree.find path).isSome = true ∨ BehindLink tree path) := by
  obtain ⟨result, run, ⟨⟩⟩ := bind_eq_ok_iff.mp done
  obtain ⟨added, examined⟩ := selectBoundary_run run
  rw [sortedSet, List.mem_insertionSort, List.mem_dedup, added path]
  by_cases held : path ∈ datasetBoundaryArtifactPaths tree start boundaries
  · simp [held]
  · refine or_congr_right (and_congr_right fun member => ?_)
    have plain := plain_of_declared declared member held
    have seen : ¬ Unexaminable tree path := fun hidden =>
      absurd (examined path member held _ (exists_of_unexaminable plain hidden)) (by decide)
    constructor
    · exact found_or_links_of_exists plain
    · rintro (found | links)
      · obtain ⟨node, there⟩ := Option.isSome_iff_exists.mp found
        exact exists_of_found plain there seen
      · exact exists_of_links plain links

/-- A workspace with one data file. -/
def sampleTree : Tree where
  limit := 255
  entries := [("data", .directory [("x", .file [1])])]
  formed := by decide

/-- A name of a given length. -/
def nameOf (count : ℕ) : String := String.ofList (List.replicate count 'a')

theorem components_nameOf (start : String) (count : ℕ) :
    components (start ++ "/" ++ nameOf count) = components start ++ [nameOf count] := by
  have solid : '/' ∉ (nameOf count).toList := by
    intro slash
    rw [nameOf, String.toList_ofList] at slash
    exact absurd (List.eq_of_mem_replicate slash) (by decide)
  rw [components_join, components_of_no_slash solid]

theorem size_nameOf (count : ℕ) : (nameOf count).utf8ByteSize = count := by
  induction count with
  | zero => rfl
  | succ count ih =>
    rw [nameOf] at ih ⊢
    rw [List.replicate_succ', String.ofList_append, String.utf8ByteSize_append, ih]
    rfl

/-- A path is valid when its last name is not too long. -/
theorem valid_nameOf {count : ℕ} (some : 2 < count) (short : count ≤ 1000) :
    validateBundleRelativePath ("data" ++ "/" ++ nameOf count) = true := by
  have plain : ∀ char ∈ "data/".toList, Text.isSpace char = false ∧
      (char = '\\' || char = '\x00' || char = '\r' || char = '\n') = false := by
    have letters : "data/".toList = ['d', 'a', 't', 'a', '/'] := rfl
    intro char member
    rw [letters] at member
    simp only [List.mem_cons, List.not_mem_nil, or_false] at member
    rcases member with rfl | rfl | rfl | rfl | rfl
    all_goals exact ⟨rfl, rfl⟩
  have chars : ∀ char ∈ ("data" ++ "/" ++ nameOf count).toList, Text.isSpace char = false ∧
      (char = '\\' || char = '\x00' || char = '\r' || char = '\n') = false := by
    intro char member
    rw [String.toList_append, List.mem_append, nameOf, String.toList_ofList] at member
    rcases member with start | name
    · exact plain char start
    · rw [List.eq_of_mem_replicate name]
      decide
  have other : ∀ part : String, part.utf8ByteSize ≤ 2 → nameOf count ≠ part := by
    rintro part small rfl
    rw [size_nameOf] at small
    omega
  have size : ("data" ++ "/" ++ nameOf count).utf8ByteSize = 5 + count := by
    rw [String.utf8ByteSize_append, size_nameOf]
    rfl
  have stripped := Text.strip_of_no_space fun char member => (chars char member).1
  have parts := components_nameOf "data" count
  rw [show components "data" = ["data"] from rfl] at parts
  simp only [validateBundleRelativePath, Bool.and_eq_true, decide_eq_true_eq, Bool.not_eq_true', parts, size,
    stripped, implementationPathMaxBytes]
  refine ⟨⟨⟨⟨⟨?_, by omega⟩, trivial⟩, ?_⟩, ?_⟩, ?_⟩
  · rintro empty
    rw [empty] at size
    have none : 0 = 5 + count := size
    omega
  · exact List.any_eq_false.mpr fun char member => by simp [(chars char member).2]
  · simpa using (other "" (by decide)).symm
  · have dot := other "." (by decide)
    have dots := other ".." (by decide)
    simp [dot, dots]

end MetaResearch.Retention
