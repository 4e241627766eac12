/-
  The tree of the FUSE file system: `FuseNode::build_tree`, `FuseServer::load_file_list` and
  `FuseServer::lookup` of libs/clipboard/src/platform/unix/fuse/cs.rs.

  One pass over the peer's list numbers the nodes: entry `i` becomes node `i + 1` of the tree, with
  inode `i + 2`. A map from the directories seen so far to their inodes gives each entry its parent.
  `tree_faithful`: if no path is there twice and every parent is an earlier directory of the list,
  the tree is the one that the paths say, and a walk from the root along a path ends at its entry.

  What stands in the way of a walk is the length of a name. A path that does not end in a name of
  its own makes the whole list fail.
-/
import LuodaRemote.Clipboard.Descriptors
import LuodaRemote.Clipboard.Fuse
import LuodaRemote.Lib.Utf8
import LuodaRemote.Transfer.Job

namespace LuodaRemote
open Lib

namespace Fuse
open Clip (FileDescription FileType getElem?_concat_cases)

/-! ## Nodes -/

def fuseRootId : Nat := 1

def permRwx : Nat := 0o755

/-- In bytes. -/
def maxNameLen : Nat := 255

structure InodeAttributes where
  inode : Nat
  size : Nat
  lastAccessed : Nat
  lastModified : Nat
  lastMetadataChanged : Nat
  creationTime : Nat
  kind : FileType
  perm : Nat
deriving DecidableEq

/-- `FuseNode` with all that `build_tree` gives it. -/
structure TreeNode extends FuseNode where
  /-- The inode of the parent. -/
  parent : Option Nat
  name : String
  attributes : InodeAttributes
  /-- The inodes of the children. -/
  children : List Nat
deriving DecidableEq

/-- The clock and the random numbers, by the inode that is made when they are asked. -/
structure Surroundings where
  now : Nat → Nat
  random : Nat → Int32

variable (env : Surroundings)

def InodeAttributes.new (inode size perm : Nat) (kind : FileType) : InodeAttributes where
  inode := inode
  size := size
  lastAccessed := env.now inode
  lastModified := env.now inode
  lastMetadataChanged := env.now inode
  creationTime := env.now inode
  kind := kind
  perm := perm

def InodeAttributes.newRoot : InodeAttributes := .new env fuseRootId 0 permRwx .directory

def InodeAttributes.fromDescription (inode : Nat) (desc : FileDescription) : InodeAttributes where
  inode := inode
  size := desc.size
  lastModified := desc.lastModified
  lastMetadataChanged := desc.lastMetadataChanged
  creationTime := desc.creationTime
  lastAccessed := env.now inode
  kind := desc.kind
  perm := desc.perm

def TreeNode.fromDescription (inode : Nat) (desc : FileDescription) : TreeNode where
  connId := desc.connId
  streamId := env.random inode
  index := inode - 2
  name := desc.name
  parent := none
  attributes := .fromDescription env inode desc
  children := []

def TreeNode.newRoot : TreeNode where
  connId := 0
  streamId := env.random fuseRootId
  index := 0
  name := "/"
  parent := none
  attributes := .newRoot env
  children := []

def TreeNode.addChild (node : TreeNode) (inode : Nat) : TreeNode :=
  { node with children := node.children ++ [inode] }

/-! ## Paths -/

/-- The components of an entry's path; two `PathBuf`s are equal if they have the same ones. -/
def path (file : FileDescription) : List PathComponent := pathComponents false file.name

/-- `Path::parent`. -/
def parent (p : List PathComponent) : Option (List PathComponent) :=
  match p.getLast? with
  | none | some .rootDir | some .drive => none
  | some _ => some p.dropLast

/-- `Path::file_name`. -/
def fileName (p : List PathComponent) : Option String :=
  match p.getLast? with
  | some (.normal name) => some name
  | _ => none

/-- `Component::as_os_str`; Unix has no drives. -/
def asOsStr : PathComponent → String
  | .normal name => name
  | .curDir => "."
  | .parentDir => ".."
  | .rootDir => "/"
  | .drive => ""

/-! ## Building the tree -/

/-- `tree_list` and `sub_root_map`. -/
structure Building where
  treeList : List TreeNode
  subRootMap : List (List PathComponent × Nat)

def Building.start : Building where
  treeList := [.newRoot env]
  subRootMap := [([], fuseRootId), ([.rootDir], fuseRootId)]

/-- The loop of `build_tree` for one file. -/
def addFile (b : Building) (file : FileDescription) : Except CliprdrError Building :=
  let inode := b.treeList.length + fuseRootId
  let parentInode := match parent (path file) with
    | some p => (b.subRootMap.lookup p).getD fuseRootId
    | none => fuseRootId
  let treeList := b.treeList.modify (parentInode - 1) (·.addChild inode)
  match fileName (path file) with
  | none => .error (.fileError file.name ("invalid file name " ++ file.name))
  | some baseName =>
    let subRootMap := if file.kind = .directory then (path file, inode) :: b.subRootMap
      else b.subRootMap
    let node := TreeNode.fromDescription env inode { file with name := baseName }
    .ok { treeList := treeList ++ [{ node with parent := some parentInode }], subRootMap }

def buildTree (files : List FileDescription) : Except CliprdrError (List TreeNode) :=
  (files.foldlM (addFile env) (.start env)).map (·.treeList)

/-! ## The server -/

structure FuseServer where
  generation : UInt64
  files : List TreeNode
deriving DecidableEq

/-- `load_file_list`. -/
def FuseServer.loadFileList (s : FuseServer) (files : List FileDescription) :
    Except CliprdrError Unit × FuseServer :=
  match buildTree env files with
  | .error e => (.error e, s)
  | .ok tree => (.ok (), { files := tree, generation := s.generation + 1 })

inductive Errno where
  | enametoolong | enoent | enotdir
deriving DecidableEq

/-- What becomes of a `lookup`. -/
inductive LookupReply where
  | entry (attributes : InodeAttributes) (generation : UInt64)
  | error (errno : Errno)
  /-- A child that is not in the list. -/
  | panicked
deriving DecidableEq

/-- The loop of `lookup` over the children. -/
def FuseServer.findChild (s : FuseServer) (name : String) : List Nat → LookupReply
  | [] => .error .enoent
  | inode :: rest =>
    match s.files[inode - 1]? with
    | none => .panicked
    | some child =>
      if child.name = name then .entry child.attributes s.generation
      else s.findChild name rest

def FuseServer.lookup (s : FuseServer) (parent : Nat) (name : String) : LookupReply :=
  if (asBytes name).length > maxNameLen then .error .enametoolong
  else match parent with
    -- `parent as usize - 1` wraps around.
    | 0 => .error .enoent
    | position + 1 =>
      match s.files[position]? with
      | none => .error .enoent
      | some parentEntry =>
        if parentEntry.attributes.kind ≠ .directory then .error .enotdir
        else s.findChild name parentEntry.children

/-- The next component of a path, looked up in what the last one led to. -/
def FuseServer.lookupNext (s : FuseServer) : LookupReply → PathComponent → LookupReply
  | .entry attributes _, c => s.lookup attributes.inode (asOsStr c)
  | failed, _ => failed

/-- The components of a path looked up one after the other from the root. -/
def FuseServer.lookupPath (s : FuseServer) (p : List PathComponent) : LookupReply :=
  p.foldl s.lookupNext (.entry (.newRoot env) s.generation)

/-! ## The tree that the paths say -/

/-- The files before the one at `i` of the list. -/
def Before (files : List FileDescription) (i : Nat) (file : FileDescription) : Prop :=
  ∃ j < i, files[j]? = some file

/-- No path is there twice, all are relative, and the parent of each is empty or a directory that
    is earlier in the list. -/
structure Preordered (files : List FileDescription) : Prop where
  distinct : (files.map path).Nodup
  relative : ∀ file ∈ files, .rootDir ∉ path file
  parents : ∀ i file, files[i]? = some file → (path file).dropLast = [] ∨
    ∃ dir, Before files i dir ∧ dir.kind = .directory ∧ path dir = (path file).dropLast

/-- What the node at a position of the tree stands for: the root, or an entry of the list. -/
def pathAt (files : List FileDescription) : Nat → Option (List PathComponent)
  | 0 => some []
  | i + 1 => (files[i]?).map path

def kindAt (files : List FileDescription) : Nat → Option FileType
  | 0 => some .directory
  | i + 1 => (files[i]?).map (·.kind)

/-- The inodes of the nodes with a parent, in the order of the list. -/
def childrenOf (tree : List TreeNode) (inode : Nat) : List Nat :=
  (tree.filter (·.parent = some inode)).map (·.attributes.inode)

structure Faithful (files : List FileDescription) (tree : List TreeNode) : Prop where
  length : tree.length = files.length + 1
  inode : ∀ i node, tree[i]? = some node → node.attributes.inode = i + 1
  index : ∀ i node, tree[i + 1]? = some node → node.index = i
  /-- A node is what the list says of its entry, under the last component of its path. -/
  entry : ∀ i file, files[i]? = some file → ∃ node, tree[i + 1]? = some node ∧
    node.attributes = .fromDescription env (i + 2) file ∧ fileName (path file) = some node.name
  /-- The recorded parent is the node with the parent's path. -/
  parent : ∀ i node, tree[i + 1]? = some node → ∃ p, p < i + 1 ∧ node.parent = some (p + 1) ∧
    pathAt files p = (pathAt files (i + 1)).map List.dropLast
  /-- It alone has the node for a child, once. -/
  child : ∀ i node, tree[i + 1]? = some node → ∀ p up, tree[p]? = some up →
    up.children.count (i + 2) = if node.parent = some (p + 1) then 1 else 0
  /-- A walk along an entry's path ends at its node, if no name is too long to be looked up. -/
  reach : ∀ generation i file, files[i]? = some file →
    ((FuseServer.mk generation tree).lookupPath env (path file) =
        .entry (.fromDescription env (i + 2) file) generation ↔
      ∀ c ∈ path file, (asBytes (asOsStr c)).length ≤ maxNameLen)

/-! ## One file after another -/

/-- What holds of the loop's variables after these files. -/
structure Built (files : List FileDescription) (b : Building) : Prop where
  length : b.treeList.length = files.length + 1
  root : ∃ node, b.treeList[0]? = some node ∧ node.attributes = .newRoot env ∧ node.parent = none
  entry : ∀ i file, files[i]? = some file → ∃ node p, b.treeList[i + 1]? = some node ∧
    node.index = i ∧ node.attributes = .fromDescription env (i + 2) file ∧
    fileName (path file) = some node.name ∧ node.parent = some (p + 1) ∧ p < i + 1 ∧
    pathAt files p = some (path file).dropLast ∧ kindAt files p = some .directory
  children : ∀ p up, b.treeList[p]? = some up → up.children = childrenOf b.treeList (p + 1)
  top : b.subRootMap.lookup [] = some 1
  dirs : ∀ i dir, files[i]? = some dir → dir.kind = .directory →
    b.subRootMap.lookup (path dir) = some (i + 2)

variable {env} {files done : List FileDescription} {file dir : FileDescription} {b : Building}

theorem path_of_fileName {p : List PathComponent} {name : String} (h : fileName p = some name) :
    p = p.dropLast ++ [.normal name] := by
  unfold fileName at h
  split at h
  · rename_i last hlast
    cases h
    have hne : p ≠ [] := by
      intro hnil
      rw [hnil] at hlast
      cases hlast
    have hget : p.getLast hne = .normal name := by
      rw [List.getLast?_eq_some_getLast hne] at hlast
      exact Option.some.inj hlast
    rw [← hget, List.dropLast_append_getLast]
  · cases h

theorem parent_of_fileName {p : List PathComponent} {name : String} (h : fileName p = some name) :
    parent p = some p.dropLast := by
  unfold parent
  have hlast : p.getLast? = some (.normal name) := by
    rw [path_of_fileName h, List.getLast?_append]
    rfl
  rw [hlast]

theorem pathAt_append {p : Nat} (hp : p ≤ files.length) (more : List FileDescription) :
    pathAt (files ++ more) p = pathAt files p := by
  cases p with
  | zero => rfl
  | succ i => rw [pathAt, pathAt, List.getElem?_append_left hp]

theorem kindAt_append {p : Nat} (hp : p ≤ files.length) (more : List FileDescription) :
    kindAt (files ++ more) p = kindAt files p := by
  cases p with
  | zero => rfl
  | succ i => rw [kindAt, kindAt, List.getElem?_append_left hp]

theorem preordered_of_append {more : List FileDescription} (h : Preordered (files ++ more)) :
    Preordered files where
  distinct := by
    have := h.distinct
    rw [List.map_append] at this
    exact this.of_append_left
  relative file hf := h.relative file (List.mem_append_left _ hf)
  parents i file hi := by
    have hlt := (List.getElem?_eq_some_iff.mp hi).1
    rcases h.parents i file (by rw [List.getElem?_append_left hlt, hi]) with htop | hdir
    · exact .inl htop
    · obtain ⟨dir, ⟨j, hj, hdir⟩, hkind, hpath⟩ := hdir
      rw [List.getElem?_append_left (hj.trans hlt)] at hdir
      exact .inr ⟨dir, ⟨j, hj, hdir⟩, hkind, hpath⟩

/-- A new child is seen at its parent, and nothing else changes. -/
theorem getElem?_addChild (tree : List TreeNode) (p inode k : Nat) :
    (tree.modify p (·.addChild inode))[k]? = (tree[k]?).map fun node =>
      { node with children := node.children ++ if p = k then [inode] else [] } := by
  rw [List.getElem?_modify]
  cases tree[k]? with
  | none => rfl
  | some node =>
    by_cases hk : p = k
    · simp [hk, TreeNode.addChild]
    · simp [hk]

/-- The nodes that there were, after a file is added. -/
theorem getElem?_grown {tree : List TreeNode} {p inode k : Nat} {node new : TreeNode}
    (hk : tree[k]? = some node) :
    (tree.modify p (·.addChild inode) ++ [new])[k]? = some
      { node with children := node.children ++ if p = k then [inode] else [] } := by
  have hlt := (List.getElem?_eq_some_iff.mp hk).1
  rw [List.getElem?_append_left (by rwa [List.length_modify]), getElem?_addChild, hk,
    Option.map_some]

theorem getElem?_new {tree : List TreeNode} {p inode k : Nat} {new : TreeNode}
    (hk : k = tree.length) : (tree.modify p (·.addChild inode) ++ [new])[k]? = some new := by
  have hlen : k = (tree.modify p (·.addChild inode)).length := by rw [List.length_modify, hk]
  rw [hlen, List.getElem?_concat_length]

theorem childrenOf_addChild (tree : List TreeNode) (p inode up : Nat) :
    childrenOf (tree.modify p (·.addChild inode)) up = childrenOf tree up := by
  unfold childrenOf
  induction tree generalizing p with
  | nil => simp
  | cons node tree ih =>
    cases p with
    | zero =>
      rw [List.modify_zero_cons, List.filter_cons, List.filter_cons]
      by_cases hup : node.parent = some up
      · simp [hup, TreeNode.addChild]
      · simp [hup, TreeNode.addChild]
    | succ p =>
      rw [List.modify_succ_cons, List.filter_cons, List.filter_cons]
      by_cases hup : node.parent = some up
      · simp [hup, ih]
      · simp [hup, ih]

theorem childrenOf_concat (tree : List TreeNode) (node : TreeNode) (up : Nat) :
    childrenOf (tree ++ [node]) up =
      childrenOf tree up ++ if node.parent = some up then [node.attributes.inode] else [] := by
  unfold childrenOf
  rw [List.filter_append, List.map_append]
  by_cases hup : node.parent = some up
  · simp [hup]
  · simp [hup]

theorem built_start : Built env [] (.start env) where
  length := rfl
  root := ⟨.newRoot env, rfl, rfl, rfl⟩
  entry i file hi := by cases hi
  children p up hup := by
    cases p with
    | zero =>
      cases hup
      rfl
    | succ p => cases hup
  top := rfl
  dirs i dir hi := by cases hi

/-- The map has the parent of the next file. -/
theorem parent_found (hb : Built env done b) (hpre : Preordered (done ++ [file])) :
    ∃ p ≤ done.length, b.subRootMap.lookup (path file).dropLast = some (p + 1) ∧
      pathAt done p = some (path file).dropLast ∧ kindAt done p = some .directory := by
  rcases hpre.parents done.length file List.getElem?_concat_length with htop | hdir
  · exact ⟨0, Nat.zero_le _, by rw [htop, hb.top], by rw [htop, pathAt], rfl⟩
  · obtain ⟨dir, ⟨j, hj, hdir⟩, hkind, hpath⟩ := hdir
    rw [List.getElem?_append_left hj] at hdir
    refine ⟨j + 1, hj, ?_, ?_, ?_⟩
    · rw [← hpath, hb.dirs j dir hdir hkind]
    · rw [pathAt, hdir, Option.map_some, hpath]
    · rw [kindAt, hdir, Option.map_some, hkind]

theorem addFile_unnamed (h : fileName (path file) = none) :
    addFile env b file =
      .error (.fileError file.name ("invalid file name " ++ file.name)) := by
  unfold addFile
  simp only [h]

/-- The node of a file. -/
def TreeNode.ofFile (env : Surroundings) (inode parentInode : Nat) (file : FileDescription)
    (baseName : String) : TreeNode :=
  { TreeNode.fromDescription env inode { file with name := baseName } with
    parent := some parentInode }

/-- The loop's variables after one more file, under the node at `p`. -/
def Building.add (env : Surroundings) (b : Building) (p : Nat) (file : FileDescription)
    (baseName : String) : Building where
  treeList := b.treeList.modify p (·.addChild (b.treeList.length + 1)) ++
    [.ofFile env (b.treeList.length + 1) (p + 1) file baseName]
  subRootMap := if file.kind = .directory then (path file, b.treeList.length + 1) :: b.subRootMap
    else b.subRootMap

theorem addFile_named {baseName : String} {p : Nat} (h : fileName (path file) = some baseName)
    (hp : b.subRootMap.lookup (path file).dropLast = some (p + 1)) :
    addFile env b file = .ok (b.add env p file baseName) := by
  unfold addFile
  simp only [h, parent_of_fileName h, hp, fuseRootId, Option.getD_some, Nat.add_sub_cancel]
  rfl

theorem root_of_built (hb : Built env files b) {node : TreeNode}
    (h : b.treeList[0]? = some node) :
    node.attributes = .newRoot env ∧ node.parent = none := by
  obtain ⟨root, hroot, hattr, hnone⟩ := hb.root
  rw [hroot] at h
  cases h
  exact ⟨hattr, hnone⟩

/-- The entry that a node was made for. -/
theorem entry_of_node (hb : Built env files b) {i : Nat} {node : TreeNode}
    (hi : b.treeList[i + 1]? = some node) : ∃ file, files[i]? = some file ∧ ∃ p,
      node.index = i ∧ node.attributes = .fromDescription env (i + 2) file ∧
      fileName (path file) = some node.name ∧ node.parent = some (p + 1) ∧ p < i + 1 ∧
      pathAt files p = some (path file).dropLast ∧ kindAt files p = some .directory := by
  have hlt : i < files.length := by
    have := (List.getElem?_eq_some_iff.mp hi).1
    have := hb.length
    omega
  obtain ⟨node', p, hnode, hrest⟩ := hb.entry i _ (List.getElem?_eq_getElem hlt)
  rw [hi] at hnode
  cases hnode
  exact ⟨files[i], List.getElem?_eq_getElem hlt, p, hrest⟩

/-- No recorded parent is behind the last node. -/
theorem parent_le_of_built (hb : Built env done b) {node : TreeNode} {inode : Nat}
    (hmem : node ∈ b.treeList) (hparent : node.parent = some inode) : inode ≤ done.length := by
  obtain ⟨k, hk⟩ := List.getElem?_of_mem hmem
  cases k with
  | zero =>
    rw [(root_of_built hb hk).2] at hparent
    cases hparent
  | succ i =>
    obtain ⟨file, hfile, p, -, -, -, hp, hlt, -⟩ := entry_of_node hb hk
    have hi := (List.getElem?_eq_some_iff.mp hfile).1
    rw [hp] at hparent
    cases hparent
    omega

theorem childrenOf_new (hb : Built env done b) :
    childrenOf b.treeList (b.treeList.length + 1) = [] := by
  unfold childrenOf
  rw [List.map_eq_nil_iff, List.filter_eq_nil_iff]
  intro node hmem hparent
  have hle := parent_le_of_built hb hmem (of_decide_eq_true hparent)
  have := hb.length
  omega

section Step

variable {baseName : String} {p : Nat}

theorem entry_add (hb : Built env done b) (hname : fileName (path file) = some baseName)
    (hple : p ≤ done.length) (hpath : pathAt done p = some (path file).dropLast)
    (hkind : kindAt done p = some .directory) {i : Nat} {entry : FileDescription}
    (hi : (done ++ [file])[i]? = some entry) :
    ∃ node q, (b.add env p file baseName).treeList[i + 1]? = some node ∧ node.index = i ∧
      node.attributes = .fromDescription env (i + 2) entry ∧
      fileName (path entry) = some node.name ∧ node.parent = some (q + 1) ∧ q < i + 1 ∧
      pathAt (done ++ [file]) q = some (path entry).dropLast ∧
      kindAt (done ++ [file]) q = some .directory := by
  have hlen := hb.length
  rcases getElem?_concat_cases hi with hi | ⟨rfl, rfl⟩
  · have hlt := (List.getElem?_eq_some_iff.mp hi).1
    obtain ⟨node, q, hnode, hindex, hattr, hnamed, hparent, hq, hqpath, hqkind⟩ :=
      hb.entry i entry hi
    refine ⟨_, q, getElem?_grown hnode, hindex, hattr, hnamed, hparent, hq, ?_, ?_⟩
    · rw [pathAt_append (by omega), hqpath]
    · rw [kindAt_append (by omega), hqkind]
  · -- The new node.
    refine ⟨_, p, getElem?_new hlen.symm, ?_, ?_, hname, rfl, Nat.lt_succ_of_le hple, ?_, ?_⟩
    · dsimp only [TreeNode.ofFile, TreeNode.fromDescription]
      omega
    · dsimp only [TreeNode.ofFile, TreeNode.fromDescription]
      rw [hlen]
      rfl
    · rw [pathAt_append hple, hpath]
    · rw [kindAt_append hple, hkind]

theorem children_add (hb : Built env done b) (hple : p ≤ done.length) {q : Nat} {up : TreeNode}
    (hup : (b.add env p file baseName).treeList[q]? = some up) :
    up.children = childrenOf (b.add env p file baseName).treeList (q + 1) := by
  have hlen := hb.length
  have hgrown : childrenOf (b.add env p file baseName).treeList (q + 1) =
      childrenOf b.treeList (q + 1) ++
        if some (p + 1) = some (q + 1) then [b.treeList.length + 1] else [] := by
    rw [Building.add, childrenOf_concat, childrenOf_addChild]
    rfl
  rw [hgrown]
  rcases getElem?_concat_cases hup with hup | ⟨hq, rfl⟩
  · rw [getElem?_addChild] at hup
    obtain ⟨node, hnode, rfl⟩ := Option.map_eq_some_iff.mp hup
    dsimp only
    rw [hb.children q node hnode]
    by_cases hq : p = q
    · simp [hq]
    · simp [hq]
  · -- Nothing is below the new node.
    rw [List.length_modify] at hq
    subst hq
    have hne : ¬ some (p + 1) = some (b.treeList.length + 1) := by
      intro heq
      have := Option.some.inj heq
      omega
    rw [childrenOf_new hb, if_neg hne]
    rfl

theorem dirs_add (hb : Built env done b) (hpre : Preordered (done ++ [file])) {i : Nat}
    (hi : (done ++ [file])[i]? = some dir) (hdir : dir.kind = .directory) :
    (b.add env p file baseName).subRootMap.lookup (path dir) = some (i + 2) := by
  unfold Building.add
  dsimp only
  rcases getElem?_concat_cases hi with hi | ⟨rfl, rfl⟩
  · have hold := hb.dirs i dir hi hdir
    have hne : (path dir == path file) = false := by
      have hd := hpre.distinct
      rw [List.map_append, List.nodup_append] at hd
      have := hd.2.2 (path dir) (List.mem_map_of_mem (List.mem_of_getElem? hi)) (path file)
        (by simp)
      simpa using this
    split
    · rw [List.lookup_cons, hne]
      exact hold
    · exact hold
  · rw [if_pos hdir, List.lookup_cons, beq_self_eq_true, hb.length]

theorem top_add (hb : Built env done b) (hname : fileName (path file) = some baseName) :
    (b.add env p file baseName).subRootMap.lookup [] = some 1 := by
  unfold Building.add
  dsimp only
  split
  · have hne : ([] == path file) = false := by
      rw [path_of_fileName hname]
      simp
    rw [List.lookup_cons, hne]
    exact hb.top
  · exact hb.top

end Step

/-- The step of the loop. -/
theorem built_addFile (hb : Built env done b) (hpre : Preordered (done ++ [file]))
    {baseName : String} (hname : fileName (path file) = some baseName) :
    ∃ b', addFile env b file = .ok b' ∧ Built env (done ++ [file]) b' := by
  obtain ⟨p, hple, hlookup, hpath, hkind⟩ := parent_found hb hpre
  refine ⟨_, addFile_named hname hlookup, ?_⟩
  constructor
  · rw [Building.add, List.length_append, List.length_modify, hb.length, List.length_append,
      List.length_singleton, List.length_singleton]
  · obtain ⟨root, hroot, hattr, hnone⟩ := hb.root
    exact ⟨_, getElem?_grown hroot, hattr, hnone⟩
  · exact fun i entry hi => entry_add hb hname hple hpath hkind hi
  · exact fun q up hup => children_add hb hple hup
  · exact top_add hb hname
  · exact fun i dir hi hdir => dirs_add hb hpre hi hdir

/-- The list of a loop that ran to its end, or the file that stopped it. -/
theorem built_foldlM (hb : Built env done b) :
    ∀ {rest : List FileDescription}, Preordered (done ++ rest) →
      (∃ b', rest.foldlM (addFile env) b = .ok b' ∧ Built env (done ++ rest) b' ∧
        ∀ file ∈ rest, fileName (path file) ≠ none) ∨
      ((∃ e, rest.foldlM (addFile env) b = .error e) ∧
        ∃ file ∈ rest, fileName (path file) = none) := by
  intro rest
  induction rest generalizing done b with
  | nil =>
    intro _
    refine .inl ⟨b, rfl, ?_, fun _ hf => absurd hf List.not_mem_nil⟩
    rwa [List.append_nil]
  | cons file rest ih =>
    intro hpre
    rw [List.foldlM_cons]
    rw [List.append_cons] at hpre ⊢
    cases hname : fileName (path file) with
    | none =>
      rw [addFile_unnamed hname]
      exact .inr ⟨⟨_, rfl⟩, file, List.mem_cons_self, hname⟩
    | some baseName =>
      obtain ⟨b', hok, hb'⟩ := built_addFile hb (preordered_of_append hpre) hname
      rw [hok]
      rcases ih hb' hpre with ⟨b'', hrun, hb'', hnamed⟩ | ⟨hrun, bad, hbad, hunnamed⟩
      · refine .inl ⟨b'', hrun, hb'', List.forall_mem_cons.mpr ⟨?_, hnamed⟩⟩
        rw [hname]
        exact Option.some_ne_none baseName
      · exact .inr ⟨hrun, bad, List.mem_cons_of_mem _ hbad, hunnamed⟩

/-! ## What the finished tree has -/

theorem inode_of_built (hb : Built env files b) {i : Nat} {node : TreeNode}
    (hi : b.treeList[i]? = some node) : node.attributes.inode = i + 1 := by
  cases i with
  | zero =>
    rw [(root_of_built hb hi).1]
    rfl
  | succ i =>
    obtain ⟨file, -, p, -, hattr, -⟩ := entry_of_node hb hi
    rw [hattr]
    rfl

theorem mem_childrenOf (hb : Built env files b) {inode p : Nat} :
    inode ∈ childrenOf b.treeList (p + 1) ↔ ∃ i node, inode = i + 2 ∧
      b.treeList[i + 1]? = some node ∧ node.parent = some (p + 1) := by
  unfold childrenOf
  rw [List.mem_map]
  constructor
  · rintro ⟨node, hmem, rfl⟩
    obtain ⟨hmem, hparent⟩ := List.mem_filter.mp hmem
    have hparent := of_decide_eq_true hparent
    obtain ⟨k, hk⟩ := List.getElem?_of_mem hmem
    cases k with
    | zero =>
      rw [(root_of_built hb hk).2] at hparent
      cases hparent
    | succ i => exact ⟨i, node, inode_of_built hb hk, hk, hparent⟩
  · rintro ⟨i, node, rfl, hnode, hparent⟩
    refine ⟨node, List.mem_filter.mpr ⟨List.mem_of_getElem? hnode, ?_⟩, inode_of_built hb hnode⟩
    exact decide_eq_true hparent

theorem nodup_childrenOf (hb : Built env files b) (inode : Nat) :
    (childrenOf b.treeList inode).Nodup := by
  have hinodes : (b.treeList.map (·.attributes.inode)).Nodup := by
    rw [List.nodup_iff_getElem?_ne_getElem?]
    intro i j hij hj heq
    rw [List.length_map] at hj
    have hi : i < b.treeList.length := hij.trans hj
    rw [List.getElem?_map, List.getElem?_map, List.getElem?_eq_getElem hi,
      List.getElem?_eq_getElem hj, Option.map_some, Option.map_some,
      inode_of_built hb (List.getElem?_eq_getElem hi),
      inode_of_built hb (List.getElem?_eq_getElem hj)] at heq
    have := Option.some.inj heq
    omega
  exact hinodes.sublist (List.filter_sublist.map _)

/-- A node is once among the children of its parent, and of no other node. -/
theorem count_children (hb : Built env files b) {i p : Nat} {node up : TreeNode}
    (hi : b.treeList[i + 1]? = some node) (hp : b.treeList[p]? = some up) :
    up.children.count (i + 2) = if node.parent = some (p + 1) then 1 else 0 := by
  rw [hb.children p up hp, (nodup_childrenOf hb (p + 1)).count]
  refine if_congr ?_ rfl rfl
  rw [mem_childrenOf hb]
  constructor
  · rintro ⟨j, node', hj, hnode, hparent⟩
    have hij : j = i := by omega
    subst hij
    rw [hi] at hnode
    cases hnode
    exact hparent
  · intro hparent
    exact ⟨i, node, rfl, hi, hparent⟩

/-! ## Walks -/

/-- The loop of `lookup` ends at the child with the name, if all that have it are one node. -/
theorem findChild_eq {s : FuseServer} {name : String} {node : TreeNode} {inodes : List Nat}
    (hall : ∀ inode ∈ inodes, ∃ child, s.files[inode - 1]? = some child ∧
      (child.name = name → child = node))
    (hname : node.name = name)
    (hsome : ∃ inode ∈ inodes, s.files[inode - 1]? = some node) :
    s.findChild name inodes = .entry node.attributes s.generation := by
  induction inodes with
  | nil =>
    obtain ⟨inode, hmem, -⟩ := hsome
    exact absurd hmem List.not_mem_nil
  | cons inode inodes ih =>
    obtain ⟨⟨child, hchild, honly⟩, hrest⟩ := List.forall_mem_cons.mp hall
    rw [FuseServer.findChild, hchild]
    dsimp only
    by_cases hc : child.name = name
    · rw [if_pos hc, honly hc]
    · rw [if_neg hc]
      refine ih hrest ?_
      obtain ⟨inode', hmem, hnode⟩ := hsome
      rcases List.mem_cons.mp hmem with rfl | hmem
      · rw [hchild] at hnode
        cases hnode
        exact absurd hname hc
      · exact ⟨inode', hmem, hnode⟩

/-- A directory is found wherever a path can end. -/
theorem directory_at (hb : Built env files b) {p : Nat}
    (hkind : kindAt files p = some .directory) :
    ∃ up, b.treeList[p]? = some up ∧ up.attributes.kind = .directory := by
  cases p with
  | zero =>
    obtain ⟨root, hroot, hattr, -⟩ := hb.root
    exact ⟨root, hroot, by rw [hattr]; rfl⟩
  | succ i =>
    obtain ⟨dir, hdir, hkind⟩ := Option.map_eq_some_iff.mp hkind
    obtain ⟨node, _, hnode, -, hattr, -⟩ := hb.entry i dir hdir
    exact ⟨node, hnode, by rw [hattr]; exact hkind⟩

/-- Siblings have different names. -/
theorem sibling_unique (hb : Built env files b) (hdistinct : (files.map path).Nodup)
    {i j p : Nat} {node sibling : TreeNode} (hi : b.treeList[i + 1]? = some node)
    (hj : b.treeList[j + 1]? = some sibling) (hpi : node.parent = some (p + 1))
    (hpj : sibling.parent = some (p + 1)) (hname : sibling.name = node.name) :
    sibling = node := by
  obtain ⟨file, hfile, q, -, -, hnamed, hq, -, hqpath, -⟩ := entry_of_node hb hi
  obtain ⟨file', hfile', q', -, -, hnamed', hq', -, hqpath', -⟩ := entry_of_node hb hj
  have hqq : q' = q := by
    rw [hpi] at hq
    rw [hpj] at hq'
    cases hq
    cases hq'
    rfl
  have hup : (path file').dropLast = (path file).dropLast := by
    rw [hqq, hqpath] at hqpath'
    exact (Option.some.inj hqpath').symm
  have hpaths : path file' = path file := by
    rw [path_of_fileName hnamed', path_of_fileName hnamed, hup, hname]
  have hji : j = i := by
    have hlt := (List.getElem?_eq_some_iff.mp hfile').1
    refine (List.getElem?_inj (by rwa [List.length_map]) hdistinct).mp ?_
    rw [List.getElem?_map, List.getElem?_map, hfile, hfile', Option.map_some, Option.map_some,
      hpaths]
  subst hji
  rw [hi] at hj
  exact (Option.some.inj hj).symm

/-- One step down, from the parent of an entry to the entry. -/
theorem lookup_entry (hb : Built env files b) (hdistinct : (files.map path).Nodup)
    (generation : UInt64) {i p : Nat} {node : TreeNode} (hi : b.treeList[i + 1]? = some node)
    (hparent : node.parent = some (p + 1)) (hdir : kindAt files p = some .directory)
    (hfit : (asBytes node.name).length ≤ maxNameLen) :
    (FuseServer.mk generation b.treeList).lookup (p + 1) node.name =
      .entry node.attributes generation := by
  obtain ⟨up, hup, hkind⟩ := directory_at hb hdir
  unfold FuseServer.lookup
  rw [if_neg (by omega)]
  dsimp only
  rw [hup]
  dsimp only
  rw [if_neg (not_not.mpr hkind), hb.children p up hup]
  refine findChild_eq ?_ rfl ?_
  · intro inode hmem
    obtain ⟨j, sibling, rfl, hj, hpj⟩ := (mem_childrenOf hb).mp hmem
    exact ⟨sibling, hj, fun hname => sibling_unique hb hdistinct hi hj hparent hpj hname⟩
  · exact ⟨i + 2, (mem_childrenOf hb).mpr ⟨i, node, rfl, hi, hparent⟩, hi⟩

theorem lookupPath_concat (s : FuseServer) (p : List PathComponent) (c : PathComponent) :
    s.lookupPath env (p ++ [c]) = s.lookupNext (s.lookupPath env p) c := by
  rw [FuseServer.lookupPath, List.foldl_append]
  rfl

/-- By induction on the entry: its parent comes before it. -/
theorem walk_reaches (hb : Built env files b) (hdistinct : (files.map path).Nodup)
    (generation : UInt64) : ∀ i file, files[i]? = some file →
      (∀ c ∈ path file, (asBytes (asOsStr c)).length ≤ maxNameLen) →
      (FuseServer.mk generation b.treeList).lookupPath env (path file) =
        .entry (.fromDescription env (i + 2) file) generation := by
  intro i
  induction i using Nat.strong_induction_on with
  | h i ih =>
    intro file hi hfit
    obtain ⟨node, p, hnode, -, hattr, hnamed, hparent, hlt, hpath, hdir⟩ := hb.entry i file hi
    have hsplit := path_of_fileName hnamed
    have hup : ∃ attributes : InodeAttributes, attributes.inode = p + 1 ∧
        (FuseServer.mk generation b.treeList).lookupPath env (path file).dropLast =
          .entry attributes generation := by
      cases p with
      | zero =>
        rw [← Option.some.inj hpath]
        exact ⟨.newRoot env, rfl, rfl⟩
      | succ j =>
        obtain ⟨dir, hdir, hpath⟩ := Option.map_eq_some_iff.mp hpath
        rw [← hpath]
        refine ⟨.fromDescription env (j + 2) dir, rfl, ih j (by omega) dir hdir ?_⟩
        intro c hc
        rw [hpath] at hc
        exact hfit c (List.mem_of_mem_dropLast hc)
    obtain ⟨attributes, hinode, hreached⟩ := hup
    rw [hsplit, lookupPath_concat, hreached, FuseServer.lookupNext, hinode, ← hattr]
    refine lookup_entry hb hdistinct generation hnode hparent hdir ?_
    refine hfit (.normal node.name) ?_
    rw [hsplit]
    exact List.mem_append_right _ List.mem_cons_self

/-- A walk does not get past a name that is too long. -/
theorem fits_of_lookupPath {s : FuseServer} {p : List PathComponent} :
    ∀ {attributes : InodeAttributes} {generation : UInt64},
      s.lookupPath env p = .entry attributes generation →
      ∀ c ∈ p, (asBytes (asOsStr c)).length ≤ maxNameLen := by
  induction p using List.reverseRecOn with
  | nil =>
    intro _ _ _ c hc
    exact absurd hc List.not_mem_nil
  | append_singleton p last ih =>
    intro attributes generation h
    rw [lookupPath_concat] at h
    cases hbefore : s.lookupPath env p with
    | entry before g =>
      rw [hbefore, FuseServer.lookupNext] at h
      unfold FuseServer.lookup at h
      split at h
      · cases h
      · rename_i hfit
        intro c hc
        rcases List.mem_append.mp hc with hc | hc
        · exact ih hbefore c hc
        · rw [List.mem_singleton.mp hc]
          omega
    | error errno =>
      rw [hbefore] at h
      cases h
    | panicked =>
      rw [hbefore] at h
      cases h

theorem faithful_of_built (hb : Built env files b) (hdistinct : (files.map path).Nodup) :
    Faithful env files b.treeList where
  length := hb.length
  inode _ _ hi := inode_of_built hb hi
  index i node hi := by
    obtain ⟨_, _, _, hindex, -⟩ := entry_of_node hb hi
    exact hindex
  entry i file hi := by
    obtain ⟨node, _, hnode, -, hattr, hnamed, -⟩ := hb.entry i file hi
    exact ⟨node, hnode, hattr, hnamed⟩
  parent i node hi := by
    obtain ⟨file, hfile, p, -, -, -, hparent, hlt, hpath, -⟩ := entry_of_node hb hi
    refine ⟨p, hlt, hparent, ?_⟩
    rw [hpath, pathAt, hfile]
    rfl
  child _ _ hi _ _ hp := count_children hb hi hp
  reach generation i file hi :=
    ⟨fits_of_lookupPath, walk_reaches hb hdistinct generation i file hi⟩

variable (env) in
/-- A list is read into a faithful tree if every path ends in a name, and is refused otherwise.
    A list that is refused changes nothing. -/
theorem tree_faithful (server : FuseServer) (files : List FileDescription) :
    (Preordered files →
      ((∃ tree, buildTree env files = .ok tree) ↔ ∀ file ∈ files, fileName (path file) ≠ none) ∧
      ∀ tree, buildTree env files = .ok tree → Faithful env files tree) ∧
    (∀ e, buildTree env files = .error e →
      server.loadFileList env files = (.error e, server)) := by
  constructor
  · intro hpre
    have hstart : Built env [] (.start env) := built_start
    have hloop := built_foldlM hstart (show Preordered ([] ++ files) from hpre)
    rcases hloop with ⟨b, hrun, hb, hnamed⟩ | ⟨⟨e, hrun⟩, file, hmem, hunnamed⟩
    · have hok : buildTree env files = .ok b.treeList := by
        rw [buildTree, hrun]
        rfl
      refine ⟨⟨fun _ => hnamed, fun _ => ⟨_, hok⟩⟩, ?_⟩
      intro tree htree
      rw [hok] at htree
      cases htree
      exact faithful_of_built hb hpre.distinct
    · have herr : buildTree env files = .error e := by
        rw [buildTree, hrun]
        rfl
      refine ⟨⟨?_, fun hall => absurd hunnamed (hall file hmem)⟩, ?_⟩
      · rintro ⟨tree, htree⟩
        rw [herr] at htree
        cases htree
      · intro tree htree
        rw [herr] at htree
        cases htree
  · intro e herr
    rw [FuseServer.loadFileList, herr]

def sampleSurroundings : Surroundings := ⟨fun _ => 0, fun inode => Int32.ofNat inode⟩

def sampleFile (name : String) (kind : FileType) : FileDescription where
  connId := 1
  name := name
  kind := kind
  atime := 0
  lastModified := 0
  lastMetadataChanged := 0
  creationTime := 0
  size := 0
  perm := permRwx

def sampleFolder : List FileDescription :=
  [sampleFile "folder" .directory, sampleFile "folder/file" .file]

theorem preordered_single (hrelative : .rootDir ∉ path file) (htop : (path file).dropLast = []) :
    Preordered [file] where
  distinct := List.nodup_singleton _
  relative f hf := by
    rw [List.mem_singleton.mp hf]
    exact hrelative
  parents i f hi := by
    rw [List.mem_singleton.mp (List.mem_of_getElem? hi)]
    exact .inl htop

theorem tree_faithful_folder :
    Preordered sampleFolder ∧ ∃ tree, buildTree sampleSurroundings sampleFolder = .ok tree ∧
      Faithful sampleSurroundings sampleFolder tree := by
  have hpre : Preordered sampleFolder := {
    distinct := by decide +kernel
    relative := by decide +kernel
    parents := by
      intro i file hi
      match i with
      | 0 =>
        cases hi
        exact .inl (by decide +kernel)
      | 1 =>
        cases hi
        exact .inr ⟨sampleFile "folder" .directory, ⟨0, by decide, rfl⟩, rfl, by decide +kernel⟩
      | _ + 2 => cases hi }
  obtain ⟨hok, hfaithful⟩ :=
    (tree_faithful sampleSurroundings ⟨0, []⟩ sampleFolder).1 hpre
  obtain ⟨tree, htree⟩ := hok.mpr (by decide +kernel)
  exact ⟨hpre, tree, htree, hfaithful tree htree⟩

/-- A file whose name is too long is in the tree and cannot be looked up. -/
theorem too_long_to_lookup {name : String} (hpath : path file = [.normal name])
    (hlong : maxNameLen < (asBytes name).length) (generation : UInt64) :
    Preordered [file] ∧ ∃ tree, buildTree env [file] = .ok tree ∧
      (FuseServer.mk generation tree).lookupPath env (path file) = .error .enametoolong := by
  have hpre : Preordered [file] := by
    refine preordered_single ?_ ?_
    · rw [hpath, List.mem_singleton]
      nofun
    · rw [hpath]
      rfl
  have hname : fileName (path file) = some name := by
    rw [hpath]
    rfl
  have hstart : Built env [] (.start env) := built_start
  obtain ⟨b, hb, -⟩ := built_addFile hstart (show Preordered ([] ++ [file]) from hpre) hname
  refine ⟨hpre, b.treeList, ?_, ?_⟩
  · rw [buildTree, List.foldlM_cons, hb]
    rfl
  · rw [hpath, FuseServer.lookupPath, List.foldl_cons, List.foldl_nil, FuseServer.lookupNext]
    unfold FuseServer.lookup
    exact if_pos hlong

theorem length_asBytes_replicate (n : Nat) :
    (asBytes (String.ofList (List.replicate n 'a'))).length = n := by
  have hone : (String.utf8EncodeChar 'a').length = 1 := by decide
  rw [asBytes, utf8_eq_flatMap, String.toList_ofList, List.length_flatMap, List.map_replicate, hone,
    List.sum_replicate, smul_eq_mul, Nat.mul_one]

/-- A name without a slash is a path of one component. -/
theorem path_of_name {kind : FileType} {cs : List Char} (hslash : ∀ c ∈ cs, c ≠ '/')
    (hlong : 2 < cs.length) :
    path (sampleFile (String.ofList cs) kind) = [.normal (String.ofList cs)] := by
  have hsep : ∀ c ∈ cs, isSeparator false c = false := by
    intro c hc
    simp [isSeparator, hslash c hc]
  have hother : ∀ cs' : List Char, cs'.length ≤ 2 → cs ≠ cs' := by
    rintro cs' hle rfl
    omega
  have hpieces : pieces (isSeparator false) (String.ofList cs) = [cs] := by
    unfold pieces
    rw [String.toList_ofList, List.splitOnP_eq_singleton hsep]
    simp [hother [] (by decide)]
  have hroot : cs.head?.any (isSeparator false) = false := by
    cases cs with
    | nil => rfl
    | cons c cs => exact hsep c List.mem_cons_self
  show pathComponents false (String.ofList cs) = _
  unfold pathComponents
  simp [hpieces, hroot, hother ['.'] (by decide), hother ['.', '.'] (by decide)]

theorem path_replicate {n : Nat} (hn : 2 < n) (kind : FileType) :
    path (sampleFile (String.ofList (List.replicate n 'a')) kind) =
      [.normal (String.ofList (List.replicate n 'a'))] := by
  refine path_of_name (fun c hc => ?_) (by rwa [List.length_replicate])
  rw [List.eq_of_mem_replicate hc]
  decide

/-- Dots are no name, and a name of 256 bytes is one that cannot be looked up. -/
theorem tree_not_faithful :
    (Preordered [sampleFile ".." .directory] ∧
      buildTree sampleSurroundings [sampleFile ".." .directory] =
        .error (.fileError ".." "invalid file name ..")) ∧
    Preordered [sampleFile (String.ofList (List.replicate 256 'a')) .file] ∧
    ∃ tree, buildTree sampleSurroundings
        [sampleFile (String.ofList (List.replicate 256 'a')) .file] = .ok tree ∧
      (FuseServer.mk 1 tree).lookupPath sampleSurroundings
        (path (sampleFile (String.ofList (List.replicate 256 'a')) .file)) =
          .error .enametoolong := by
  constructor
  · exact ⟨preordered_single (by decide +kernel) (by decide +kernel), by decide +kernel⟩
  · refine too_long_to_lookup (path_replicate (by decide) .file) ?_ 1
    rw [length_asBytes_replicate]
    decide

end Fuse

end LuodaRemote
