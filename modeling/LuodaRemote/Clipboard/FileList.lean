/-
  The list of files that is served from the clipboard: `construct_file_list` of
  `libs/clipboard/src/platform/unix/local_file.rs`, and the relative name that
  `LocalFile::as_bin` gives a file.

  Directories are gone through to the end, links followed. What was visited is remembered by its
  path, so a file that two paths lead to is listed twice, and a cycle of links is followed until
  the system refuses to follow any more. The names are relative to the parent of the first path,
  wherever the other ones are. `served_iff` says for which selections the list is as it should be.

  A path is its components, as `PathBuf` compares them; what the system makes of a slash at the
  end is left out.
-/
import LuodaRemote.Clipboard.Files
import LuodaRemote.Lib.Preorder
import LuodaRemote.Lib.Walk

namespace LuodaRemote
open Lib

/-! ## The file system -/

/-- A finite tree of files, directories and links, with the calls that may fail in it. -/
structure FileGraph where
  nodes : Place → Option Entry
  /-- The names in a directory, in the order in which it is read. -/
  names : Place → List String
  mem_names : ∀ q s, s ∈ names q ↔ (nodes (q ++ [s])).isSome = true
  valid : ∀ q s, s ∈ names q → s ≠ "." ∧ s ≠ ".." ∧ '/' ∉ s.toList
  places : List Place
  mem_places : ∀ q, (nodes q).isSome = true → q ∈ places
  cwd : Place
  /-- Why `metadata` fails for a path that leads somewhere. -/
  statError : List String → Option String
  openDirError : Place → Option String
  /-- After how many entries the reading of a directory fails. -/
  readDirError : Place → Option (Nat × String)

namespace FileList

/-- The components of a path; the first of an absolute one is `/`. -/
abbrev PathBuf := List String

/-- `to_string_lossy`. -/
def display (p : PathBuf) : String :=
  if p.head? = some "/" then "/" ++ "/".intercalate p.tail else "/".intercalate p

/-- `Path::parent`. -/
def parent (p : PathBuf) : Option PathBuf :=
  if p = [] ∨ p = ["/"] then none else some p.dropLast

/-- `path.strip_prefix(root).unwrap_or(path)`. -/
def stripRoot (root path : PathBuf) : PathBuf :=
  if root <+: path then path.drop root.length else path

variable (fs : FileGraph)

/-- Where a path leads, links followed. -/
def walk (p : PathBuf) : Except String Place :=
  if p.head? = some "/" then follow fs.nodes maxLinks [] p.tail
  else follow fs.nodes maxLinks fs.cwd p

/-- `std::fs::metadata`, with the place. -/
def metadata (p : PathBuf) : Except String (Place × Entry) :=
  match fs.statError p with
  | some e => .error e
  | none =>
    if p = [] then .error Disk.noSuchFile
    else match walk fs p with
      | .error e => .error e
      | .ok q =>
        match fs.nodes q with
        | none => .error Disk.noSuchFile
        | some entry => .ok (q, entry)

/-- `std::fs::read_dir`, with what comes for every entry. -/
def readDir (q : Place) : Except String (List (Except String String)) :=
  match fs.openDirError q with
  | some e => .error e
  | none =>
    match fs.readDirError q with
    | none => .ok ((fs.names q).map .ok)
    | some (k, e) => .ok (((fs.names q).take k).map .ok ++ [.error e])

/-! ## Making the list -/

/-- `LocalFile`, as far as it tells where a file is and what it is called. -/
structure ServedFile where
  relativeRoot : PathBuf
  path : PathBuf
  isDir : Bool
  deriving DecidableEq

/-- The path in the descriptor of a file. -/
def ServedFile.relativeName (f : ServedFile) : PathBuf := stripRoot f.relativeRoot f.path

/-- What `constr_file_lst` is handed on. -/
structure WalkState where
  fileList : List ServedFile
  visited : List PathBuf
  deriving DecidableEq

/-- The loop over the entries of a directory. -/
def forEntries (visit : PathBuf → WalkState → Option (Except CliprdrError WalkState))
    (path : PathBuf) :
    List (Except String String) → WalkState → Option (Except CliprdrError WalkState)
  | [], st => some (.ok st)
  | .error e :: _, _ => some (.error (.fileError (display path) e))
  | .ok name :: rest, st =>
    match visit (path ++ [name]) st with
    | none => none
    | some (.error e) => some (.error e)
    | some (.ok st) => forEntries visit path rest st

/-- `constr_file_lst`; `none` is a lack of fuel, which is for the depth of the recursion. -/
def constrFileLst (relativeRoot : PathBuf) :
    Nat → PathBuf → WalkState → Option (Except CliprdrError WalkState)
  | 0, _, _ => none
  | fuel + 1, path, st =>
    if path ∈ st.visited then some (.ok st)
    else match metadata fs path with
      | .error e => some (.error (.fileError (display path) e))
      | .ok (q, entry) =>
        let st := { fileList := st.fileList ++ [⟨relativeRoot, path, entry == .dir⟩]
                    visited := st.visited ++ [path] }
        if entry = .dir then
          match readDir fs q with
          | .error e => some (.error (.fileError (display path) e))
          | .ok entries => forEntries (constrFileLst relativeRoot fuel) path entries st
        else some (.ok st)

/-- The loop over the selected paths. -/
def forPaths (visit : PathBuf → WalkState → Option (Except CliprdrError WalkState)) :
    List PathBuf → WalkState → Option (Except CliprdrError WalkState)
  | [], st => some (.ok st)
  | path :: rest, st =>
    match visit path st with
    | none => none
    | some (.error e) => some (.error e)
    | some (.ok st) => forPaths visit rest st

/-- The parent of the first path. -/
def relativeRoot (paths : List PathBuf) : Except CliprdrError PathBuf :=
  match paths.head? with
  | none => .error (.invalidRequest "empty file list")
  | some first =>
    match parent first with
    | none => .error (.invalidRequest "empty parent")
    | some root => .ok root

/-- `construct_file_list`. -/
def constructFileList (fuel : Nat) (paths : List PathBuf) :
    Option (Except CliprdrError (List ServedFile)) :=
  match relativeRoot paths with
  | .error e => some (.error e)
  | .ok root =>
    match forPaths (constrFileLst fs root fuel) paths ⟨[], []⟩ with
    | none => none
    | some (.error e) => some (.error e)
    | some (.ok st) => some (.ok st.fileList)

/-! ## The property -/

/-- The path is one of a directory that has this name in it. -/
def IsEntry (p : PathBuf) (name : String) : Prop :=
  ∃ q, metadata fs p = .ok (q, .dir) ∧ (fs.nodes (q ++ [name])).isSome = true

/-- What is selected, and what is in a selected directory or below. -/
inductive Chosen (paths : List PathBuf) : PathBuf → Prop where
  | selected {p : PathBuf} : p ∈ paths → Chosen paths p
  | entry {p : PathBuf} {name : String} :
      Chosen paths p → IsEntry fs p name → Chosen paths (p ++ [name])

/-- What is really there: a directory by its place, a file by its inode. -/
def real (p : PathBuf) : Option (Place ⊕ Nat) :=
  match metadata fs p with
  | .ok (_, .file i) => some (.inr i)
  | .ok (q, _) => some (.inl q)
  | .error _ => none

/-- The name stays inside the directory that it is joined to. -/
def InsideName (name : PathBuf) : Prop := "/" ∉ name ∧ ".." ∉ name

/-- Everything is listed, nothing twice, directories before their entries, with names that stay
    where they are put. -/
structure ListedRight (paths : List PathBuf) (files : List ServedFile) : Prop where
  all : ∀ p, Chosen fs paths p → p ∈ files.map (·.path)
  once : (files.map fun f => real fs f.path).Nodup
  inOrder : ∀ before f after, files = before ++ f :: after → ∀ p name, f.path = p ++ [name] →
    IsEntry fs p name → p ∈ files.map (·.path) → p ∈ before.map (·.path)
  names : ∀ f ∈ files, InsideName f.relativeName

/-- The list gets done, and a list that is made is right. -/
def Served (paths : List PathBuf) : Prop :=
  ∃ r, (∃ n, ∀ fuel, n ≤ fuel → constructFileList fs fuel paths = some r) ∧
    ∀ files, r = .ok files → ListedRight fs paths files

/-! ## When it holds -/

/-- The path leads somewhere, and a directory there can be read. -/
def Readable (p : PathBuf) : Prop :=
  ∃ q entry, metadata fs p = .ok (q, entry) ∧
    (entry = .dir → fs.openDirError q = none ∧ fs.readDirError q = none)

/-- The first path has a parent, and all that is chosen can be read. -/
def Buildable (paths : List PathBuf) : Prop :=
  (∃ root, relativeRoot paths = .ok root) ∧ ∀ p, Chosen fs paths p → Readable fs p

/-- Nothing is chosen by two paths. -/
def OneWay (paths : List PathBuf) : Prop :=
  ∀ p p', Chosen fs paths p → Chosen fs paths p' → real fs p = real fs p' → p = p'

/-- No selected path is an entry of a directory that is chosen only by it or by a later one. -/
def TopDown (paths : List PathBuf) : Prop :=
  ∀ before s after, paths = before ++ s :: after → ∀ p name, s = p ++ [name] →
    IsEntry fs p name → Chosen fs paths p → Chosen fs before p

/-- Every selected path is below the parent of the first one or relative, without `..` behind. -/
def OneParent (paths : List PathBuf) : Prop :=
  ∀ root, relativeRoot paths = .ok root → ∀ s ∈ paths, InsideName (stripRoot root s)

/-! ## The list as a listing -/

/-- The path of an entry, or why there is none. -/
def entryPath (p : PathBuf) : Except String String → Except CliprdrError PathBuf
  | .error e => .error (.fileError (display p) e)
  | .ok name => .ok (p ++ [name])

/-- What is visited next, from a path on. -/
def expand (p : PathBuf) : Except CliprdrError (List (Except CliprdrError PathBuf)) :=
  match metadata fs p with
  | .error e => .error (.fileError (display p) e)
  | .ok (q, entry) =>
    if entry = .dir then
      match readDir fs q with
      | .error e => .error (.fileError (display p) e)
      | .ok entries => .ok (entries.map (entryPath p))
    else .ok []

variable {fs} {root : PathBuf} {paths : List PathBuf} {p p' : PathBuf} {name : String}
  {fuel : Nat}

/-- The entry of the list for a path. -/
def fileAt (fs : FileGraph) (root p : PathBuf) : ServedFile where
  relativeRoot := root
  path := p
  isDir :=
    match metadata fs p with
    | .ok (_, entry) => entry == .dir
    | .error _ => false

/-- The state after these paths were visited. -/
def stateOf (fs : FileGraph) (root : PathBuf) (visited : List PathBuf) : WalkState where
  fileList := visited.map (fileAt fs root)
  visited := visited

theorem forEntries_eq {visit : PathBuf → WalkState → Option (Except CliprdrError WalkState)}
    {visit' : PathBuf → List PathBuf → Option (Except CliprdrError (List PathBuf))}
    (hvisit : ∀ p visited, visit p (stateOf fs root visited) =
      (visit' p visited).map (Except.map (stateOf fs root)))
    (p : PathBuf) (entries : List (Except String String)) (visited : List PathBuf) :
    forEntries visit p entries (stateOf fs root visited) =
      (Preorder.visitAll visit' (entries.map (entryPath p)) visited).map
        (Except.map (stateOf fs root)) := by
  induction entries generalizing visited with
  | nil => rfl
  | cons x rest ih =>
    cases x with
    | error e => rfl
    | ok name =>
      rw [forEntries, List.map_cons, entryPath, Preorder.visitAll, hvisit]
      cases visit' (p ++ [name]) visited with
      | none => rfl
      | some r =>
        cases r with
        | error e => rfl
        | ok visited => exact ih visited

theorem forPaths_eq {visit : PathBuf → WalkState → Option (Except CliprdrError WalkState)}
    {visit' : PathBuf → List PathBuf → Option (Except CliprdrError (List PathBuf))}
    (hvisit : ∀ p visited, visit p (stateOf fs root visited) =
      (visit' p visited).map (Except.map (stateOf fs root)))
    (paths visited : List PathBuf) :
    forPaths visit paths (stateOf fs root visited) =
      (Preorder.visitAll visit' (paths.map .ok) visited).map (Except.map (stateOf fs root)) := by
  induction paths generalizing visited with
  | nil => rfl
  | cons p rest ih =>
    rw [forPaths, List.map_cons, Preorder.visitAll, hvisit]
    cases visit' p visited with
    | none => rfl
    | some r =>
      cases r with
      | error e => rfl
      | ok visited => exact ih visited

theorem constrFileLst_eq (fs : FileGraph) (root : PathBuf) (fuel : Nat) (p : PathBuf)
    (visited : List PathBuf) :
    constrFileLst fs root fuel p (stateOf fs root visited) =
      (Preorder.visit (expand fs) fuel p visited).map (Except.map (stateOf fs root)) := by
  induction fuel generalizing p visited with
  | zero => rfl
  | succ fuel ih =>
    have hvisited : (stateOf fs root visited).visited = visited := rfl
    rw [constrFileLst, Preorder.visit, hvisited]
    by_cases hmem : p ∈ visited
    · rw [if_pos hmem, if_pos hmem]
      rfl
    · rw [if_neg hmem, if_neg hmem, expand]
      cases hmeta : metadata fs p with
      | error e => rfl
      | ok m =>
        obtain ⟨q, entry⟩ := m
        have hstate : (⟨(stateOf fs root visited).fileList ++ [⟨root, p, entry == .dir⟩],
            visited ++ [p]⟩ : WalkState) = stateOf fs root (visited ++ [p]) := by
          unfold stateOf fileAt
          rw [List.map_append, List.map_singleton, hmeta]
        dsimp only
        by_cases hdir : entry = .dir
        · rw [if_pos hdir, if_pos hdir]
          cases readDir fs q with
          | error e => rfl
          | ok entries =>
            have hloop := forEntries_eq ih p entries (visited ++ [p])
            rw [← hstate] at hloop
            exact hloop
        · rw [if_neg hdir, if_neg hdir, hstate]
          rfl

/-- The files are listed as their paths are. -/
theorem constructFileList_eq (hroot : relativeRoot paths = .ok root) (fuel : Nat) :
    constructFileList fs fuel paths =
      (Preorder.list (expand fs) fuel paths).map (Except.map (·.map (fileAt fs root))) := by
  have hloop := forPaths_eq (constrFileLst_eq fs root fuel) paths []
  unfold constructFileList Preorder.list
  rw [hroot]
  dsimp only
  rw [show (⟨[], []⟩ : WalkState) = stateOf fs root [] from rfl, hloop]
  cases Preorder.visitAll (Preorder.visit (expand fs) fuel) (paths.map .ok) [] with
  | none => rfl
  | some r => cases r <;> rfl

/-! ## What comes next -/

theorem readDir_ok_mem {q : Place} {entries : List (Except String String)}
    (h : readDir fs q = .ok entries) (hname : .ok name ∈ entries) : name ∈ fs.names q := by
  unfold readDir at h
  cases hopen : fs.openDirError q with
  | some e =>
    rw [hopen] at h
    cases h
  | none =>
    rw [hopen] at h
    cases hread : fs.readDirError q with
    | none =>
      rw [hread] at h
      cases h
      obtain ⟨s, hs, heq⟩ := List.mem_map.mp hname
      exact Except.ok.inj heq ▸ hs
    | some k =>
      rw [hread] at h
      cases h
      rcases List.mem_append.mp hname with hname | hname
      · obtain ⟨s, hs, heq⟩ := List.mem_map.mp hname
        exact Except.ok.inj heq ▸ List.mem_of_mem_take hs
      · cases List.mem_singleton.mp hname

theorem next_isEntry (h : Preorder.Next (expand fs) p p') :
    ∃ name, p' = p ++ [name] ∧ IsEntry fs p name := by
  obtain ⟨next, hexpand, hmem⟩ := h
  unfold expand at hexpand
  cases hmeta : metadata fs p with
  | error e =>
    rw [hmeta] at hexpand
    cases hexpand
  | ok m =>
    obtain ⟨q, entry⟩ := m
    rw [hmeta] at hexpand
    dsimp only at hexpand
    by_cases hdir : entry = .dir
    · rw [if_pos hdir] at hexpand
      cases hread : readDir fs q with
      | error e =>
        rw [hread] at hexpand
        cases hexpand
      | ok entries =>
        rw [hread] at hexpand
        cases hexpand
        obtain ⟨x, hx, heq⟩ := List.mem_map.mp hmem
        cases x with
        | error e => cases heq
        | ok name =>
          cases heq
          exact ⟨name, rfl, q, hdir ▸ hmeta, (fs.mem_names q name).mp (readDir_ok_mem hread hx)⟩
    · rw [if_neg hdir] at hexpand
      cases hexpand
      cases hmem

/-- A path can be read if it and all its entries are told. -/
theorem sound_iff : Preorder.Sound (expand fs) p ↔ Readable fs p := by
  unfold Preorder.Sound Readable expand
  cases hmeta : metadata fs p with
  | error e => simp
  | ok m =>
    obtain ⟨q, entry⟩ := m
    dsimp only
    by_cases hdir : entry = .dir
    · rw [if_pos hdir]
      unfold readDir
      cases hopen : fs.openDirError q with
      | some e =>
        refine iff_of_false (by simp) ?_
        rintro ⟨q', entry', heq, hread⟩
        cases heq
        rw [(hread hdir).1] at hopen
        cases hopen
      | none =>
        cases hread : fs.readDirError q with
        | none =>
          refine iff_of_true ⟨_, rfl, fun e he => ?_⟩ ⟨q, entry, rfl, fun _ => ⟨hopen, hread⟩⟩
          simp [entryPath] at he
        | some k =>
          refine iff_of_false ?_ ?_
          · rintro ⟨next, heq, hno⟩
            cases heq
            exact hno (.fileError (display p) k.2) (by simp [entryPath])
          · rintro ⟨q', entry', heq, hread'⟩
            cases heq
            rw [(hread' hdir).2] at hread
            cases hread
    · rw [if_neg hdir]
      exact iff_of_true ⟨[], rfl, fun e => List.not_mem_nil⟩
        ⟨q, entry, rfl, fun h => absurd h hdir⟩

/-- A directory that can be read tells all its entries. -/
theorem isEntry_next (hread : Readable fs p) (h : IsEntry fs p name) :
    Preorder.Next (expand fs) p (p ++ [name]) := by
  obtain ⟨q, hmeta, hnode⟩ := h
  obtain ⟨q', entry, hmeta', hcalls⟩ := hread
  rw [hmeta] at hmeta'
  cases hmeta'
  obtain ⟨hopen, hdir⟩ := hcalls rfl
  refine ⟨(fs.names q).map fun name => .ok (p ++ [name]), ?_, ?_⟩
  · unfold expand readDir
    rw [hmeta]
    dsimp only
    rw [if_pos rfl, hopen, hdir]
    dsimp only
    rw [List.map_map]
    rfl
  · exact List.mem_map.mpr ⟨name, (fs.mem_names q name).mpr hnode, rfl⟩

theorem chosen_of_reach (h : Preorder.Reach (expand fs) (· ∈ paths) p) : Chosen fs paths p := by
  obtain ⟨r, hr, hpath⟩ := h
  induction hpath with
  | refl => exact .selected hr
  | tail _ hnext ih =>
    obtain ⟨name, rfl, hentry⟩ := next_isEntry hnext
    exact .entry ih hentry

/-- What is chosen is come to, if nothing fails on the way. -/
theorem reach_of_chosen
    (hsound : ∀ p, Preorder.Reach (expand fs) (· ∈ paths) p → Preorder.Sound (expand fs) p)
    (h : Chosen fs paths p) : Preorder.Reach (expand fs) (· ∈ paths) p := by
  induction h with
  | selected hp => exact .of_root hp
  | entry _ hentry ih => exact ih.next (isEntry_next (sound_iff.mp (hsound _ ih)) hentry)

/-! ## Termination -/

/-- The depth of the tree. -/
def depth (fs : FileGraph) : Nat := (fs.places.map List.length).foldr max 0

theorem length_le_depth (fs : FileGraph) {q : Place} (hq : (fs.nodes q).isSome = true) :
    q.length ≤ depth fs := by
  have hmem := fs.mem_places q hq
  unfold depth
  revert hmem
  generalize fs.places = places
  intro hmem
  induction places with
  | nil => cases hmem
  | cons x rest ih =>
    rw [List.map_cons, List.foldr_cons]
    rcases List.mem_cons.mp hmem with rfl | hmem
    · exact Nat.le_max_left _ _
    · exact (ih hmem).trans (Nat.le_max_right _ _)

/-- How much can follow on a path that leads to a directory: so many links can still be followed,
    and from every one of them as many names as the tree is deep. -/
def Height (fs : FileGraph) (n : Nat) (p : PathBuf) : Prop :=
  ∀ q, metadata fs p = .ok (q, .dir) → ∃ m,
    (∀ ys, walk fs (p ++ ys) = follow fs.nodes m q ys) ∧
      m * (depth fs + 1) + (depth fs - q.length) + 1 ≤ n

theorem metadata_ok {q : Place} {entry : Entry} (h : metadata fs p = .ok (q, entry)) :
    p ≠ [] ∧ walk fs p = .ok q ∧ fs.nodes q = some entry := by
  unfold metadata at h
  cases hstat : fs.statError p with
  | some e =>
    rw [hstat] at h
    cases h
  | none =>
    rw [hstat] at h
    dsimp only at h
    by_cases hnil : p = []
    · rw [if_pos hnil] at h
      cases h
    · rw [if_neg hnil] at h
      cases hwalk : walk fs p with
      | error e =>
        rw [hwalk] at h
        cases h
      | ok q' =>
        rw [hwalk] at h
        dsimp only at h
        cases hnode : fs.nodes q' with
        | none =>
          rw [hnode] at h
          cases h
        | some entry' =>
          rw [hnode] at h
          cases h
          exact ⟨hnil, rfl, hnode⟩

/-- An entry is a step down, or it takes one of the links. -/
theorem height_next {n : Nat} (h : Height fs n p) (hnext : Preorder.Next (expand fs) p p') :
    ∃ k < n, Height fs k p' := by
  obtain ⟨name, rfl, q, hmeta, hnode⟩ := next_isEntry hnext
  obtain ⟨m, hwalk, hle⟩ := h q hmeta
  obtain ⟨hdot, hdots, -⟩ := fs.valid q name ((fs.mem_names q name).mpr hnode)
  refine ⟨n - 1, by omega, fun q' hmeta' => ?_⟩
  obtain ⟨-, hto, hdir⟩ := metadata_ok hmeta'
  rw [hwalk] at hto
  cases hn : fs.nodes (q ++ [name]) with
  | none =>
    rw [hn] at hnode
    cases hnode
  | some entry =>
    cases entry with
    | file i =>
      have hlook : look fs.nodes q name = .last (q ++ [name]) notADirectory := by
        rw [look, if_neg hdot, if_neg hdots, hn]
      have hd : descend fs.nodes q [name] = .reached (q ++ [name]) := by
        rw [descend_cons, hlook]
        exact if_pos rfl
      rw [follow_reached hd] at hto
      cases hto
      rw [hn] at hdir
      cases hdir
    | dir =>
      have hlook : look fs.nodes q name = .into (q ++ [name]) := by
        rw [look, if_neg hdot, if_neg hdots, hn]
      have hd : ∀ ys, descend fs.nodes q (name :: ys) = descend fs.nodes (q ++ [name]) ys := by
        intro ys
        rw [descend_cons, hlook]
      have hfollow : ∀ ys, follow fs.nodes m q (name :: ys) =
          follow fs.nodes m (q ++ [name]) ys := by
        intro ys
        rw [follow.eq_def, hd, follow.eq_def fs.nodes m (q ++ [name]) ys]
      have hhere : follow fs.nodes m (q ++ [name]) [] = .ok (q ++ [name]) := follow_reached rfl
      rw [hfollow, hhere] at hto
      cases hto
      have hdeep := length_le_depth fs
        (show (fs.nodes (q ++ [name])).isSome = true by rw [hn]; rfl)
      rw [List.length_append, List.length_singleton] at hdeep
      refine ⟨m, fun ys => ?_, ?_⟩
      · rw [List.append_assoc, hwalk, List.singleton_append, hfollow]
      · rw [List.length_append, List.length_singleton]
        omega
    | link target =>
      have hlook : look fs.nodes q name = .through target := by
        rw [look, if_neg hdot, if_neg hdots, hn]
      have hd : ∀ ys, descend fs.nodes q (name :: ys) = .link q target ys := by
        intro ys
        rw [descend_cons, hlook]
      cases m with
      | zero =>
        rw [follow, hd] at hto
        cases hto
      | succ m =>
        rw [follow_link (hd [])] at hto
        obtain ⟨m', hm', hrest⟩ := follow_append_le hdir hto
        refine ⟨m', fun ys => ?_, ?_⟩
        · rw [List.append_assoc, hwalk, List.singleton_append, follow_link (hd ys), ← hrest,
            List.append_nil]
        · have hmul := Nat.mul_le_mul_right (depth fs + 1) hm'
          have hexpand : (m + 1) * (depth fs + 1) = m * (depth fs + 1) + (depth fs + 1) :=
            Nat.succ_mul _ _
          omega

theorem height_root (fs : FileGraph) (p : PathBuf) :
    Height fs (maxLinks * (depth fs + 1) + depth fs + 1) p := by
  intro q hmeta
  obtain ⟨hne, hwalk, hdir⟩ := metadata_ok hmeta
  have hhead : ∀ ys, (p ++ ys).head? = p.head? ∧ (p ++ ys).tail = p.tail ++ ys := by
    intro ys
    obtain ⟨x, rest, rfl⟩ := List.exists_cons_of_ne_nil hne
    exact ⟨rfl, rfl⟩
  have hstart : ∃ m ≤ maxLinks, ∀ ys, walk fs (p ++ ys) = follow fs.nodes m q ys := by
    unfold walk at hwalk ⊢
    by_cases habs : p.head? = some "/"
    · rw [if_pos habs] at hwalk
      obtain ⟨m, hm, hrest⟩ := follow_append_le hdir hwalk
      refine ⟨m, hm, fun ys => ?_⟩
      rw [(hhead ys).1, if_pos habs, (hhead ys).2, hrest]
    · rw [if_neg habs] at hwalk
      obtain ⟨m, hm, hrest⟩ := follow_append_le hdir hwalk
      refine ⟨m, hm, fun ys => ?_⟩
      rw [(hhead ys).1, if_neg habs, hrest]
  obtain ⟨m, hm, hrest⟩ := hstart
  refine ⟨m, hrest, ?_⟩
  have hmul := Nat.mul_le_mul_right (depth fs + 1) hm
  omega

/-- No selection is gone through forever. -/
theorem list_returns (fs : FileGraph) (paths : List PathBuf) :
    ∃ r, ∀ fuel, maxLinks * (depth fs + 1) + depth fs + 2 ≤ fuel →
      Preorder.list (expand fs) fuel paths = some r := by
  have henough : Preorder.list (expand fs) (maxLinks * (depth fs + 1) + depth fs + 2) paths ≠
      none :=
    Preorder.list_ne_none (fun n p p' h hnext => height_next h hnext)
      (fun p _ => height_root fs p) (Nat.lt_succ_self _)
  obtain ⟨r, hr⟩ := Option.ne_none_iff_exists'.mp henough
  exact ⟨r, fun fuel hle => Preorder.list_mono hle hr⟩

/-! ## The names -/

theorem insideName_concat (hname : name ≠ "/" ∧ name ≠ "..") (h : InsideName (stripRoot root p)) :
    InsideName (stripRoot root (p ++ [name])) := by
  have hconcat : ∀ {xs : PathBuf}, InsideName xs → InsideName (xs ++ [name]) := by
    rintro xs ⟨habs, hdots⟩
    constructor
    · rw [List.mem_append, List.mem_singleton]
      exact fun hmem => hmem.elim habs fun heq => hname.1 heq.symm
    · rw [List.mem_append, List.mem_singleton]
      exact fun hmem => hmem.elim hdots fun heq => hname.2 heq.symm
  unfold stripRoot at h ⊢
  by_cases hp : root <+: p
  · rw [if_pos hp] at h
    rw [if_pos (hp.trans (List.prefix_append p [name])), List.drop_append_of_le_length hp.length_le]
    exact hconcat h
  · rw [if_neg hp] at h
    by_cases hp' : root <+: p ++ [name]
    · rcases List.prefix_concat_iff.mp hp' with heq | hprefix
      · rw [if_pos hp', heq, List.drop_length]
        exact ⟨List.not_mem_nil, List.not_mem_nil⟩
      · exact absurd hprefix hp
    · rw [if_neg hp']
      exact hconcat h

theorem insideName_of_chosen (hpaths : ∀ s ∈ paths, InsideName (stripRoot root s))
    (h : Chosen fs paths p) : InsideName (stripRoot root p) := by
  induction h with
  | selected hp => exact hpaths _ hp
  | @entry p name _ hentry ih =>
    obtain ⟨q, -, hnode⟩ := hentry
    obtain ⟨-, hdots, hslash⟩ := fs.valid q name ((fs.mem_names q name).mpr hnode)
    refine insideName_concat ⟨?_, hdots⟩ ih
    rintro rfl
    exact hslash (by decide)

/-! ## When the list is right -/

theorem next_unique {a a' b : PathBuf} (h : Preorder.Next (expand fs) a b)
    (h' : Preorder.Next (expand fs) a' b) : a = a' := by
  obtain ⟨name, rfl, -⟩ := next_isEntry h
  obtain ⟨name', heq, -⟩ := next_isEntry h'
  exact (List.append_inj' heq rfl).1

theorem length_lt_of_next {a b : PathBuf} (h : Preorder.Next (expand fs) a b) :
    a.length < b.length := by
  obtain ⟨name, rfl, -⟩ := next_isEntry h
  rw [List.length_append]
  exact Nat.lt_succ_self _

section Listed

variable {l : List PathBuf}
  (hlist : Preorder.list (expand fs) fuel paths = some (.ok l))

include hlist

/-- Nothing failed on the way. -/
theorem sound_of_list (h : Preorder.Reach (expand fs) (· ∈ paths) p) :
    Preorder.Sound (expand fs) p :=
  (Preorder.list_grows hlist).1.sound p ((Preorder.mem_list hlist).mpr h)

theorem mem_list_iff : p ∈ l ↔ Chosen fs paths p :=
  (Preorder.mem_list hlist).trans
    ⟨chosen_of_reach, reach_of_chosen fun _ hp => sound_of_list hlist hp⟩

/-- The entries of a path that is listed are what comes next. -/
theorem next_iff (hp : Chosen fs paths p) :
    Preorder.Next (expand fs) p p' ↔ ∃ name, p' = p ++ [name] ∧ IsEntry fs p name := by
  refine ⟨next_isEntry, ?_⟩
  rintro ⟨name, rfl, hentry⟩
  have hreach := reach_of_chosen (fun _ hp => sound_of_list hlist hp) hp
  exact isEntry_next (sound_iff.mp (sound_of_list hlist hreach)) hentry

theorem once_iff : (l.map (real fs)).Nodup ↔ OneWay fs paths := by
  rw [List.nodup_map_iff_inj_on (Preorder.list_grows hlist).1.nodup]
  constructor
  · intro hinj p p' hp hp' heq
    exact hinj p ((mem_list_iff hlist).mpr hp) p' ((mem_list_iff hlist).mpr hp') heq
  · intro hone p hp p' hp' heq
    exact hone p p' ((mem_list_iff hlist).mp hp) ((mem_list_iff hlist).mp hp') heq

theorem inOrder_iff_topDown : Preorder.InOrder (expand fs) l ↔ TopDown fs paths := by
  rw [Preorder.inOrder_iff (fun _ _ _ h h' => next_unique h h') List.length
    (fun _ _ h => length_lt_of_next h) hlist]
  have hreaches {p : PathBuf} (hp : Chosen fs paths p) :=
    reach_of_chosen (fun _ hp => sound_of_list hlist hp) hp
  constructor
  · rintro hpre before s after hsplit p name rfl hentry hp
    exact chosen_of_reach (hpre before _ after hsplit p
      ((next_iff hlist hp).mpr ⟨name, rfl, hentry⟩) (hreaches hp))
  · intro htop pre b post hsplit p hab hreach
    obtain ⟨name, rfl, hentry⟩ := next_isEntry hab
    have hchosen := htop pre _ post hsplit p name rfl hentry (chosen_of_reach hreach)
    refine reach_of_chosen (fun p' hp' => ?_) hchosen
    refine sound_of_list hlist (hp'.mono fun s hs => ?_)
    rw [hsplit]
    exact List.mem_append_left _ hs

theorem names_iff_oneParent (hroot : relativeRoot paths = .ok root) :
    (∀ f ∈ l.map (fileAt fs root), InsideName f.relativeName) ↔ OneParent paths := by
  constructor
  · intro hall root' hroot' s hs
    obtain rfl := Except.ok.inj (hroot.symm.trans hroot')
    exact hall (fileAt fs root s) (List.mem_map_of_mem ((mem_list_iff hlist).mpr (.selected hs)))
  · intro hone f hf
    obtain ⟨p, hp, rfl⟩ := List.mem_map.mp hf
    exact insideName_of_chosen (hone root hroot) ((mem_list_iff hlist).mp hp)

/-- For a list that is made. -/
theorem listedRight_iff (hroot : relativeRoot paths = .ok root) :
    ListedRight fs paths (l.map (fileAt fs root)) ↔
      OneWay fs paths ∧ TopDown fs paths ∧ OneParent paths := by
  have hpaths : ∀ l : List PathBuf, (l.map (fileAt fs root)).map (·.path) = l := by
    intro l
    rw [List.map_map]
    exact List.map_id l
  have hreal : (l.map (fileAt fs root)).map (fun f => real fs f.path) = l.map (real fs) := by
    rw [List.map_map]
    rfl
  constructor
  · rintro ⟨-, honce, horder, hnames⟩
    rw [hreal] at honce
    refine ⟨(once_iff hlist).mp honce, (inOrder_iff_topDown hlist).mp ?_,
      (names_iff_oneParent hlist hroot).mp hnames⟩
    intro before b after hsplit p hp hab
    obtain ⟨name, rfl, hentry⟩ := next_isEntry hab
    have hbefore := horder (before.map (fileAt fs root)) (fileAt fs root (p ++ [name]))
      (after.map (fileAt fs root)) (by rw [hsplit]; simp) p name rfl hentry
      (by rw [hpaths]; exact hp)
    rwa [hpaths] at hbefore
  · rintro ⟨hone, htop, hparent⟩
    refine ⟨fun p hp => ?_, ?_, ?_, (names_iff_oneParent hlist hroot).mpr hparent⟩
    · rw [hpaths]
      exact (mem_list_iff hlist).mpr hp
    · rw [hreal]
      exact (once_iff hlist).mpr hone
    · intro before f after hsplit p name hf hentry hp
      rw [hpaths] at hp
      have hsplit' := congrArg (List.map (·.path)) hsplit
      rw [hpaths, List.map_append, List.map_cons, hf] at hsplit'
      have hchosen := (mem_list_iff hlist).mp hp
      exact (inOrder_iff_topDown hlist).mpr htop (before.map (·.path)) (p ++ [name])
        (after.map (·.path)) hsplit' p hp ((next_iff hlist hchosen).mpr ⟨name, rfl, hentry⟩)

end Listed

/-- The list of the files is made from the list of their paths. -/
theorem served_iff_of_list (hroot : relativeRoot paths = .ok root) {n : Nat}
    {r : Except CliprdrError (List PathBuf)}
    (hlist : ∀ fuel, n ≤ fuel → Preorder.list (expand fs) fuel paths = some r) :
    Served fs paths ↔
      ∀ files, Except.map (·.map (fileAt fs root)) r = .ok files → ListedRight fs paths files := by
  have hconstruct : ∀ fuel, n ≤ fuel →
      constructFileList fs fuel paths = some (Except.map (·.map (fileAt fs root)) r) := by
    intro fuel hle
    rw [constructFileList_eq hroot, hlist fuel hle]
    rfl
  constructor
  · rintro ⟨r', ⟨n', hn'⟩, hright⟩
    have hsame := (hn' _ (Nat.le_max_left n' n)).symm.trans (hconstruct _ (Nat.le_max_right n' n))
    exact Option.some.inj hsame ▸ hright
  · exact fun hright => ⟨_, ⟨n, hconstruct⟩, hright⟩

/-- The list gets done, whatever is selected. A list that is made is right if, and only if, no file
    or directory is chosen by two paths, no path is selected before a directory that it is an entry
    of, and every path is below the parent of the first one or relative, without `..` behind. -/
theorem served_iff (fs : FileGraph) (paths : List PathBuf) :
    Served fs paths ↔
      (Buildable fs paths → OneWay fs paths ∧ TopDown fs paths ∧ OneParent paths) := by
  obtain ⟨r, hr⟩ := list_returns fs paths
  have hlast := hr _ (Nat.le_refl _)
  have hsome : Preorder.list (expand fs) (maxLinks * (depth fs + 1) + depth fs + 2) paths ≠
      none := by
    rw [hlast]
    exact Option.some_ne_none _
  cases hroot : relativeRoot paths with
  | error e =>
    refine iff_of_true ⟨.error e, ⟨0, fun fuel _ => ?_⟩, nofun⟩ ?_
    · unfold constructFileList
      rw [hroot]
    · rintro ⟨⟨root, hok⟩, -⟩
      rw [hroot] at hok
      cases hok
  | ok root =>
    rw [served_iff_of_list hroot hr]
    cases r with
    | error e =>
      refine iff_of_true nofun ?_
      rintro ⟨-, hread⟩
      obtain ⟨l, hl⟩ := (Preorder.list_ok_iff hsome).mpr
        fun p hp => sound_iff.mpr (hread p (chosen_of_reach hp))
      rw [hlast] at hl
      cases hl
    | ok l =>
      have hsound := (Preorder.list_ok_iff hsome).mp ⟨l, hlast⟩
      have hbuildable : Buildable fs paths :=
        ⟨⟨root, hroot⟩, fun p hp => sound_iff.mp (hsound p (reach_of_chosen hsound hp))⟩
      constructor
      · exact fun hright _ => (listedRight_iff hlast hroot).mp (hright _ rfl)
      · intro hcond files hfiles
        cases hfiles
        exact (listedRight_iff hlast hroot).mpr (hcond hbuildable)

/-! ## Two selections -/

/-- The names of the places right below one. -/
def namesIn (es : List (Place × Entry)) (q : Place) : List String :=
  (es.filter fun x => x.1 ≠ [] && x.1.dropLast == q).filterMap fun x => x.1.getLast?

theorem mem_namesIn (es : List (Place × Entry)) (q : Place) (s : String) :
    s ∈ namesIn es q ↔ ((es.find? fun x => x.1 == q ++ [s]).map (·.2)).isSome = true := by
  rw [Option.isSome_map, List.find?_isSome, namesIn, List.mem_filterMap]
  constructor
  · rintro ⟨x, hx, hlast⟩
    obtain ⟨hmem, hcond⟩ := List.mem_filter.mp hx
    rw [Bool.and_eq_true, beq_iff_eq] at hcond
    obtain ⟨init, hinit⟩ := List.getLast?_eq_some_iff.mp hlast
    rw [hinit, List.dropLast_concat] at hcond
    exact ⟨x, hmem, by rw [hinit, hcond.2, beq_self_eq_true]⟩
  · rintro ⟨x, hmem, heq⟩
    rw [beq_iff_eq] at heq
    refine ⟨x, List.mem_filter.mpr ⟨hmem, ?_⟩, by rw [heq, List.getLast?_concat]⟩
    rw [heq, List.dropLast_concat]
    simp

/-- The tree of these places, in which no call fails. -/
def graphOf (es : List (Place × Entry))
    (hvalid : ∀ q s, s ∈ namesIn es q → s ≠ "." ∧ s ≠ ".." ∧ '/' ∉ s.toList) : FileGraph where
  nodes q := (es.find? fun x => x.1 == q).map (·.2)
  names := namesIn es
  mem_names := mem_namesIn es
  valid := hvalid
  places := es.map (·.1)
  mem_places q hq := by
    rw [Option.isSome_map, List.find?_isSome] at hq
    obtain ⟨x, hx, heq⟩ := hq
    exact List.mem_map.mpr ⟨x, hx, beq_iff_eq.mp heq⟩
  cwd := []
  statError _ := none
  openDirError _ := none
  readDirError _ := none

/-- A directory `d` with a file `f` and a link `l` to it, and a directory `e` with a file `g`. -/
def linkEntries : List (Place × Entry) :=
  [([], .dir), (["d"], .dir), (["d", "f"], .file 1), (["d", "l"], .link "f"), (["e"], .dir),
    (["e", "g"], .file 2)]

theorem namesIn_linkEntries (q : Place) (s : String) (hs : s ∈ namesIn linkEntries q) :
    s ≠ "." ∧ s ≠ ".." ∧ '/' ∉ s.toList := by
  have hall : ∀ x ∈ linkEntries, ∀ s ∈ x.1.getLast?, s ≠ "." ∧ s ≠ ".." ∧ '/' ∉ s.toList := by
    decide
  obtain ⟨x, hx, hlast⟩ := List.mem_filterMap.mp hs
  exact hall x (List.mem_filter.mp hx).1 s hlast

def linkGraph : FileGraph := graphOf linkEntries namesIn_linkEntries

/-- A file comes twice through a link to it, and a path with another parent keeps its root. -/
theorem selections_not_served :
    constructFileList linkGraph 200 [["/", "d"]] =
        some (.ok [⟨["/"], ["/", "d"], true⟩, ⟨["/"], ["/", "d", "f"], false⟩,
          ⟨["/"], ["/", "d", "l"], false⟩]) ∧
      ¬ Served linkGraph [["/", "d"]] ∧
      ¬ Served linkGraph [["/", "d", "f"], ["/", "e", "g"]] := by
  have hlinked : Preorder.list (expand linkGraph) 200 [["/", "d"]] =
      some (.ok [["/", "d"], ["/", "d", "f"], ["/", "d", "l"]]) := by decide +kernel
  have hapart : Preorder.list (expand linkGraph) 200 [["/", "d", "f"], ["/", "e", "g"]] =
      some (.ok [["/", "d", "f"], ["/", "e", "g"]]) := by decide +kernel
  refine ⟨by decide +kernel, fun hserved => ?_, fun hserved => ?_⟩
  · have hright := (served_iff_of_list rfl fun fuel hle => Preorder.list_mono hle hlinked).mp
      hserved _ rfl
    exact absurd hright.once (by decide +kernel)
  · have hright := (served_iff_of_list rfl fun fuel hle => Preorder.list_mono hle hapart).mp
      hserved _ rfl
    exact absurd (hright.names (fileAt linkGraph ["/", "d"] ["/", "e", "g"]) (by decide +kernel)).1
      (by decide +kernel)

end FileList

end LuodaRemote
