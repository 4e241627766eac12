/-
  Which directories a copy of a folder recreates (`read_empty_dirs_recursive` and
  `get_empty_dirs_recursive` of `libs/hbb_common/src/fs.rs`, beside `get_recursive_files`).

  Files are listed with their relative paths, and recreating them recreates the directories above
  them. Directories that hold nothing are listed apart. What counts as nothing is what `read_dir`
  finds, and it finds links as well, which neither list has: a directory with links only is in no
  list. `folder_copied_iff` says when the two lists recreate all directories.

  A path of the tree is the list of its names, as bytes; a listed path is one of texts.
-/
import LuodaRemote.Transfer.Listing

namespace LuodaRemote
open Lib

/-! ## The directories without entries -/

/-- `FileDirectory`, as far as `read_dir` fills it in. -/
structure FileDirectory where
  path : String
  entries : List ListEntry

/-- What `read_dir` finds in a directory. -/
def readEntries (windows includeHidden : Bool) : DirTree → List ListEntry
  | .nil => []
  | .file name stat rest =>
    (readEntry windows includeHidden name stat false false).toList ++
      readEntries windows includeHidden rest
  | .link name stat toDir rest =>
    (readEntry windows includeHidden name stat toDir true).toList ++
      readEntries windows includeHidden rest
  | .dir name stat _ _ rest =>
    (readEntry windows includeHidden name stat true false).toList ++
      readEntries windows includeHidden rest

/-- The loop of `read_empty_dirs_recursive` over the entries of a directory. -/
def emptyDirsBelow (windows includeHidden : Bool) : DirTree → (path : String) → List FileDirectory
  | .nil, _ => []
  | .file _ _ rest, path => emptyDirsBelow windows includeHidden rest path
  | .link _ _ _ rest, path => emptyDirsBelow windows includeHidden rest path
  | .dir name stat listable sub rest, path =>
    (match readEntry windows includeHidden name stat true false with
      | some e =>
        if listable then
          if readEntries windows includeHidden sub = [] then
            [⟨pathJoin windows path e.name, []⟩]
          else emptyDirsBelow windows includeHidden sub (pathJoin windows path e.name)
        else []
      | none => []) ++ emptyDirsBelow windows includeHidden rest path

/-- `read_empty_dirs_recursive`, with the `read_dir` it starts with. -/
def readEmptyDirsRecursive (windows includeHidden : Bool) (d : DirTree) (path : String) :
    List FileDirectory :=
  if readEntries windows includeHidden d = [] then [⟨path, []⟩]
  else emptyDirsBelow windows includeHidden d path

/-- `get_empty_dirs_recursive`. The drives, for which `/` stands on Windows, are not read. -/
def getEmptyDirsRecursive (windows : Bool) (path : String) (t : PathTarget windows)
    (includeHidden : Bool) : Except String (List FileDirectory) :=
  match t with
  | .dir tree =>
    if windows && path == "/" then .ok []
    else tree.map fun d => readEmptyDirsRecursive windows includeHidden d.tree path
  | .file _ => .ok []
  | .missing => .error "Not exists"

/-! ## The tree -/

namespace DirTree

/-- The paths of the regular files, links not followed. -/
def files : DirTree → List (List OsName)
  | .nil => []
  | .file name _ rest => [name] :: rest.files
  | .link _ _ _ rest => rest.files
  | .dir name _ _ sub rest => sub.files.map (name :: ·) ++ rest.files

/-- The paths of the directories below the first. -/
def dirs : DirTree → List (List OsName)
  | .nil => []
  | .file _ _ rest => rest.dirs
  | .link _ _ _ rest => rest.dirs
  | .dir name _ _ sub rest => [name] :: sub.dirs.map (name :: ·) ++ rest.dirs

/-- The names in the first directory. -/
def names : DirTree → List OsName
  | .nil => []
  | .file name _ rest => name :: rest.names
  | .link name _ _ rest => name :: rest.names
  | .dir name _ _ _ rest => name :: rest.names

/-- No directory has a name twice. -/
def Distinct : DirTree → Prop
  | .nil => True
  | .file name _ rest => name ∉ rest.names ∧ rest.Distinct
  | .link name _ _ rest => name ∉ rest.names ∧ rest.Distinct
  | .dir name _ _ sub rest => name ∉ rest.names ∧ sub.Distinct ∧ rest.Distinct

/-- Every directory can be read. -/
def Readable : DirTree → Prop
  | .nil => True
  | .file _ _ rest => rest.Readable
  | .link _ _ _ rest => rest.Readable
  | .dir _ _ listable sub rest => listable = true ∧ sub.Readable ∧ rest.Readable

end DirTree

/-- The name is text and the metadata can be had. -/
def Visible (name : OsName) (stat : Option Stat) : Prop :=
  name.toStr.isSome = true ∧ stat.isSome = true

namespace DirTree

/-- There is a file or a directory. -/
def HasContent : DirTree → Prop
  | .nil => False
  | .file _ _ _ => True
  | .link _ _ _ rest => rest.HasContent
  | .dir _ _ _ _ _ => True

/-- There is a link that `read_dir` finds. -/
def HasLink : DirTree → Prop
  | .nil => False
  | .file _ _ rest => rest.HasLink
  | .link name stat _ rest => Visible name stat ∨ rest.HasLink
  | .dir _ _ _ _ rest => rest.HasLink

/-- No directory below holds links but neither a file nor a directory; and every file and
    directory has a name that is text, and metadata that can be had. -/
def Plain : DirTree → Prop
  | .nil => True
  | .file name stat rest => Visible name stat ∧ rest.Plain
  | .link _ _ _ rest => rest.Plain
  | .dir name stat _ sub rest =>
    Visible name stat ∧ (sub.HasLink → sub.HasContent) ∧ sub.Plain ∧ rest.Plain

end DirTree

/-! ## The property -/

/-- The bytes of the names. -/
def asNames (cs : List String) : List OsName := cs.map asBytes

/-- The list of files has every regular file once, with its relative path. -/
def ListsFiles (windows : Bool) (d : DirTree) (found : List ListEntry) : Prop :=
  (∃ texts : List (List String), texts.map asNames = d.files ∧
    found.map (·.name) = texts.map fun cs => cs.foldl (pathJoin windows) "") ∧
  (found.map (·.name)).Nodup

/-- The directory is above a listed file, or it is above a listed directory or is that itself. -/
def Recreated (windows : Bool) (path : String) (d : DirTree) (found : List ListEntry)
    (emptyDirs : List FileDirectory) (p : List OsName) : Prop :=
  ∃ cs : List String, p <+: asNames cs ∧
    ((asNames cs ∈ d.files ∧ cs.foldl (pathJoin windows) "" ∈ found.map (·.name)) ∨
      ((asNames cs = [] ∨ asNames cs ∈ d.dirs) ∧
        cs.foldl (pathJoin windows) path ∈ emptyDirs.map (·.path)))

/-- The files and directories that are listed for a path recreate the whole folder. -/
def FolderCopied (windows : Bool) (path : String) (d : HostTree windows) : Prop :=
  ∃ found emptyDirs, getRecursiveFiles windows path (.dir (.ok d)) true = .ok found ∧
    getEmptyDirsRecursive windows path (.dir (.ok d)) true = .ok emptyDirs ∧
    ListsFiles windows d.tree found ∧
    ∀ p, p = [] ∨ p ∈ d.tree.dirs → Recreated windows path d.tree found emptyDirs p

/-! ## What is listed, by names -/

/-- The directories that are listed below the first. -/
def DirTree.emptyBelow (windows : Bool) : DirTree → List (List String)
  | .nil => []
  | .file _ _ rest => rest.emptyBelow windows
  | .link _ _ _ rest => rest.emptyBelow windows
  | .dir name stat listable sub rest =>
    (match readEntry windows true name stat true false with
      | some e =>
        if listable then
          if readEntries windows true sub = [] then [[e.name]]
          else (sub.emptyBelow windows).map (e.name :: ·)
        else []
      | none => []) ++ rest.emptyBelow windows

def DirTree.emptyListed (windows : Bool) (d : DirTree) : List (List String) :=
  if readEntries windows true d = [] then [[]] else d.emptyBelow windows

theorem emptyDirsBelow_eq (windows : Bool) (d : DirTree) (path : String) :
    (emptyDirsBelow windows true d path).map (·.path) =
      (d.emptyBelow windows).map fun cs => cs.foldl (pathJoin windows) path := by
  induction d generalizing path with
  | nil => rfl
  | file name stat rest ih => exact ih path
  | link name stat toDir rest ih => exact ih path
  | dir name stat listable sub rest ihsub ih =>
    unfold emptyDirsBelow DirTree.emptyBelow
    rw [List.map_append, List.map_append, ih]
    cases readEntry windows true name stat true false with
    | none => rfl
    | some e =>
      cases listable with
      | false => rfl
      | true =>
        dsimp only
        rw [if_pos rfl, if_pos rfl]
        split
        · rfl
        · rw [ihsub, List.map_map]
          rfl

theorem readEmptyDirsRecursive_eq (windows : Bool) (d : DirTree) (path : String) :
    (readEmptyDirsRecursive windows true d path).map (·.path) =
      (d.emptyListed windows).map fun cs => cs.foldl (pathJoin windows) path := by
  unfold readEmptyDirsRecursive DirTree.emptyListed
  split
  · rfl
  · exact emptyDirsBelow_eq windows d path

/-! ## Names as texts -/

section Texts

variable {windows : Bool} {c : String} {cs cs' : List String}

theorem toStr_asBytes (c : String) : OsName.toStr (asBytes c) = some c := fromUTF8_utf8 c

@[simp] theorem asNames_nil : asNames [] = [] := rfl

@[simp] theorem asNames_cons (c : String) (cs : List String) :
    asNames (c :: cs) = asBytes c :: asNames cs := rfl

theorem asNames_eq_nil : asNames cs = [] ↔ cs = [] := List.map_eq_nil_iff

theorem segments_of_allowed (h : ∀ name ∈ asNames cs, OsName.Allowed windows name) :
    ∀ c ∈ cs, Segment windows c :=
  fun c hc => segment_of_allowed (h _ (List.mem_map_of_mem hc)) (toStr_asBytes c)

/-- A joined name can be split again. -/
theorem splitOnP_below (hc : Segment windows c) (hcs : ∀ c ∈ cs, Segment windows c) :
    (c.toList ++ below windows cs).splitOnP (isSeparator windows) =
      (c :: cs).map String.toList := by
  have hsep : isSeparator windows (sepChar windows) = true := by cases windows <;> rfl
  induction cs generalizing c with
  | nil =>
    show (c.toList ++ []).splitOnP (isSeparator windows) = [c.toList]
    rw [List.append_nil]
    exact List.splitOnP_eq_singleton hc.notSep
  | cons d cs ih =>
    obtain ⟨hd, hrest⟩ := List.forall_mem_cons.mp hcs
    have hsplit : c.toList ++ below windows (d :: cs) =
        c.toList ++ sepChar windows :: (d.toList ++ below windows cs) := by simp [below]
    rw [hsplit, List.splitOnP_append_cons _ _ hsep, ih hd hrest,
      List.splitOnP_eq_singleton hc.notSep]
    rfl

theorem toList_injective : Function.Injective String.toList := fun _ _ h => String.toList_inj.mp h

theorem below_injective (hcs : ∀ c ∈ cs, Segment windows c) (hcs' : ∀ c ∈ cs', Segment windows c)
    (hjoin : cs.foldl (pathJoin windows) "" = cs'.foldl (pathJoin windows) "") : cs = cs' := by
  cases cs with
  | nil =>
    by_contra hne
    exact name_ne_empty (fun h => hne h.symm) hcs' hjoin.symm
  | cons c cs =>
    cases cs' with
    | nil => exact absurd hjoin (name_ne_empty (List.cons_ne_nil c cs) hcs)
    | cons c' cs' =>
      obtain ⟨hc, hrest⟩ := List.forall_mem_cons.mp hcs
      obtain ⟨hc', hrest'⟩ := List.forall_mem_cons.mp hcs'
      have hlist := congrArg String.toList hjoin
      rw [toList_name hc hrest, toList_name hc' hrest'] at hlist
      have hsplit := congrArg (List.splitOnP (isSeparator windows)) hlist
      rw [splitOnP_below hc hrest, splitOnP_below hc' hrest'] at hsplit
      exact List.map_injective_iff.mpr toList_injective hsplit

/-- Names put behind a path tell which names they were. -/
theorem join_injective (hcs : ∀ c ∈ cs, Segment windows c) (hcs' : ∀ c ∈ cs', Segment windows c)
    (p : String) (hjoin : cs.foldl (pathJoin windows) p = cs'.foldl (pathJoin windows) p) :
    cs = cs' := by
  have hlong : ∀ {cs : List String}, cs ≠ [] → (∀ c ∈ cs, Segment windows c) →
      (cs.foldl (pathJoin windows) p).toList =
        p.toList ++ glue windows p ++ (cs.foldl (pathJoin windows) "").toList := by
    intro cs hne hsegs
    rw [← join_name hne hsegs p]
    cases cs with
    | nil => exact absurd rfl hne
    | cons c cs =>
      obtain ⟨hc, hrest⟩ := List.forall_mem_cons.mp hsegs
      exact pathJoin_relative (joinable_name hc hrest) p
  have hempty : ∀ {cs : List String}, cs ≠ [] → (∀ c ∈ cs, Segment windows c) →
      cs.foldl (pathJoin windows) p ≠ p := by
    intro cs hne hsegs heq
    have hlist := hlong hne hsegs
    rw [heq, List.append_assoc] at hlist
    have hnil := List.append_right_eq_self.mp hlist.symm
    exact name_ne_empty hne hsegs (String.toList_eq_nil_iff.mp (List.append_eq_nil_iff.mp hnil).2)
  by_cases hne : cs = []
  · subst hne
    by_contra hne'
    exact hempty (fun h => hne' h.symm) hcs' hjoin.symm
  · by_cases hne' : cs' = []
    · subst hne'
      exact absurd hjoin (hempty hne hcs)
    · have hlist := congrArg String.toList hjoin
      rw [hlong hne hcs, hlong hne' hcs'] at hlist
      exact below_injective hcs hcs' (String.toList_inj.mp (List.append_cancel_left hlist))

end Texts

/-! ## What `read_dir` finds -/

section Tree

variable {windows : Bool} {name : OsName} {stat : Option Stat} {d rest : DirTree}
  {cs : List String}

theorem readEntry_visible (hname : name.Allowed windows) (isDir isLink : Bool)
    (hv : Visible name stat) :
    ∃ e, readEntry windows true name stat isDir isLink = some e ∧ asBytes e.name = name := by
  obtain ⟨hs, hm⟩ := hv
  obtain ⟨s, hs⟩ := Option.isSome_iff_exists.mp hs
  obtain ⟨m, rfl⟩ := Option.isSome_iff_exists.mp hm
  have hbytes : asBytes s = name := utf8_of_fromUTF8 hs
  have hne : s ≠ "" := (segment_of_allowed hname hs).nonempty
  have hentry : ∃ e, readEntry windows true name (some m) isDir isLink = some e := by
    unfold readEntry
    rw [hs, Option.getD_some, if_neg hne]
    dsimp only
    rw [Bool.not_true, Bool.and_false, if_neg Bool.false_ne_true]
    exact ⟨_, rfl⟩
  obtain ⟨e, he⟩ := hentry
  refine ⟨e, he, ?_⟩
  rw [← Option.some.inj (hs.symm.trans (readEntry_some he)), hbytes]

theorem readEntry_invisible (isDir isLink : Bool) (hv : ¬ Visible name stat) :
    readEntry windows true name stat isDir isLink = none := by
  by_contra hsome
  obtain ⟨e, he⟩ := Option.ne_none_iff_exists'.mp hsome
  have hstat : stat.isSome = true := by
    cases stat with
    | some m => rfl
    | none =>
      unfold readEntry at he
      dsimp only at he
      split at he
      · cases he
      · cases he
  exact hv ⟨by rw [readEntry_some he]; rfl, hstat⟩

/-- Without files and directories, `read_dir` finds what links there are. -/
theorem readEntries_of_links (hallowed : d.Allowed windows) (hno : ¬ d.HasContent) :
    readEntries windows true d = [] ↔ ¬ d.HasLink := by
  induction d with
  | nil => exact iff_of_true rfl id
  | file name stat rest ih => exact absurd trivial hno
  | link name stat toDir rest ih =>
    unfold readEntries
    rw [List.append_eq_nil_iff, ih hallowed.2 hno]
    by_cases hv : Visible name stat
    · obtain ⟨e, he, -⟩ := readEntry_visible hallowed.1 toDir true hv
      rw [he]
      exact iff_of_false (fun h => List.cons_ne_nil _ _ h.1) (fun h => h (.inl hv))
    · rw [readEntry_invisible toDir true hv]
      exact ⟨fun h hlink => hlink.elim hv h.2, fun h => ⟨rfl, fun hlink => h (.inr hlink)⟩⟩
  | dir name stat listable sub rest ihsub ih => exact absurd trivial hno

theorem readEntries_of_content (hallowed : d.Allowed windows) (hplain : d.Plain)
    (hcontent : d.HasContent) : readEntries windows true d ≠ [] := by
  induction d with
  | nil => exact absurd hcontent id
  | file name stat rest ih =>
    obtain ⟨e, he, -⟩ := readEntry_visible hallowed.1 false false hplain.1
    unfold readEntries
    rw [he]
    exact List.cons_ne_nil _ _
  | link name stat toDir rest ih =>
    unfold readEntries
    exact fun hnil => ih hallowed.2 hplain hcontent (List.append_eq_nil_iff.mp hnil).2
  | dir name stat listable sub rest ihsub ih =>
    obtain ⟨e, he, -⟩ := readEntry_visible hallowed.1 true false hplain.1
    unfold readEntries
    rw [he]
    exact List.cons_ne_nil _ _

/-! ## A plain tree is listed in full -/

/-- What is listed for a directory that can be read, whose name is text. -/
theorem listed_dir (hallowed : (DirTree.dir name stat true d rest).Allowed windows)
    (hv : Visible name stat) :
    ∃ c, asBytes c = name ∧
      (DirTree.dir name stat true d rest).listed windows true =
        (d.listed windows true).map (c :: ·) ++ rest.listed windows true ∧
      (DirTree.dir name stat true d rest).emptyBelow windows =
        (d.emptyListed windows).map (c :: ·) ++ rest.emptyBelow windows := by
  obtain ⟨e, he, hname⟩ := readEntry_visible hallowed.1 true false hv
  refine ⟨e.name, hname, ?_, ?_⟩
  · rw [DirTree.listed, he]
    rfl
  · rw [DirTree.emptyBelow, he, DirTree.emptyListed]
    dsimp only
    rw [if_pos rfl]
    split
    · rfl
    · rfl

theorem listed_invisible (listable : Bool) (hv : ¬ Visible name stat) :
    (DirTree.dir name stat listable d rest).listed windows true = rest.listed windows true ∧
      (DirTree.dir name stat listable d rest).emptyBelow windows = rest.emptyBelow windows := by
  rw [DirTree.listed, DirTree.emptyBelow, readEntry_invisible true false hv]
  exact ⟨rfl, rfl⟩

theorem listed_eq_files (hallowed : d.Allowed windows) (hreadable : d.Readable)
    (hplain : d.Plain) : (d.listed windows true).map asNames = d.files := by
  induction d with
  | nil => rfl
  | file name stat rest ih =>
    obtain ⟨e, he, hname⟩ := readEntry_visible hallowed.1 false false hplain.1
    rw [DirTree.listed, he, List.map_append, ih hallowed.2 hreadable hplain.2]
    show asNames [e.name] :: rest.files = [name] :: rest.files
    rw [asNames_cons, hname, asNames_nil]
  | link name stat toDir rest ih => exact ih hallowed.2 hreadable hplain
  | dir name stat listable sub rest ihsub ih =>
    obtain ⟨rfl, hsub, hrest⟩ := hreadable
    obtain ⟨c, hc, hlisted, -⟩ := listed_dir hallowed hplain.1
    rw [hlisted, List.map_append, ih hallowed.2.2 hrest hplain.2.2.2, DirTree.files,
      ← ihsub hallowed.2.1 hsub hplain.2.2.1, List.map_map, List.map_map]
    congr 1
    refine List.map_congr_left fun cs _ => ?_
    show asNames (c :: cs) = name :: asNames cs
    rw [asNames_cons, hc]

theorem emptyBelow_mem_dirs (hallowed : d.Allowed windows) (hreadable : d.Readable)
    (hcs : cs ∈ d.emptyBelow windows) : asNames cs ∈ d.dirs := by
  induction d generalizing cs with
  | nil => cases hcs
  | file name stat rest ih => exact ih hallowed.2 hreadable hcs
  | link name stat toDir rest ih => exact ih hallowed.2 hreadable hcs
  | dir name stat listable sub rest ihsub ih =>
    obtain ⟨rfl, hsub, hrest⟩ := hreadable
    by_cases hv : Visible name stat
    · obtain ⟨c, hc, -, hempty⟩ := listed_dir hallowed hv
      rw [hempty, List.mem_append, List.mem_map] at hcs
      rw [DirTree.dirs, List.mem_append, List.mem_cons, List.mem_map]
      rcases hcs with ⟨cs', hcs', rfl⟩ | hcs
      · rw [asNames_cons, hc]
        unfold DirTree.emptyListed at hcs'
        split at hcs'
        · rw [List.mem_singleton] at hcs'
          exact .inl (.inl (by rw [hcs', asNames_nil]))
        · exact .inl (.inr ⟨_, ihsub hallowed.2.1 hsub hcs', rfl⟩)
      · exact .inr (ih hallowed.2.2 hrest hcs)
    · rw [(listed_invisible true hv).2] at hcs
      rw [DirTree.dirs, List.mem_append]
      exact .inr (ih hallowed.2.2 hrest hcs)

/-- A directory with a file or a directory in it has something that is listed. -/
theorem exists_told (hallowed : d.Allowed windows) (hreadable : d.Readable) (hplain : d.Plain)
    (hcontent : d.HasContent) :
    ∃ cs, cs ∈ d.listed windows true ∨ cs ∈ d.emptyBelow windows := by
  induction d with
  | nil => exact absurd hcontent id
  | file name stat rest ih =>
    obtain ⟨e, he, -⟩ := readEntry_visible hallowed.1 false false hplain.1
    exact ⟨[e.name], .inl (by rw [DirTree.listed, he]; exact List.mem_cons_self)⟩
  | link name stat toDir rest ih => exact ih hallowed.2 hreadable hplain hcontent
  | dir name stat listable sub rest ihsub ih =>
    obtain ⟨rfl, hsub, -⟩ := hreadable
    obtain ⟨c, -, hlisted, hempty⟩ := listed_dir hallowed hplain.1
    rw [hlisted, hempty]
    by_cases hin : sub.HasContent
    · obtain ⟨cs, hcs | hcs⟩ := ihsub hallowed.2.1 hsub hplain.2.2.1 hin
      · exact ⟨c :: cs, .inl (List.mem_append_left _ (List.mem_map_of_mem hcs))⟩
      · refine ⟨c :: cs, .inr (List.mem_append_left _ (List.mem_map_of_mem ?_))⟩
        rw [DirTree.emptyListed, if_neg (readEntries_of_content hallowed.2.1 hplain.2.2.1 hin)]
        exact hcs
    · have hnil : readEntries windows true sub = [] :=
        (readEntries_of_links hallowed.2.1 hin).mpr fun hlink => hin (hplain.2.1 hlink)
      refine ⟨[c], .inr (List.mem_append_left _ (List.mem_map_of_mem ?_))⟩
      rw [DirTree.emptyListed, if_pos hnil]
      exact List.mem_singleton_self _

/-- Something that is listed is at the path or below it. -/
def DirTree.Told (windows : Bool) (d : DirTree) (p : List OsName) : Prop :=
  ∃ cs, p <+: asNames cs ∧ (cs ∈ d.listed windows true ∨ cs ∈ d.emptyBelow windows)

/-- The same with the first directory, which may be listed itself. -/
def DirTree.ToldAll (windows : Bool) (d : DirTree) (p : List OsName) : Prop :=
  ∃ cs, p <+: asNames cs ∧ (cs ∈ d.listed windows true ∨ cs ∈ d.emptyListed windows)

theorem toldAll_of_told {p : List OsName} (hne : readEntries windows true d ≠ [])
    (h : d.Told windows p) : d.ToldAll windows p := by
  unfold DirTree.ToldAll DirTree.emptyListed
  rw [if_neg hne]
  exact h

theorem toldAll_nil (hallowed : d.Allowed windows) (hreadable : d.Readable) (hplain : d.Plain)
    (hlinks : d.HasLink → d.HasContent) : d.ToldAll windows [] := by
  by_cases hcontent : d.HasContent
  · obtain ⟨cs, hcs⟩ := exists_told hallowed hreadable hplain hcontent
    exact toldAll_of_told (readEntries_of_content hallowed hplain hcontent)
      ⟨cs, List.nil_prefix, hcs⟩
  · have hnil : readEntries windows true d = [] :=
      (readEntries_of_links hallowed hcontent).mpr fun hlink => hcontent (hlinks hlink)
    refine ⟨[], List.nil_prefix, .inr ?_⟩
    rw [DirTree.emptyListed, if_pos hnil]
    exact List.mem_singleton_self _

theorem hasContent_of_mem_dirs {p : List OsName} (hp : p ∈ d.dirs) : d.HasContent := by
  induction d with
  | nil => cases hp
  | file name stat rest ih => trivial
  | link name stat toDir rest ih => exact ih hp
  | dir name stat listable sub rest ihsub ih => trivial

/-- Every directory of a plain tree is told of. -/
theorem told_of_plain (hallowed : d.Allowed windows) (hreadable : d.Readable) (hplain : d.Plain)
    {p : List OsName} (hp : p ∈ d.dirs) : d.Told windows p := by
  induction d generalizing p with
  | nil => cases hp
  | file name stat rest ih =>
    obtain ⟨cs, hprefix, hcs⟩ := ih hallowed.2 hreadable hplain.2 hp
    exact ⟨cs, hprefix, hcs.imp_left fun h => List.mem_append_right _ h⟩
  | link name stat toDir rest ih => exact ih hallowed.2 hreadable hplain hp
  | dir name stat listable sub rest ihsub ih =>
    obtain ⟨rfl, hsub, hrest⟩ := hreadable
    obtain ⟨c, hc, hlisted, hempty⟩ := listed_dir hallowed hplain.1
    -- what the directory tells of itself, it tells under its name
    have hunder : ∀ q, sub.ToldAll windows q →
        (DirTree.dir name stat true sub rest).Told windows (name :: q) := by
      rintro q ⟨cs, hprefix, hcs⟩
      refine ⟨c :: cs, ?_, ?_⟩
      · rw [asNames_cons, hc]
        exact List.cons_prefix_cons.mpr ⟨rfl, hprefix⟩
      · rw [hlisted, hempty]
        exact hcs.imp (fun h => List.mem_append_left _ (List.mem_map_of_mem h))
          fun h => List.mem_append_left _ (List.mem_map_of_mem h)
    rw [DirTree.dirs, List.mem_append, List.mem_cons, List.mem_map] at hp
    rcases hp with (rfl | ⟨q, hq, rfl⟩) | hp
    · exact hunder [] (toldAll_nil hallowed.2.1 hsub hplain.2.2.1 hplain.2.1)
    · have hcontent := hasContent_of_mem_dirs hq
      exact hunder q (toldAll_of_told (readEntries_of_content hallowed.2.1 hplain.2.2.1 hcontent)
        (ihsub hallowed.2.1 hsub hplain.2.2.1 hq))
    · obtain ⟨cs, hprefix, hcs⟩ := ih hallowed.2.2 hrest hplain.2.2.2 hp
      refine ⟨cs, hprefix, ?_⟩
      rw [hlisted, hempty]
      exact hcs.imp (fun h => List.mem_append_right _ h) fun h => List.mem_append_right _ h

/-! ## A tree that is listed in full is plain -/

theorem length_listed_le (windows : Bool) (d : DirTree) :
    (d.listed windows true).length ≤ d.files.length := by
  induction d with
  | nil => exact Nat.le_refl _
  | file name stat rest ih =>
    rw [DirTree.listed, DirTree.files, List.length_append, List.length_cons]
    cases readEntry windows true name stat false false with
    | none => exact (Nat.zero_add _).le.trans (ih.trans (Nat.le_succ _))
    | some e => exact (Nat.add_comm 1 _).le.trans (Nat.succ_le_succ ih)
  | link name stat toDir rest ih => exact ih
  | dir name stat listable sub rest ihsub ih =>
    rw [DirTree.listed, DirTree.files, List.length_append, List.length_append, List.length_map]
    refine Nat.add_le_add ?_ ih
    cases readEntry windows true name stat true false with
    | none => exact Nat.zero_le _
    | some e =>
      dsimp only
      split
      · rw [List.length_map]
        exact ihsub
      · exact Nat.zero_le _

/-- The path begins with one of the names. -/
def BeginsIn (names p : List OsName) : Prop := ∃ name ∈ names, ∃ ns, p = name :: ns

theorem beginsIn_here (name : OsName) (names ns : List OsName) :
    BeginsIn (name :: names) (name :: ns) := ⟨name, List.mem_cons_self, ns, rfl⟩

theorem BeginsIn.later {names p : List OsName} (h : BeginsIn names p) (name : OsName) :
    BeginsIn (name :: names) p := by
  obtain ⟨n, hn, ns, heq⟩ := h
  exact ⟨n, List.mem_cons_of_mem name hn, ns, heq⟩

theorem BeginsIn.mem {names ns : List OsName} {name : OsName} (h : BeginsIn names (name :: ns)) :
    name ∈ names := by
  obtain ⟨n, hn, ns', heq⟩ := h
  cases heq
  exact hn

/-- What is listed begins with a name of the directory. -/
theorem head_mem_names (hallowed : d.Allowed windows) (hreadable : d.Readable)
    (hcs : cs ∈ d.listed windows true ∨ cs ∈ d.emptyBelow windows) :
    BeginsIn d.names (asNames cs) := by
  induction d generalizing cs with
  | nil => rcases hcs with hcs | hcs <;> cases hcs
  | file name stat rest ih =>
    have hlater (h : cs ∈ rest.listed windows true ∨ cs ∈ rest.emptyBelow windows) :
        BeginsIn (DirTree.file name stat rest).names (asNames cs) :=
      (ih hallowed.2 hreadable h).later name
    rcases hcs with hcs | hcs
    · rw [DirTree.listed, List.mem_append] at hcs
      rcases hcs with hcs | hcs
      · by_cases hv : Visible name stat
        · obtain ⟨e, he, hname⟩ := readEntry_visible hallowed.1 false false hv
          rw [he, List.mem_singleton] at hcs
          rw [hcs, asNames_cons, hname]
          exact beginsIn_here name _ _
        · rw [readEntry_invisible false false hv] at hcs
          cases hcs
      · exact hlater (.inl hcs)
    · exact hlater (.inr hcs)
  | link name stat toDir rest ih => exact (ih hallowed.2 hreadable hcs).later name
  | dir name stat listable sub rest ihsub ih =>
    obtain ⟨rfl, -, hrest⟩ := hreadable
    have hlater (h : cs ∈ rest.listed windows true ∨ cs ∈ rest.emptyBelow windows) :
        BeginsIn (DirTree.dir name stat true sub rest).names (asNames cs) :=
      (ih hallowed.2.2 hrest h).later name
    by_cases hv : Visible name stat
    · obtain ⟨c, hc, hlisted, hempty⟩ := listed_dir hallowed hv
      have hhere : ∀ cs', c :: cs' = cs →
          BeginsIn (DirTree.dir name stat true sub rest).names (asNames cs) := by
        rintro cs' rfl
        rw [asNames_cons, hc]
        exact beginsIn_here name _ _
      rw [hlisted, hempty, List.mem_append, List.mem_append, List.mem_map, List.mem_map] at hcs
      rcases hcs with (⟨cs', -, heq⟩ | hcs) | (⟨cs', -, heq⟩ | hcs)
      · exact hhere cs' heq
      · exact hlater (.inl hcs)
      · exact hhere cs' heq
      · exact hlater (.inr hcs)
    · rw [(listed_invisible true hv).1, (listed_invisible true hv).2] at hcs
      exact hlater hcs

theorem head_mem_dirs {p : List OsName} (hp : p ∈ d.dirs) : BeginsIn d.names p := by
  induction d generalizing p with
  | nil => cases hp
  | file name stat rest ih => exact (ih hp).later name
  | link name stat toDir rest ih => exact (ih hp).later name
  | dir name stat listable sub rest ihsub ih =>
    rw [DirTree.dirs, List.mem_append, List.mem_cons, List.mem_map] at hp
    rcases hp with (rfl | ⟨q, -, rfl⟩) | hp
    · exact beginsIn_here name _ _
    · exact beginsIn_here name _ _
    · exact (ih hp).later name

/-- What is told of under the name of a directory comes from that directory. -/
theorem told_under (hallowed : (DirTree.dir name stat true d rest).Allowed windows)
    (hreadable : rest.Readable) (hname : name ∉ rest.names) {p : List OsName}
    (h : (DirTree.dir name stat true d rest).Told windows (name :: p)) :
    Visible name stat ∧ d.ToldAll windows p := by
  obtain ⟨cs, hprefix, hcs⟩ := h
  obtain ⟨after, hafter⟩ := hprefix
  have hnot : ¬ (cs ∈ rest.listed windows true ∨ cs ∈ rest.emptyBelow windows) := by
    intro hrest
    have hbegins := head_mem_names hallowed.2.2 hreadable hrest
    rw [← hafter] at hbegins
    exact hname hbegins.mem
  by_cases hv : Visible name stat
  · obtain ⟨c, hc, hlisted, hempty⟩ := listed_dir hallowed hv
    rw [hlisted, hempty, List.mem_append, List.mem_append, List.mem_map, List.mem_map] at hcs
    have hhere : ∃ cs', c :: cs' = cs ∧
        (cs' ∈ d.listed windows true ∨ cs' ∈ d.emptyListed windows) := by
      rcases hcs with (⟨cs', hcs', heq⟩ | hcs) | (⟨cs', hcs', heq⟩ | hcs)
      · exact ⟨cs', heq, .inl hcs'⟩
      · exact absurd (.inl hcs) hnot
      · exact ⟨cs', heq, .inr hcs'⟩
      · exact absurd (.inr hcs) hnot
    obtain ⟨cs', rfl, hcs'⟩ := hhere
    refine ⟨hv, cs', ⟨after, ?_⟩, hcs'⟩
    rw [asNames_cons, List.cons_append, List.cons.injEq] at hafter
    exact hafter.2
  · rw [(listed_invisible true hv).1, (listed_invisible true hv).2] at hcs
    exact absurd hcs hnot

/-- What is told of elsewhere comes from elsewhere. -/
theorem told_beside (hallowed : (DirTree.dir name stat true d rest).Allowed windows)
    (hname : name ∉ rest.names) {p : List OsName} (hp : p ∈ rest.dirs)
    (h : (DirTree.dir name stat true d rest).Told windows p) : rest.Told windows p := by
  obtain ⟨cs, hprefix, hcs⟩ := h
  obtain ⟨n, hn, ns, rfl⟩ := head_mem_dirs hp
  refine ⟨cs, hprefix, ?_⟩
  obtain ⟨after, hafter⟩ := hprefix
  by_cases hv : Visible name stat
  · obtain ⟨c, hc, hlisted, hempty⟩ := listed_dir hallowed hv
    have hother : ∀ cs', c :: cs' ≠ cs := by
      rintro cs' rfl
      rw [asNames_cons, List.cons_append, List.cons.injEq, hc] at hafter
      exact hname (hafter.1 ▸ hn)
    rw [hlisted, hempty, List.mem_append, List.mem_append, List.mem_map, List.mem_map] at hcs
    rcases hcs with (⟨cs', -, heq⟩ | hcs) | (⟨cs', -, heq⟩ | hcs)
    · exact absurd heq (hother cs')
    · exact .inl hcs
    · exact absurd heq (hother cs')
    · exact .inr hcs
  · rwa [(listed_invisible true hv).1, (listed_invisible true hv).2] at hcs

theorem told_of_toldAll {p : List OsName} (hp : p ≠ []) (h : d.ToldAll windows p) :
    d.Told windows p := by
  obtain ⟨cs, hprefix, hcs⟩ := h
  refine ⟨cs, hprefix, ?_⟩
  unfold DirTree.emptyListed at hcs
  split at hcs
  · rcases hcs with hcs | hcs
    · exact .inl hcs
    · rw [List.mem_singleton.mp hcs, asNames_nil, List.prefix_nil] at hprefix
      exact absurd hprefix hp
  · exact hcs

/-- A directory that is told of has something besides links, unless it has no links. -/
theorem content_of_toldAll (hallowed : d.Allowed windows) (h : d.ToldAll windows []) :
    d.HasLink → d.HasContent := by
  intro hlink
  by_contra hno
  have hnothing : d.listed windows true = [] ∧ d.emptyBelow windows = [] := by
    clear h hlink hallowed
    induction d with
    | nil => exact ⟨rfl, rfl⟩
    | file name stat rest ih => exact absurd trivial hno
    | link name stat toDir rest ih => exact ih hno
    | dir name stat listable sub rest ihsub ih => exact absurd trivial hno
  obtain ⟨cs, -, hcs⟩ := h
  have hne : readEntries windows true d ≠ [] :=
    fun hnil => (readEntries_of_links hallowed hno).mp hnil hlink
  rw [DirTree.emptyListed, if_neg hne, hnothing.1, hnothing.2] at hcs
  exact hcs.elim List.not_mem_nil List.not_mem_nil

theorem plain_of_told (hallowed : d.Allowed windows) (hreadable : d.Readable)
    (hdistinct : d.Distinct) (hfiles : (d.listed windows true).length = d.files.length)
    (htold : ∀ p ∈ d.dirs, d.Told windows p) : d.Plain := by
  induction d with
  | nil => trivial
  | file name stat rest ih =>
    have hle := length_listed_le windows rest
    rw [DirTree.listed, DirTree.files, List.length_append, List.length_cons] at hfiles
    have hv : Visible name stat := by
      by_contra hv
      rw [readEntry_invisible false false hv] at hfiles
      simp only [List.length_nil] at hfiles
      omega
    obtain ⟨e, he, hname⟩ := readEntry_visible hallowed.1 false false hv
    rw [he] at hfiles
    simp only [List.length_cons, List.length_nil] at hfiles
    refine ⟨hv, ih hallowed.2 hreadable hdistinct.2 (by omega) fun p hp => ?_⟩
    obtain ⟨cs, hprefix, hcs⟩ := htold p hp
    rw [DirTree.listed, he] at hcs
    refine ⟨cs, hprefix, hcs.imp_left fun h => ?_⟩
    rcases List.mem_cons.mp h with rfl | h
    · -- the file is no directory
      obtain ⟨n, hn, ns, rfl⟩ := head_mem_dirs hp
      obtain ⟨after, hafter⟩ := hprefix
      rw [asNames_cons, hname, List.cons_append, List.cons.injEq] at hafter
      exact absurd (hafter.1 ▸ hn) hdistinct.1
    · exact h
  | link name stat toDir rest ih => exact ih hallowed.2 hreadable hdistinct.2 hfiles htold
  | dir name stat listable sub rest ihsub ih =>
    obtain ⟨rfl, hsub, hrest⟩ := hreadable
    obtain ⟨hname, hdsub, hdrest⟩ := hdistinct
    have hmem : ∀ {p}, p ∈ [name] :: sub.dirs.map (name :: ·) ∨ p ∈ rest.dirs →
        p ∈ (DirTree.dir name stat true sub rest).dirs := fun h => List.mem_append.mpr h
    have hself := told_under hallowed hrest hname (htold [name] (hmem (.inl List.mem_cons_self)))
    obtain ⟨c, -, hlisted, -⟩ := listed_dir hallowed hself.1
    have hlesub := length_listed_le windows sub
    have hlerest := length_listed_le windows rest
    rw [hlisted, DirTree.files, List.length_append, List.length_append, List.length_map,
      List.length_map] at hfiles
    refine ⟨hself.1, content_of_toldAll hallowed.2.1 hself.2,
      ihsub hallowed.2.1 hsub hdsub (by omega) fun p hp => ?_,
      ih hallowed.2.2 hrest hdrest (by omega) fun p hp => ?_⟩
    · obtain ⟨n, -, ns, rfl⟩ := head_mem_dirs hp
      have hunder := htold (name :: n :: ns)
        (hmem (.inl (List.mem_cons_of_mem _ (List.mem_map_of_mem hp))))
      exact told_of_toldAll (List.cons_ne_nil n ns) (told_under hallowed hrest hname hunder).2
    · exact told_beside hallowed hname hp (htold p (hmem (.inr hp)))

/-! ## The two lists of a folder -/

theorem allowed_of_mem_files (hallowed : d.Allowed windows) {p : List OsName} (hp : p ∈ d.files) :
    ∀ name ∈ p, OsName.Allowed windows name := by
  induction d generalizing p with
  | nil => cases hp
  | file name stat rest ih =>
    rcases List.mem_cons.mp hp with rfl | hp
    · exact List.forall_mem_singleton.mpr hallowed.1
    · exact ih hallowed.2 hp
  | link name stat toDir rest ih => exact ih hallowed.2 hp
  | dir name stat listable sub rest ihsub ih =>
    rw [DirTree.files, List.mem_append, List.mem_map] at hp
    rcases hp with ⟨q, hq, rfl⟩ | hp
    · exact List.forall_mem_cons.mpr ⟨hallowed.1, ihsub hallowed.2.1 hq⟩
    · exact ih hallowed.2.2 hp

theorem allowed_of_mem_dirs (hallowed : d.Allowed windows) {p : List OsName} (hp : p ∈ d.dirs) :
    ∀ name ∈ p, OsName.Allowed windows name := by
  induction d generalizing p with
  | nil => cases hp
  | file name stat rest ih => exact ih hallowed.2 hp
  | link name stat toDir rest ih => exact ih hallowed.2 hp
  | dir name stat listable sub rest ihsub ih =>
    rw [DirTree.dirs, List.mem_append, List.mem_cons, List.mem_map] at hp
    rcases hp with (rfl | ⟨q, hq, rfl⟩) | hp
    · exact List.forall_mem_singleton.mpr hallowed.1
    · exact List.forall_mem_cons.mpr ⟨hallowed.1, ihsub hallowed.2.1 hq⟩
    · exact ih hallowed.2.2 hp

theorem head_mem_files {p : List OsName} (hp : p ∈ d.files) : BeginsIn d.names p := by
  induction d generalizing p with
  | nil => cases hp
  | file name stat rest ih =>
    rcases List.mem_cons.mp hp with rfl | hp
    · exact beginsIn_here name _ _
    · exact (ih hp).later name
  | link name stat toDir rest ih => exact (ih hp).later name
  | dir name stat listable sub rest ihsub ih =>
    rw [DirTree.files, List.mem_append, List.mem_map] at hp
    rcases hp with ⟨q, -, rfl⟩ | hp
    · exact beginsIn_here name _ _
    · exact (ih hp).later name

theorem files_nodup (hdistinct : d.Distinct) : d.files.Nodup := by
  induction d with
  | nil => exact List.nodup_nil
  | file name stat rest ih =>
    exact List.nodup_cons.mpr
      ⟨fun hmem => hdistinct.1 (head_mem_files hmem).mem, ih hdistinct.2⟩
  | link name stat toDir rest ih => exact ih hdistinct.2
  | dir name stat listable sub rest ihsub ih =>
    have hsub : (sub.files.map (name :: ·)).Nodup :=
      (ihsub hdistinct.2.1).map (List.cons_injective)
    refine List.nodup_append'.mpr ⟨hsub, ih hdistinct.2.2, fun p hhere hrest => ?_⟩
    obtain ⟨q, -, rfl⟩ := List.mem_map.mp hhere
    exact hdistinct.1 (head_mem_files hrest).mem

theorem emptyListed_mem (hallowed : d.Allowed windows) (hreadable : d.Readable)
    (hcs : cs ∈ d.emptyListed windows) : asNames cs = [] ∨ asNames cs ∈ d.dirs := by
  unfold DirTree.emptyListed at hcs
  split at hcs
  · exact .inl (asNames_eq_nil.mpr (List.mem_singleton.mp hcs))
  · exact .inr (emptyBelow_mem_dirs hallowed hreadable hcs)

/-- The names of a directory, the first included, can be joined. -/
theorem segments_of_dir (hallowed : d.Allowed windows)
    (hcs : asNames cs = [] ∨ asNames cs ∈ d.dirs) : ∀ c ∈ cs, Segment windows c := by
  rcases hcs with hnil | hmem
  · rw [asNames_eq_nil.mp hnil]
    exact List.forall_mem_nil _
  · exact segments_of_allowed (allowed_of_mem_dirs hallowed hmem)

section Lists

variable {path : String} {found : List ListEntry} {emptyDirs : List FileDirectory}

theorem recreated_of_toldAll (hallowed : d.Allowed windows) (hreadable : d.Readable)
    (hplain : d.Plain)
    (hfound : found.map (·.name) =
      (d.listed windows true).map fun cs => cs.foldl (pathJoin windows) "")
    (hempty : emptyDirs.map (·.path) =
      (d.emptyListed windows).map fun cs => cs.foldl (pathJoin windows) path)
    {p : List OsName} (h : d.ToldAll windows p) : Recreated windows path d found emptyDirs p := by
  obtain ⟨cs, hprefix, hcs | hcs⟩ := h
  · refine ⟨cs, hprefix, .inl ⟨?_, ?_⟩⟩
    · rw [← listed_eq_files hallowed hreadable hplain]
      exact List.mem_map_of_mem hcs
    · rw [hfound]
      exact List.mem_map_of_mem hcs
  · refine ⟨cs, hprefix, .inr ⟨emptyListed_mem hallowed hreadable hcs, ?_⟩⟩
    rw [hempty]
    exact List.mem_map_of_mem hcs

theorem toldAll_of_recreated (hallowed : d.Allowed windows) (hreadable : d.Readable)
    (hfound : found.map (·.name) =
      (d.listed windows true).map fun cs => cs.foldl (pathJoin windows) "")
    (hempty : emptyDirs.map (·.path) =
      (d.emptyListed windows).map fun cs => cs.foldl (pathJoin windows) path)
    {p : List OsName} (h : Recreated windows path d found emptyDirs p) : d.ToldAll windows p := by
  obtain ⟨cs, hprefix, ⟨hfile, hmem⟩ | ⟨hdir, hmem⟩⟩ := h
  · rw [hfound, List.mem_map] at hmem
    obtain ⟨cs', hcs', hjoin⟩ := hmem
    obtain rfl := below_injective (listed_segments hallowed cs' hcs').2
      (segments_of_allowed (allowed_of_mem_files hallowed hfile)) hjoin
    exact ⟨cs', hprefix, .inl hcs'⟩
  · rw [hempty, List.mem_map] at hmem
    obtain ⟨cs', hcs', hjoin⟩ := hmem
    obtain rfl := join_injective
      (segments_of_dir hallowed (emptyListed_mem hallowed hreadable hcs'))
      (segments_of_dir hallowed hdir) path hjoin
    exact ⟨cs', hprefix, .inr hcs'⟩

theorem listsFiles_of_plain (hallowed : d.Allowed windows) (hreadable : d.Readable)
    (hdistinct : d.Distinct) (hplain : d.Plain)
    (hfound : found.map (·.name) =
      (d.listed windows true).map fun cs => cs.foldl (pathJoin windows) "") :
    ListsFiles windows d found := by
  have hfiles := listed_eq_files hallowed hreadable hplain
  have hnodup : (d.listed windows true).Nodup := by
    refine List.Nodup.of_map asNames ?_
    rw [hfiles]
    exact files_nodup hdistinct
  refine ⟨⟨_, hfiles, hfound⟩, ?_⟩
  rw [hfound]
  refine List.Nodup.map_on (fun cs hcs cs' hcs' hjoin => ?_) hnodup
  exact below_injective (listed_segments hallowed cs hcs).2 (listed_segments hallowed cs' hcs').2
    hjoin

end Lists

end Tree

/-- The files and the empty directories that are listed for a folder that can be read recreate all
    of it if, and only if, every name is text and every directory with links in it has a file or a
    directory in it too. -/
theorem folder_copied_iff (windows : Bool) (path : String) (d : HostTree windows)
    (hdrives : (windows && path == "/") = false) (hdistinct : d.tree.Distinct)
    (hreadable : d.tree.Readable) :
    FolderCopied windows path d ↔
      d.tree.Plain ∧ (d.tree.HasLink → d.tree.HasContent) := by
  have hallowed := d.allowed
  have hgetFiles : getRecursiveFiles windows path (.dir (.ok d)) true =
      .ok ((readDirRecursive windows true d.tree path "").map (·.1)) := by
    unfold getRecursiveFiles findFiles
    rw [hdrives]
    rfl
  have hgetDirs : getEmptyDirsRecursive windows path (.dir (.ok d)) true =
      .ok (readEmptyDirsRecursive windows true d.tree path) := by
    unfold getEmptyDirsRecursive
    rw [hdrives]
    rfl
  have hfound : ((readDirRecursive windows true d.tree path "").map (·.1)).map (·.name) =
      (d.tree.listed windows true).map fun cs => cs.foldl (pathJoin windows) "" := by
    have hboth := congrArg (List.map Prod.fst) (readDirRecursive_eq windows true d.tree path "")
    rw [List.map_map, List.map_map] at hboth
    rw [List.map_map]
    exact hboth
  have hempty := readEmptyDirsRecursive_eq windows d.tree path
  constructor
  · rintro ⟨found, emptyDirs, hf, he, ⟨⟨texts, hfiles, hnames⟩, -⟩, hall⟩
    obtain rfl := Except.ok.inj (hgetFiles.symm.trans hf)
    obtain rfl := Except.ok.inj (hgetDirs.symm.trans he)
    have htold : ∀ p, p = [] ∨ p ∈ d.tree.dirs → d.tree.ToldAll windows p := fun p hp =>
      toldAll_of_recreated hallowed hreadable hfound hempty (hall p hp)
    have hlength : (d.tree.listed windows true).length = d.tree.files.length := by
      have hlen := congrArg List.length (hfound.symm.trans hnames)
      rw [List.length_map, List.length_map] at hlen
      rw [hlen, ← hfiles, List.length_map]
    refine ⟨plain_of_told hallowed hreadable hdistinct hlength fun p hp => ?_,
      content_of_toldAll hallowed (htold [] (.inl rfl))⟩
    obtain ⟨n, -, ns, rfl⟩ := head_mem_dirs hp
    exact told_of_toldAll (List.cons_ne_nil n ns) (htold _ (.inr hp))
  · rintro ⟨hplain, hlinks⟩
    refine ⟨_, _, hgetFiles, hgetDirs,
      listsFiles_of_plain hallowed hreadable hdistinct hplain hfound, fun p hp => ?_⟩
    refine recreated_of_toldAll hallowed hreadable hplain hfound hempty ?_
    rcases hp with rfl | hp
    · exact toldAll_nil hallowed hreadable hplain hlinks
    · exact toldAll_of_told
        (readEntries_of_content hallowed hplain (hasContent_of_mem_dirs hp))
        (told_of_plain hallowed hreadable hplain hp)

/-- The metadata of an empty file. -/
def emptyStat : Stat := ⟨0, .ok 0, false⟩

/-- A folder with the link `l`, the file `a` and the empty directory `e`. -/
def linkFileAndDir : HostTree false where
  tree := .link [108] (some emptyStat) false
    (.file [97] (some emptyStat) (.dir [101] (some emptyStat) true .nil .nil))
  allowed := by
    refine ⟨?_, ?_, ?_, trivial, trivial⟩
    all_goals
      unfold OsName.Allowed
      decide

theorem folder_copied_iff_link : FolderCopied false "/d" linkFileAndDir := by
  have hvisible : Visible [97] (some emptyStat) ∧ Visible [101] (some emptyStat) := by
    unfold Visible
    decide +kernel
  have hdistinct : linkFileAndDir.tree.Distinct :=
    ⟨by decide, by decide, by decide, trivial, trivial⟩
  exact (folder_copied_iff false "/d" linkFileAndDir rfl hdistinct ⟨rfl, trivial, trivial⟩).mpr
    ⟨⟨hvisible.1, hvisible.2, id, trivial, trivial⟩, fun _ => trivial⟩

/-- A folder with the directory `s`, which holds the link `l` and nothing else. -/
def linkBelow : HostTree false where
  tree := .dir [115] (some emptyStat) true (.link [108] (some emptyStat) false .nil) .nil
  allowed := by
    unfold DirTree.Allowed DirTree.Allowed DirTree.Allowed OsName.Allowed
    decide

/-- Neither list knows the directory. -/
theorem link_below_lost :
    linkBelow.tree.Distinct ∧ linkBelow.tree.Readable ∧ [[115]] ∈ linkBelow.tree.dirs ∧
      getRecursiveFiles false "/d" (.dir (.ok linkBelow)) true = .ok [] ∧
      getEmptyDirsRecursive false "/d" (.dir (.ok linkBelow)) true = .ok [] ∧
      ¬ FolderCopied false "/d" linkBelow := by
  have hs : readEntry false true [115] (some emptyStat) true false =
      some { name := "s", entryType := .dir, size := 0, modifiedTime := 0 } := by
    have htext : OsName.toStr [115] = some "s" := by decide +kernel
    unfold readEntry
    rw [htext]
    rfl
  have hl : readEntry false true [108] (some emptyStat) false true =
      some { name := "l", entryType := .fileLink, size := 0, modifiedTime := 0 } := by
    have htext : OsName.toStr [108] = some "l" := by decide +kernel
    unfold readEntry
    rw [htext]
    rfl
  have hfiles : getRecursiveFiles false "/d" (.dir (.ok linkBelow)) true = .ok [] := by
    simp [getRecursiveFiles, findFiles, Except.map, linkBelow, readDirRecursive, hs]
  have hdirs : getEmptyDirsRecursive false "/d" (.dir (.ok linkBelow)) true = .ok [] := by
    simp [getEmptyDirsRecursive, Except.map, linkBelow, readEmptyDirsRecursive, emptyDirsBelow,
      readEntries, hs, hl]
  refine ⟨⟨by decide, ⟨by decide, trivial⟩, trivial⟩, ⟨rfl, trivial, trivial⟩,
    List.mem_cons_self, hfiles, hdirs, ?_⟩
  rintro ⟨found, emptyDirs, hf, he, -, hall⟩
  obtain rfl := Except.ok.inj (hfiles.symm.trans hf)
  obtain rfl := Except.ok.inj (hdirs.symm.trans he)
  obtain ⟨cs, -, ⟨-, hmem⟩ | ⟨-, hmem⟩⟩ := hall [] (.inl rfl)
  · cases hmem
  · cases hmem

end LuodaRemote
