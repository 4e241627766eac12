/-
  Where a paste touches the disk. The names of the descriptors are joined to the target directory
  as they come, so a name that is absolute or has `..` in it leads out of it. `paste_confined`
  says that nothing else does, links aside: with names that stay, whatever the peer answers,
  every file and directory that is created, written, renamed or removed is inside the directory.
-/
import LuodaRemote.Clipboard.Paste
import LuodaRemote.Lib.NoLinks
import LuodaRemote.Lib.Run

namespace LuodaRemote
open Lib

namespace Paste

open Clip (FileDescription FileType)
open TransferJob (pathNames_eq_pieces pathJoin_extends)

variable {base : Place} {p path name : String} {segs : List String} {t : Tree}

/-! ## Names -/

theorem mem_parentNames {names : List String} {s : String} (hs : s ∈ parentNames names) :
    s ∈ names := (parentNames_isPrefix names).subset hs

theorem noSlash_parentNames (path : String) :
    ∀ s ∈ parentNames (pathNames path), NoSlash s ∧ s ≠ "" :=
  fun _ hs => noSlash_of_mem (mem_parentNames hs)

theorem parentPath_names (path : String) :
    pathNames (parentPath path) = parentNames (pathNames path) := by
  unfold parentPath
  split_ifs
  · have hroot : ("/" ++ "/".intercalate (parentNames (pathNames path))).toList =
        [] ++ '/' :: ("/".intercalate (parentNames (pathNames path))).toList := by
      simp [String.toList_append]
    rw [pathNames_append_slash hroot, String.ofList_toList,
      pathNames_intercalate (noSlash_parentNames path)]
    simp [pathNames]
  · rw [String.empty_append, pathNames_intercalate (noSlash_parentNames path)]

theorem head_intercalate {names : List String} (hnames : ∀ s ∈ names, NoSlash s ∧ s ≠ "") :
    ("/".intercalate names).toList.head? ≠ some '/' := by
  rw [String.toList_intercalate]
  cases names with
  | nil => simp
  | cons s names =>
    obtain ⟨hslash, hne⟩ := hnames s List.mem_cons_self
    have hhead : (List.intercalate "/".toList (List.map String.toList (s :: names))).head? =
        s.toList.head? := by
      cases hcs : s.toList with
      | nil => exact absurd (String.toList_eq_nil_iff.mp hcs) hne
      | cons c cs => cases names <;> simp [List.intercalate, hcs]
    rw [hhead]
    exact hslash.head

theorem origin_parentPath (path : String) (here : Place) :
    origin (parentPath path) here = origin path here := by
  unfold origin parentPath
  by_cases hroot : path.toList.head? = some '/'
  · simp [hroot, String.toList_append]
  · rw [if_neg hroot, String.empty_append]
    have hhead := head_intercalate (noSlash_parentNames path)
    rw [if_neg (by simpa using hhead), if_neg (by simpa using hroot)]

/-- The directory of a path that has a name of its own. -/
theorem parentPath_extends (hp : p ≠ "") (hi : Named p path segs) :
    Extends p (parentPath path) (parentNames segs) where
  ne_empty hempty := by
    have hnames := parentPath_names path
    rw [hempty, hi.ext.names, parentNames_append _ hi.named] at hnames
    have hnil : pathNames p = [] := by
      have : pathNames "" = [] := by simp [pathNames]
      rw [this] at hnames
      exact (List.append_eq_nil_iff.mp hnames.symm).1
    -- The other path is the root then, and so the path has a slash in front.
    have hroot : p.toList.head? = some '/' := by
      by_contra hhead
      exact pathNames_ne_nil hp hhead hnil
    have horigin := (origin_parentPath path ["x"]).trans (hi.ext.origin ["x"])
    rw [hempty] at horigin
    simp [origin, hroot] at horigin
  origin here := (origin_parentPath path here).trans (hi.ext.origin here)
  names := by rw [parentPath_names, hi.ext.names, parentNames_append _ hi.named]

/-- The names of a path without the dots, as `pathComponents` has them. -/
theorem names_without_dots (path : String) : (pathNames path).filter (· ≠ ".") =
    ((pieces (isSeparator false) path).filter (· ≠ ['.'])).map String.ofList := by
  rw [pathNames_eq_pieces, List.filter_map]
  congr 1
  refine List.filter_congr fun s _ => ?_
  have hdot : String.ofList s = "." ↔ s = ['.'] :=
    ⟨fun heq => by simpa using congrArg String.toList heq, fun heq => by rw [heq]⟩
  simp [hdot]

theorem pathFileName_eq (path : String) :
    pathFileName false path = match ((pathNames path).filter (· ≠ ".")).getLast? with
      | some s => if s = ".." then "" else s
      | none => "" := by
  rw [names_without_dots, List.getLast?_map]
  unfold pathFileName pathComponents
  simp only [Bool.false_and, Bool.false_eq_true, if_false, List.nil_append, List.getLast?_append,
    List.getLast?_map]
  cases ((pieces (isSeparator false) path).filter (· ≠ ['.'])).getLast? with
  | none =>
    simp only [Option.map_none, Option.none_or]
    split_ifs <;> rfl
  | some s =>
    have hdots : String.ofList s = ".." ↔ s = ['.', '.'] :=
      ⟨fun heq => by simpa using congrArg String.toList heq, fun heq => by rw [heq]⟩
    simp only [Option.map_some, Option.some_or, hdots]
    split_ifs <;> rfl

theorem pathFileName_noSlash (path : String) : NoSlash (pathFileName false path) := by
  rw [pathFileName_eq]
  cases hlast : ((pathNames path).filter (· ≠ ".")).getLast? with
  | none => simp [NoSlash]
  | some s =>
    dsimp only
    split_ifs
    · simp [NoSlash]
    · exact (noSlash_of_mem (List.mem_of_mem_filter (List.mem_of_getLast? hlast))).1

/-- Dots behind a path do not change its file name. -/
theorem pathFileName_dots (he : Extends p path segs) (hsegs : ∀ s ∈ segs, s = ".") :
    pathFileName false path = pathFileName false p := by
  have hnil : segs.filter (· ≠ ".") = [] :=
    List.filter_eq_nil_iff.mpr fun s hs => by simp [hsegs s hs]
  rw [pathFileName_eq, pathFileName_eq, he.names, List.filter_append, hnil, List.append_nil]

theorem splitExtension_noSlash {stem ext : String} (hname : NoSlash name)
    (hsplit : splitExtension name = (stem, some ext)) : NoSlash stem ∧ NoSlash ext := by
  unfold splitExtension at hsplit
  dsimp only at hsplit
  split at hsplit
  · rename_i c before hback
    split_ifs at hsplit
    · cases hsplit
    · cases hsplit
      constructor
      · refine hname.of_subset fun c' hc => ?_
        rw [String.toList_ofList, List.mem_reverse] at hc
        have hmem : c' ∈ name.toList.reverse.dropWhile (· ≠ '.') := by
          rw [hback]
          exact List.mem_cons_of_mem _ hc
        exact List.mem_reverse.mp ((List.dropWhile_suffix _).subset hmem)
      · refine hname.of_subset fun c' hc => ?_
        rw [String.toList_ofList, List.mem_reverse] at hc
        exact List.mem_reverse.mp ((List.takeWhile_prefix _).subset hc)
  · cases hsplit

/-! ## The names that are tried -/

theorem counter_suffix (i : Nat) :
    NoSlash (" (" ++ toString i ++ ")") ∧ 2 < (" (" ++ toString i ++ ")").length := by
  constructor
  · exact ((noSlash_of_decide rfl).append (noSlash_toString i)).append (noSlash_of_decide rfl)
  · simp only [String.length_append]
    have : " (".length = 2 := by decide
    have : ")".length = 1 := by decide
    omega

theorem dash_suffix (i : Nat) {ext : String} (hext : NoSlash ext) :
    NoSlash ("-" ++ toString i ++ "." ++ ext) ∧ 2 < ("-" ++ toString i ++ "." ++ ext).length := by
  constructor
  · exact (((noSlash_of_decide rfl).append (noSlash_toString i)).append
      (noSlash_of_decide rfl)).append hext
  · have hdigits := length_toString_pos i
    simp only [String.length_append]
    have : "-".length = 1 := by decide
    have : ".".length = 1 := by decide
    omega

/-- A file that is made in the place of another one is made beside it. -/
def Numberable (kind : FileType) (p : String) (segs : List String) : Prop :=
  kind = .file → (∃ s ∈ segs, s ≠ ".") ∨ (splitExtension (pathFileName false p)).2 = none

theorem numbered_named (hp : p ≠ "") {kind : FileType} {i : Nat} {new : String}
    (hi : Inside p path segs) (hk : Numberable kind p segs)
    (hnew : numbered kind path i = some new) : ∃ segs', Named p new segs' := by
  have hsuffix : ∃ segs', Named p (path ++ " (" ++ toString i ++ ")") segs' := by
    obtain ⟨hslash, hlong⟩ := counter_suffix i
    obtain ⟨segs', hs⟩ := hi.append_suffix hslash hlong
    refine ⟨segs', ?_⟩
    simpa only [String.append_assoc] using hs
  unfold numbered at hnew
  cases kind with
  | directory =>
    cases hnew
    exact hsuffix
  | symlink => cases hnew
  | file =>
    dsimp only at hnew
    cases hsplit : splitExtension (pathFileName false path) with
    | mk stem ext =>
      rw [hsplit] at hnew
      cases ext with
      | none =>
        cases hnew
        exact hsuffix
      | some ext =>
        cases hnew
        -- Only a name of its own has an extension to go by.
        have hnamed : ∃ s ∈ segs, s ≠ "." := by
          rcases hk rfl with hnamed | hnone
          · exact hnamed
          · by_contra hall
            push Not at hall
            rw [← pathFileName_dots hi.ext hall, hsplit] at hnone
            cases hnone
        have hdir := parentPath_extends hp ⟨hi, hnamed⟩
        obtain ⟨hstem, hext⟩ := splitExtension_noSlash (pathFileName_noSlash path) hsplit
        obtain ⟨htail, hlong⟩ := dash_suffix i hext
        have heq : stem ++ "-" ++ toString i ++ "." ++ ext =
            stem ++ ("-" ++ toString i ++ "." ++ ext) := by
          simp only [String.append_assoc]
        have hdot := append_suffix_ne hlong stem (s := ".") (by decide)
        have hdots := append_suffix_ne hlong stem (s := "..") (by decide)
        have hempty := append_suffix_ne hlong stem (s := "") (by decide)
        have hslash := hstem.append htail
        rw [heq]
        have hjoin := hdir.trans (pathJoin_extends hdir.ne_empty hslash.head)
        rw [hslash.names hempty] at hjoin
        refine ⟨_, ⟨hjoin, ?_, .inl (by simp)⟩, _, by simp, hdot⟩
        intro hmem
        rcases List.mem_append.mp hmem with hmem | hmem
        · exact hi.dots (mem_parentNames hmem)
        · exact hdots (List.mem_singleton.mp hmem).symm

theorem tryNumbers_named (hp : p ≠ "") {kind : FileType} {new : String} {st : Tree}
    (hi : Inside p path segs) (hk : Numberable kind p segs) :
    ∀ {fuel i : Nat}, tryNumbers Tree.fileSystem kind path st fuel i = some new →
      ∃ segs', Named p new segs'
  | 0, _, hnew => by cases hnew
  | fuel + 1, i, hnew => by
      unfold tryNumbers at hnew
      split at hnew
      · cases hnew
      · rename_i new' hnum
        split_ifs at hnew
        · cases hnew
          exact numbered_named hp hi hk hnum
        · exact tryNumbers_named hp hi hk hnew

theorem descend_dots {nodes : Place → Option Entry} {here : Place}
    (hdir : nodes here = some .dir) :
    ∀ {segs : List String}, (∀ s ∈ segs, s = ".") → descend nodes here segs = .reached here
  | [], _ => rfl
  | s :: segs, hsegs => by
      have hlook : look nodes here s = .into here := by
        rw [hsegs s List.mem_cons_self]
        simp [look, lookDir, hdir]
      rw [descend_cons, hlook]
      exact descend_dots hdir fun x hx => hsegs x (List.mem_cons_of_mem _ hx)

/-- With dots only, a path leads to the directory itself. -/
theorem pathExists_dots (hl : Leads base p t.node t.cwd) (he : Extends p path segs)
    (hsegs : ∀ s ∈ segs, s = ".") : Tree.fileSystem.pathExists path t = true := by
  obtain ⟨m, hm⟩ := hl.follow
  have hres : resolve t.node t.cwd path = .ok base := by
    unfold resolve
    rw [if_neg he.ne_empty, he.origin, he.names, hm, follow_reached (descend_dots hl.dir hsegs)]
    simp [hl.dir]
  simp only [FileSystem.pathExists, Tree.fileSystem, hres, hl.dir]
  rfl

theorem named_of_not_exists (hl : Leads base p t.node t.cwd) (hi : Inside p path segs)
    (hex : Tree.fileSystem.pathExists path t = false) : Named p path segs := by
  refine ⟨hi, ?_⟩
  by_contra hall
  push Not at hall
  rw [pathExists_dots hl hi.ext hall] at hex
  cases hex

theorem getFirstFilename_named (hl : Leads base p t.node t.cwd) {kind : FileType} {new : String}
    (hi : Inside p path segs) (hk : Numberable kind p segs)
    (hnew : getFirstFilename Tree.fileSystem path kind t = some new) :
    ∃ segs', Named p new segs' := by
  unfold getFirstFilename at hnew
  split_ifs at hnew with hex
  · cases hnew
    exact ⟨segs, named_of_not_exists hl hi (by simpa using hex)⟩
  · exact tryNumbers_named hl.ne_empty hi hk hnew

theorem endsInSlash_join (hp : p ≠ "") : endsInSlash (pathJoin false p "") = true := by
  unfold pathJoin
  simp only [Bool.false_and, Bool.not_false, Bool.true_and, String.toList_empty, List.head?_nil,
    Option.any_none, Bool.false_eq_true, if_false, Bool.or_false, String.append_empty]
  split_ifs with hend
  · unfold endsInSlash
    cases hlast : p.toList.getLast? with
    | none => exact absurd (String.toList_eq_nil_iff.mp (List.getLast?_eq_none_iff.mp hlast)) hp
    | some c =>
      rw [hlast] at hend
      simpa [isSeparator, hp] using hend
  · exact endsInSlash_iff.mpr ⟨p.toList, by simp [String.toList_append]⟩

/-- The name of the descriptor does not lead out of the directory it is joined to. The last
    condition is about names like `.`: what is made beside the directory itself goes by the
    extension that the directory has. -/
structure Stays (targetDir : String) (d : FileDescription) : Prop where
  slash : d.name.toList.head? ≠ some '/'
  dots : ".." ∉ pathNames d.name
  numberable : Numberable d.kind targetDir (pathNames d.name)

theorem Stays.inside {d : FileDescription} (hd : Stays p d) (hp : p ≠ "") :
    Inside p (pathJoin false p d.name) (pathNames d.name) := by
  refine ⟨pathJoin_extends hp hd.slash, hd.dots, ?_⟩
  by_cases hname : d.name = ""
  · refine .inr ?_
    rw [hname]
    exact endsInSlash_join hp
  · exact .inl (pathNames_ne_nil hname hd.slash)

theorem names_x : pathNames "x" = ["x"] := by decide

/-- The path that `createDirAll` makes the directories above of. -/
theorem inside_child (hi : Inside p path segs) :
    Inside p (pathJoin false path "x") (segs ++ ["x"]) := by
  have hx : Extends path (pathJoin false path "x") (pathNames "x") :=
    pathJoin_extends hi.ext.ne_empty (by decide)
  rw [names_x] at hx
  refine ⟨hi.ext.trans hx, ?_, .inl (by simp)⟩
  simpa using hi.dots

theorem getNewFilename_named (hl : Leads base p t.node t.cwd) {d : FileDescription}
    (hd : Stays p d) {new : String} (hnew : getNewFilename Tree.fileSystem p d t = some new) :
    ∃ segs', Named p new segs' := by
  have hi := hd.inside hl.ne_empty
  unfold getNewFilename at hnew
  dsimp only at hnew
  split_ifs at hnew with hex
  · exact getFirstFilename_named hl hi hd.numberable hnew
  · cases hnew
    exact ⟨_, named_of_not_exists hl hi (by simpa using hex)⟩

/-! ## What holds all along -/

/-- The target directory is there and has no links in it, and the names stay. -/
structure Setting (base : Place) (p : String) (t : Tree) (files : List FileDescription) :
    Prop where
  leads : Leads base p t.node t.cwd
  noLinks : t.NoLinks base
  stays : ∀ d ∈ files, Stays p d

/-- The file is open at a place inside the directory. -/
def OpenInside (base : Place) (t : Tree) (f : Nat) : Prop :=
  ∃ q, Below base q ∧ t.node q = some (.file (t.store.handles f).inode)

structure Within (base : Place) (p : String) (t : Tree) (files : List FileDescription)
    (s : PasteTaskHandle Tree Nat) : Prop where
  targetDir : s.targetDir = p
  files : s.files = files
  kept : Tree.Kept base t s.disk
  path : s.progress.downloadFilePath = "" ∨ ∃ segs, Named p s.progress.downloadFilePath segs
  handle : ∀ f, s.progress.fileHandle = some f →
    s.progress.downloadFileIndex ≠ -1 ∧ s.progress.listIndex ≠ -1 ∧ OpenInside base s.disk f

namespace Within

variable {files : List FileDescription} {s : PasteTaskHandle Tree Nat} {d : FileDescription}

theorem leads (hs : Within base p t files s) (hset : Setting base p t files) :
    Leads base p s.disk.node s.disk.cwd := hs.kept.confined.leads hset.leads

theorem noLinks (hs : Within base p t files s) (hset : Setting base p t files) :
    s.disk.NoLinks base := hs.kept.noLinks hset.noLinks

theorem stays_at (hs : Within base p t files s) (hset : Setting base p t files) {i : Int}
    (hd : s.fileAt i = some d) : Stays p d := by
  refine hset.stays d (hs.files ▸ ?_)
  exact List.mem_of_getElem? hd

theorem fail (hs : Within base p t files s) (e : CliprdrError) : Within base p t files (s.fail e) :=
  ⟨hs.targetDir, hs.files, hs.kept, hs.path, hs.handle⟩

/-- With no file open the disk may change. -/
theorem of_disk (hs : Within base p t files s) (hnone : s.progress.fileHandle = none) {disk : Tree}
    (hk : Tree.Kept base s.disk disk) : Within base p t files { s with disk } :=
  ⟨hs.targetDir, hs.files, hs.kept.trans hk, hs.path, fun f hf => by
    rw [hnone] at hf
    cases hf⟩

theorem onCancelled (hset : Setting base p t files) (hs : Within base p t files s) :
    Within base p t files (s.onCancelled Tree.fileSystem) := by
  have hremove : Tree.Kept base s.disk (s.disk.removeFile s.progress.downloadFilePath).2 := by
    rcases hs.path with hempty | ⟨segs, hi⟩
    · rw [hempty, Tree.removeFile_empty]
      exact .refl base _
    · exact Tree.removeFile_kept (hs.leads hset) (hs.noLinks hset) hi
  exact ⟨hs.targetDir, hs.files, hs.kept.trans hremove, hs.path, fun f hf => by cases hf⟩

theorem onError (hset : Setting base p t files) (hs : Within base p t files s) (e : CliprdrError) :
    Within base p t files (s.onError Tree.fileSystem e) := (hs.fail e).onCancelled hset

theorem onDone (hset : Setting base p t files) (hs : Within base p t files s) :
    Within base p t files (s.onDone Tree.fileSystem) ∧
      (s.onDone Tree.fileSystem).progress.fileHandle = none := by
  unfold PasteTaskHandle.onDone
  cases hf : s.progress.fileHandle with
  | none => exact ⟨hs, hf⟩
  | some f =>
    dsimp only
    rw [if_neg (hs.handle f hf).1]
    have hclosed : Within base p t files
        { s with progress := { s.progress with fileHandle := none } } :=
      ⟨hs.targetDir, hs.files, hs.kept, hs.path, fun f hf => by cases hf⟩
    split
    · exact ⟨hclosed, rfl⟩
    · rename_i d hd
      have hstays : Stays p d := hs.stays_at hset hd
      split
      · exact ⟨hclosed, rfl⟩
      · rename_i new hnew
        rw [hs.targetDir] at hnew
        obtain ⟨ys, hy⟩ := getNewFilename_named (hs.leads hset) hstays hnew
        refine ⟨⟨hs.targetDir, hs.files, hs.kept.trans ?_, .inl rfl, fun f hf => by cases hf⟩, rfl⟩
        rcases hs.path with hempty | ⟨xs, hx⟩
        · show Tree.Kept base s.disk (s.disk.rename s.progress.downloadFilePath new).2
          rw [hempty, Tree.rename_empty]
          exact .refl base _
        · exact Tree.rename_kept (hs.leads hset) (hs.noLinks hset) hx hy

theorem openNewWriter (hset : Setting base p t files) (hs : Within base p t files s)
    (hnone : s.progress.fileHandle = none) (hindex : s.progress.listIndex ≠ -1) :
    Within base p t files (s.openNewWriter Tree.fileSystem).2 := by
  unfold PasteTaskHandle.openNewWriter
  split
  · exact hs
  rename_i d hd
  have hstays : Stays p d := hs.stays_at hset hd
  obtain ⟨xs, hx⟩ : ∃ xs, Named p (pathJoin false s.targetDir d.name ++ "." ++
      PasteTaskHandle.downloadExtension) xs := by
    rw [hs.targetDir, String.append_assoc]
    exact (hstays.inside hset.leads.ne_empty).append_suffix (by simp [NoSlash,
      PasteTaskHandle.downloadExtension]) (by decide)
  dsimp only
  split
  · exact hs
  rename_i path hpath
  obtain ⟨segs, hi⟩ := getFirstFilename_named (hs.leads hset) hx.toInside
    (fun _ => .inl hx.named) hpath
  -- The directory of the file is there or is made.
  have hdirs : Tree.Kept base s.disk
      (if Tree.fileSystem.pathExists (parentPath path) s.disk then (.ok (), s.disk)
        else Tree.fileSystem.createParents path s.disk : Except String Unit × Tree).2 := by
    split_ifs
    · exact .refl base _
    · exact Tree.createParents_kept (hs.leads hset) (hs.noLinks hset) hi.toInside
  generalize (if Tree.fileSystem.pathExists (parentPath path) s.disk then (.ok (), s.disk)
    else Tree.fileSystem.createParents path s.disk : Except String Unit × Tree) = dirs at hdirs
  obtain ⟨res, disk⟩ := dirs
  have hs1 := hs.of_disk hnone hdirs
  cases res with
  | error e => exact hs1
  | ok u =>
    have hcreate := Tree.create_kept (hs1.leads hset) (hs1.noLinks hset) hi
    dsimp only at hcreate ⊢
    split
    · rename_i f disk' hc
      rw [hc] at hcreate
      refine ⟨hs.targetDir, hs.files, hs1.kept.trans hcreate, .inr ⟨segs, hi⟩, ?_⟩
      rintro _ ⟨⟩
      exact ⟨hindex, hindex, _, hi.below base,
        Tree.create_node (hs1.leads hset) (hs1.noLinks hset) hi hc⟩
    · rename_i e disk' hc
      rw [hc] at hcreate
      exact (hs1.of_disk hnone hcreate).fail _

theorem createEmpty (hset : Setting base p t files) (hs : Within base p t files s)
    (hnone : s.progress.fileHandle = none) (hd : d ∈ files) :
    Within base p t files (s.createEmpty Tree.fileSystem d) ∧
      (s.createEmpty Tree.fileSystem d).progress.fileHandle = none := by
  unfold PasteTaskHandle.createEmpty
  split
  · exact ⟨hs, hnone⟩
  · rename_i new hnew
    rw [hs.targetDir] at hnew
    obtain ⟨segs, hi⟩ := getNewFilename_named (hs.leads hset) (hset.stays d hd) hnew
    exact ⟨hs.of_disk hnone (Tree.create_kept (hs.leads hset) (hs.noLinks hset) hi), hnone⟩

theorem createDir (hset : Setting base p t files) (hs : Within base p t files s)
    (hnone : s.progress.fileHandle = none) (hd : d ∈ files) :
    Within base p t files (s.createDir Tree.fileSystem d) ∧
      (s.createDir Tree.fileSystem d).progress.fileHandle = none := by
  unfold PasteTaskHandle.createDir
  dsimp only
  split_ifs
  · exact ⟨hs, hnone⟩
  · refine ⟨hs.of_disk hnone ?_, hnone⟩
    have hi := (hset.stays d hd).inside hset.leads.ne_empty
    have hmake := Tree.createParents_kept (hs.leads hset) (hs.noLinks hset) (inside_child hi)
    rw [hs.targetDir]
    unfold createDirAll
    exact hmake

theorem nextFile (hset : Setting base p t files) :
    ∀ {rest : List FileDescription} {i : Nat} {s : PasteTaskHandle Tree Nat}, rest ⊆ files →
      Within base p t files s → s.progress.fileHandle = none →
        Within base p t files (PasteTaskHandle.nextFile Tree.fileSystem i rest s).2
  | [], _, _, _, hs, _ => hs
  | d :: rest, i, s, hsub, hs, hnone => by
      have hd : d ∈ files := hsub List.mem_cons_self
      have hrest : rest ⊆ files := fun x hx => hsub (List.mem_cons_of_mem _ hx)
      unfold PasteTaskHandle.nextFile
      cases d.kind with
      | symlink => exact nextFile hset hrest hs hnone
      | directory =>
        obtain ⟨h1, hn1⟩ := hs.createDir hset hnone hd
        exact nextFile hset hrest h1 hn1
      | file =>
        dsimp only
        split_ifs
        · obtain ⟨h1, hn1⟩ := hs.createEmpty hset hnone hd
          exact nextFile hset hrest h1 hn1
        · refine openNewWriter hset ⟨hs.targetDir, hs.files, hs.kept, hs.path, ?_⟩ hnone ?_
          · intro f hf
            rw [show s.progress.fileHandle = some f from hf] at hnone
            cases hnone
          · show (i : Int) ≠ -1
            omega

theorem endOfList (hs : Within base p t files s) : Within base p t files s.endOfList := by
  unfold PasteTaskHandle.endOfList
  split
  · exact hs
  · rename_i hnone
    exact ⟨hs.targetDir, hs.files, hs.kept, hs.path, fun f hf => by
      rw [show s.progress.fileHandle = some f from hf] at hnone
      cases hnone⟩

theorem openNext (hset : Setting base p t files) (hs : Within base p t files s)
    (hnone : s.progress.fileHandle = none) :
    Within base p t files (s.openNext Tree.fileSystem).2 := by
  unfold PasteTaskHandle.openNext
  have hsub : s.files.drop (s.progress.listIndex + 1).toNat ⊆ files := by
    rw [hs.files]
    exact List.drop_subset _ _
  have hnext := nextFile (i := (s.progress.listIndex + 1).toNat) hset hsub hs hnone
  dsimp only
  split
  · rename_i heq
    rwa [heq] at hnext
  · rename_i heq
    rw [heq] at hnext
    exact hnext.endOfList

theorem updateNext (hset : Setting base p t files) (hs : Within base p t files s) (size : Nat) :
    Within base p t files (s.updateNext Tree.fileSystem size).2 := by
  have hcount : Within base p t files (s.count size) :=
    ⟨hs.targetDir, hs.files, hs.kept, hs.path, hs.handle⟩
  unfold PasteTaskHandle.updateNext
  split_ifs with hfin hstart hlast
  · exact hs
  · refine hcount.openNext hset ?_
    -- A file that is open has been found in the list.
    cases hf : s.progress.fileHandle with
    | none => exact hf
    | some f => exact absurd hstart (hs.handle f hf).2.1
  · obtain ⟨hdone, hnone⟩ := hcount.onDone hset
    exact hdone.openNext hset hnone
  · refine endOfList ?_
    exact ⟨hs.targetDir, hs.files, hs.kept, hs.path, hs.handle⟩

theorem sendFileContentsRequest (hset : Setting base p t files) (hs : Within base p t files s) :
    Within base p t files (s.sendFileContentsRequest Tree.fileSystem).1 := by
  unfold PasteTaskHandle.sendFileContentsRequest
  split_ifs
  · exact hs
  · split
    · exact hs.onError hset _
    · exact hs

theorem handleFileContentsResponse (hset : Setting base p t files) (hs : Within base p t files s)
    (r : FileContentsResponse) :
    Within base p t files (s.handleFileContentsResponse Tree.fileSystem r).2 := by
  unfold PasteTaskHandle.handleFileContentsResponse
  split
  · exact hs
  rename_i f hf
  have hwrite : Within base p t files
      { s with disk := (Tree.fileSystem.writeAll f r.requestedData s.disk).2 } := by
    refine ⟨hs.targetDir, hs.files, hs.kept.trans (Tree.writeAll_kept f _ _), hs.path, ?_⟩
    intro f' hf'
    obtain ⟨hdown, hlist, q, hq, hnode⟩ := hs.handle f' hf'
    exact ⟨hdown, hlist, q, hq, by rw [Tree.writeAll_inode]; exact hnode⟩
  split
  · rename_i heq
    rwa [heq] at hwrite
  · rename_i heq
    rw [heq] at hwrite
    exact hwrite.updateNext hset _

theorem onFinished (hset : Setting base p t files) (hs : Within base p t files s) :
    Within base p t files (s.onFinished Tree.fileSystem) := by
  have hend : Within base p t files (if s.progress.error.isSome then s.onCancelled Tree.fileSystem
      else s.onDone Tree.fileSystem) := by
    split_ifs
    · exact hs.onCancelled hset
    · exact (hs.onDone hset).1
  unfold PasteTaskHandle.onFinished
  dsimp only
  split_ifs at hend ⊢
  · exact hend.fail _
  · exact hend
  · exact hend.fail _
  · exact hend

theorem retried (hs : Within base p t files s) (n : Nat) :
    Within base p t files { s with retryCount := n } :=
  ⟨hs.targetDir, hs.files, hs.kept, hs.path, hs.handle⟩

theorem goOn (hset : Setting base p t files) (hs : Within base p t files s) :
    Within base p t files (s.goOn Tree.fileSystem).1 := by
  unfold PasteTaskHandle.goOn
  split_ifs
  · exact hs.sendFileContentsRequest hset
  · exact (hs.retried 0).onFinished hset

theorem receive (hset : Setting base p t files) (hs : Within base p t files s)
    (r : FileContentsResponse) : Within base p t files (s.receive Tree.fileSystem r).1 := by
  unfold PasteTaskHandle.receive
  split_ifs with hfin hstream hflags
  · exact hs
  · exact hs
  · have hretry := hs.retried (s.retryCount + 1)
    dsimp only
    split_ifs
    · exact (hretry.fail _).goOn hset
    · exact hretry.goOn hset
  · split
    · exact hs
    · split_ifs
      · exact hs
      · have hresp := hs.handleFileContentsResponse hset r
        split
        · rename_i heq
          rw [heq] at hresp
          exact (hresp.onError hset _).goOn hset
        · rename_i heq
          rw [heq] at hresp
          exact hresp.goOn hset

theorem step (hset : Setting base p t files) (hs : Within base p t files s)
    (e : PasteTaskHandle.Event) : Within base p t files (s.step Tree.fileSystem e) := by
  unfold PasteTaskHandle.step
  cases e with
  | response r => exact hs.receive hset r
  | timeout late =>
    dsimp only
    split_ifs
    · exact ((hs.fail _).retried 0).onFinished hset
    · exact hs
  | cancel =>
    exact onCancelled hset ⟨hs.targetDir, hs.files, hs.kept, hs.path, hs.handle⟩

end Within

theorem start_within {files : List FileDescription} (hset : Setting base p t files) :
    Within base p t files (start Tree.fileSystem p files t).1 := by
  have hinit : Within base p t files
      { progress := { totalSize := (files.map (·.size)).sum % 2 ^ 64 }, targetDir := p, files,
        disk := t } :=
    ⟨rfl, rfl, .refl base t, .inl rfl, fun f hf => by cases hf⟩
  have hnext := hinit.updateNext hset 0
  unfold start
  dsimp only
  split_ifs
  · exact hnext.onFinished hset
  · exact hnext.sendFileContentsRequest hset

/-- What a task does is inside the directory: what it created, brought somewhere, cut off or
    took away, and the file it has open for writing. -/
def StaysInside (base : Place) (t : Tree) (s : PasteTaskHandle Tree Nat) : Prop :=
  Tree.Confined base t s.disk ∧
    ∀ f, s.progress.fileHandle = some f → OpenInside base s.disk f

/-- Whatever responses come, and with timeouts and a cancellation at any time, a paste stays in
    its target directory, if the names of the descriptors do. The directory is there, and
    there is no link in it. -/
theorem paste_confined {base : Place} {p : String} {t : Tree} (hbase : Leads base p t.node t.cwd)
    (hlinks : t.NoLinks base) {files : List FileDescription} (hstays : ∀ d ∈ files, Stays p d)
    (events : List PasteTaskHandle.Event) :
    Always (PasteTaskHandle.step Tree.fileSystem) (StaysInside base t)
      (start Tree.fileSystem p files t).1 events := by
  have hset : Setting base p t files := ⟨hbase, hlinks, hstays⟩
  have hrun : Always (PasteTaskHandle.step Tree.fileSystem) (Within base p t files)
      (start Tree.fileSystem p files t).1 events :=
    always_of_step (fun s e hs => hs.step hset e) (start_within hset) events
  exact hrun.mono fun s hs => ⟨hs.kept.confined, fun f hf => (hs.handle f hf).2.2⟩

/-- A directory `/t` with nothing in it. -/
def target : Tree := Tree.ofEntries [(["t"], .dir)]

theorem leads_target : Leads ["t"] "/t" target.node target.cwd :=
  ⟨by decide +kernel, by decide +kernel⟩

theorem noLinks_target : target.NoLinks ["t"] := by
  intro x hx
  rw [List.mem_singleton.mp hx]
  simp

/-- A file of one byte. -/
def oneByte (relativePath : String) (noNul : '\x00' ∉ relativePath.toList) : Clip.LocalFileEntry :=
  { Clip.sampleEntry relativePath noNul with size := 1 }

theorem paste_confined_one_byte :
    (run (PasteTaskHandle.step Tree.fileSystem)
        (start Tree.fileSystem "/t" [Clip.described 1 (oneByte "d/x" (by decide))] target).1
          [.response ⟨1, 1, 0, [5]⟩]).disk.node ["t", "d", "x"] = some (.file 0) ∧
      Always (PasteTaskHandle.step Tree.fileSystem) (StaysInside ["t"] target)
        (start Tree.fileSystem "/t" [Clip.described 1 (oneByte "d/x" (by decide))] target).1
          [.response ⟨1, 1, 0, [5]⟩] := by
  refine ⟨by decide +kernel, paste_confined leads_target noLinks_target ?_ _⟩
  intro d hd
  rw [List.mem_singleton.mp hd]
  have hname : (Clip.described 1 (oneByte "d/x" (by decide))).name = "d/x" := by decide +kernel
  refine ⟨?_, ?_, fun _ => .inl ?_⟩
  · rw [hname]
    decide
  · rw [hname]
    decide
  · rw [hname]
    exact ⟨"x", by decide, by decide⟩

/-- A descriptor with the name `../x`, which the reader takes as it is: the file that is opened
    for it is not in the directory. -/
theorem paste_climbs :
    ¬ ∀ (pdu : Bytes) (connId : Int32) (files : List FileDescription) (base : Place) (p : String)
      (t : Tree) (events : List PasteTaskHandle.Event),
        Clip.parseFileDescriptors pdu connId = .ok files → Leads base p t.node t.cwd →
          t.NoLinks base → Always (PasteTaskHandle.step Tree.fileSystem) (StaysInside base t)
            (start Tree.fileSystem p files t).1 events := by
  intro hall
  have hfits : ∀ f ∈ [oneByte "../x" (by decide)], f.Fits := by
    intro f hf
    rw [List.mem_singleton.mp hf]
    unfold Clip.LocalFileEntry.Fits
    decide
  obtain ⟨pdu, -, hparse⟩ := Clip.parse_buildFileListPdu hfits 1
  rw [if_pos (by decide)] at hparse
  have hmade := (hall pdu 1 _ ["t"] "/t" target [] hparse leads_target noLinks_target).1.made
    ["x.rddownload"] (by decide +kernel)
  exact absurd hmade (by decide +kernel)

end Paste

end LuodaRemote
