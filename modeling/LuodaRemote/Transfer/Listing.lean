/-
  The list of files that a sender announces: `read_dir`, `read_dir_recursive` and
  `get_recursive_files` of `libs/hbb_common/src/fs.rs`, and the two checks that a receiver makes
  of the names, `validate_transfer_file_names` there and in `src/ui_cm_interface.rs`.

  The checks differ in what they take for a separator. `honest_list_checked` says which trees
  they refuse although nothing is wrong with them: on Unix a name may hold a backslash or look
  like a drive. It also says that the job of the sender opens, for every number of the list, the
  path at which the file was found.

  The tree does not change while it is read.
-/
import LuodaRemote.Lib.Utf8
import LuodaRemote.Transfer.OnDisk
import LuodaRemote.Transfer.Read

namespace LuodaRemote
open Lib

/-! ## What is on the disk -/

/-- A name in a directory, as the bytes of an `OsStr`. -/
abbrev OsName := Bytes

/-- `OsStr::to_str`. -/
def OsName.toStr (name : OsName) : Option String := String.fromUTF8? ⟨name.toArray⟩

/-- `symlink_metadata`, as far as `read_dir` reads it. -/
structure Stat where
  len : Nat
  /-- In nanoseconds since the epoch. -/
  modified : Except String Int
  /-- `FILE_ATTRIBUTE_HIDDEN`, on Windows. -/
  hidden : Bool

/-- What a directory holds, in the order in which it is read. A `none` is metadata that cannot
    be had. -/
inductive DirTree where
  | nil
  /-- Anything but a directory or a link. -/
  | file (name : OsName) (stat : Option Stat) (rest : DirTree)
  | link (name : OsName) (stat : Option Stat) (toDir : Bool) (rest : DirTree)
  | dir (name : OsName) (stat : Option Stat) (listable : Bool) (sub rest : DirTree)

/-- The names a file system has: anything but `.` and `..` without NUL and without a slash; on
    Windows without a backslash and a colon as well. -/
def OsName.Allowed (windows : Bool) (name : OsName) : Prop :=
  name ≠ [] ∧ 0 ∉ name ∧ 47 ∉ name ∧ name ≠ [46] ∧ name ≠ [46, 46] ∧
    (windows = true → 92 ∉ name ∧ 58 ∉ name)

def DirTree.Allowed (windows : Bool) : DirTree → Prop
  | .nil => True
  | .file name _ rest => name.Allowed windows ∧ rest.Allowed windows
  | .link name _ _ rest => name.Allowed windows ∧ rest.Allowed windows
  | .dir name _ _ sub rest =>
    name.Allowed windows ∧ sub.Allowed windows ∧ rest.Allowed windows

/-- A directory tree of a host. -/
structure HostTree (windows : Bool) where
  tree : DirTree
  allowed : tree.Allowed windows

/-- What is at the path of a transfer, links followed. -/
inductive PathTarget (windows : Bool) where
  | dir (tree : Except String (HostTree windows))
  | file (stat : Option Stat)
  | missing

/-! ## Reading it -/

inductive EntryType where
  | dir | dirLink | dirDrive | file | fileLink
  deriving DecidableEq

/-- `FileEntry`, with the fields that only the lister reads. -/
structure ListEntry extends FileEntry where
  entryType : EntryType
  isHidden : Bool := false

/-- The seconds since the epoch, and 0 for a time that cannot be had. -/
def Stat.modifiedTime (m : Stat) : Nat :=
  match TransferJob.sinceEpoch m.modified with
  | .ok ns => ns / 1000000000
  | .error _ => 0

/-- What `read_dir` makes of one entry of a directory; `isDir` follows a link. -/
def readEntry (windows includeHidden : Bool) (name : OsName) (stat : Option Stat)
    (isDir isLink : Bool) : Option ListEntry :=
  let text := name.toStr.getD ""
  if text = "" then none
  else match stat with
    | none => none
    | some m =>
      let isHidden := if windows then m.hidden else text.toList.head? == some '.'
      if isHidden && !includeHidden then none
      else
        let (entryType, size) :=
          if isDir then (if isLink then .dirLink else .dir, 0)
          else if isLink then (.fileLink, 0)
          else (EntryType.file, m.len)
        some { name := text, entryType, isHidden, size, modifiedTime := m.modifiedTime }

/-- `read_dir_recursive` for a directory at `path`, with the `read_dir` it starts with. Every
    file comes with the path at which it was found. Links are passed over, and so is a directory
    below the first that cannot be read. -/
def readDirRecursive (windows includeHidden : Bool) :
    DirTree → (path pre : String) → List (ListEntry × String)
  | .nil, _, _ => []
  | .file name stat rest, path, pre =>
    (match readEntry windows includeHidden name stat false false with
      | some e => [({ e with name := pathJoin windows pre e.name },
          pathJoin windows path e.name)]
      | none => []) ++ readDirRecursive windows includeHidden rest path pre
  | .link _ _ _ rest, path, pre => readDirRecursive windows includeHidden rest path pre
  | .dir name stat listable sub rest, path, pre =>
    (match readEntry windows includeHidden name stat true false with
      | some e =>
        if listable then
          readDirRecursive windows includeHidden sub (pathJoin windows path e.name)
            (pathJoin windows pre e.name)
        else []
      | none => []) ++ readDirRecursive windows includeHidden rest path pre

/-- The files found at a path. On Windows `/` stands for the drives, which are not read. -/
def findFiles (windows : Bool) (path : String) (t : PathTarget windows) (includeHidden : Bool) :
    Except String (List (ListEntry × String)) :=
  match t with
  | .dir tree =>
    if windows && path == "/" then .ok []
    else tree.map fun d => readDirRecursive windows includeHidden d.tree path ""
  | .file stat =>
    .ok [({ name := "", entryType := .file, size := (stat.map (·.len)).getD 0
            modifiedTime := (stat.map (·.modifiedTime)).getD 0 }, path)]
  | .missing => .error "Not exists"

/-- `get_recursive_files`. -/
def getRecursiveFiles (windows : Bool) (path : String) (t : PathTarget windows)
    (includeHidden : Bool) : Except String (List ListEntry) :=
  (findFiles windows path t includeHidden).map fun found => found.map (·.1)

/-! ## The files by their names -/

/-- The files that are listed, each as the names from the top of the tree down to it. -/
def DirTree.listed (windows includeHidden : Bool) : DirTree → List (List String)
  | .nil => []
  | .file name stat rest =>
    (match readEntry windows includeHidden name stat false false with
      | some e => [[e.name]]
      | none => []) ++ rest.listed windows includeHidden
  | .link _ _ _ rest => rest.listed windows includeHidden
  | .dir name stat listable sub rest =>
    (match readEntry windows includeHidden name stat true false with
      | some e =>
        if listable then (sub.listed windows includeHidden).map (e.name :: ·) else []
      | none => []) ++ rest.listed windows includeHidden

/-- What is listed for a path; nothing names a file that is itself the path. -/
def PathTarget.listed {windows : Bool} (path : String) (t : PathTarget windows)
    (includeHidden : Bool) : List (List String) :=
  match t with
  | .dir (.ok d) =>
    if windows && path == "/" then [] else d.tree.listed windows includeHidden
  | _ => []

/-- A name that is text, as a component of a path. -/
structure Segment (windows : Bool) (s : String) : Prop where
  nonempty : s ≠ ""
  noNul : 0 ∉ asBytes s
  noSlash : '/' ∉ s.toList
  notDots : s ≠ ".."
  noBackslash : windows = true → '\\' ∉ s.toList
  noColon : windows = true → 58 ∉ asBytes s

theorem segment_of_allowed {windows : Bool} {name : OsName} {s : String}
    (hname : name.Allowed windows) (hs : name.toStr = some s) : Segment windows s := by
  obtain ⟨hne, hnul, hslash, _, hdots, hwin⟩ := hname
  have hbytes : asBytes s = name := utf8_of_fromUTF8 hs
  refine ⟨?_, ?_, ?_, ?_, ?_, ?_⟩
  · rintro rfl
    exact hne (hbytes.symm.trans (by unfold asBytes; rw [utf8_eq_flatMap]; rfl))
  · rw [hbytes]
    exact hnul
  · intro hmem
    exact hslash (hbytes ▸ mem_utf8 (by decide) hmem)
  · rintro rfl
    exact hdots (hbytes.symm.trans (by unfold asBytes; rw [utf8_eq_flatMap]; decide))
  · intro hw hmem
    exact (hwin hw).1 (hbytes ▸ mem_utf8 (by decide) hmem)
  · intro hw
    rw [hbytes]
    exact (hwin hw).2

theorem readEntry_some {windows includeHidden : Bool} {name : OsName} {stat : Option Stat}
    {isDir isLink : Bool} {e : ListEntry}
    (he : readEntry windows includeHidden name stat isDir isLink = some e) :
    name.toStr = some e.name := by
  unfold readEntry at he
  dsimp only at he
  by_cases htext : name.toStr.getD "" = ""
  · rw [if_pos htext] at he
    cases he
  · rw [if_neg htext] at he
    cases stat with
    | none => cases he
    | some m =>
      dsimp only at he
      generalize (if windows = true then m.hidden else _) = isHidden at he
      by_cases hskip : (isHidden && !includeHidden) = true
      · rw [if_pos hskip] at he
        cases he
      · rw [if_neg hskip] at he
        cases hs : name.toStr with
        | none =>
          rw [hs] at htext
          exact absurd rfl htext
        | some s =>
          rw [hs] at he
          cases he
          rfl

theorem listed_segments {windows includeHidden : Bool} {d : DirTree} (hd : d.Allowed windows) :
    ∀ cs ∈ d.listed windows includeHidden, cs ≠ [] ∧ ∀ c ∈ cs, Segment windows c := by
  induction d with
  | nil =>
    intro cs hcs
    cases hcs
  | file name stat rest ih =>
    intro cs hcs
    rcases List.mem_append.mp hcs with hhere | hrest
    · split at hhere
      · rename_i e he
        obtain rfl := List.mem_singleton.mp hhere
        refine ⟨List.cons_ne_nil _ _, fun c hc => ?_⟩
        obtain rfl := List.mem_singleton.mp hc
        exact segment_of_allowed hd.1 (readEntry_some he)
      · cases hhere
    · exact ih hd.2 cs hrest
  | link name stat toDir rest ih => exact ih hd.2
  | dir name stat listable sub rest ihsub ih =>
    intro cs hcs
    rcases List.mem_append.mp hcs with hhere | hrest
    · split at hhere
      · rename_i e he
        split at hhere
        · obtain ⟨below, hbelow, rfl⟩ := List.mem_map.mp hhere
          refine ⟨List.cons_ne_nil _ _, fun c hc => ?_⟩
          rcases List.mem_cons.mp hc with rfl | hc
          · exact segment_of_allowed hd.1 (readEntry_some he)
          · exact (ihsub hd.2.1 below hbelow).2 c hc
        · cases hhere
      · cases hhere
    · exact ih hd.2.2 cs hrest

/-- The names and paths of the files that are found. -/
theorem readDirRecursive_eq (windows includeHidden : Bool) (d : DirTree) (path pre : String) :
    (readDirRecursive windows includeHidden d path pre).map (fun x => (x.1.name, x.2)) =
      (d.listed windows includeHidden).map fun cs =>
        (cs.foldl (pathJoin windows) pre, cs.foldl (pathJoin windows) path) := by
  induction d generalizing path pre with
  | nil => rfl
  | file name stat rest ih =>
    unfold readDirRecursive DirTree.listed
    rw [List.map_append, List.map_append, ih]
    cases readEntry windows includeHidden name stat false false <;> rfl
  | link name stat toDir rest ih => exact ih path pre
  | dir name stat listable sub rest ihsub ih =>
    unfold readDirRecursive DirTree.listed
    rw [List.map_append, List.map_append, ih]
    cases readEntry windows includeHidden name stat true false with
    | none => rfl
    | some e =>
      dsimp only
      cases listable with
      | false => rfl
      | true =>
        rw [if_pos rfl, if_pos rfl, ihsub, List.map_map]
        rfl

/-! ## Joining names to a path -/

def sepChar (windows : Bool) : Char := if windows then '\\' else '/'

/-- What `PathBuf::join` puts between a path and a name. -/
def glue (windows : Bool) (p : String) : List Char :=
  if p = "" || p.toList.getLast?.any (isSeparator windows) ||
      windows && hasDriveLetter p && p.length == 2 then []
  else [sepChar windows]

/-- The names below a directory, each after its separator. -/
def below (windows : Bool) (cs : List String) : List Char :=
  cs.flatMap fun c => sepChar windows :: c.toList

/-- A path that needs a separator before the next name. -/
structure Stem (windows : Bool) (p : String) : Prop where
  nonempty : p ≠ ""
  noSep : p.toList.getLast?.any (isSeparator windows) = false
  notDrive : (windows && hasDriveLetter p && p.length == 2) = false

section Joining

variable {windows : Bool} {c p : String}

theorem hasDriveLetter_of_noColon {s : String} (hs : 58 ∉ asBytes s) :
    hasDriveLetter s = false := by
  unfold hasDriveLetter
  split
  · rename_i b0 b1 rest heq
    have hb1 : b1 ≠ 58 := by
      rintro rfl
      exact hs (by rw [heq]; simp)
    simp [hb1]
  · rfl

theorem mem_asBytes {b : UInt8} {s : String} :
    b ∈ asBytes s ↔ ∃ ch ∈ s.toList, b ∈ String.utf8EncodeChar ch := by
  unfold asBytes
  rw [utf8_eq_flatMap, List.mem_flatMap]

theorem hasDriveLetter_of_sep {ch : Char} (hsep : isSeparator true ch = true) {s : String}
    {cs : List Char} (hs : s.toList = [ch] ++ cs) : hasDriveLetter s = false := by
  have hbytes : asBytes s = String.utf8EncodeChar ch ++ cs.flatMap String.utf8EncodeChar := by
    unfold asBytes
    rw [utf8_eq_flatMap, hs]
    simp
  have hch : ch = '/' ∨ ch = '\\' := by simpa [isSeparator] using hsep
  have hfirst : ∃ b rest, asBytes s = b :: rest ∧ (b = 47 ∨ b = 92) := by
    rcases hch with rfl | rfl
    · exact ⟨47, _, hbytes, .inl rfl⟩
    · exact ⟨92, _, hbytes, .inr rfl⟩
  obtain ⟨b, rest, heq, hb⟩ := hfirst
  unfold hasDriveLetter
  rw [heq]
  rcases hb with rfl | rfl <;> cases rest <;> simp

theorem Segment.notSep (hc : Segment windows c) :
    ∀ ch ∈ c.toList, isSeparator windows ch = false := by
  intro ch hch
  have hslash : ch ≠ '/' := fun heq => hc.noSlash (heq ▸ hch)
  cases windows with
  | false => simpa [isSeparator] using hslash
  | true =>
    have hback : ch ≠ '\\' := fun heq => hc.noBackslash rfl (heq ▸ hch)
    simp [isSeparator, hslash, hback]

theorem Segment.toList_ne (hc : Segment windows c) : c.toList ≠ [] := by
  intro hnil
  exact hc.nonempty (String.toList_eq_nil_iff.mp hnil)

theorem Segment.last (hc : Segment windows c) :
    c.toList.getLast?.any (isSeparator windows) = false := by
  cases hl : c.toList.getLast? with
  | none => rfl
  | some ch => exact hc.notSep ch (List.mem_of_getLast? hl)

/-- A name, or names with separators in between, that is put behind a path. -/
structure Joinable (windows : Bool) (n : String) : Prop where
  head : n.toList.head?.any (isSeparator windows) = false
  noDrive : windows = true → hasDriveLetter n = false

theorem pathJoin_relative {n : String} (hn : Joinable windows n) (p : String) :
    (pathJoin windows p n).toList = p.toList ++ glue windows p ++ n.toList := by
  have hdrive : (windows && hasDriveLetter n) = false := by
    cases windows with
    | false => rfl
    | true => exact hn.noDrive rfl
  unfold pathJoin glue
  simp only [hn.head, hdrive, Bool.and_false, Bool.or_self, Bool.false_eq_true, if_false]
  split
  · simp
  · cases windows <;> simp [sepChar]

theorem glue_stem (hp : Stem windows p) : glue windows p = [sepChar windows] := by
  unfold glue
  rw [if_neg]
  simp [hp.nonempty, hp.noSep, hp.notDrive]

theorem Segment.joinable (hc : Segment windows c) : Joinable windows c where
  head := by
    cases hh : c.toList.head? with
    | none => rfl
    | some ch => exact hc.notSep ch (List.mem_of_head? hh)
  noDrive := fun hw => hasDriveLetter_of_noColon (hc.noColon hw)

/-- Only a path that stands for itself is a bare drive: a name behind it is no part of that. -/
theorem not_drive_append (hc : Segment true c) {q : String}
    (hq : q.toList = p.toList ++ glue true p ++ c.toList) :
    (hasDriveLetter q && q.length == 2) = false := by
  have hlen : q.length = p.toList.length + (glue true p).length + c.toList.length := by
    rw [← String.length_toList, hq, List.length_append, List.length_append]
  have hcpos : 0 < c.toList.length := List.length_pos_iff.mpr hc.toList_ne
  by_cases hp : p = ""
  · -- The name itself, which has no colon.
    subst hp
    obtain rfl : q = c := String.toList_inj.mp (by rw [hq]; simp [glue])
    rw [hasDriveLetter_of_noColon (hc.noColon rfl), Bool.false_and]
  · have hppos : 0 < p.toList.length :=
      List.length_pos_iff.mpr fun hnil => hp (String.toList_eq_nil_iff.mp hnil)
    by_cases hshort : p.toList.length + (glue true p).length = 1
    · -- A single separator.
      have hglue : glue true p = [] := List.length_eq_zero_iff.mp (by omega)
      obtain ⟨ch, hch⟩ := List.length_eq_one_iff.mp (show p.toList.length = 1 by omega)
      have hsep : isSeparator true ch = true := by
        by_contra hno
        have hlen1 : p.length = 1 := by rw [← String.length_toList, hch]; rfl
        unfold glue at hglue
        rw [if_neg (by simp [hp, hch, hlen1, hno])] at hglue
        cases hglue
      rw [hglue, hch, List.append_nil] at hq
      rw [hasDriveLetter_of_sep hsep hq, Bool.false_and]
    · have hne : q.length ≠ 2 := by omega
      simp [hne]

theorem stem_join (hc : Segment windows c) {q : String}
    (hq : q.toList = p.toList ++ glue windows p ++ c.toList) : Stem windows q where
  nonempty := by
    rintro rfl
    have hnil : c.toList = [] := by simpa using (List.append_eq_nil_iff.mp hq.symm).2
    exact hc.toList_ne hnil
  noSep := by
    rw [hq, List.getLast?_append_of_ne_nil _ hc.toList_ne]
    exact hc.last
  notDrive := by
    cases windows with
    | false => rfl
    | true => exact not_drive_append hc hq

theorem Segment.stem (hc : Segment windows c) : Stem windows c :=
  stem_join (p := "") hc (by simp [glue])

/-- Names are put behind one another. -/
theorem foldl_pathJoin {cs : List String} (hcs : ∀ c ∈ cs, Segment windows c)
    (hp : Stem windows p) :
    (cs.foldl (pathJoin windows) p).toList = p.toList ++ below windows cs := by
  induction cs generalizing p with
  | nil => simp [below]
  | cons c cs ih =>
    have hc : Segment windows c := hcs c List.mem_cons_self
    have hq := pathJoin_relative hc.joinable p
    rw [List.foldl_cons, ih (fun c hmem => hcs c (List.mem_cons_of_mem _ hmem)) (stem_join hc hq),
      hq, glue_stem hp]
    simp [below]

/-- The name of an entry of the list. -/
theorem toList_name {cs : List String} (hc : Segment windows c)
    (hcs : ∀ c ∈ cs, Segment windows c) :
    ((c :: cs).foldl (pathJoin windows) "").toList = c.toList ++ below windows cs := by
  have hq := pathJoin_relative hc.joinable ""
  rw [List.foldl_cons, foldl_pathJoin hcs (stem_join hc hq), hq]
  simp [glue]

/-- A byte that is neither in the names nor in the separator. -/
theorem not_mem_name {cs : List String} (hc : Segment windows c)
    (hcs : ∀ c ∈ cs, Segment windows c) {b : UInt8}
    (hsep : b ∉ String.utf8EncodeChar (sepChar windows)) (hb : ∀ d ∈ c :: cs, b ∉ asBytes d) :
    b ∉ asBytes ((c :: cs).foldl (pathJoin windows) "") := by
  intro hmem
  obtain ⟨ch, hch, hbch⟩ := mem_asBytes.mp hmem
  rw [toList_name hc hcs] at hch
  rcases List.mem_append.mp hch with hhere | hbelow
  · exact hb c List.mem_cons_self (mem_asBytes.mpr ⟨ch, hhere, hbch⟩)
  · obtain ⟨d, hd, hch⟩ := List.mem_flatMap.mp hbelow
    rcases List.mem_cons.mp hch with rfl | hch
    · exact hsep hbch
    · exact hb d (List.mem_cons_of_mem _ hd) (mem_asBytes.mpr ⟨ch, hch, hbch⟩)

theorem joinable_name {cs : List String} (hc : Segment windows c)
    (hcs : ∀ c ∈ cs, Segment windows c) :
    Joinable windows ((c :: cs).foldl (pathJoin windows) "") where
  head := by
    rw [toList_name hc hcs, List.head?_append_of_ne_nil _ hc.toList_ne]
    exact hc.joinable.head
  noDrive := by
    intro hw
    refine hasDriveLetter_of_noColon (not_mem_name hc hcs ?_ ?_)
    · rw [hw]
      decide
    · intro d hd
      rcases List.mem_cons.mp hd with rfl | hd
      · exact hc.noColon hw
      · exact (hcs d hd).noColon hw

theorem name_ne_empty {cs : List String} (hne : cs ≠ []) (hcs : ∀ c ∈ cs, Segment windows c) :
    cs.foldl (pathJoin windows) "" ≠ "" := by
  cases cs with
  | nil => exact absurd rfl hne
  | cons c cs =>
    have hc : Segment windows c := hcs c List.mem_cons_self
    intro hempty
    have hnil := toList_name hc fun c hmem => hcs c (List.mem_cons_of_mem _ hmem)
    rw [hempty] at hnil
    exact hc.toList_ne (List.append_eq_nil_iff.mp hnil.symm).1

/-- The sender's job opens the path at which the file was found. -/
theorem join_name {cs : List String} (hne : cs ≠ []) (hcs : ∀ c ∈ cs, Segment windows c)
    (p : String) :
    pathJoin windows p (cs.foldl (pathJoin windows) "") = cs.foldl (pathJoin windows) p := by
  cases cs with
  | nil => exact absurd rfl hne
  | cons c cs =>
    have hc : Segment windows c := hcs c List.mem_cons_self
    have hrest : ∀ c ∈ cs, Segment windows c := fun c hmem => hcs c (List.mem_cons_of_mem _ hmem)
    have hq := pathJoin_relative hc.joinable p
    apply String.toList_inj.mp
    rw [pathJoin_relative (joinable_name hc hrest), toList_name hc hrest, List.foldl_cons,
      foldl_pathJoin hrest (stem_join hc hq), hq]
    simp

end Joining

/-! ## What a receiver accepts -/

/-- The check of a receiver has nothing against a file with these names above it. It takes the
    backslash for a separator on Windows, and in the connection manager everywhere; a drive only
    counts on Windows. -/
def Acceptable (receiver backslash : Bool) (cs : List String) : Prop :=
  (backslash = true → (∀ c ∈ cs, ['.', '.'] ∉ c.toList.splitOn '\\') ∧
    ∀ c ∈ cs.head?, c.toList.head? ≠ some '\\') ∧
  (receiver = true → ∀ c ∈ cs.head?, hasDriveLetter c = false)

section Checking

variable {windows : Bool} {c : String} {cs : List String}

theorem splitOnP_congr {α : Type} {f g : α → Bool} {xs : List α} (hfg : ∀ x ∈ xs, f x = g x) :
    xs.splitOnP f = xs.splitOnP g := by
  induction xs with
  | nil => rfl
  | cons x xs ih =>
    rw [List.splitOnP_cons_eq_if_modifyHead, List.splitOnP_cons_eq_if_modifyHead,
      hfg x List.mem_cons_self, ih fun y hy => hfg y (List.mem_cons_of_mem _ hy)]

theorem dots_pieces (isSep : Char → Bool) (name : String) :
    (pieces isSep name).any (· == ['.', '.']) = true ↔
      ['.', '.'] ∈ name.toList.splitOnP isSep := by
  unfold pieces
  simp [List.any_eq_true]

theorem dots_segment (backslash : Bool) (hc : Segment windows c) :
    ['.', '.'] ∈ c.toList.splitOnP (isSeparator backslash) ↔
      backslash = true ∧ ['.', '.'] ∈ c.toList.splitOn '\\' := by
  cases backslash with
  | false =>
    have hone : c.toList.splitOnP (isSeparator false) = [c.toList] := by
      apply List.splitOnP_eq_singleton
      intro ch hch
      have hslash : ch ≠ '/' := fun heq => hc.noSlash (heq ▸ hch)
      simpa [isSeparator] using hslash
    rw [hone, List.mem_singleton]
    refine iff_of_false (fun hdots => hc.notDots ?_) (fun hand => Bool.false_ne_true hand.1)
    exact String.toList_inj.mp hdots.symm
  | true =>
    have hsame : c.toList.splitOnP (isSeparator true) = c.toList.splitOn '\\' := by
      apply splitOnP_congr
      intro ch hch
      have hslash : ch ≠ '/' := fun heq => hc.noSlash (heq ▸ hch)
      simp [isSeparator, hslash]
    rw [hsame]
    simp

theorem dots_name (backslash : Bool) (hc : Segment windows c)
    (hcs : ∀ c ∈ cs, Segment windows c) :
    ['.', '.'] ∈ (c.toList ++ below windows cs).splitOnP (isSeparator backslash) ↔
      backslash = true ∧ ∃ d ∈ c :: cs, ['.', '.'] ∈ d.toList.splitOn '\\' := by
  by_cases hsep : isSeparator backslash (sepChar windows) = true
  · induction cs generalizing c with
    | nil => simpa [below] using dots_segment backslash hc
    | cons d cs ih =>
      have hd : Segment windows d := hcs d List.mem_cons_self
      have hsplit : c.toList ++ below windows (d :: cs) =
          c.toList ++ sepChar windows :: (d.toList ++ below windows cs) := by simp [below]
      rw [hsplit, List.splitOnP_append_cons _ _ hsep, List.mem_append, dots_segment backslash hc,
        ih hd fun e he => hcs e (List.mem_cons_of_mem _ he)]
      simp only [List.mem_cons, exists_eq_or_imp]
      tauto
  · -- A Windows sender and a receiver that splits at slashes only: there is one piece.
    obtain ⟨rfl, rfl⟩ : windows = true ∧ backslash = false := by
      cases windows <;> cases backslash <;> simp [isSeparator, sepChar] at hsep ⊢
    have hnone : ∀ ch ∈ c.toList ++ below true cs, isSeparator false ch = false := by
      intro ch hch
      have hslash : ch ≠ '/' := by
        rintro rfl
        rcases List.mem_append.mp hch with hhere | hbelow
        · exact hc.noSlash hhere
        · obtain ⟨d, hd, hmem⟩ := List.mem_flatMap.mp hbelow
          rcases List.mem_cons.mp hmem with heq | hmem
          · exact absurd heq (by decide)
          · exact (hcs d hd).noSlash hmem
      simpa [isSeparator] using hslash
    rw [List.splitOnP_eq_singleton hnone, List.mem_singleton]
    refine iff_of_false ?_ (fun hand => Bool.false_ne_true hand.1)
    intro hdots
    cases cs with
    | nil =>
      refine hc.notDots (String.toList_inj.mp ?_)
      simpa [below] using hdots.symm
    | cons d cs =>
      have hback : '\\' ∈ ['.', '.'] := by
        rw [hdots]
        simp [below, sepChar]
      exact absurd hback (by decide)

theorem head_segment (backslash : Bool) (hc : Segment windows c) :
    c.toList.head?.any (isSeparator backslash) = true ↔
      backslash = true ∧ c.toList.head? = some '\\' := by
  cases hh : c.toList.head? with
  | none => simp
  | some ch =>
    have hslash : ch ≠ '/' := fun heq => hc.noSlash (heq ▸ List.mem_of_head? hh)
    cases backslash <;> simp [isSeparator, hslash]

/-- A drive is a matter of the first name. -/
theorem hasDriveLetter_name (hc : Segment windows c) (hcs : ∀ c ∈ cs, Segment windows c) :
    hasDriveLetter ((c :: cs).foldl (pathJoin windows) "") = hasDriveLetter c := by
  have hbytes : asBytes ((c :: cs).foldl (pathJoin windows) "") =
      asBytes c ++ (below windows cs).flatMap String.utf8EncodeChar := by
    unfold asBytes
    rw [utf8_eq_flatMap, utf8_eq_flatMap, toList_name hc hcs, List.flatMap_append]
  have hnext : ∀ b, (((below windows cs).flatMap String.utf8EncodeChar).head?) = some b →
      b ≠ 58 := by
    intro b hb
    cases cs with
    | nil => cases hb
    | cons d cs => cases windows <;> · cases hb; decide
  have hne : asBytes c ≠ [] := by
    unfold asBytes
    rw [utf8_eq_flatMap]
    cases hl : c.toList with
    | nil => exact absurd hl hc.toList_ne
    | cons ch rest => simp [String.utf8EncodeChar_ne_nil]
  unfold hasDriveLetter
  rw [hbytes]
  match hb : asBytes c with
  | [] => exact absurd hb hne
  | [b0] =>
    cases hrest : (below windows cs).flatMap String.utf8EncodeChar with
    | nil => rfl
    | cons b1 rest =>
      have hb1 : b1 ≠ 58 := hnext b1 (by rw [hrest]; rfl)
      simp [hb1]
  | b0 :: b1 :: rest => rfl

/-- One name. -/
theorem validate_name (receiver backslash : Bool) (hc : Segment windows c)
    (hcs : ∀ c ∈ cs, Segment windows c) :
    validateFileNameNoTraversal receiver backslash ((c :: cs).foldl (pathJoin windows) "") =
      .ok () ↔ Acceptable receiver backslash (c :: cs) := by
  have hnul : (asBytes ((c :: cs).foldl (pathJoin windows) "")).contains 0 = false := by
    rw [List.contains_eq_mem, decide_eq_false_iff_not]
    refine not_mem_name hc hcs (by cases windows <;> decide) ?_
    intro d hd
    rcases List.mem_cons.mp hd with rfl | hd
    · exact hc.noNul
    · exact (hcs d hd).noNul
  have hdots := dots_pieces (isSeparator backslash) ((c :: cs).foldl (pathJoin windows) "")
  rw [toList_name hc hcs, dots_name backslash hc hcs] at hdots
  have hhead : ((c :: cs).foldl (pathJoin windows) "").toList.head?.any (isSeparator backslash) =
      true ↔ backslash = true ∧ c.toList.head? = some '\\' := by
    rw [toList_name hc hcs, List.head?_append_of_ne_nil _ hc.toList_ne]
    exact head_segment backslash hc
  unfold validateFileNameNoTraversal Acceptable
  rw [hnul, if_neg Bool.false_ne_true, hasDriveLetter_name hc hcs]
  simp only [List.head?_cons, Option.mem_some_iff, forall_eq']
  split_ifs with htraversal hdrive habsolute
  · obtain ⟨hback, d, hd, hmem⟩ := hdots.mp htraversal
    exact iff_of_false (by simp) fun hacc => (hacc.1 hback).1 d hd hmem
  · obtain ⟨hreceiver, hletter⟩ := Bool.and_eq_true_iff.mp hdrive
    refine iff_of_false (by simp) fun hacc => ?_
    rw [hacc.2 hreceiver] at hletter
    cases hletter
  · obtain ⟨hback, hfirst⟩ := hhead.mp habsolute
    exact iff_of_false (by simp) fun hacc => (hacc.1 hback).2 hfirst
  · refine iff_of_true rfl
      ⟨fun hback => ⟨fun d hd hmem => ?_, fun hfirst => ?_⟩, fun hreceiver => ?_⟩
    · exact htraversal (hdots.mpr ⟨hback, d, hd, hmem⟩)
    · exact habsolute (hhead.mpr ⟨hback, hfirst⟩)
    · rw [hreceiver, Bool.true_and] at hdrive
      exact Bool.eq_false_of_not_eq_true hdrive

theorem forM_ok_iff {α ε : Type} {f : α → Except ε Unit} {xs : List α} :
    xs.forM f = .ok () ↔ ∀ x ∈ xs, f x = .ok () := by
  refine ⟨fun hall x hx => TransferJob.ok_of_forM hall hx, fun hall => ?_⟩
  induction xs with
  | nil => rfl
  | cons x xs ih =>
    show (do f x; xs.forM f) = _
    rw [hall x List.mem_cons_self]
    exact ih fun y hy => hall y (List.mem_cons_of_mem _ hy)

/-- The names of a list. -/
theorem validate_names (receiver backslash : Bool) {files : List (List String)}
    (hfiles : ∀ cs ∈ files, cs ≠ [] ∧ ∀ c ∈ cs, Segment windows c) :
    validateTransferFileNames receiver backslash
        (files.map fun cs => cs.foldl (pathJoin windows) "") = .ok () ↔
      ∀ cs ∈ files, Acceptable receiver backslash cs := by
  have hname : ∀ cs ∈ files, cs.foldl (pathJoin windows) "" ≠ "" ∧
      (validateFileNameNoTraversal receiver backslash (cs.foldl (pathJoin windows) "") = .ok () ↔
        Acceptable receiver backslash cs) := by
    intro cs hmem
    obtain ⟨hne, hsegs⟩ := hfiles cs hmem
    refine ⟨name_ne_empty hne hsegs, ?_⟩
    cases cs with
    | nil => exact absurd rfl hne
    | cons c cs =>
      exact validate_name receiver backslash (hsegs c List.mem_cons_self)
        fun d hd => hsegs d (List.mem_cons_of_mem _ hd)
  unfold validateTransferFileNames
  rw [if_neg, forM_ok_iff, List.forall_mem_map]
  · refine forall₂_congr fun cs hmem => ?_
    rw [if_neg (hname cs hmem).1]
    exact (hname cs hmem).2
  · intro hsingle
    obtain ⟨cs, hcs, hempty⟩ := List.map_eq_singleton_iff.mp hsingle
    exact (hname cs (by rw [hcs]; exact List.mem_singleton_self cs)).1 hempty

end Checking

/-! ## An honest list -/

/-- The names of a Windows sender pass everywhere. -/
theorem acceptable_of_windows {cs : List String} (hcs : ∀ c ∈ cs, Segment true c)
    (receiver backslash : Bool) : Acceptable receiver backslash cs := by
  refine ⟨fun _ => ⟨fun c hc hdots => ?_, fun c hc hfirst => ?_⟩, fun _ c hc => ?_⟩
  · have hone : c.toList.splitOn '\\' = [c.toList] := by
      apply List.splitOnP_eq_singleton
      intro ch hch
      have hback : ch ≠ '\\' := fun heq => (hcs c hc).noBackslash rfl (heq ▸ hch)
      simpa using hback
    rw [hone, List.mem_singleton] at hdots
    exact (hcs c hc).notDots (String.toList_inj.mp hdots.symm)
  · exact (hcs c (List.mem_of_head? hc)).noBackslash rfl (List.mem_of_head? hfirst)
  · exact hasDriveLetter_of_noColon ((hcs c (List.mem_of_head? hc)).noColon rfl)

theorem target_segments {windows : Bool} (path : String) (t : PathTarget windows)
    (includeHidden : Bool) :
    ∀ cs ∈ t.listed path includeHidden, cs ≠ [] ∧ ∀ c ∈ cs, Segment windows c := by
  intro cs hcs
  unfold PathTarget.listed at hcs
  split at hcs
  · rename_i d
    split at hcs
    · cases hcs
    · exact listed_segments d.allowed cs hcs
  · cases hcs

/-- What is found: the path itself, or the files below it. -/
theorem findFiles_cases {windows : Bool} {path : String} {t : PathTarget windows}
    {includeHidden : Bool} {found : List (ListEntry × String)}
    (hfound : findFiles windows path t includeHidden = .ok found) :
    found.map (fun x => (x.1.name, x.2)) = [("", path)] ∧ t.listed path includeHidden = [] ∨
      found.map (fun x => (x.1.name, x.2)) = (t.listed path includeHidden).map fun cs =>
        (cs.foldl (pathJoin windows) "", cs.foldl (pathJoin windows) path) := by
  unfold findFiles at hfound
  split at hfound
  · rename_i tree
    right
    unfold PathTarget.listed
    cases tree with
    | error e =>
      split at hfound
      · cases hfound
        rfl
      · cases hfound
    | ok d =>
      dsimp only
      by_cases hdrives : (windows && path == "/") = true
      · rw [if_pos hdrives] at hfound ⊢
        cases hfound
        rfl
      · rw [if_neg hdrives] at hfound ⊢
        cases hfound
        exact readDirRecursive_eq windows includeHidden d.tree path ""
  · cases hfound
    exact .inl ⟨rfl, rfl⟩
  · cases hfound

/-- The job opens what `join` makes of the path and the name of the entry. -/
theorem openDataStream_at {σ φ : Type} {h : JobHost σ φ} {job : TransferJob φ} {st st' : σ}
    {path : String} {entry : FileEntry} {f : φ} (hsrc : job.dataSource = .filePath path)
    (hentry : job.files[fileIndex job.fileNum]? = some entry) (hclosed : job.dataStream = none)
    (hopen : h.fs.openRead (TransferJob.join h path entry.name) st = (.ok f, st')) :
    (job.openDataStream h st).2.1.dataStream =
      some (.fileStream f (fileIndex job.fileNum)) := by
  unfold TransferJob.openDataStream
  rw [hsrc]
  dsimp only
  rw [hentry, hclosed]
  dsimp only
  rw [hopen]

/-- The path of an entry is what `join` makes of its name. -/
theorem join_found {σ φ : Type} {h : JobHost σ φ} {path : String} {t : PathTarget h.windows}
    {includeHidden : Bool} {found : List (ListEntry × String)}
    (hfound : findFiles h.windows path t includeHidden = .ok found) {e : ListEntry} {q : String}
    (hmem : (e, q) ∈ found) : TransferJob.join h path e.name = q := by
  have hpair : (e.name, q) ∈ found.map fun x => (x.1.name, x.2) := List.mem_map.mpr ⟨_, hmem, rfl⟩
  unfold TransferJob.join
  rcases findFiles_cases hfound with ⟨hone, _⟩ | hall
  · rw [hone, List.mem_singleton] at hpair
    obtain ⟨hname, rfl⟩ := Prod.mk.inj hpair
    rw [if_pos hname]
  · rw [hall] at hpair
    obtain ⟨cs, hcs, heq⟩ := List.mem_map.mp hpair
    obtain ⟨hname, rfl⟩ := Prod.mk.inj heq
    obtain ⟨hne, hsegs⟩ := target_segments path t includeHidden cs hcs
    have hjoin := join_name hne hsegs path
    rw [← hname, if_neg (name_ne_empty hne hsegs)]
    exact hjoin

/-- Whatever is at the path, the list is taken by a check precisely if no file has names that the
    check takes for something else, which cannot be for a sender on Windows. And a job over the
    list opens for every number the path at which the file was found. -/
theorem honest_list_checked {σ φ : Type} (h : JobHost σ φ) (path : String)
    (t : PathTarget h.windows) (includeHidden : Bool) (found : List (ListEntry × String))
    (hfound : findFiles h.windows path t includeHidden = .ok found) :
    getRecursiveFiles h.windows path t includeHidden = .ok (found.map (·.1)) ∧
      (∀ receiver, validateTransferFileNames receiver receiver (found.map (·.1.name)) = .ok () ↔
        ∀ cs ∈ t.listed path includeHidden, Acceptable receiver receiver cs) ∧
      (∀ receiver, validateTransferFileNames receiver true (found.map (·.1.name)) = .ok () ↔
        ∀ cs ∈ t.listed path includeHidden, Acceptable receiver true cs) ∧
      (h.windows = true → ∀ receiver backslash, ∀ cs ∈ t.listed path includeHidden,
        Acceptable receiver backslash cs) ∧
      ∀ (job : TransferJob φ) (st : σ) (e : ListEntry) (q : String) (f : φ) (st' : σ),
        job.dataSource = .filePath path → job.files = found.map (·.1.toFileEntry) →
        job.dataStream = none → found[fileIndex job.fileNum]? = some (e, q) →
        h.fs.openRead q st = (.ok f, st') →
        (job.openDataStream h st).2.1.dataStream =
          some (.fileStream f (fileIndex job.fileNum)) := by
  have hsegs := target_segments path t includeHidden
  have hcheck : ∀ receiver backslash,
      validateTransferFileNames receiver backslash (found.map (·.1.name)) = .ok () ↔
        ∀ cs ∈ t.listed path includeHidden, Acceptable receiver backslash cs := by
    intro receiver backslash
    have hnames : found.map (·.1.name) = (found.map fun x => (x.1.name, x.2)).map (·.1) := by
      rw [List.map_map]
      rfl
    rw [hnames]
    rcases findFiles_cases hfound with ⟨hone, hnil⟩ | hall
    · rw [hone, hnil]
      exact iff_of_true rfl (fun cs hcs => by cases hcs)
    · rw [hall, List.map_map]
      exact validate_names receiver backslash hsegs
  refine ⟨?_, fun receiver => hcheck receiver receiver, fun receiver => hcheck receiver true,
    ?_, ?_⟩
  · unfold getRecursiveFiles
    rw [hfound]
    rfl
  · intro hwin receiver backslash cs hcs
    exact acceptable_of_windows (fun c hc => hwin ▸ (hsegs cs hcs).2 c hc) receiver backslash
  · intro job st e q f st' hsrc hfiles hclosed hget hopen
    have hjoin : TransferJob.join h path e.name = q :=
      join_found hfound (List.mem_of_getElem? hget)
    have hentry : job.files[fileIndex job.fileNum]? = some e.toFileEntry := by
      rw [hfiles, List.getElem?_map, hget]
      rfl
    exact openDataStream_at hsrc hentry hclosed (hjoin ▸ hopen)

/-- A directory with a single file of this name and no content. -/
def oneFile (name : OsName) (hname : name.Allowed false) : PathTarget false :=
  .dir (.ok ⟨.file name (some ⟨0, .ok 0, false⟩) .nil, hname, trivial⟩)

theorem findFiles_oneFile {name : OsName} {s : String} (hname : name.Allowed false)
    (hs : name.toStr = some s) (hne : s ≠ "") (path : String) :
    findFiles false path (oneFile name hname) true =
      .ok [({ name := s, entryType := .file, size := 0, modifiedTime := 0
              isHidden := s.toList.head? == some '.' }, pathJoin false path s)] := by
  have hentry : readEntry false true name (some ⟨0, .ok 0, false⟩) false false =
      some { name := s, entryType := .file, size := 0, modifiedTime := 0
             isHidden := s.toList.head? == some '.' } := by
    unfold readEntry
    rw [hs, Option.getD_some, if_neg hne]
    simp [Stat.modifiedTime, TransferJob.sinceEpoch]
  unfold findFiles oneFile
  simp [Except.map, readDirRecursive, hentry, pathJoin]

/-- A name as any system has it. -/
theorem honest_list_checked_plain :
    ∃ found, findFiles false "/d" (oneFile [97] (by unfold OsName.Allowed; decide)) true =
        .ok found ∧
      validateTransferFileNames true true (found.map (·.1.name)) = .ok () ∧
      ∀ cs ∈ (oneFile [97] (by unfold OsName.Allowed; decide)).listed "/d" true,
        Acceptable true true cs := by
  have hfound := findFiles_oneFile (by unfold OsName.Allowed; decide)
    (show OsName.toStr [97] = some "a" by decide +kernel) (by decide) "/d"
  have hcheck : validateTransferFileNames true true ["a"] = .ok () := by decide +kernel
  exact ⟨_, hfound, hcheck,
    ((honest_list_checked plainHost "/d" _ true _ hfound).2.2.1 true).mp hcheck⟩

/-- A file on Unix whose name starts with a backslash. -/
theorem backslash_refused :
    ∃ found, findFiles false "/d" (oneFile [92, 120] (by unfold OsName.Allowed; decide)) true =
        .ok found ∧
      validateTransferFileNames false false (found.map (·.1.name)) = .ok () ∧
      validateTransferFileNames false true (found.map (·.1.name)) =
        .error "absolute path detected in file name" := by
  refine ⟨_, findFiles_oneFile (by unfold OsName.Allowed; decide)
    (show OsName.toStr [92, 120] = some "\\x" by decide +kernel) (by decide) "/d", ?_, ?_⟩
  · decide +kernel
  · decide +kernel

end LuodaRemote
