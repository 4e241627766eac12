/-
  A flat disk: a table from keys to inodes, where `key` says which paths name the same
  file. A file lives on under its inode while it is open. Directories are made as they are
  needed; the ones that are on record cannot be opened, removed or replaced.
-/
import LuodaRemote.Lib.FileSystem

namespace LuodaRemote.Lib

inductive Node where
  | file (inode : Nat)
  | dir
  deriving DecidableEq

/-- An open file. -/
structure Handle where
  inode : Nat
  pos : Nat
  writable : Bool
  deriving DecidableEq

structure Disk (κ : Type) where
  names : κ → Option Node
  contents : Nat → List UInt8
  /-- In nanoseconds since the epoch. -/
  mtimes : Nat → Int
  nextInode : Nat
  handles : Nat → Handle
  nextHandle : Nat

namespace Disk

variable {κ : Type}

section Calls

variable [DecidableEq κ]

/-- No files and the given directories. -/
def empty (dirs : List κ) : Disk κ where
  names := fun k => if k ∈ dirs then some .dir else none
  contents := fun _ => []
  mtimes := fun _ => 0
  nextInode := 0
  handles := fun _ => ⟨0, 0, false⟩
  nextHandle := 0

def noSuchFile : String := "No such file or directory"

def isADirectory : String := "Is a directory"

/-- The inode of the file at a key. -/
def lookup (k : κ) (d : Disk κ) : Except String Nat :=
  match d.names k with
  | some (.file i) => .ok i
  | some .dir => .error isADirectory
  | none => .error noSuchFile

/-- The content of the file at a key. -/
def content (k : κ) (d : Disk κ) : Option (List UInt8) :=
  match d.names k with
  | some (.file i) => some (d.contents i)
  | _ => none

/-- A file at the key, a new one if there is none. -/
def ensure (k : κ) (d : Disk κ) : Except String Nat × Disk κ :=
  match d.names k with
  | some (.file i) => (.ok i, d)
  | some .dir => (.error isADirectory, d)
  | none =>
    (.ok d.nextInode,
      { d with
        names := Function.update d.names k (some (.file d.nextInode))
        contents := Function.update d.contents d.nextInode []
        nextInode := d.nextInode + 1 })

def setContent (i : Nat) (bs : List UInt8) (d : Disk κ) : Disk κ :=
  { d with contents := Function.update d.contents i bs }

/-- The disk with a file of the given content, unless there is a directory. -/
def withFile (k : κ) (bs : List UInt8) (d : Disk κ) : Disk κ :=
  match d.ensure k with
  | (.ok i, d) => d.setContent i bs
  | (.error _, d) => d

def newHandle (i : Nat) (writable : Bool) (d : Disk κ) : Nat × Disk κ :=
  (d.nextHandle, { d with
    handles := Function.update d.handles d.nextHandle ⟨i, 0, writable⟩
    nextHandle := d.nextHandle + 1 })

def remove (k : κ) (d : Disk κ) : Except String Unit × Disk κ :=
  match d.lookup k with
  | .ok _ => (.ok (), { d with names := Function.update d.names k none })
  | .error e => (.error e, d)

/-- A file may take the place of another one, not of a directory. -/
def rename (src dst : κ) (d : Disk κ) : Except String Unit × Disk κ :=
  match d.lookup src, d.names dst with
  | .error e, _ => (.error e, d)
  | .ok _, some .dir => (.error isADirectory, d)
  | .ok i, _ =>
    (.ok (), { d with
      names := Function.update (Function.update d.names src none) dst (some (.file i)) })

/-- `old` with `bs` written at `pos`; what lies between is filled with zeros. -/
def overwrite (old bs : List UInt8) (pos : Nat) : List UInt8 :=
  old.take pos ++ List.replicate (pos - old.length) 0 ++ bs ++ old.drop (pos + bs.length)

/-- The position of the handle moves. -/
def seek (f pos : Nat) (d : Disk κ) : Disk κ :=
  { d with handles := Function.update d.handles f { d.handles f with pos := pos } }

/-- Nothing to write is no call at all. -/
def writeAll (f : Nat) (bs : List UInt8) (d : Disk κ) : Except String Unit × Disk κ :=
  let hd := d.handles f
  if bs.isEmpty then (.ok (), d)
  else if hd.writable then
    (.ok (), { d.setContent hd.inode (overwrite (d.contents hd.inode) bs hd.pos) with
      handles := Function.update d.handles f { hd with pos := hd.pos + bs.length } })
  else (.error "Bad file descriptor", d)

/-- What is open for writing is open for nothing else. -/
def read (f n : Nat) (d : Disk κ) : Except String (List UInt8) × Disk κ :=
  let hd := d.handles f
  if hd.writable then (.error "Bad file descriptor", d)
  else
    let bs := ((d.contents hd.inode).drop hd.pos).take n
    (.ok bs, d.seek f (hd.pos + bs.length))

/-- Open a file that is there. -/
def openOld (k : κ) (writable : Bool) (d : Disk κ) : Except String Nat × Disk κ :=
  match d.lookup k with
  | .error e => (.error e, d)
  | .ok i => ((.ok (d.newHandle i writable).1), (d.newHandle i writable).2)

/-- Open for writing, with a new file if there is none. -/
def openNew (k : κ) (truncate : Bool) (d : Disk κ) : Except String Nat × Disk κ :=
  match d.ensure k with
  | (.error e, d) => (.error e, d)
  | (.ok i, d) =>
    let d := if truncate then d.setContent i [] else d
    ((.ok (d.newHandle i true).1), (d.newHandle i true).2)

def metadataOf (i : Nat) (d : Disk κ) : Metadata :=
  ⟨(d.contents i).length, true, .ok (d.mtimes i)⟩

/-- The disk as a file system, with the paths that `key` takes for the same. -/
def fileSystem (key : String → κ) : FileSystem (Disk κ) Nat where
  symlinkMetadata path d := match d.names (key path) with
    | some _ => .found false
    | none => .notFound
  metadata path d := match d.names (key path) with
    | some (.file i) => .ok (d.metadataOf i)
    | some .dir => .ok ⟨0, false, .ok 0⟩
    | none => .error noSuchFile
  readToString path d := match d.lookup (key path) with
    | .ok i => match String.fromUTF8? ⟨(d.contents i).toArray⟩ with
        | some text => .ok text
        | none => .error "stream did not contain valid UTF-8"
    | .error e => .error e
  createParents _ d := (.ok (), d)
  removeFile path := remove (key path)
  rename src dst := rename (key src) (key dst)
  setFileMtime path t d := match d.lookup (key path) with
    | .ok i => (.ok (), { d with mtimes := Function.update d.mtimes i (t * 1000000000) })
    | .error e => (.error e, d)
  writeFile path text d :=
    ((d.ensure (key path)).1.map fun _ => (), d.withFile (key path) text.toUTF8.toList)
  create path := openNew (key path) true
  openRead path := openOld (key path) false
  openWrite path := openNew (key path) false
  seek f pos d := (.ok (), d.seek f pos)
  syncAll _ d := (.ok (), d)
  writeAll := writeAll
  read := read
  fileMetadata f d := .ok (d.metadataOf (d.handles f).inode)

end Calls

/-! ## Disks without hard links -/

/-- Inodes that were given out have one name at most. -/
structure Sound (d : Disk κ) : Prop where
  fresh : ∀ k i, d.names k = some (.file i) → i < d.nextInode
  unique : ∀ k k' i, d.names k = some (.file i) → d.names k' = some (.file i) → k = k'

/-- Fewer names and more inodes do no harm. -/
theorem Sound.mono {d d' : Disk κ} (hd : d.Sound) (hnext : d.nextInode ≤ d'.nextInode)
    (hnames : ∀ k i, d'.names k = some (.file i) → d.names k = some (.file i)) : d'.Sound :=
  ⟨fun k i hk => Nat.lt_of_lt_of_le (hd.fresh k i (hnames k i hk)) hnext,
    fun k k' i hk hk' => hd.unique k k' i (hnames k i hk) (hnames k' i hk')⟩

/-! ## What a call leaves alone -/

/-- The name `q` and the file it stands for are as they were. -/
structure Untouched (q : κ) (d d' : Disk κ) : Prop where
  names : d'.names q = d.names q
  contents : ∀ i, d.names q = some (.file i) → d'.contents i = d.contents i

namespace Untouched

variable {q : κ} {d d' d'' : Disk κ}

theorem refl (q : κ) (d : Disk κ) : Untouched q d d := ⟨rfl, fun _ _ => rfl⟩

theorem trans (h1 : Untouched q d d') (h2 : Untouched q d' d'') : Untouched q d d'' :=
  ⟨h2.names.trans h1.names, fun i hi =>
    (h2.contents i (h1.names.trans hi)).trans (h1.contents i hi)⟩

theorem content (hu : Untouched q d d') : d'.content q = d.content q := by
  unfold Disk.content
  rw [hu.names]
  split
  · rename_i i hi
    rw [hu.contents i hi]
  · rfl

end Untouched

/-- From `d` to `d'` only the names in `ks` and the files they stand for may have changed, and
    neither a directory nor a handle that was there before. -/
structure Within (ks : List κ) (d d' : Disk κ) : Prop where
  sound : d'.Sound
  dirs : ∀ q, d'.names q = some .dir ↔ d.names q = some .dir
  untouched : ∀ q, q ∉ ks → Untouched q d d'
  nextHandle : d.nextHandle ≤ d'.nextHandle
  handles : ∀ f, f < d.nextHandle → d'.handles f = d.handles f

namespace Within

variable {ks ks' : List κ} {d d' d'' : Disk κ}

theorem refl (ks : List κ) (hd : d.Sound) : Within ks d d :=
  ⟨hd, fun _ => Iff.rfl, fun q _ => Untouched.refl q d, Nat.le_refl _, fun _ _ => rfl⟩

theorem mono (hw : Within ks d d') (hks : ks ⊆ ks') : Within ks' d d' :=
  ⟨hw.sound, hw.dirs, fun q hq => hw.untouched q fun hmem => hq (hks hmem),
    hw.nextHandle, hw.handles⟩

theorem trans (h1 : Within ks d d') (h2 : Within ks' d' d'') : Within (ks ++ ks') d d'' where
  sound := h2.sound
  dirs q := (h2.dirs q).trans (h1.dirs q)
  untouched q hq := by
    rw [List.mem_append, not_or] at hq
    exact (h1.untouched q hq.1).trans (h2.untouched q hq.2)
  nextHandle := Nat.le_trans h1.nextHandle h2.nextHandle
  handles f hf := (h2.handles f (Nat.lt_of_lt_of_le hf h1.nextHandle)).trans (h1.handles f hf)

end Within

/-- A change to one file. -/
theorem setContent_within {k : κ} {i : Nat} (bs : List UInt8) {d : Disk κ} (hd : d.Sound)
    (hk : d.names k = some (.file i)) : Within [k] d (d.setContent i bs) := by
  refine ⟨hd.mono (Nat.le_refl _) fun q j hq => hq, fun _ => Iff.rfl, ?_, Nat.le_refl _,
    fun _ _ => rfl⟩
  intro q hq
  refine ⟨rfl, fun j hj => ?_⟩
  have hij : j ≠ i := by
    rintro rfl
    exact hq (List.mem_singleton.mpr (hd.unique q k j hj hk))
  simp [setContent, hij]

/-! ## Open files -/

/-- The handle is open for writing at `pos` in the file at `k`. -/
structure OpenAt (d : Disk κ) (f : Nat) (k : κ) (pos : Nat) : Prop where
  lt : f < d.nextHandle
  writable : (d.handles f).writable = true
  pos : (d.handles f).pos = pos
  names : d.names k = some (.file (d.handles f).inode)

/-- An open file stays open while others are at work. -/
theorem OpenAt.of_within {d d' : Disk κ} {f : Nat} {k : κ} {pos : Nat} {ks : List κ}
    (ho : OpenAt d f k pos) (hw : Within ks d d') (hk : k ∉ ks) : OpenAt d' f k pos := by
  have hf := hw.handles f ho.lt
  refine ⟨Nat.lt_of_lt_of_le ho.lt hw.nextHandle, ?_, ?_, ?_⟩
  · rw [hf]
    exact ho.writable
  · rw [hf]
    exact ho.pos
  · rw [hf, (hw.untouched k hk).names]
    exact ho.names

theorem newHandle_within (i : Nat) (writable : Bool) {d : Disk κ} (hd : d.Sound) :
    Within [] d (d.newHandle i writable).2 := by
  refine ⟨hd.mono (Nat.le_refl _) fun q j hq => hq, fun _ => Iff.rfl,
    fun q _ => ⟨rfl, fun _ _ => rfl⟩, Nat.le_succ _, ?_⟩
  intro f hf
  exact Function.update_of_ne (Nat.ne_of_lt hf) _ _

theorem newHandle_openAt {k : κ} {i : Nat} {d : Disk κ} (hk : d.names k = some (.file i)) :
    OpenAt (d.newHandle i true).2 d.nextHandle k 0 := by
  have hh : (d.newHandle i true).2.handles d.nextHandle = ⟨i, 0, true⟩ := Function.update_self ..
  refine ⟨Nat.lt_succ_self _, ?_, ?_, ?_⟩
  · rw [hh]
  · rw [hh]
  · rw [hh]
    exact hk

theorem OpenAt.seek {d : Disk κ} {f : Nat} {k : κ} {pos : Nat} (ho : OpenAt d f k pos) (n : Nat) :
    OpenAt (d.seek f n) f k n := by
  refine ⟨ho.lt, ?_, ?_, ?_⟩
  · simpa [Disk.seek] using ho.writable
  · simp [Disk.seek]
  · simpa [Disk.seek] using ho.names

theorem seek_sound (f n : Nat) {d : Disk κ} (hd : d.Sound) : (d.seek f n).Sound :=
  hd.mono (Nat.le_refl _) fun _ _ hq => hq

/-- The handle does not write to the file at `q`. -/
def Apart (d : Disk κ) (f : Nat) (q : κ) : Prop :=
  f < d.nextHandle ∧
    ((d.handles f).writable = true → d.names q ≠ some (.file (d.handles f).inode))

theorem Apart.of_within {d d' : Disk κ} {f : Nat} {q : κ} {ks : List κ} (ha : Apart d f q)
    (hw : Within ks d d') (hq : q ∉ ks) : Apart d' f q := by
  have hf := hw.handles f ha.1
  refine ⟨Nat.lt_of_lt_of_le ha.1 hw.nextHandle, ?_⟩
  rw [hf, (hw.untouched q hq).names]
  exact ha.2

theorem OpenAt.apart {d : Disk κ} {f : Nat} {k q : κ} {pos : Nat} (ho : OpenAt d f k pos)
    (hd : d.Sound) (hq : q ≠ k) : Apart d f q :=
  ⟨ho.lt, fun _ hqi => hq (hd.unique q k _ hqi ho.names)⟩

/-! ## Writing to an open file -/

theorem overwrite_eq {old : List UInt8} (bs : List UInt8) {pos : Nat} (hpos : pos ≤ old.length) :
    overwrite old bs pos = old.take pos ++ (bs ++ old.drop (pos + bs.length)) := by
  simp [overwrite, Nat.sub_eq_zero_of_le hpos]

theorem overwrite_nil {old : List UInt8} {pos : Nat} (hpos : pos ≤ old.length) :
    overwrite old [] pos = old := by
  simp [overwrite_eq [] hpos]

/-- A write behind the end of a file. -/
theorem overwrite_end (old bs : List UInt8) : overwrite old bs old.length = old ++ bs := by
  rw [overwrite_eq _ (Nat.le_refl _), List.take_length, List.drop_eq_nil_of_le (by omega),
    List.append_nil]

theorem length_overwrite_ge {old : List UInt8} (bs : List UInt8) {pos : Nat}
    (hpos : pos ≤ old.length) : pos + bs.length ≤ (overwrite old bs pos).length := by
  simp only [overwrite_eq bs hpos, List.length_append, List.length_take, List.length_drop]
  omega

/-- Two writes one after the other are one. -/
theorem overwrite_append {old : List UInt8} (a b : List UInt8) {pos : Nat}
    (hpos : pos ≤ old.length) :
    overwrite (overwrite old a pos) b (pos + a.length) = overwrite old (a ++ b) pos := by
  have hlen : (old.take pos).length = pos := List.length_take_of_le hpos
  rw [overwrite_eq b (length_overwrite_ge a hpos), overwrite_eq a hpos, overwrite_eq (a ++ b) hpos]
  have htake : (old.take pos ++ (a ++ old.drop (pos + a.length))).take (pos + a.length) =
      old.take pos ++ a := by
    rw [← List.append_assoc]
    exact List.take_left' (by rw [List.length_append, hlen])
  have hdrop : (old.take pos ++ (a ++ old.drop (pos + a.length))).drop
      (pos + a.length + b.length) = old.drop (pos + (a ++ b).length) := by
    rw [← List.append_assoc, List.drop_append, List.drop_eq_nil_of_le (by
      rw [List.length_append, hlen]; omega), List.nil_append, List.drop_drop]
    congr 1
    simp only [List.length_append, hlen]
    omega
  rw [htake, hdrop]
  simp only [List.append_assoc]

/-- What a write may change: the file of the handle, if it is open for writing. -/
theorem writeAll_frame (f : Nat) (bs : List UInt8) {d : Disk κ} (hd : d.Sound) :
    (d.writeAll f bs).2.Sound ∧ (d.writeAll f bs).2.names = d.names ∧
      (d.writeAll f bs).2.nextHandle = d.nextHandle ∧
      ((d.writeAll f bs).2.handles f).inode = (d.handles f).inode ∧
      ((d.writeAll f bs).2.handles f).writable = (d.handles f).writable ∧
      ∀ q, ((d.handles f).writable = true → d.names q ≠ some (.file (d.handles f).inode)) →
        Untouched q d (d.writeAll f bs).2 := by
  unfold writeAll
  dsimp only
  split
  · exact ⟨hd, rfl, rfl, rfl, rfl, fun q _ => Untouched.refl q d⟩
  · split
    · rename_i hwrite
      refine ⟨hd.mono (Nat.le_refl _) fun q j hq => hq, rfl, rfl, by simp,
        by simp, fun q hq => ⟨rfl, fun i hi => ?_⟩⟩
      have hne : i ≠ (d.handles f).inode := by
        rintro rfl
        exact hq hwrite hi
      simp [setContent, hne]
    · exact ⟨hd, rfl, rfl, rfl, rfl, fun q _ => Untouched.refl q d⟩

/-- A write to a file that is open for it. -/
theorem writeAll_openAt {f : Nat} {k : κ} {pos : Nat} {d : Disk κ} (bs : List UInt8)
    (hd : d.Sound) (ho : OpenAt d f k pos) {old : List UInt8} (hold : d.content k = some old)
    (hpos : pos ≤ old.length) :
    (d.writeAll f bs).1 = .ok () ∧ OpenAt (d.writeAll f bs).2 f k (pos + bs.length) ∧
      (d.writeAll f bs).2.content k = some (overwrite old bs pos) ∧
      ∀ q, q ≠ k → Untouched q d (d.writeAll f bs).2 := by
  have hframe := (writeAll_frame f bs hd).2.2.2.2.2
  have hrest (q : κ) (hq : q ≠ k) : Untouched q d (d.writeAll f bs).2 :=
    hframe q fun _ hqi => hq (hd.unique q k _ hqi ho.names)
  have hinode : d.contents (d.handles f).inode = old := by
    simpa [content, ho.names] using hold
  by_cases hbs : bs = []
  · subst hbs
    have heq : d.writeAll f [] = (.ok (), d) := by simp [writeAll]
    rw [heq, overwrite_nil hpos]
    exact ⟨rfl, ho, hold, fun q _ => Untouched.refl q d⟩
  · have heq : d.writeAll f bs = (.ok (),
        { d.setContent (d.handles f).inode (overwrite old bs pos) with
          handles := Function.update d.handles f
            { d.handles f with pos := pos + bs.length } }) := by
      simp [writeAll, hbs, ho.writable, hinode, ho.pos]
    refine ⟨by rw [heq], ?_, ?_, hrest⟩
    · rw [heq]
      refine ⟨ho.lt, ?_, ?_, ?_⟩
      · simpa using ho.writable
      · simp
      · simpa [setContent] using ho.names
    · rw [heq]
      simp [content, setContent, ho.names]

theorem read_file {f : Nat} {d : Disk κ} (hr : (d.handles f).writable = false) (n : Nat) :
    d.read f n = (.ok (((d.contents (d.handles f).inode).drop (d.handles f).pos).take n),
      d.seek f ((d.handles f).pos +
        (((d.contents (d.handles f).inode).drop (d.handles f).pos).take n).length)) := by
  simp [read, hr]

@[simp] theorem seek_contents (f n : Nat) (d : Disk κ) : (d.seek f n).contents = d.contents := rfl

@[simp] theorem seek_handles (f n : Nat) (d : Disk κ) :
    (d.seek f n).handles f = { d.handles f with pos := n } := Function.update_self ..

/-! ## The calls -/

section Frames

variable [DecidableEq κ]

theorem sound_empty (dirs : List κ) : (empty dirs).Sound := by
  constructor
  · intro k i hk
    simp only [empty] at hk
    split at hk <;> cases hk
  · intro k k' i hk
    simp only [empty] at hk
    split at hk <;> cases hk

theorem remove_file {k : κ} {i : Nat} {d : Disk κ} (hk : d.names k = some (.file i)) :
    d.remove k = (.ok (), { d with names := Function.update d.names k none }) := by
  unfold remove lookup
  rw [hk]

theorem remove_cases (k : κ) (d : Disk κ) :
    (d.remove k).2 = d ∨ ∃ i, d.names k = some (.file i) := by
  unfold remove lookup
  cases hk : d.names k with
  | none => exact .inl rfl
  | some n =>
    cases n with
    | dir => exact .inl rfl
    | file i => exact .inr ⟨i, rfl⟩

theorem remove_within (k : κ) {d : Disk κ} (hd : d.Sound) : Within [k] d (d.remove k).2 := by
  rcases remove_cases k d with heq | ⟨i, hk⟩
  · rw [heq]
    exact Within.refl _ hd
  · rw [remove_file hk]
    refine ⟨hd.mono (Nat.le_refl _) ?_, ?_, ?_, Nat.le_refl _, fun _ _ => rfl⟩
    · intro q i hq
      by_cases hqk : q = k
      · simp [hqk] at hq
      · simpa [hqk] using hq
    · intro q
      by_cases hqk : q = k
      · simp [hqk, hk]
      · simp [hqk]
    · intro q hq
      have hqk : q ≠ k := fun he => hq (List.mem_singleton.mpr he)
      exact ⟨by simp [hqk], fun _ _ => rfl⟩

theorem content_remove (k : κ) (d : Disk κ) : (d.remove k).2.content k = none := by
  unfold remove lookup content
  cases hk : d.names k with
  | none => simp [hk]
  | some n => cases n <;> simp [hk]

/-- Without a file nothing is renamed. -/
theorem rename_of_content_none {src : κ} (dst : κ) {d : Disk κ} (hsrc : d.content src = none) :
    (d.rename src dst).2 = d := by
  unfold content at hsrc
  unfold rename lookup
  cases hk : d.names src with
  | none => rfl
  | some n =>
    cases n with
    | file i => simp [hk] at hsrc
    | dir => rfl

/-- A file does not take the place of a directory. -/
theorem rename_onto_dir (src : κ) {dst : κ} {d : Disk κ} (hdst : d.names dst = some .dir) :
    (d.rename src dst).2 = d := by
  unfold rename
  rw [hdst]
  cases d.lookup src <;> rfl

theorem rename_file {src dst : κ} {i : Nat} {d : Disk κ} (hsrc : d.names src = some (.file i))
    (hdst : d.names dst ≠ some .dir) : (d.rename src dst).2 =
      { d with
        names := Function.update (Function.update d.names src none) dst (some (.file i)) } := by
  unfold rename lookup
  rw [hsrc]
  dsimp only
  split
  · rename_i he
    cases he
  · rename_i he
    exact absurd he hdst
  · rename_i j hj _
    cases hj
    rfl

/-- Either nothing happens, or a file moves. -/
theorem rename_cases (src dst : κ) (d : Disk κ) :
    (d.rename src dst).2 = d ∨ ∃ i, d.names src = some (.file i) ∧ d.names dst ≠ some .dir := by
  by_cases hdst : d.names dst = some .dir
  · exact .inl (rename_onto_dir src hdst)
  · cases hsrc : d.names src with
    | none => exact .inl (rename_of_content_none dst (by simp [content, hsrc]))
    | some n =>
      cases n with
      | file i => exact .inr ⟨i, rfl, hdst⟩
      | dir => exact .inl (rename_of_content_none dst (by simp [content, hsrc]))

theorem rename_within (src dst : κ) {d : Disk κ} (hd : d.Sound) :
    Within [src, dst] d (d.rename src dst).2 := by
  rcases rename_cases src dst d with heq | ⟨i, hsrc, hdst⟩
  · rw [heq]
    exact Within.refl _ hd
  · rw [rename_file hsrc hdst]
    -- The only name that is new stands for the file that lost its old one.
    have hnames : ∀ q j, Function.update (Function.update d.names src none) dst
        (some (.file i)) q = some (.file j) →
          (q = dst ∧ j = i) ∨ (q ≠ src ∧ d.names q = some (.file j)) := by
      intro q j hq
      by_cases hqd : q = dst
      · subst hqd
        rw [Function.update_self] at hq
        cases hq
        exact .inl ⟨rfl, rfl⟩
      · rw [Function.update_of_ne hqd] at hq
        by_cases hqs : q = src
        · subst hqs
          rw [Function.update_self] at hq
          cases hq
        · rw [Function.update_of_ne hqs] at hq
          exact .inr ⟨hqs, hq⟩
    refine ⟨⟨?_, ?_⟩, ?_, ?_, Nat.le_refl _, fun _ _ => rfl⟩
    · intro q j hq
      rcases hnames q j hq with ⟨_, rfl⟩ | ⟨_, hq⟩
      · exact hd.fresh src j hsrc
      · exact hd.fresh q j hq
    · intro q q' j hq hq'
      rcases hnames q j hq with ⟨rfl, rfl⟩ | ⟨hqs, hold⟩
      · rcases hnames q' j hq' with ⟨rfl, _⟩ | ⟨hqs', hold'⟩
        · rfl
        · exact absurd (hd.unique q' src j hold' hsrc) hqs'
      · rcases hnames q' j hq' with ⟨_, rfl⟩ | ⟨_, hold'⟩
        · exact absurd (hd.unique q src j hold hsrc) hqs
        · exact hd.unique q q' j hold hold'
    · intro q
      by_cases hqd : q = dst
      · simp [hqd, hdst]
      · by_cases hqs : q = src
        · subst hqs
          simp [hqd, hsrc]
        · simp [hqd, hqs]
    · intro q hq
      simp only [List.mem_cons, List.not_mem_nil, or_false, not_or] at hq
      exact ⟨by simp [hq.1, hq.2], fun _ _ => rfl⟩

theorem content_rename {src dst : κ} {i : Nat} {d : Disk κ} (hsrc : d.names src = some (.file i))
    (hdst : d.names dst ≠ some .dir) :
    (d.rename src dst).2.content dst = d.content src := by
  rw [rename_file hsrc hdst]
  simp [content, hsrc]

theorem content_rename_src {src dst : κ} {i : Nat} {d : Disk κ}
    (hsrc : d.names src = some (.file i)) (hdst : d.names dst ≠ some .dir) (hne : src ≠ dst) :
    (d.rename src dst).2.content src = none := by
  rw [rename_file hsrc hdst]
  simp [content, hne]

theorem ensure_within {k : κ} {d : Disk κ} (hd : d.Sound) : Within [k] d (d.ensure k).2 := by
  unfold ensure
  split
  · exact Within.refl _ hd
  · exact Within.refl _ hd
  · rename_i hk
    have hnames : ∀ q j, Function.update d.names k (some (.file d.nextInode)) q = some (.file j) →
        (q = k ∧ j = d.nextInode) ∨ d.names q = some (.file j) := by
      intro q j hq
      by_cases hqk : q = k
      · subst hqk
        rw [Function.update_self] at hq
        cases hq
        exact .inl ⟨rfl, rfl⟩
      · rw [Function.update_of_ne hqk] at hq
        exact .inr hq
    refine ⟨⟨?_, ?_⟩, ?_, ?_, Nat.le_refl _, fun _ _ => rfl⟩
    · intro q j hq
      rcases hnames q j hq with ⟨_, rfl⟩ | hq
      · exact Nat.lt_succ_self _
      · exact Nat.lt_succ_of_lt (hd.fresh q j hq)
    · intro q q' j hq hq'
      rcases hnames q j hq with ⟨rfl, rfl⟩ | hold
      · rcases hnames q' _ hq' with ⟨rfl, _⟩ | hold'
        · rfl
        · exact absurd (hd.fresh q' _ hold') (Nat.lt_irrefl _)
      · rcases hnames q' j hq' with ⟨rfl, rfl⟩ | hold'
        · exact absurd (hd.fresh q _ hold) (Nat.lt_irrefl _)
        · exact hd.unique q q' j hold hold'
    · intro q
      by_cases hqk : q = k
      · simp [hqk, hk]
      · simp [hqk]
    · intro q hq
      have hqk : q ≠ k := fun he => hq (List.mem_singleton.mpr he)
      refine ⟨by simp [hqk], fun j hj => ?_⟩
      have hj' : j ≠ d.nextInode := Nat.ne_of_lt (hd.fresh q j hj)
      simp [hj']

/-- There is a file at the key afterwards unless there is a directory. -/
theorem ensure_file {k : κ} {d : Disk κ} (hk : d.names k ≠ some .dir) :
    ∃ i, (d.ensure k).1 = .ok i ∧ (d.ensure k).2.names k = some (.file i) := by
  unfold ensure
  split
  · rename_i i hi
    exact ⟨i, rfl, hi⟩
  · rename_i hdir
    exact absurd hdir hk
  · exact ⟨d.nextInode, rfl, by simp⟩

theorem ensure_dir {k : κ} {d : Disk κ} (hk : d.names k = some .dir) :
    d.ensure k = (.error isADirectory, d) := by
  unfold ensure
  rw [hk]

theorem openNew_dir {k : κ} (truncate : Bool) {d : Disk κ} (hk : d.names k = some .dir) :
    d.openNew k truncate = (.error isADirectory, d) := by
  unfold openNew
  rw [ensure_dir hk]

/-- The file at the key is open afterwards, cut off or as it was. -/
theorem openNew_file {k : κ} (truncate : Bool) {d : Disk κ} (hd : d.Sound)
    (hk : d.names k ≠ some .dir) :
    ∃ d', d.openNew k truncate = (.ok d.nextHandle, d') ∧ Within [k] d d' ∧
      OpenAt d' d.nextHandle k 0 ∧
      d'.content k = some (if truncate then [] else (d.content k).getD []) := by
  obtain ⟨i, hok, hname⟩ := ensure_file hk
  have hw1 : Within [k] d (d.ensure k).2 := ensure_within hd
  have hold : (d.ensure k).2.contents i = (d.content k).getD [] := by
    revert hok
    unfold ensure content
    split <;> simp_all
  have hnext : (d.ensure k).2.nextHandle = d.nextHandle := by
    unfold ensure
    split <;> rfl
  unfold openNew
  rcases hens : d.ensure k with ⟨r, d1⟩
  rw [hens] at hok hname hw1 hold hnext
  dsimp only at hok hname hw1 hold hnext
  subst hok
  dsimp only
  -- The disk with the file cut off, if that is asked for.
  obtain ⟨d2, hd2, hw2, hname2, hcont2, hnext2⟩ : ∃ d2, (if truncate then d1.setContent i []
      else d1) = d2 ∧ Within [k] d1 d2 ∧ d2.names k = some (.file i) ∧
      d2.contents i = (if truncate then [] else (d.content k).getD []) ∧
      d2.nextHandle = d.nextHandle := by
    cases truncate with
    | true =>
      exact ⟨d1.setContent i [], rfl, setContent_within [] hw1.sound hname, hname,
        by simp [setContent], hnext⟩
    | false => exact ⟨d1, rfl, Within.refl _ hw1.sound, hname, hold, hnext⟩
  rw [hd2]
  refine ⟨(d2.newHandle i true).2, by rw [← hnext2]; rfl, ?_, ?_, ?_⟩
  · exact ((hw1.trans hw2).trans (newHandle_within i true hw2.sound)).mono (by simp)
  · rw [← hnext2]
    exact newHandle_openAt hname2
  · rw [← hcont2]
    simp [content, newHandle, hname2]

theorem pathExists_eq (key : String → κ) (path : String) (d : Disk κ) :
    (fileSystem key).pathExists path d = (d.names (key path)).isSome := by
  simp only [FileSystem.pathExists, fileSystem]
  cases d.names (key path) with
  | none => rfl
  | some n => cases n <;> rfl

theorem withFile_within (k : κ) (bs : List UInt8) {d : Disk κ} (hd : d.Sound) :
    Within [k] d (d.withFile k bs) := by
  unfold withFile
  by_cases hk : d.names k = some .dir
  · rw [ensure_dir hk]
    exact Within.refl _ hd
  · obtain ⟨i, hok, hname⟩ := ensure_file hk
    have hw : Within [k] d (d.ensure k).2 := ensure_within hd
    rcases hens : d.ensure k with ⟨r, d1⟩
    rw [hens] at hok hname hw
    dsimp only at hok hname hw
    subst hok
    exact (hw.trans (setContent_within _ hw.sound hname)).mono (by simp)

/-- Times are no content. -/
theorem setFileMtime_within (key : String → κ) (path : String) (t : Nat) {d : Disk κ}
    (hd : d.Sound) : Within [] d ((fileSystem key).setFileMtime path t d).2 := by
  simp only [fileSystem]
  split
  · exact ⟨hd.mono (Nat.le_refl _) fun q j hq => hq, fun _ => Iff.rfl,
      fun q _ => ⟨rfl, fun _ _ => rfl⟩, Nat.le_refl _, fun _ _ => rfl⟩
  · exact Within.refl _ hd

end Frames

/-! ## Reading -/

/-- The files of a disk that nobody writes to. -/
def staticFiles [DecidableEq κ] (key : String → κ) (content : String → List UInt8)
    (paths : String → Prop) : StaticFiles (fileSystem key) content paths where
  Holds d := ∀ path, paths path → d.content (key path) = some (content path)
  Left f left d := (d.handles f).writable = false ∧
    (d.contents (d.handles f).inode).drop (d.handles f).pos = left
  openRead := by
    intro path d hpath hholds
    have hc := hholds path hpath
    unfold Disk.content at hc
    split at hc
    · rename_i i hi
      refine ⟨d.nextHandle, (d.newHandle i false).2, ?_, hholds, ?_⟩
      · simp only [fileSystem, openOld, lookup, hi, newHandle]
      · rw [← Option.some.inj hc]
        simp [newHandle]
    · cases hc
  read := by
    rintro f left d n hn hholds ⟨hwritable, rfl⟩
    refine ⟨_, _, d.seek f ((d.handles f).pos +
      (((d.contents (d.handles f).inode).drop (d.handles f).pos).take n).length), ?_,
      (List.take_append_drop n _).symm, List.length_take_le _ _, ?_, hholds, ?_, ?_⟩
    · simp only [fileSystem, Disk.read, hwritable]
      rfl
    · intro hnil
      rcases List.take_eq_nil_iff.mp hnil with rfl | hnil
      · omega
      · rw [hnil, List.drop_nil]
    · simpa [Disk.seek] using hwritable
    · simp only [Disk.seek, Function.update_self, ← List.drop_drop, List.length_take]
      rcases Nat.le_total n ((d.contents (d.handles f).inode).drop (d.handles f).pos).length
        with hle | hle
      · rw [Nat.min_eq_left hle]
      · rw [Nat.min_eq_right hle, List.drop_length, List.drop_of_length_le hle]

end Disk

end LuodaRemote.Lib
