/-
  The handles of the FUSE file system (`FileHandles` and `FuseServer::alloc_fd` of
  libs/clipboard/src/platform/unix/fuse/cs.rs, and the requests that use them).

  One counter gives the handles of all nodes. A node keeps its own in the order in which they
  came and looks for them with a binary search, so they have to be sorted. They are as long as the
  counter has not come round: a run with no more than 2^64 handles keeps every table in order
  (`handle_table`), and after that a node may have one handle twice.

  The server is locked for a request, so requests come one after another. Nothing sets the mark
  that denies an open.
-/
import LuodaRemote.Clipboard.Descriptors
import LuodaRemote.Lib.BinarySearch

namespace LuodaRemote
open Lib

namespace FuseHandles
open Clip (FileType)

/-! ## The handles of a node -/

structure FileHandles where
  handlers : List Nat
  /-- `gc`. -/
  marked : Bool
deriving DecidableEq

namespace FileHandles

def new : FileHandles := ⟨[], false⟩

/-- `none` is a panic. -/
def addHandler (h : FileHandles) (fh : Nat) : Option FileHandles :=
  if h.marked then none else some { h with handlers := h.handlers ++ [fh] }

def haveHandler (h : FileHandles) (handler : Nat) : Bool :=
  (binarySearch h.handlers handler).isSome

/-- Whether it went well, and the handles after it. -/
def unregister (h : FileHandles) (handler : Nat) : Bool × FileHandles :=
  match binarySearch h.handlers handler with
  | some idx => (true, { h with handlers := h.handlers.eraseIdx idx })
  | none => (false, h)

end FileHandles

/-! ## The server -/

structure FuseNode where
  /-- `attributes.kind`. -/
  kind : FileType
  fileHandlers : FileHandles
deriving DecidableEq

structure FuseServer where
  files : List FuseNode
  fileHandleCounter : Nat
deriving DecidableEq

inductive Errno where
  | enoent | enotdir | enfile | ebusy | ebadf
deriving DecidableEq

inductive Reply where
  | opened (fh : Nat)
  | ok
  | error (errno : Errno)
  | panicked
deriving DecidableEq

namespace FuseServer

variable (s : FuseServer)

/-- A server with a tree of nodes of these kinds. -/
def start (kinds : List FileType) : FuseServer where
  files := kinds.map fun kind => ⟨kind, .new⟩
  fileHandleCounter := 0

/-- `files.get(ino as usize - 1)`, where 0 wraps around. -/
def node (ino : Nat) : Option FuseNode :=
  match ino with
  | 0 => none
  | position + 1 => s.files[position]?

def setHandlers (ino : Nat) (handlers : FileHandles) : FuseServer :=
  { s with files := s.files.modify (ino - 1) fun entry => { entry with fileHandlers := handlers } }

/-- The handle, and the server with the counter moved on. -/
def allocFd : Nat × FuseServer :=
  (s.fileHandleCounter, { s with fileHandleCounter := (s.fileHandleCounter + 1) % 2 ^ 64 })

/-- An open of a node that has to be of a kind. -/
def openNode (kind : FileType) (wrongKind : Errno) (ino : Nat) : Reply × FuseServer :=
  match s.node ino with
  | none => (.error .enoent, s)
  | some entry =>
    if entry.kind ≠ kind then (.error wrongKind, s)
    else if entry.fileHandlers.marked then (.error .ebusy, s)
    else
      let (fh, s) := s.allocFd
      match entry.fileHandlers.addHandler fh with
      | none => (.panicked, s)
      | some handlers => (.opened fh, s.setHandlers ino handlers)

def opendir (ino : Nat) : Reply × FuseServer := s.openNode .directory .enotdir ino

/-- `open`. -/
def openFile (ino : Nat) : Reply × FuseServer := s.openNode .file .enfile ino

def releasedir (ino fh : Nat) : Reply × FuseServer :=
  match s.node ino with
  | none => (.error .enoent, s)
  | some entry =>
    if entry.kind ≠ .directory then (.error .enotdir, s)
    else if !entry.fileHandlers.haveHandler fh then (.error .ebadf, s)
    else (.ok, s.setHandlers ino (entry.fileHandlers.unregister fh).2)

def release (ino fh : Nat) : Reply × FuseServer :=
  match s.node ino with
  | none => (.error .enoent, s)
  | some entry =>
    match entry.fileHandlers.unregister fh with
    | (false, _) => (.error .ebadf, s)
    | (true, handlers) => (.ok, s.setHandlers ino handlers)

/-- What `readdir` and `read` begin with. -/
def checkHandler (ino fh : Nat) : Reply :=
  match s.node ino with
  | none => .error .enoent
  | some entry => if !entry.fileHandlers.haveHandler fh then .error .ebadf else .ok

end FuseServer

/-! ## Runs -/

inductive Request where
  | opendir (ino : Nat)
  | openFile (ino : Nat)
  | releasedir (ino fh : Nat)
  | release (ino fh : Nat)
  | check (ino fh : Nat)
deriving DecidableEq

def step (s : FuseServer) : Request → Reply × FuseServer
  | .opendir ino => s.opendir ino
  | .openFile ino => s.openFile ino
  | .releasedir ino fh => s.releasedir ino fh
  | .release ino fh => s.release ino fh
  | .check ino fh => (s.checkHandler ino fh, s)

/-- A server and what was asked and answered so far, the latest first. -/
structure Run where
  server : FuseServer
  history : List (Request × Reply)

def Run.next (r : Run) (request : Request) : Run where
  server := (step r.server request).2
  history := (request, (step r.server request).1) :: r.history

def run (kinds : List FileType) (requests : List Request) : Run :=
  requests.foldl Run.next ⟨.start kinds, []⟩

/-! ## What is open -/

/-- The kind of a node of the tree. -/
def kindAt (kinds : List FileType) : Nat → Option FileType
  | 0 => none
  | position + 1 => kinds[position]?

/-- Whether a request takes a handle. -/
def takes (kinds : List FileType) : Request → Bool
  | .opendir ino => kindAt kinds ino = some .directory
  | .openFile ino => kindAt kinds ino = some .file
  | _ => false

/-- A request that gives a handle back, if it is open. -/
def GivesBack (kinds : List FileType) (ino fh : Nat) (request : Request) : Prop :=
  request = .release ino fh ∨ request = .releasedir ino fh ∧ kindAt kinds ino = some .directory

/-- Opened on the node, and not given back since. -/
def Open (kinds : List FileType) (ino fh : Nat) : List (Request × Reply) → Prop
  | [] => False
  | (request, reply) :: before =>
    (request = .opendir ino ∨ request = .openFile ino) ∧ reply = .opened fh ∨
      Open kinds ino fh before ∧ ¬ GivesBack kinds ino fh request

/-! ## One table -/

section Table

variable {h : FileHandles} (hsorted : h.handlers.Pairwise (· < ·))
include hsorted

theorem haveHandler_iff (fh : Nat) : h.haveHandler fh = true ↔ fh ∈ h.handlers :=
  binarySearch_isSome_iff (hsorted.imp le_of_lt)

theorem nodup_handlers : h.handlers.Nodup := hsorted.imp ne_of_lt

theorem unregister_of_mem {fh : Nat} (hmem : fh ∈ h.handlers) :
    h.unregister fh = (true, { h with handlers := h.handlers.erase fh }) := by
  obtain ⟨idx, hidx⟩ := Option.isSome_iff_exists.mp ((haveHandler_iff hsorted fh).mpr hmem)
  obtain ⟨hlt, hget⟩ := List.getElem?_eq_some_iff.mp (getElem?_of_binarySearch hidx)
  unfold FileHandles.unregister
  rw [hidx]
  dsimp only
  rw [← hget, (nodup_handlers hsorted).erase_getElem idx hlt]

theorem unregister_of_not_mem {fh : Nat} (hmem : fh ∉ h.handlers) :
    h.unregister fh = (false, h) := by
  have hnone : binarySearch h.handlers fh = none := by
    apply Option.not_isSome_iff_eq_none.mp
    exact mt (haveHandler_iff hsorted fh).mp hmem
  unfold FileHandles.unregister
  rw [hnone]

end Table

/-! ## All tables -/

section Server

variable {s : FuseServer} {ino : Nat} {entry : FuseNode}

theorem node_setHandlers (hentry : s.node ino = some entry) (handlers : FileHandles) (ino' : Nat) :
    (s.setHandlers ino handlers).node ino' =
      if ino' = ino then some { entry with fileHandlers := handlers } else s.node ino' := by
  cases ino with
  | zero => cases hentry
  | succ position =>
    have hentry' : s.files[position]? = some entry := hentry
    cases ino' with
    | zero => rfl
    | succ position' =>
      show (s.files.modify position _)[position']? = if _ then _ else s.files[position']?
      by_cases heq : position' = position
      · rw [heq, if_pos rfl, List.getElem?_modify_eq, hentry']
        rfl
      · rw [if_neg (by omega), List.getElem?_modify_ne _ _ (Ne.symm heq)]

theorem kinds_setHandlers (s : FuseServer) (ino : Nat) (handlers : FileHandles) :
    (s.setHandlers ino handlers).files.map FuseNode.kind = s.files.map FuseNode.kind := by
  apply List.ext_getElem?
  intro i
  show ((s.files.modify (ino - 1) _).map FuseNode.kind)[i]? = _
  rw [List.getElem?_map, List.getElem?_map, List.getElem?_modify, Option.map_eq_map, Option.map_map]
  congr 1
  funext entry
  show (if ino - 1 = i then _ else entry).kind = entry.kind
  split <;> rfl

theorem kind_of_node {kinds : List FileType} (hkinds : s.files.map FuseNode.kind = kinds)
    (hentry : s.node ino = some entry) : kindAt kinds ino = some entry.kind := by
  cases ino with
  | zero => cases hentry
  | succ position =>
    have hentry' : s.files[position]? = some entry := hentry
    show kinds[position]? = _
    rw [← hkinds, List.getElem?_map, hentry']
    rfl

theorem node_of_kindAt {kinds : List FileType} (hkinds : s.files.map FuseNode.kind = kinds)
    {kind : FileType} (hkind : kindAt kinds ino = some kind) :
    ∃ entry, s.node ino = some entry ∧ entry.kind = kind := by
  cases ino with
  | zero => cases hkind
  | succ position =>
    have hkind' : kinds[position]? = some kind := hkind
    rw [← hkinds, List.getElem?_map] at hkind'
    exact Option.map_eq_some_iff.mp hkind'

end Server

/-- After `n` opens: the tables are sorted and hold what is open, all of it below `n`. -/
structure Ordered (kinds : List FileType) (n : Nat) (r : Run) : Prop where
  counter : r.server.fileHandleCounter = n % 2 ^ 64
  kinds_eq : r.server.files.map FuseNode.kind = kinds
  marked : ∀ ino entry, r.server.node ino = some entry → entry.fileHandlers.marked = false
  sorted : ∀ ino entry, r.server.node ino = some entry →
    entry.fileHandlers.handlers.Pairwise (· < ·)
  below : ∀ ino entry, r.server.node ino = some entry →
    ∀ fh ∈ entry.fileHandlers.handlers, fh < n
  open_iff : ∀ ino entry, r.server.node ino = some entry →
    ∀ fh, fh ∈ entry.fileHandlers.handlers ↔ Open kinds ino fh r.history

theorem not_givesBack_open {kinds : List FileType} {ino : Nat} {request : Request}
    (hrequest : request = .opendir ino ∨ request = .openFile ino) (ino' fh : Nat) :
    ¬ GivesBack kinds ino' fh request := by
  rintro (rfl | ⟨rfl, -⟩)
  · rcases hrequest with h | h <;> cases h
  · rcases hrequest with h | h <;> cases h

theorem givesBack_release {kinds : List FileType} {ino fh ino' fh' : Nat} :
    GivesBack kinds ino' fh' (.release ino fh) ↔ ino' = ino ∧ fh' = fh := by
  unfold GivesBack
  simp [eq_comm]

theorem givesBack_releasedir {kinds : List FileType} {ino fh ino' fh' : Nat} :
    GivesBack kinds ino' fh' (.releasedir ino fh) ↔
      (ino' = ino ∧ fh' = fh) ∧ kindAt kinds ino' = some .directory := by
  unfold GivesBack
  simp [eq_comm]

section Ordered

variable {kinds : List FileType} {n : Nat} {r : Run} (hr : Ordered kinds n r)
include hr

/-- A request that is refused, or that only looks. -/
theorem Ordered.unchanged {request : Request} {reply : Reply} (hreply : ∀ fh, reply ≠ .opened fh)
    (hback : ∀ ino entry fh, r.server.node ino = some entry → GivesBack kinds ino fh request →
      fh ∉ entry.fileHandlers.handlers) :
    Ordered kinds n ⟨r.server, (request, reply) :: r.history⟩ where
  counter := hr.counter
  kinds_eq := hr.kinds_eq
  marked := hr.marked
  sorted := hr.sorted
  below := hr.below
  open_iff ino entry hentry fh := by
    rw [hr.open_iff ino entry hentry fh]
    constructor
    · intro hopen
      right
      refine ⟨hopen, fun hgives => ?_⟩
      exact hback ino entry fh hentry hgives ((hr.open_iff ino entry hentry fh).mpr hopen)
    · rintro (⟨-, hopened⟩ | ⟨hopen, -⟩)
      · exact absurd hopened (hreply fh)
      · exact hopen

/-- Another table of one node, and the others as they were. -/
theorem Ordered.replaced {ino : Nat} {entry : FuseNode} (hentry : r.server.node ino = some entry)
    {handlers : List Nat} {m counter : Nat} {history : List (Request × Reply)} (hm : n ≤ m)
    (hcounter : counter = m % 2 ^ 64) (hsorted : handlers.Pairwise (· < ·))
    (hbelow : ∀ fh ∈ handlers, fh < m) (hopen : ∀ fh, fh ∈ handlers ↔ Open kinds ino fh history)
    (hothers : ∀ ino' fh, ino' ≠ ino →
      (Open kinds ino' fh history ↔ Open kinds ino' fh r.history)) :
    Ordered kinds m
      ⟨{ r.server.setHandlers ino { entry.fileHandlers with handlers } with
          fileHandleCounter := counter }, history⟩ := by
  have hnode (ino' : Nat) :=
    node_setHandlers hentry { entry.fileHandlers with handlers := handlers } ino'
  have hcases {ino' : Nat} {entry' : FuseNode}
      (h : (r.server.setHandlers ino { entry.fileHandlers with handlers }).node ino' =
        some entry') :
      ino' = ino ∧ entry'.fileHandlers = { entry.fileHandlers with handlers } ∨
        ino' ≠ ino ∧ r.server.node ino' = some entry' := by
    rw [hnode] at h
    split at h
    · next heq =>
      left
      exact ⟨heq, by rw [← Option.some.inj h]⟩
    · next hne => exact .inr ⟨hne, h⟩
  refine ⟨hcounter, (kinds_setHandlers _ _ _).trans hr.kinds_eq, ?_, ?_, ?_, ?_⟩
  · intro ino' entry' h
    rcases hcases h with ⟨rfl, heq⟩ | ⟨-, hold⟩
    · rw [heq]
      exact hr.marked _ entry hentry
    · exact hr.marked ino' entry' hold
  · intro ino' entry' h
    rcases hcases h with ⟨rfl, heq⟩ | ⟨-, hold⟩
    · rw [heq]
      exact hsorted
    · exact hr.sorted ino' entry' hold
  · intro ino' entry' h fh hfh
    rcases hcases h with ⟨rfl, heq⟩ | ⟨-, hold⟩
    · rw [heq] at hfh
      exact hbelow fh hfh
    · exact (hr.below ino' entry' hold fh hfh).trans_le hm
  · intro ino' entry' h fh
    rcases hcases h with ⟨rfl, heq⟩ | ⟨hne, hold⟩
    · rw [heq]
      exact hopen fh
    · exact (hr.open_iff ino' entry' hold fh).trans (hothers ino' fh hne).symm

/-- The handle is larger than all that the node has. -/
theorem Ordered.opened {ino : Nat} {entry : FuseNode} (hentry : r.server.node ino = some entry)
    {request : Request} (hrequest : request = .opendir ino ∨ request = .openFile ino) :
    Ordered kinds (n + 1)
      ⟨r.server.allocFd.2.setHandlers ino
          { entry.fileHandlers with handlers := entry.fileHandlers.handlers ++ [n] },
        (request, .opened n) :: r.history⟩ := by
  have hiff (ino' fh : Nat) : Open kinds ino' fh ((request, .opened n) :: r.history) ↔
      ino' = ino ∧ fh = n ∨ Open kinds ino' fh r.history := by
    have hsame : (request = .opendir ino' ∨ request = .openFile ino') ↔ ino' = ino := by
      rcases hrequest with rfl | rfl <;> simp [eq_comm]
    show (_ ∧ Reply.opened n = .opened fh ∨ _ ∧ ¬ GivesBack kinds ino' fh request) ↔ _
    rw [hsame, Reply.opened.injEq, @eq_comm _ n, and_iff_left (not_givesBack_open hrequest ino' fh)]
  apply hr.replaced hentry (Nat.le_succ n)
  · show (r.server.fileHandleCounter + 1) % 2 ^ 64 = _
    rw [hr.counter]
    omega
  · rw [List.pairwise_append]
    refine ⟨hr.sorted ino entry hentry, List.pairwise_singleton _ _, fun fh hfh n' hn' => ?_⟩
    rw [List.mem_singleton.mp hn']
    exact hr.below ino entry hentry fh hfh
  · intro fh hfh
    rcases List.mem_append.mp hfh with hold | hnew
    · exact (hr.below ino entry hentry fh hold).trans (Nat.lt_succ_self n)
    · rw [List.mem_singleton.mp hnew]
      exact Nat.lt_succ_self n
  · intro fh
    rw [hiff, List.mem_append, List.mem_singleton, hr.open_iff ino entry hentry fh]
    tauto
  · intro ino' fh hne
    rw [hiff]
    tauto

theorem Ordered.closed {ino fh : Nat} {entry : FuseNode} (hentry : r.server.node ino = some entry)
    {request : Request} (hrequest : ∀ ino' fh', GivesBack kinds ino' fh' request ↔
      ino' = ino ∧ fh' = fh) :
    Ordered kinds n
      ⟨r.server.setHandlers ino
          { entry.fileHandlers with handlers := entry.fileHandlers.handlers.erase fh },
        (request, .ok) :: r.history⟩ := by
  have hsorted := hr.sorted ino entry hentry
  have hiff (ino' fh' : Nat) : Open kinds ino' fh' ((request, .ok) :: r.history) ↔
      Open kinds ino' fh' r.history ∧ ¬ (ino' = ino ∧ fh' = fh) := by
    show (_ ∧ Reply.ok = .opened fh' ∨ _ ∧ ¬ GivesBack kinds ino' fh' request) ↔ _
    rw [hrequest]
    simp
  apply hr.replaced hentry le_rfl hr.counter
  · exact hsorted.sublist List.erase_sublist
  · intro fh' hfh'
    exact hr.below ino entry hentry fh' (List.mem_of_mem_erase hfh')
  · intro fh'
    rw [hiff, (nodup_handlers hsorted).mem_erase_iff, hr.open_iff ino entry hentry fh']
    tauto
  · intro ino' fh' hne
    rw [hiff]
    tauto

theorem Ordered.openNode {kind : FileType} (wrongKind : Errno) {ino : Nat} {request : Request}
    (hrequest : request = .opendir ino ∨ request = .openFile ino)
    (hroom : kindAt kinds ino = some kind → n < 2 ^ 64) :
    Ordered kinds (if kindAt kinds ino = some kind then n + 1 else n)
      ⟨(r.server.openNode kind wrongKind ino).2,
        (request, (r.server.openNode kind wrongKind ino).1) :: r.history⟩ := by
  have hrefused (reply : Reply) (hreply : ∀ fh, reply ≠ .opened fh) :
      Ordered kinds n ⟨r.server, (request, reply) :: r.history⟩ :=
    hr.unchanged hreply fun ino' _ fh _ hgives =>
      absurd hgives (not_givesBack_open hrequest ino' fh)
  unfold FuseServer.openNode
  cases hentry : r.server.node ino with
  | none =>
    have hkind : kindAt kinds ino ≠ some kind := by
      intro hkind
      obtain ⟨entry, hsome, -⟩ := node_of_kindAt hr.kinds_eq hkind
      rw [hentry] at hsome
      cases hsome
    rw [if_neg hkind]
    exact hrefused (.error .enoent) (by nofun)
  | some entry =>
    have hkind := kind_of_node hr.kinds_eq hentry
    dsimp only
    by_cases heq : entry.kind = kind
    · rw [hkind, heq] at hroom ⊢
      have hcounter : r.server.allocFd.1 = n := by
        show r.server.fileHandleCounter = n
        rw [hr.counter]
        exact Nat.mod_eq_of_lt (hroom rfl)
      have hmarked := hr.marked ino entry hentry
      have hadd : entry.fileHandlers.addHandler n =
          some { entry.fileHandlers with handlers := entry.fileHandlers.handlers ++ [n] } :=
        if_neg (by rw [hmarked]; exact Bool.false_ne_true)
      rw [if_pos rfl, if_neg (not_not.mpr rfl), hmarked, if_neg Bool.false_ne_true, hcounter, hadd]
      exact hr.opened hentry hrequest
    · rw [if_pos heq, hkind, if_neg (by simpa using heq)]
      exact hrefused (.error wrongKind) (by nofun)

/-- A request to give back a handle of a node that has no such handle. -/
theorem Ordered.refused {ino fh : Nat} {request : Request} {reply : Reply}
    (hreply : ∀ fh, reply ≠ .opened fh)
    (hgives : ∀ ino' fh', GivesBack kinds ino' fh' request → ino' = ino ∧ fh' = fh)
    (hnone : ∀ entry, r.server.node ino = some entry → GivesBack kinds ino fh request →
      fh ∉ entry.fileHandlers.handlers) :
    Ordered kinds n ⟨r.server, (request, reply) :: r.history⟩ := by
  apply hr.unchanged hreply
  intro ino' entry fh' hentry hback
  obtain ⟨rfl, rfl⟩ := hgives ino' fh' hback
  exact hnone entry hentry hback

theorem Ordered.release (ino fh : Nat) :
    Ordered kinds n
      ⟨(r.server.release ino fh).2,
        (.release ino fh, (r.server.release ino fh).1) :: r.history⟩ := by
  unfold FuseServer.release
  cases hentry : r.server.node ino with
  | none =>
    apply hr.refused (by nofun) fun _ _ => givesBack_release.mp
    intro entry hsome
    rw [hentry] at hsome
    cases hsome
  | some entry =>
    have hsorted := hr.sorted ino entry hentry
    dsimp only
    by_cases hmem : fh ∈ entry.fileHandlers.handlers
    · rw [unregister_of_mem hsorted hmem]
      exact hr.closed hentry fun _ _ => givesBack_release
    · rw [unregister_of_not_mem hsorted hmem]
      apply hr.refused (by nofun) fun _ _ => givesBack_release.mp
      intro entry' hsome _
      rw [hentry] at hsome
      rwa [← Option.some.inj hsome]

theorem Ordered.releasedir (ino fh : Nat) :
    Ordered kinds n
      ⟨(r.server.releasedir ino fh).2,
        (.releasedir ino fh, (r.server.releasedir ino fh).1) :: r.history⟩ := by
  have hgives (ino' fh' : Nat) (h : GivesBack kinds ino' fh' (.releasedir ino fh)) :
      ino' = ino ∧ fh' = fh := (givesBack_releasedir.mp h).1
  unfold FuseServer.releasedir
  cases hentry : r.server.node ino with
  | none =>
    apply hr.refused (by nofun) hgives
    intro entry hsome
    rw [hentry] at hsome
    cases hsome
  | some entry =>
    have hsorted := hr.sorted ino entry hentry
    have hkind := kind_of_node hr.kinds_eq hentry
    dsimp only
    by_cases hdir : entry.kind = .directory
    · rw [if_neg (not_not.mpr hdir)]
      by_cases hmem : fh ∈ entry.fileHandlers.handlers
      · rw [(haveHandler_iff hsorted fh).mpr hmem, unregister_of_mem hsorted hmem]
        apply hr.closed hentry
        intro ino' fh'
        rw [givesBack_releasedir]
        constructor
        · exact And.left
        · rintro ⟨rfl, rfl⟩
          exact ⟨⟨rfl, rfl⟩, hdir ▸ hkind⟩
      · rw [Bool.eq_false_iff.mpr (mt (haveHandler_iff hsorted fh).mp hmem)]
        apply hr.refused (by nofun) hgives
        intro entry' hsome _
        rw [hentry] at hsome
        rwa [← Option.some.inj hsome]
    · rw [if_pos hdir]
      apply hr.refused (by nofun) hgives
      intro entry' _ hback
      obtain ⟨-, hdirectory⟩ := givesBack_releasedir.mp hback
      rw [hkind] at hdirectory
      exact absurd (Option.some.inj hdirectory) hdir

theorem Ordered.check (ino fh : Nat) :
    Ordered kinds n
      ⟨r.server, (.check ino fh, r.server.checkHandler ino fh) :: r.history⟩ := by
  have hreply (fh' : Nat) : r.server.checkHandler ino fh ≠ .opened fh' := by
    unfold FuseServer.checkHandler
    split
    · nofun
    · split <;> nofun
  apply hr.unchanged hreply
  rintro ino' entry fh' - (h | ⟨h, -⟩) <;> cases h

theorem Ordered.next (request : Request) (hroom : takes kinds request = true → n < 2 ^ 64) :
    Ordered kinds (if takes kinds request then n + 1 else n) (r.next request) := by
  cases request with
  | opendir ino =>
    have h := hr.openNode .enotdir (.inl rfl) fun hkind => hroom (decide_eq_true hkind)
    simp only [takes, decide_eq_true_eq]
    exact h
  | openFile ino =>
    have h := hr.openNode .enfile (.inr rfl) fun hkind => hroom (decide_eq_true hkind)
    simp only [takes, decide_eq_true_eq]
    exact h
  | releasedir ino fh => exact hr.releasedir ino fh
  | release ino fh => exact hr.release ino fh
  | check ino fh => exact hr.check ino fh

end Ordered

/-! ## Runs -/

theorem node_start {kinds : List FileType} {ino : Nat} {entry : FuseNode}
    (h : (FuseServer.start kinds).node ino = some entry) : entry.fileHandlers = .new := by
  cases ino with
  | zero => cases h
  | succ position =>
    have h' : (kinds.map fun kind => (⟨kind, .new⟩ : FuseNode))[position]? = some entry := h
    rw [List.getElem?_map] at h'
    obtain ⟨kind, -, rfl⟩ := Option.map_eq_some_iff.mp h'
    rfl

theorem ordered_start (kinds : List FileType) : Ordered kinds 0 ⟨.start kinds, []⟩ where
  counter := rfl
  kinds_eq := by
    show (kinds.map fun kind => (⟨kind, .new⟩ : FuseNode)).map FuseNode.kind = kinds
    rw [List.map_map]
    exact List.map_id kinds
  marked ino entry h := by rw [node_start h]; rfl
  sorted ino entry h := by rw [node_start h]; exact List.Pairwise.nil
  below ino entry h fh hfh := by
    rw [node_start h] at hfh
    exact absurd hfh List.not_mem_nil
  open_iff ino entry h fh := by
    rw [node_start h]
    exact iff_of_false List.not_mem_nil id

theorem run_concat (kinds : List FileType) (requests : List Request) (request : Request) :
    run kinds (requests ++ [request]) = (run kinds requests).next request := by
  unfold run
  rw [List.foldl_append]
  rfl

theorem server_run_concat (kinds : List FileType) (requests : List Request) (request : Request) :
    (run kinds (requests ++ [request])).server =
      (step (run kinds requests).server request).2 := by
  rw [run_concat]
  rfl

theorem ordered_run {kinds : List FileType} {requests : List Request}
    (h : requests.countP (takes kinds) ≤ 2 ^ 64) :
    Ordered kinds (requests.countP (takes kinds)) (run kinds requests) := by
  induction requests using List.reverseRecOn with
  | nil => exact ordered_start kinds
  | append_singleton requests request ih =>
    have hcount : (requests ++ [request]).countP (takes kinds) =
        if takes kinds request then requests.countP (takes kinds) + 1
        else requests.countP (takes kinds) := by
      rw [List.countP_append, List.countP_singleton]
      split <;> rfl
    rw [hcount] at h
    rw [run_concat, hcount]
    split at h
    · next htakes =>
      exact (ih (by omega)).next request fun _ => by omega
    · next htakes => exact (ih h).next request fun hyes => absurd hyes htakes

/-- Every table is sorted and says what is open; what is not open cannot be given back. -/
def InOrder (kinds : List FileType) (r : Run) : Prop :=
  ∀ ino entry, r.server.node ino = some entry →
    entry.fileHandlers.handlers.Pairwise (· < ·) ∧
    (∀ fh, entry.fileHandlers.haveHandler fh = true ↔ Open kinds ino fh r.history) ∧
    ∀ fh, ((entry.fileHandlers.unregister fh).1 = false ↔ ¬ Open kinds ino fh r.history) ∧
      ((entry.fileHandlers.unregister fh).1 = false →
        (entry.fileHandlers.unregister fh).2 = entry.fileHandlers)

theorem handle_table {kinds : List FileType} {requests : List Request}
    (h : requests.countP (takes kinds) ≤ 2 ^ 64) : InOrder kinds (run kinds requests) := by
  have hr := ordered_run h
  intro ino entry hentry
  have hsorted := hr.sorted ino entry hentry
  have hopen := hr.open_iff ino entry hentry
  refine ⟨hsorted, fun fh => (haveHandler_iff hsorted fh).trans (hopen fh), fun fh => ?_⟩
  rw [← hopen fh]
  by_cases hmem : fh ∈ entry.fileHandlers.handlers
  · rw [unregister_of_mem hsorted hmem]
    simp [hmem]
  · rw [unregister_of_not_mem hsorted hmem]
    simp [hmem]

theorem two_files_in_order :
    InOrder [.directory, .file] (run [.directory, .file]
      [.opendir 1, .openFile 2, .openFile 2, .release 2 1, .check 2 2]) :=
  handle_table (by decide)

/-! ## After 2^64 handles -/

/-- The root is opened, and opened and closed again so many times. -/
def churn (m : Nat) : List Request :=
  .opendir 1 :: (List.range m).flatMap fun i => [.opendir 1, .releasedir 1 (i + 1)]

/-- A server with nothing but the root. -/
def rootOnly (handlers : List Nat) (counter : Nat) : FuseServer :=
  ⟨[⟨.directory, ⟨handlers, false⟩⟩], counter⟩

theorem opendir_rootOnly (handlers : List Nat) (counter : Nat) :
    step (rootOnly handlers counter) (.opendir 1) =
      (.opened counter, rootOnly (handlers ++ [counter]) ((counter + 1) % 2 ^ 64)) := rfl

theorem releasedir_rootOnly {fh : Nat} (hfh : 0 < fh) (counter : Nat) :
    step (rootOnly [0, fh] counter) (.releasedir 1 fh) = (.ok, rootOnly [0] counter) := by
  have hsorted : (FileHandles.mk [0, fh] false).handlers.Pairwise (· < ·) := by simpa using hfh
  have hmem : fh ∈ (FileHandles.mk [0, fh] false).handlers := by simp
  have hhave := (haveHandler_iff hsorted fh).mpr hmem
  have hback := unregister_of_mem hsorted hmem
  have herase : [0, fh].erase fh = [0] := by
    rw [List.erase_cons_tail (by simpa using hfh.ne), List.erase_cons_head]
  show (if FileType.directory ≠ .directory then (Reply.error .enotdir, rootOnly [0, fh] counter)
    else if !(FileHandles.mk [0, fh] false).haveHandler fh then
      (Reply.error .ebadf, rootOnly [0, fh] counter)
    else (Reply.ok, (rootOnly [0, fh] counter).setHandlers 1
      ((FileHandles.mk [0, fh] false).unregister fh).2)) = _
  rw [if_neg (not_not.mpr rfl), hhave, hback]
  show (Reply.ok, rootOnly ([0, fh].erase fh) counter) = _
  rw [herase]

theorem churn_succ (m : Nat) :
    churn (m + 1) = churn m ++ [.opendir 1] ++ [.releasedir 1 (m + 1)] := by
  unfold churn
  rw [List.range_succ, List.flatMap_append, List.flatMap_singleton, List.append_assoc]
  rfl

theorem churn_server {m : Nat} (hm : m < 2 ^ 64) :
    (run [.directory] (churn m)).server = rootOnly [0] ((m + 1) % 2 ^ 64) := by
  induction m with
  | zero => rfl
  | succ m ih =>
    have hcounter : (m + 1) % 2 ^ 64 = m + 1 := Nat.mod_eq_of_lt hm
    rw [churn_succ, server_run_concat, server_run_concat, ih (by omega), opendir_rootOnly, hcounter]
    show (step (rootOnly [0, m + 1] ((m + 1 + 1) % 2 ^ 64)) (.releasedir 1 (m + 1))).2 = _
    rw [releasedir_rootOnly (Nat.succ_pos m)]

/-- The first handle, which is open, is given out again. -/
theorem handles_come_round :
    ¬ InOrder [.directory] (run [.directory] (churn (2 ^ 64 - 1) ++ [.opendir 1])) := by
  intro h
  have hserver : (run [.directory] (churn (2 ^ 64 - 1) ++ [.opendir 1])).server =
      rootOnly [0, 0] 1 := by
    have hround : (2 ^ 64 - 1 + 1) % 2 ^ 64 = 0 := by norm_num
    have hone : (0 + 1) % 2 ^ 64 = 1 := by norm_num
    rw [server_run_concat, churn_server (by norm_num), hround, opendir_rootOnly, hone]
    exact congrArg (rootOnly · 1) (List.singleton_append ..)
  have hsorted := (h 1 ⟨.directory, ⟨[0, 0], false⟩⟩ (by rw [hserver]; rfl)).1
  exact absurd hsorted (by decide)

end FuseHandles
end LuodaRemote
