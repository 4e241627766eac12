/-
  The clipboard shared between machines (`check_clipboard`, `update_clipboard` and
  `get_current_clipboard_msg` of `src/clipboard.rs`, with their callers).

  A process that hears of a change of its machine's clipboard sends what is in it to its peers, and
  a process that is sent a clipboard puts it into that of its own machine, which is a change again.
  What keeps the two from answering each other forever is a flag: whatever is put there for a peer
  carries the format `dyn.com.luoda.owner`, and what carries it is not sent on.

  `copied_here`: in any net of machines, whoever is connected to whom, a process sends on a change
  only what was copied at its own machine, and once nothing is copied any more every further
  sending uses up a change that was pending at a clipboard without the flag. What a new connection
  is sent first (`get_current_clipboard_msg`) is read whatever the flag.

  Every update has a thread of its own, so that those on their way come in any order. `arboard` is
  a parameter: it gives back special formats as they were set, and a clipboard that could not be
  set stays as it was.
-/
import LuodaRemote.Clipboard.Contents
import LuodaRemote.Lib.Run

namespace LuodaRemote
open Lib

namespace ClipboardContents

/-! ## What is read and what is written -/

def luodaClipboardOwnerFormat : String := "dyn.com.luoda.owner"

inductive ClipboardSide where
  | host
  | client
  deriving DecidableEq

namespace ClipboardSide

def getOwnerData : ClipboardSide → Bytes
  | .host => [0b01]
  | .client => [0b10]

/-- Either of the two sides, whichever asks. -/
def isOwner (_ : ClipboardSide) : Bytes → Bool
  | [] => false
  | b :: _ => b &&& 0b11 != 0

end ClipboardSide

/-- The flag of a side. -/
def ClipboardData.isFlag (side : ClipboardSide) : ClipboardData → Bool
  | .special s d => s == luodaClipboardOwnerFormat && side.isOwner d
  | _ => false

def ClipboardData.isSent : ClipboardData → Bool
  | .special s _ => s != luodaClipboardOwnerFormat
  | .text t => t != ""
  | _ => true

/-- `data` is what `get_formats` gives. -/
def getFormatsFilter (data : List ClipboardData) (side : ClipboardSide) (force : Bool) :
    List ClipboardData :=
  if !force && data.any (·.isFlag side) then [] else data.filter (·.isSent)

/-- Where files are copied by the clipboard too, they take everything else with them. -/
def get (unixFileCopyPaste : Bool) (data : List ClipboardData) (side : ClipboardSide)
    (force : Bool) : List ClipboardData :=
  let data := getFormatsFilter data side force
  if unixFileCopyPaste && data.any (· == .other) then [] else data

/-- `get_msg_if_not_support_multi_clip`, or all of it. -/
def forPeer (supportMulti : Bool) (clipboards : List Clipboard) : List Clipboard :=
  if supportMulti then clipboards
  else match clipboards.find? fun c => enumValue c.format = some .text with
    | some c => [c]
    | none => clipboards

/-- The first text is all that an old peer is sent when it connects. -/
def forNewPeer (supportMulti : Bool) (clipboards : List Clipboard) : List Clipboard :=
  if supportMulti then clipboards
  else (clipboards.find? fun c => enumValue c.format = some .text).toList

/-- What a clipboard that was set gives back. -/
structure Arboard where
  stored : List ClipboardData → List ClipboardData
  stored_special : ∀ data s d, .special s d ∈ data → .special s d ∈ stored data

end ClipboardContents

open ClipboardContents

/-! ## A net of machines -/

/-- `M` are the machines, `P` the processes that share a clipboard. -/
structure ClipboardNet (M P : Type*) where
  /-- What `get_formats` would give. -/
  board : M → List ClipboardData
  /-- The changes that the processes have still to handle. -/
  changes : List P := []
  lastMultiClipboards : P → List Clipboard := fun _ => []
  /-- What was sent and not yet put into a clipboard, with its process. -/
  updates : List (P × List Clipboard) := []

/-- Where the processes run, on which side they are, and how they were built. -/
structure ClipboardPlace (M P : Type*) where
  machine : P → M
  side : P → ClipboardSide
  unixFileCopyPaste : P → Bool

inductive ClipboardAct (M P : Type*) where
  /-- The user, any other program, or `set_clipboard_content` of a paste on Wayland, which leaves
      no mark; `heard` are the processes that are told. -/
  | copy (m : M) (data : List ClipboardData) (heard : List P)
  /-- A change is handled; `read` is whether the clipboard could be read, and whom it is sent to,
      with whether they know of several formats. -/
  | check (p : P) (read : Bool) (peers : List (P × Bool))
  /-- The update at the place has its turn; `set` is whether the clipboard could be written. -/
  | update (i : ℕ) (set : Bool) (heard : List P)
  /-- It comes to nothing: the connection is closed, or may not use the clipboard. -/
  | lose (i : ℕ)
  /-- `update_clipboard_files`, or the files are taken out again. -/
  | setFiles (p : P) (data : List ClipboardData) (heard : List P)
  /-- A peer has connected, and is sent the current clipboard. -/
  | connected (p : P) (read : Bool) (peer : P × Bool)

namespace ClipboardNet

variable {M P : Type*} [DecidableEq M] [DecidableEq P]

section
variable (z : Zstd) (arboard : Arboard) (place : ClipboardPlace M P)

/-- The clipboard of a machine is something else, and processes there are told. -/
def write (m : M) (data : List ClipboardData) (heard : List P) (s : ClipboardNet M P) :
    ClipboardNet M P :=
  { s with
    board := Function.update s.board m data
    changes := s.changes ++ heard.filter fun p => place.machine p = m }

def doUpdateClipboard (p : P) (data : List ClipboardData) (heard : List P)
    (s : ClipboardNet M P) : ClipboardNet M P :=
  let flag := .special luodaClipboardOwnerFormat (place.side p).getOwnerData
  s.write place (place.machine p) (arboard.stored (data ++ [flag])) heard

/-- What `check_clipboard` makes of the clipboard, unless nothing is to be sent. -/
def checkClipboard (s : ClipboardNet M P) (p : P) (read : Bool) : Option (List Clipboard) :=
  let content := get (place.unixFileCopyPaste p) (s.board (place.machine p)) (place.side p) false
  if read && !content.isEmpty then some (createMultiClipboards z content) else none

def check (p : P) (read : Bool) (peers : List (P × Bool)) (s : ClipboardNet M P) :
    ClipboardNet M P :=
  if p ∈ s.changes then
    let s' := { s with changes := s.changes.erase p }
    match s.checkClipboard z place p read with
    | none => s'
    | some clipboards =>
      { s' with
        lastMultiClipboards := Function.update s.lastMultiClipboards p clipboards
        updates := s.updates ++ peers.map fun (q, supportMulti) =>
          (q, forPeer supportMulti clipboards) }
  else s

def update (i : ℕ) (set : Bool) (heard : List P) (s : ClipboardNet M P) : ClipboardNet M P :=
  match s.updates[i]? with
  | none => s
  | some (p, clipboards) =>
    let s := { s with updates := s.updates.eraseIdx i }
    let toUpdateData := fromMultiClipboards z clipboards
    if toUpdateData.isEmpty || !set then s
    else s.doUpdateClipboard arboard place p toUpdateData heard

/-- `LAST_MULTI_CLIPBOARDS`, which is filled if it is empty. -/
def currentClipboards (s : ClipboardNet M P) (p : P) : List Clipboard :=
  if (s.lastMultiClipboards p).isEmpty then
    createMultiClipboards z
      (get (place.unixFileCopyPaste p) (s.board (place.machine p)) (place.side p) true)
  else s.lastMultiClipboards p

/-- `get_current_clipboard_msg`, where the clipboard is read only if it has to be. -/
def connected (p : P) (read : Bool) (peer : P × Bool) (s : ClipboardNet M P) :
    ClipboardNet M P :=
  if (s.lastMultiClipboards p).isEmpty && !read then s
  else
    let clipboards := s.currentClipboards z place p
    let msg := forNewPeer peer.2 clipboards
    { s with
      lastMultiClipboards := Function.update s.lastMultiClipboards p clipboards
      updates := if msg.isEmpty then s.updates else s.updates ++ [(peer.1, msg)] }

def step (s : ClipboardNet M P) : ClipboardAct M P → ClipboardNet M P
  | .copy m data heard => s.write place m data heard
  | .check p read peers => s.check z place p read peers
  | .update i set heard => s.update z arboard place i set heard
  | .lose i => { s with updates := s.updates.eraseIdx i }
  | .setFiles p data heard => s.doUpdateClipboard arboard place p data heard
  | .connected p read peer => s.connected z place p read peer

/-- What a step sends because the clipboard has changed. -/
def sends (s : ClipboardNet M P) : ClipboardAct M P → List (P × List Clipboard)
  | .check p read _ =>
    if p ∈ s.changes then ((s.checkClipboard z place p read).map (p, ·)).toList else []
  | _ => []

end

/-! ## The flag -/

section
variable {z : Zstd} {arboard : Arboard} {place : ClipboardPlace M P}

/-- What is in the clipboard was put there for a peer. -/
def flagged (data : List ClipboardData) : Bool := data.any (·.isFlag .host)

/-- Either side takes the flag of the other for its own. -/
theorem any_isFlag (side : ClipboardSide) (data : List ClipboardData) :
    data.any (·.isFlag side) = flagged data := rfl

theorem isOwner_getOwnerData (side side' : ClipboardSide) :
    side.isOwner side'.getOwnerData = true := by
  cases side' <;> rfl

/-- What is put there for a peer carries the flag. -/
theorem flagged_stored (arboard : Arboard) (data : List ClipboardData) (side : ClipboardSide) :
    flagged (arboard.stored
      (data ++ [.special luodaClipboardOwnerFormat side.getOwnerData])) = true := by
  refine List.any_eq_true.mpr ⟨_, arboard.stored_special _ _ _ (List.mem_append_right _
    (List.mem_singleton_self _)), ?_⟩
  simp [ClipboardData.isFlag, isOwner_getOwnerData]

omit [DecidableEq M] [DecidableEq P] in
/-- Nothing of a flagged clipboard is sent on a change. -/
theorem checkClipboard_flagged {s : ClipboardNet M P} {p : P} (read : Bool)
    (h : flagged (s.board (place.machine p)) = true) :
    s.checkClipboard z place p read = none := by
  have hempty : getFormatsFilter (s.board (place.machine p)) (place.side p) false = [] := by
    unfold getFormatsFilter
    rw [any_isFlag, h]
    rfl
  unfold checkClipboard ClipboardContents.get
  rw [hempty]
  simp

omit [DecidableEq M] [DecidableEq P] in
theorem checkClipboard_some {s : ClipboardNet M P} {p : P} {read : Bool}
    {clipboards : List Clipboard} (h : s.checkClipboard z place p read = some clipboards) :
    flagged (s.board (place.machine p)) = false ∧
      clipboards = createMultiClipboards z (ClipboardContents.get (place.unixFileCopyPaste p)
        (s.board (place.machine p)) (place.side p) false) := by
  constructor
  · refine Bool.eq_false_iff.mpr fun hf => ?_
    rw [checkClipboard_flagged read hf] at h
    cases h
  · unfold checkClipboard at h
    dsimp only at h
    split at h
    · exact (Option.some.inj h).symm
    · cases h

/-- The copies at a machine. -/
def copies (m : M) (xs : List (ClipboardAct M P)) : List (List ClipboardData) :=
  xs.filterMap fun
    | .copy m' data _ => if m' = m then some data else none
    | _ => none

/-- What a step leaves in a clipboard: what was there, a copy, or something with the flag. -/
theorem board_step (s : ClipboardNet M P) (x : ClipboardAct M P) (m : M) :
    (step z arboard place s x).board m = s.board m ∨
      (step z arboard place s x).board m ∈ copies m [x] ∨
      flagged ((step z arboard place s x).board m) = true := by
  have hwrite : ∀ (s : ClipboardNet M P) (m' : M) data heard,
      (s.write place m' data heard).board m = if m = m' then data else s.board m := by
    intro s m' data heard
    simp only [write, Function.update_apply]
  have hdo : ∀ (s : ClipboardNet M P) (p : P) data heard,
      (s.doUpdateClipboard arboard place p data heard).board m = s.board m ∨
        flagged ((s.doUpdateClipboard arboard place p data heard).board m) = true := by
    intro s p data heard
    unfold doUpdateClipboard
    rw [hwrite]
    split
    · exact .inr (flagged_stored arboard data (place.side p))
    · exact .inl rfl
  cases x with
  | copy m' data heard =>
    by_cases hm : m = m'
    · refine .inr (.inl ?_)
      change (s.write place m' data heard).board m ∈ _
      rw [hwrite, if_pos hm]
      simp [copies, hm]
    · refine .inl ?_
      change (s.write place m' data heard).board m = _
      rw [hwrite, if_neg hm]
  | check p read peers =>
    refine .inl ?_
    change (s.check z place p read peers).board m = _
    unfold check
    split
    · dsimp only
      split <;> rfl
    · rfl
  | update i set heard =>
    change (s.update z arboard place i set heard).board m = _ ∨ _ ∨
      flagged ((s.update z arboard place i set heard).board m) = true
    unfold update
    split
    · exact .inl rfl
    · dsimp only
      split
      · exact .inl rfl
      · exact (hdo _ _ _ _).imp_right .inr
  | lose i => exact .inl rfl
  | setFiles p data heard => exact (hdo s p data heard).imp_right .inr
  | connected p read peer =>
    refine .inl ?_
    change (s.connected z place p read peer).board m = _
    unfold connected
    split <;> rfl

/-- A clipboard without the flag is as it was at the start, or as it was copied. -/
theorem board_run (s : ClipboardNet M P) (xs : List (ClipboardAct M P)) (m : M)
    (h : flagged ((run (step z arboard place) s xs).board m) = false) :
    (run (step z arboard place) s xs).board m ∈ s.board m :: copies m xs := by
  induction xs generalizing s with
  | nil => exact List.mem_cons_self
  | cons x xs ih =>
    have hcopies : copies m (x :: xs) = copies m [x] ++ copies m xs :=
      @List.filterMap_append _ _ [x] xs _
    rw [run_cons] at h ⊢
    obtain hstart | hcopy := List.mem_cons.mp (ih (step z arboard place s x) h)
    · rw [hstart] at h ⊢
      obtain hsame | hnew | hflag := @board_step M P _ _ z arboard place s x m
      · exact List.mem_cons.mpr (.inl hsame)
      · exact List.mem_cons_of_mem _ (hcopies ▸ List.mem_append_left _ hnew)
      · rw [hflag] at h
        cases h
    · exact List.mem_cons_of_mem _ (hcopies ▸ List.mem_append_right _ hcopy)

/-! ## Changes that may lead to a sending -/

/-- The changes pending at a clipboard without the flag. -/
def pending (place : ClipboardPlace M P) (s : ClipboardNet M P) : ℕ :=
  s.changes.countP fun p => !flagged (s.board (place.machine p))

omit [DecidableEq P] in
theorem pending_write (s : ClipboardNet M P) (m : M) {data : List ClipboardData} (heard : List P)
    (h : flagged data = true) : (s.write place m data heard).pending place ≤ s.pending place := by
  have hnew : (heard.filter fun p => place.machine p = m).countP
      (fun p => !flagged (Function.update s.board m data (place.machine p))) = 0 := by
    refine List.countP_eq_zero.mpr fun p hp => ?_
    have hm : place.machine p = m := by simpa using (List.mem_filter.mp hp).2
    simp [hm, h]
  unfold pending write
  rw [List.countP_append, hnew, Nat.add_zero]
  refine List.countP_mono_left fun p _ hp => ?_
  dsimp only at hp
  rw [Function.update_apply] at hp
  split at hp
  · rw [h] at hp
    cases hp
  · exact hp

omit [DecidableEq P] in
theorem pending_doUpdateClipboard (s : ClipboardNet M P) (p : P) (data : List ClipboardData)
    (heard : List P) :
    (s.doUpdateClipboard arboard place p data heard).pending place ≤ s.pending place :=
  pending_write s _ heard (flagged_stored arboard data (place.side p))

omit [DecidableEq M] in
/-- A change is used up by what it sends. -/
theorem pending_check (s : ClipboardNet M P) (p : P) (read : Bool) (peers : List (P × Bool)) :
    (s.sends z place (.check p read peers)).length +
      (s.check z place p read peers).pending place ≤ s.pending place := by
  have herase : (s.check z place p read peers).pending place =
      ({ s with changes := s.changes.erase p } : ClipboardNet M P).pending place := by
    unfold check
    split
    · dsimp only
      split <;> rfl
    · rename_i hp
      rw [List.erase_of_not_mem hp]
  have hle : (s.changes.erase p).countP (fun q => !flagged (s.board (place.machine q))) ≤
      s.changes.countP fun q => !flagged (s.board (place.machine q)) :=
    List.erase_sublist.countP_le
  rw [herase]
  unfold sends pending
  dsimp only
  split
  · rename_i hp
    cases hsend : s.checkClipboard z place p read with
    | none => simpa using hle
    | some clipboards =>
      have hflag := (checkClipboard_some hsend).1
      have hcount := (List.perm_cons_erase hp).countP_eq fun q =>
        !flagged (s.board (place.machine q))
      rw [hcount, List.countP_cons, hflag]
      simp
      omega
  · simpa using hle

omit [DecidableEq M] in
theorem pending_connected (s : ClipboardNet M P) (p : P) (read : Bool) (peer : P × Bool) :
    (s.connected z place p read peer).pending place = s.pending place := by
  unfold connected
  split <;> rfl

/-- Whatever happens but a copy uses up what it sends, and leads to nothing more. -/
theorem pending_step (s : ClipboardNet M P) {x : ClipboardAct M P}
    (hx : ∀ m data heard, x ≠ .copy m data heard) :
    (s.sends z place x).length + (step z arboard place s x).pending place ≤ s.pending place := by
  have hnone : ∀ s' : ClipboardNet M P, s'.pending place ≤ s.pending place →
      ([] : List (P × List Clipboard)).length + s'.pending place ≤ s.pending place := by
    intro s' h
    simpa using h
  cases x with
  | copy m data heard => exact absurd rfl (hx m data heard)
  | check p read peers => exact pending_check s p read peers
  | update i set heard =>
    refine hnone _ ?_
    change (s.update z arboard place i set heard).pending place ≤ _
    unfold update
    split
    · exact le_refl _
    · dsimp only
      split
      · exact le_refl _
      · exact pending_doUpdateClipboard { s with updates := s.updates.eraseIdx i } _ _ heard
  | lose i => exact hnone _ (le_refl _)
  | setFiles p data heard => exact hnone _ (pending_doUpdateClipboard s p data heard)
  | connected p read peer => exact hnone _ (pending_connected s p read peer).le

theorem pending_run {s : ClipboardNet M P} {xs : List (ClipboardAct M P)}
    (hxs : ∀ x ∈ xs, ∀ m data heard, x ≠ .copy m data heard) :
    (emitted (step z arboard place) (sends z place) s xs).length +
      (run (step z arboard place) s xs).pending place ≤ s.pending place := by
  induction xs generalizing s with
  | nil => simp [emitted]
  | cons x xs ih =>
    have hx := @pending_step M P _ _ z arboard place s _
      (hxs x List.mem_cons_self)
    have hrest := @ih (step z arboard place s x) fun y hy => hxs y (List.mem_cons_of_mem x hy)
    simp only [emitted, List.length_append, run_cons]
    omega

end

section
variable (z : Zstd) (arboard : Arboard) (place : ClipboardPlace M P)

/-- What is sent on a change was read from a clipboard that somebody at the machine had filled; and
    when nobody does any more, what is sent is at most what was pending, so that no two machines
    go on answering each other. -/
theorem copied_here (s : ClipboardNet M P) (before after : List (ClipboardAct M P))
    (hafter : ∀ x ∈ after, ∀ m data heard, x ≠ .copy m data heard) :
    (∀ x p msg, (p, msg) ∈ (run (step z arboard place) s before).sends z place x →
      ∃ data ∈ s.board (place.machine p) :: copies (place.machine p) before,
        flagged data = false ∧
        msg = createMultiClipboards z
          (ClipboardContents.get (place.unixFileCopyPaste p) data (place.side p) false)) ∧
    (emitted (step z arboard place) (sends z place) (run (step z arboard place) s before)
        after).length + (run (step z arboard place) s (before ++ after)).pending place ≤
      (run (step z arboard place) s before).pending place := by
  constructor
  · intro x p msg hmsg
    cases x with
    | check q read peers =>
      change (p, msg) ∈ (if q ∈ _ then _ else []) at hmsg
      split at hmsg
      · obtain ⟨clipboards, hsome, heq⟩ := Option.map_eq_some_iff.mp (Option.mem_toList.mp hmsg)
        obtain ⟨rfl, rfl⟩ := Prod.mk.inj heq
        obtain ⟨hflag, hsent⟩ := checkClipboard_some hsome
        exact ⟨_, board_run s before _ hflag, hflag, hsent⟩
      · exact absurd hmsg List.not_mem_nil
    | _ => exact absurd hmsg List.not_mem_nil
  · rw [run_append]
    exact pending_run hafter

/-- A text is copied at one of two machines: it is sent to the other, and not back. -/
theorem copied_here_two :
    let place : ClipboardPlace Bool Bool :=
      { machine := id, side := fun p => if p then .client else .host
        unixFileCopyPaste := fun _ => false }
    let net := run (step (storing []) ⟨id, fun _ _ _ h => h⟩ place)
      { board := fun _ => [] } [.copy true [.text "copied"] [true]]
    let after := [.check true true [(false, true)], .update 0 true [false],
      .check false true [(true, true)]]
    net.pending place = 1 ∧
      (emitted (step (storing []) ⟨id, fun _ _ _ h => h⟩ place) (sends (storing []) place) net
        after).length ≤ 1 := by
  refine ⟨by decide +kernel, ?_⟩
  have h := (copied_here (storing []) ⟨id, fun _ _ _ h => h⟩
    { machine := id, side := fun p => if p then .client else .host
      unixFileCopyPaste := fun _ => false } { board := fun _ => [] }
    [.copy true [.text "copied"] [true]]
    [.check true true [(false, true)], .update 0 true [false], .check false true [(true, true)]]
    (by simp)).2
  exact (Nat.le_add_right _ _).trans (h.trans (by decide +kernel))

end

end ClipboardNet

end LuodaRemote
