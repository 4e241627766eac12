/-
  The size of a terminal (`handle_open`, `handle_resize`, `do_sigwinch_resize` and `read_outputs`
  of terminal_service.rs).

  A session records the size its client asked for, and the PTY has one of its own. After a
  reconnect `read_outputs` makes the PTY a row smaller or larger and sets it back one poll later,
  so that the application redraws. Each of the two may be tried three times.

  The first phase takes the PTY to have the right size when it begins. A client that reconnects
  between the two phases starts over while the PTY is still a row off, and if the first phase then
  fails, nobody sets it back. `size_restored_iff` says that nothing else goes wrong, over every
  run in which one of three attempts to set the PTY back works.
-/
import LuodaRemote.Terminal.Replay

namespace LuodaRemote
open Lib

namespace Terminal

structure PtySize where
  rows : UInt16
  cols : UInt16
deriving DecidableEq

/-- What a session has to do with its size. `pty` is what the PTY was told last, by a call or
    through the helper. -/
structure SizedSession where
  rows : UInt16
  cols : UInt16
  pty : PtySize
  state : SessionState
deriving DecidableEq

inductive SigwinchAction where
  | tempResize
  | restore
deriving DecidableEq

/-- Neither of the sums saturates. -/
def targetRows (rows : UInt16) : SigwinchAction → UInt16
  | .tempResize => if 2 < rows then rows - 1 else rows + 1
  | .restore => rows

/-- Whether the resize succeeded, and the PTY then; `resizeOk` is the outcome of the call. -/
def doSigwinchResize (rows cols : UInt16) (pty : PtySize) (action : SigwinchAction)
    (resizeOk : Bool) : Bool × PtySize :=
  if rows = 0 ∨ cols = 0 then (false, pty)
  else if resizeOk then (true, ⟨targetRows rows action, cols⟩)
  else (false, pty)

/-- `*retries -= 1`, which must not underflow. -/
def decrement (retries : Nat) : Option Nat := if 1 ≤ retries then some (retries - 1) else none

/-- Takes one attempt of the phase, or gives it up. -/
def takeAttempt : SigwinchPhase → Option (SigwinchPhase × Option SigwinchAction)
  | .tempResize retries =>
    if retries = 0 then some (.idle, none)
    else (decrement retries).map fun left => (.tempResize left, some .tempResize)
  | .restore retries =>
    if retries = 0 then some (.idle, none)
    else (decrement retries).map fun left => (.restore left, some .restore)
  | .idle => some (.idle, none)

/-- The phase behind a resize that succeeded. -/
def SigwinchAction.next : SigwinchAction → SigwinchPhase
  | .tempResize => .restore maxSigwinchPhaseAttempts
  | .restore => .idle

namespace SizedSession

/-- `handle_open` has just created the session, and the PTY with it. -/
def new (rows cols : UInt16) : SizedSession where
  rows := rows
  cols := cols
  pty := ⟨rows, cols⟩
  state := .active none .idle

/-- The reconnecting branch of `handle_open`. -/
def reopen (history : Bytes) (s : SizedSession) : SizedSession :=
  { s with state := .active (if history = [] then none else some history)
                      (.tempResize maxSigwinchPhaseAttempts) }

/-- `handle_resize` leaves the phase alone. -/
def handleResize (rows cols : UInt16) (resizeOk : Bool) (s : SizedSession) : SizedSession :=
  { s with rows := rows, cols := cols, pty := if resizeOk then ⟨rows, cols⟩ else s.pty }

def resetStatus (s : SizedSession) : SizedSession := { s with state := .closed }

/-- `read_outputs`; `none` is an underflow. -/
def readOutputs (resizeOk : Bool) (s : SizedSession) : Option SizedSession :=
  match s.state with
  | .closed => some s
  | .active _ sigwinch =>
    match takeAttempt sigwinch with
    | none => none
    | some (phase, none) => some { s with state := .active none phase }
    | some (phase, some action) =>
      let (ok, pty) := doSigwinchResize s.rows s.cols s.pty action resizeOk
      some { s with pty := pty, state := .active none (if ok then action.next else phase) }

end SizedSession

/-- The session under its id, if there is one. -/
structure Sized where
  session : Option SizedSession
  underflowed : Bool
deriving DecidableEq

def Sized.start : Sized := ⟨none, false⟩

inductive SizeEvent where
  /-- `history` is what the output buffer gives a client that reconnects; `opens` is false where
      no PTY can be made. -/
  | handleOpen (rows cols : UInt32) (history : Bytes) (opens : Bool)
  | handleResize (rows cols : UInt32) (resizeOk : Bool)
  | resetStatus
  /-- The session may be locked. It is removed after its reader has ended, if it is not kept. -/
  | readOutputs (locked resizeOk removed : Bool)
deriving DecidableEq

namespace Sized

def step (v : Sized) : SizeEvent → Sized
  | .handleOpen rows cols history opens =>
    match v.session with
    | some s => { v with session := some (s.reopen history) }
    | none =>
      if opens then { v with session := some (.new rows.toUInt16 cols.toUInt16) } else v
  | .handleResize rows cols resizeOk =>
    { v with session := v.session.map (·.handleResize rows.toUInt16 cols.toUInt16 resizeOk) }
  | .resetStatus => { v with session := v.session.map (·.resetStatus) }
  | .readOutputs locked resizeOk removed =>
    match v.session with
    | none => v
    | some s =>
      if locked then v
      else match s.readOutputs resizeOk with
        | none => { v with underflowed := true }
        | some s => { v with session := if removed then none else some s }

end Sized

/-! ## One poll -/

section Poll

variable {s s' : SizedSession} {pending : Option Bytes} {sigwinch : SigwinchPhase}
  {resizeOk : Bool}

/-- The PTY has the size that the session records. -/
def SizedSession.Fits (s : SizedSession) : Prop := s.pty = ⟨s.rows, s.cols⟩

instance SizedSession.Fits.decidable : Decidable s.Fits := inferInstanceAs (Decidable (_ = _))

theorem readOutputs_closed (hclosed : s.state = .closed) : s.readOutputs resizeOk = some s := by
  rw [SizedSession.readOutputs, hclosed]

theorem readOutputs_rest {phase : SigwinchPhase} (hstate : s.state = .active pending sigwinch)
    (htake : takeAttempt sigwinch = some (phase, none)) :
    s.readOutputs resizeOk = some { s with state := .active none phase } := by
  rw [SizedSession.readOutputs, hstate]
  dsimp only
  rw [htake]

theorem readOutputs_attempt {phase : SigwinchPhase} {action : SigwinchAction}
    (hstate : s.state = .active pending sigwinch)
    (htake : takeAttempt sigwinch = some (phase, some action)) :
    s.readOutputs resizeOk = some { s with
      pty := (doSigwinchResize s.rows s.cols s.pty action resizeOk).2
      state := .active none (if (doSigwinchResize s.rows s.cols s.pty action resizeOk).1
        then action.next else phase) } := by
  rw [SizedSession.readOutputs, hstate]
  dsimp only
  rw [htake]

/-- A resize that did not take place, or the PTY has the rows that were to be set. -/
theorem doSigwinchResize_cases (rows cols : UInt16) (pty : PtySize) (action : SigwinchAction)
    (resizeOk : Bool) :
    (doSigwinchResize rows cols pty action resizeOk = (false, pty) ∧
      (rows = 0 ∨ cols = 0 ∨ resizeOk = false)) ∨
    (doSigwinchResize rows cols pty action resizeOk = (true, ⟨targetRows rows action, cols⟩) ∧
      rows ≠ 0 ∧ cols ≠ 0) := by
  unfold doSigwinchResize
  split
  · rename_i hzero
    exact .inl ⟨rfl, hzero.imp id .inl⟩
  · rename_i hzero
    cases resizeOk with
    | false => exact .inl ⟨rfl, .inr (.inr rfl)⟩
    | true => exact .inr ⟨rfl, not_or.mp hzero⟩

/-! ## What a session keeps -/

/-- The attempts that are left. -/
def SigwinchPhase.retries : SigwinchPhase → Nat
  | .idle => 0
  | .tempResize retries => retries
  | .restore retries => retries

/-- A PTY of another size has the second phase before it, unless the first one is to come. -/
structure SizedSession.Sound (s : SizedSession) : Prop where
  retries : ∀ pending sigwinch, s.state = .active pending sigwinch →
    sigwinch.retries ≤ maxSigwinchPhaseAttempts
  /-- Where nothing can be resized there is nothing to set back. -/
  zero : s.rows = 0 ∨ s.cols = 0 → s.Fits
  restored : ∀ pending, s.state = .active pending (.restore 0) → s.Fits

/-- An active session with no phase to come fits. -/
def SizedSession.Settled (s : SizedSession) : Prop :=
  ∀ pending, s.state = .active pending .idle → s.Fits

/-- The last of the attempts to set the PTY back works. -/
def SizedSession.Restores (s : SizedSession) (resizeOk : Bool) : Prop :=
  ∀ pending, s.state = .active pending (.restore 1) → s.rows ≠ 0 → s.cols ≠ 0 → resizeOk = true

/-- The first phase has no attempt left, and the PTY has another size. -/
def SizedSession.Stranded (s : SizedSession) : Prop :=
  ∃ pending, s.state = .active pending (.tempResize 0) ∧ ¬ s.Fits

/-- The state after a poll, by itself. -/
theorem sound_active {phase : SigwinchPhase} {pty : PtySize} (hs : s.Sound)
    (hretries : phase.retries ≤ maxSigwinchPhaseAttempts)
    (hzero : s.rows = 0 ∨ s.cols = 0 → pty = s.pty)
    (hrestored : phase = .restore 0 → pty = ⟨s.rows, s.cols⟩) :
    ({ s with pty := pty, state := .active none phase } : SizedSession).Sound := by
  refine ⟨?_, fun h0 => (hzero h0).trans (hs.zero h0), ?_⟩
  · rintro pending sigwinch hstate
    cases hstate
    exact hretries
  · rintro pending hstate
    cases hstate
    exact hrestored rfl

theorem settled_active {phase : SigwinchPhase} {pty : PtySize}
    (hidle : phase = .idle → pty = ⟨s.rows, s.cols⟩) :
    ({ s with pty := pty, state := .active none phase } : SizedSession).Settled := by
  rintro pending hstate
  cases hstate
  exact hidle rfl

/-- A poll leaves an idle session with the wrong size only where it gives up the first phase. -/
theorem readOutputs_settled (hs : s.Sound) (hrestores : s.Restores resizeOk) :
    ∃ s', s.readOutputs resizeOk = some s' ∧ s'.Sound ∧
      (s.Settled → (s'.Settled ↔ ¬ s.Stranded)) := by
  cases hstate : s.state with
  | closed =>
    refine ⟨s, readOutputs_closed hstate, hs, fun hset => iff_of_true hset ?_⟩
    rintro ⟨pending, hactive, _⟩
    rw [hstate] at hactive
    cases hactive
  | active pending sigwinch =>
    have hleft := hs.retries pending sigwinch hstate
    have hnot (hne : sigwinch ≠ .tempResize 0) : ¬ s.Stranded := by
      rintro ⟨_, hactive, _⟩
      rw [hstate] at hactive
      cases hactive
      exact hne rfl
    cases sigwinch with
    | idle =>
      exact ⟨_, readOutputs_rest hstate rfl,
        sound_active hs (Nat.zero_le _) (fun _ => rfl) (by rintro ⟨⟩),
        fun hset => iff_of_true (settled_active fun _ => hset pending hstate) (hnot (by simp))⟩
    | tempResize retries =>
      cases retries with
      | zero =>
        refine ⟨_, readOutputs_rest hstate rfl,
          sound_active hs (Nat.zero_le _) (fun _ => rfl) (by rintro ⟨⟩), fun _ => ⟨?_, ?_⟩⟩
        · rintro hset' ⟨_, _, hoff⟩
          exact hoff (hset' none rfl)
        · intro hfine
          exact settled_active fun _ => by_contra fun hoff => hfine ⟨pending, hstate, hoff⟩
      | succ left =>
        refine ⟨_, readOutputs_attempt hstate rfl, ?_⟩
        rcases doSigwinchResize_cases s.rows s.cols s.pty .tempResize resizeOk with
          ⟨hdo, _⟩ | ⟨hdo, hrows, hcols⟩
        · rw [hdo]
          exact ⟨sound_active hs (Nat.le_of_succ_le hleft) (fun _ => rfl) (by rintro ⟨⟩),
            fun _ => iff_of_true (settled_active (by rintro ⟨⟩)) (hnot (by simp))⟩
        · rw [hdo]
          exact ⟨sound_active hs le_rfl (fun h0 => absurd h0 (not_or.mpr ⟨hrows, hcols⟩))
            (by rintro ⟨⟩),
            fun _ => iff_of_true (settled_active (by rintro ⟨⟩)) (hnot (by simp))⟩
    | restore retries =>
      cases retries with
      | zero =>
        exact ⟨_, readOutputs_rest hstate rfl,
          sound_active hs (Nat.zero_le _) (fun _ => rfl) (by rintro ⟨⟩),
          fun _ => iff_of_true (settled_active fun _ => hs.restored pending hstate)
            (hnot (by simp))⟩
      | succ left =>
        refine ⟨_, readOutputs_attempt hstate rfl, ?_⟩
        rcases doSigwinchResize_cases s.rows s.cols s.pty .restore resizeOk with
          ⟨hdo, hfailed⟩ | ⟨hdo, _⟩
        · rw [hdo]
          refine ⟨sound_active hs (Nat.le_of_succ_le hleft) (fun _ => rfl) ?_,
            fun _ => iff_of_true (settled_active (by rintro ⟨⟩)) (hnot (by simp))⟩
          -- The last attempt has failed: nothing could be resized.
          rintro ⟨⟩
          by_contra hoff
          have hrows : s.rows ≠ 0 := fun h0 => hoff (hs.zero (.inl h0))
          have hcols : s.cols ≠ 0 := fun h0 => hoff (hs.zero (.inr h0))
          have hfalse : resizeOk = false := (hfailed.resolve_left hrows).resolve_left hcols
          have htrue := hrestores pending hstate hrows hcols
          rw [hfalse] at htrue
          cases htrue
        · rw [hdo]
          exact ⟨sound_active hs (Nat.zero_le _) (fun h0 => (hs.zero h0).symm) (by rintro ⟨⟩),
            fun _ => iff_of_true (settled_active fun _ => rfl) (hnot (by simp))⟩

end Poll

/-! ## Every run -/

namespace Sized

/-- Client resizes work, and one of three attempts to set the PTY back. -/
def Works (v : Sized) : SizeEvent → Prop
  | .handleResize _ _ resizeOk => resizeOk = true
  | .readOutputs false resizeOk _ => ∀ s, v.session = some s → s.Restores resizeOk
  | _ => True

/-- A poll gives up the first phase while the PTY has another size than the session. -/
def GivesUp (v : Sized) : SizeEvent → Prop
  | .readOutputs false _ false => ∃ s, v.session = some s ∧ s.Stranded
  | _ => False

def Sound (v : Sized) : Prop := v.underflowed = false ∧ ∀ s, v.session = some s → s.Sound

/-- No counter has underflowed, and an active session with nothing to do has a PTY of its size. -/
def Restored (v : Sized) : Prop :=
  v.underflowed = false ∧ ∀ s, v.session = some s →
    (∀ pending sigwinch, s.state = .active pending sigwinch →
      sigwinch.retries ≤ maxSigwinchPhaseAttempts) ∧ s.Settled

theorem restored_iff {v : Sized} (hv : v.Sound) :
    v.Restored ↔ ∀ s, v.session = some s → s.Settled :=
  ⟨fun h s hs => (h.2 s hs).2, fun h => ⟨hv.1, fun s hs => ⟨(hv.2 s hs).retries, h s hs⟩⟩⟩

/-- A step on a session that stays there and is settled. -/
theorem sound_some {v : Sized} {s : SizedSession} (hv : v.Sound) (hs : s.Sound) :
    Sound { v with session := some s } := ⟨hv.1, fun s' hs' => by cases hs'; exact hs⟩

theorem reopen_sound {s : SizedSession} (hs : s.Sound) (history : Bytes) :
    (s.reopen history).Sound ∧ (s.reopen history).Settled := by
  refine ⟨⟨?_, hs.zero, ?_⟩, ?_⟩
  · rintro pending sigwinch hstate
    cases hstate
    exact le_rfl
  · rintro pending ⟨⟩
  · rintro pending ⟨⟩

theorem new_sound (rows cols : UInt16) :
    (SizedSession.new rows cols).Sound ∧ (SizedSession.new rows cols).Settled := by
  refine ⟨⟨?_, fun _ => rfl, fun _ _ => rfl⟩, fun _ _ => rfl⟩
  rintro pending sigwinch hstate
  cases hstate
  exact Nat.zero_le _

theorem handleResize_sound {s : SizedSession} (hs : s.Sound) (rows cols : UInt16) :
    (s.handleResize rows cols true).Sound ∧ (s.handleResize rows cols true).Settled :=
  ⟨⟨hs.retries, fun _ => rfl, fun _ _ => rfl⟩, fun _ _ => rfl⟩

theorem resetStatus_sound {s : SizedSession} (hs : s.Sound) :
    s.resetStatus.Sound ∧ s.resetStatus.Settled :=
  ⟨⟨by rintro pending sigwinch ⟨⟩, hs.zero, by rintro pending ⟨⟩⟩, by rintro pending ⟨⟩⟩

/-- A poll keeps the size, unless it gives up. -/
theorem step_readOutputs_sound {v : Sized} (hv : v.Sound)
    {locked resizeOk removed : Bool} (hworks : v.Works (.readOutputs locked resizeOk removed)) :
    (step v (.readOutputs locked resizeOk removed)).Sound ∧ (v.Restored →
      ((∀ s, (step v (.readOutputs locked resizeOk removed)).session = some s → s.Settled) ↔
        ¬ v.GivesUp (.readOutputs locked resizeOk removed))) := by
  have hset (hres : v.Restored) := (restored_iff hv).mp hres
  cases hsession : v.session with
  | none =>
    have hstep : step v (.readOutputs locked resizeOk removed) = v := by
      rw [step, hsession]
    rw [hstep]
    refine ⟨hv, fun hres => iff_of_true (hset hres) ?_⟩
    cases locked <;> cases removed <;> simp [GivesUp, hsession]
  | some s =>
    cases locked with
    | true =>
      have hstep : step v (.readOutputs true resizeOk removed) = v := by
        rw [step, hsession]
        rfl
      rw [hstep]
      exact ⟨hv, fun hres => iff_of_true (hset hres) id⟩
    | false =>
      obtain ⟨s', hread, hsound, hiff⟩ :=
        readOutputs_settled (hv.2 s hsession) (hworks s hsession)
      have hstep : step v (.readOutputs false resizeOk removed) =
          { v with session := if removed then none else some s' } := by
        rw [step, hsession]
        dsimp only
        rw [if_neg (by simp), hread]
      rw [hstep]
      cases removed with
      | true => exact ⟨⟨hv.1, by rintro _ ⟨⟩⟩, fun _ => iff_of_true (by rintro _ ⟨⟩) id⟩
      | false =>
        refine ⟨sound_some hv hsound, fun hres => ?_⟩
        simp [GivesUp, hsession, hiff (hset hres s hsession)]

theorem step_sound {v : Sized} (hv : v.Sound) (e : SizeEvent) (hworks : v.Works e) :
    (step v e).Sound ∧ (v.Restored →
      ((∀ s, (step v e).session = some s → s.Settled) ↔ ¬ v.GivesUp e)) := by
  have hset (hres : v.Restored) := (restored_iff hv).mp hres
  -- What becomes of a session by an event that is no poll.
  have hmap (f : SizedSession → SizedSession)
      (hf : ∀ s, s.Sound → (f s).Sound ∧ (f s).Settled) :
      Sound { v with session := v.session.map f } ∧
        ∀ s, v.session.map f = some s → s.Settled := by
    refine ⟨⟨hv.1, fun s hs => ?_⟩, fun s hs => ?_⟩
    · obtain ⟨s0, hs0, rfl⟩ := Option.map_eq_some_iff.mp hs
      exact (hf s0 (hv.2 s0 hs0)).1
    · obtain ⟨s0, hs0, rfl⟩ := Option.map_eq_some_iff.mp hs
      exact (hf s0 (hv.2 s0 hs0)).2
  cases e with
  | handleOpen rows cols history opens =>
    have hone (s : SizedSession) (hs : s.Sound ∧ s.Settled) :
        Sound { v with session := some s } ∧
          (v.Restored → ((∀ s', some s = some s' → s'.Settled) ↔ ¬ False)) :=
      ⟨sound_some hv hs.1, fun _ => iff_of_true (by rintro s' ⟨⟩; exact hs.2) id⟩
    cases hsession : v.session with
    | some s =>
      rw [step, hsession]
      exact hone _ (reopen_sound (hv.2 s hsession) history)
    | none =>
      rw [step, hsession]
      cases opens with
      | true => exact hone _ (new_sound _ _)
      | false => exact ⟨hv, fun hres => iff_of_true (hset hres) id⟩
  | handleResize rows cols resizeOk =>
    obtain rfl : resizeOk = true := hworks
    obtain ⟨hsound, hall⟩ := hmap _ fun s hs =>
      handleResize_sound hs rows.toUInt16 cols.toUInt16
    exact ⟨hsound, fun _ => iff_of_true hall id⟩
  | resetStatus =>
    obtain ⟨hsound, hall⟩ := hmap _ fun s hs => resetStatus_sound hs
    exact ⟨hsound, fun _ => iff_of_true hall id⟩
  | readOutputs locked resizeOk removed => exact step_readOutputs_sound hv hworks

/-- In every run in which client resizes and one of three attempts to set the PTY back work, no
    counter underflows and an active session with nothing to do has a PTY of its size, precisely
    if no poll gives up the first phase while the PTY has another size. -/
theorem size_restored_iff (es : List SizeEvent) (hworks : Along step Works .start es) :
    Always step Restored .start es ↔ Along step (fun v e => ¬ v.GivesUp e) .start es := by
  have hstart : Sound .start := ⟨rfl, by rintro _ ⟨⟩⟩
  refine always_iff_along_of (I := Sound) (E := Works) (fun v e hv he => (step_sound hv e he).1)
    ?_ hstart ⟨rfl, by rintro _ ⟨⟩⟩ hworks
  intro v e hv he hres
  obtain ⟨hsound, hiff⟩ := step_sound hv e he
  exact (restored_iff hsound).trans (hiff hres)

/-- A client that reconnects between the two phases. -/
def interrupted : List SizeEvent :=
  [.handleOpen 24 80 [] true, .resetStatus, .handleOpen 24 80 [] true,
    .readOutputs false true false, .resetStatus, .handleOpen 24 80 [] true]

theorem size_restored_iff_interrupted :
    Always step Restored .start
      (interrupted ++ [.readOutputs false true false, .readOutputs false true false]) := by
  refine (size_restored_iff _ ?_).mpr ?_
  · refine ⟨trivial, trivial, trivial, ?_, trivial, trivial, ?_, ?_, trivial⟩
    · rintro s ⟨⟩ pending ⟨⟩
    · rintro s ⟨⟩ pending ⟨⟩
    · rintro s ⟨⟩ pending ⟨⟩
  · refine ⟨id, id, id, ?_, id, id, ?_, ?_, trivial⟩
    · rintro ⟨s, ⟨⟩, pending, ⟨⟩, _⟩
    · rintro ⟨s, ⟨⟩, pending, ⟨⟩, _⟩
    · rintro ⟨s, ⟨⟩, pending, ⟨⟩, _⟩

/-- The first phase then fails three times: the session is idle, and the PTY has 23 rows. -/
theorem size_not_restored :
    ¬ ∀ es : List SizeEvent, Along step Works .start es → Always step Restored .start es := by
  intro hall
  have hworks : Along step Works .start (interrupted ++
      [.readOutputs false false false, .readOutputs false false false,
        .readOutputs false false false, .readOutputs false true false]) := by
    refine ⟨trivial, trivial, trivial, ?_, trivial, trivial, ?_, ?_, ?_, ?_, trivial⟩
    · rintro s ⟨⟩ pending ⟨⟩
    · rintro s ⟨⟩ pending ⟨⟩
    · rintro s ⟨⟩ pending ⟨⟩
    · rintro s ⟨⟩ pending ⟨⟩
    · rintro s ⟨⟩ pending ⟨⟩
  have hlast := (hall _ hworks).last
  have hend : (run step .start (interrupted ++
      [.readOutputs false false false, .readOutputs false false false,
        .readOutputs false false false, .readOutputs false true false])).session =
      some ⟨24, 80, ⟨23, 80⟩, .active none .idle⟩ := by decide
  exact absurd ((hlast.2 _ hend).2 none rfl) (by decide)

end Sized

end Terminal
end LuodaRemote
