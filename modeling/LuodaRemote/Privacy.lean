/-
  Privacy mode of the controlled machine: one implementation object, replaced when another one is
  asked for, whose `conn_id` is the connection that owns the mode.

  A request is two steps. The first takes the lock and asks the implementation (in a thread of its
  own if that is slow, with a handler that waits for it up to 7.5 seconds); the second tells the
  peer, and after an error turns off what is on. What other connections do in between is up to
  the run. `PlatformCalls` is how the calls of the operating system turn out, and what is
  installed when they are made.

  At any time one connection at most owns the mode, and a peer whose request failed is told in
  words it takes for off. But the turning off after an error is done with the id that may turn
  off anybody's mode: `owner_kept_iff` says that this is the only request of a connection that
  takes the mode from another. A request made while somebody else has the mode always ends so.

  What the calls do to the screen is left out, and so is telling the connection manager, which no
  request of a connection asks for.

  Source: `src/privacy_mode.rs` with the implementations in `macos.rs`, `win_topmost_window.rs` and
  `win_virtual_display.rs`; `turn_on_privacy`, `turn_off_privacy`, `turn_off_privacy_to_msg` and the
  end of the main loop of `src/server/connection.rs`; what a peer makes of the answer is
  `handle_back_msg_privacy_mode` of `src/client/io_loop.rs`.
-/
import LuodaRemote.Lib.Run

namespace LuodaRemote

open Lib

/-! ## Implementations -/

def invalidPrivacyModeConnId : Int := 0

/-- The id of a connection, which is never the invalid one. -/
abbrev ConnId := { id : Int // id ≠ invalidPrivacyModeConnId }

inductive PrivacyModeKind where
  | macos
  /-- The window on top of all others, of the magnifier and of `exclude_from_capture`. -/
  | topmostWindow
  | virtualDisplay
  deriving DecidableEq

structure PrivacyModeImpl where
  implKey : String
  kind : PrivacyModeKind
  connId : Int := invalidPrivacyModeConnId
  deriving DecidableEq

/-- What a call finds and how the calls of the platform end. -/
structure PlatformCalls where
  /-- The keys of `get_supported_privacy_mode_impl`. -/
  supported : List String
  /-- `get_option("privacy-mode-impl-key")`. -/
  optionKey : String
  /-- `is_amyuni_idd`. -/
  isAmyuniIdd : Bool := false
  /-- `is_virtual_display_supported`. -/
  virtualDisplaySupported : Bool := true
  /-- Turning on, once the checks are passed; `ok false` for a missing plugin. -/
  turnOn : Except String Bool
  turnOff : Except String Unit
  /-- The text of `check_privacy_mode_err`. -/
  check : String := ""

/-- What is fixed for the process. -/
structure PrivacyHost where
  /-- `PRIVACY_MODE_CREATOR`. -/
  creator : String → Option PrivacyModeKind
  /-- `DEFAULT_PRIVACY_MODE_IMPL`. -/
  defaultImpl : String

namespace PrivacyModeImpl

def checkOnConnId (connId : Int) (m : PrivacyModeImpl) : Except String Bool :=
  if m.connId = connId then .ok true
  else if m.connId ≠ invalidPrivacyModeConnId then .error "Privacy occupied by another one."
  else .ok false

def checkOffConnId (connId : Int) (m : PrivacyModeImpl) : Except String Unit :=
  if m.connId ≠ invalidPrivacyModeConnId ∧ connId ≠ invalidPrivacyModeConnId ∧
      m.connId ≠ connId then
    .error "Failed to turn off privacy mode that belongs to someone else."
  else .ok ()

/-- `turn_on_privacy` of the three. -/
def turnOnPrivacy (calls : PlatformCalls) (connId : Int) (m : PrivacyModeImpl) :
    Except String Bool × PrivacyModeImpl :=
  if m.kind = .virtualDisplay ∧ calls.virtualDisplaySupported = false then
    (.error "idd_not_support_under_win10_2004_tip", m)
  else match m.checkOnConnId connId with
    | .error e => (.error e, m)
    | .ok true => (.ok true, m)
    | .ok false =>
      match calls.turnOn with
      | .ok true => (.ok true, { m with connId := connId })
      -- what was begun is undone for nobody: `conn_id` is still the invalid one
      | res => (res, m)

/-- `turn_off_privacy` of the three. -/
def turnOffPrivacy (res : Except String Unit) (connId : Int) (m : PrivacyModeImpl) :
    Except String Unit × PrivacyModeImpl :=
  match m.checkOffConnId connId, res with
  | .error e, _ => (.error e, m)
  | .ok (), .error e => (.error e, m)
  | .ok (), .ok () => (.ok (), { m with connId := invalidPrivacyModeConnId })

end PrivacyModeImpl

/-! ## The lock -/

/-- `PRIVACY_MODE`. -/
abbrev PrivacyLock := Option PrivacyModeImpl

namespace PrivacyLock

variable (h : PrivacyHost) (calls : PlatformCalls)

/-- `get_supported_impl`: the key, else the option, else the default. -/
def getSupportedImpl (implKey : String) : String :=
  if implKey ∈ calls.supported then implKey
  else if calls.optionKey ∈ calls.supported then calls.optionKey
  else h.defaultImpl

/-- Another implementation, for nobody yet. The one that was there is turned off when it goes,
    if the platform lets it. -/
def create (implKey : String) : Option PrivacyModeImpl :=
  (h.creator implKey).map fun kind => { implKey := implKey, kind := kind }

def isAsyncPrivacyMode (lock : PrivacyLock) : Bool :=
  lock.any fun m => m.kind == .virtualDisplay && calls.isAmyuniIdd

/-- `turn_on_privacy_sync`. -/
def turnOnPrivacySync (implKey : String) (connId : Int) (lock : PrivacyLock) :
    Option (Except String Bool) × PrivacyLock :=
  let implKey := getSupportedImpl h calls implKey
  let curImplKey := (lock.map (·.implKey)).getD ""
  match lock.map (PrivacyModeImpl.checkOnConnId connId) with
  | some (.error e) => (some (.error e), lock)
  | check =>
    -- same peer, same implementation
    if check = some (.ok true) ∧ curImplKey = implKey then (some (.ok true), lock)
    else
      let replaced : Except String PrivacyLock :=
        if curImplKey = implKey then .ok lock
        else match create h implKey with
          | some m => .ok (some m)
          | none => .error ("Unsupported privacy mode: " ++ implKey)
      match replaced with
      | .error e => (some (.error e), lock)
      | .ok none => (none, none)
      | .ok (some m) =>
        (some (m.turnOnPrivacy calls connId).1, some (m.turnOnPrivacy calls connId).2)

def turnOffPrivacy (connId : Int) (lock : PrivacyLock) :
    Option (Except String Unit) × PrivacyLock :=
  match lock with
  | some m =>
    (some (m.turnOffPrivacy calls.turnOff connId).1,
      some (m.turnOffPrivacy calls.turnOff connId).2)
  | none => (none, none)

/-- `switch`, when the option changes. -/
def switch (implKey : String) (lock : PrivacyLock) : PrivacyLock :=
  if lock.any (·.implKey == implKey) then lock
  else match create h implKey with
    | some m => some m
    | none => lock

def isInPrivacyMode (lock : PrivacyLock) : Bool :=
  lock.any (·.connId != invalidPrivacyModeConnId)

def getPrivacyModeConnId (lock : PrivacyLock) : Option Int := lock.map (·.connId)

end PrivacyLock

/-! ## Connections -/

/-- `back_notification::PrivacyModeState`, as far as a request is answered with it. -/
inductive PrivacyNotice where
  | prvNotSupported
  | prvOnSucceeded
  | prvOnFailedPlugin
  | prvOnFailed
  | prvOffSucceeded
  | prvOffFailed
  deriving DecidableEq

/-- The peer takes the mode for off: `update_privacy_mode(_, false)`. -/
def PrivacyNotice.meansOff : PrivacyNotice → Bool
  | prvNotSupported | prvOnFailedPlugin | prvOnFailed | prvOffSucceeded => true
  | prvOnSucceeded | prvOffFailed => false

/-- A notice with its details and the key of the implementation. -/
structure PrivacyMessage where
  notice : PrivacyNotice
  details : String := ""
  implKey : String
  deriving DecidableEq

/-- A connection between the two steps of `turn_on_privacy`. -/
inductive Turning where
  /-- It waits for a thread. -/
  | waiting (implKey : String) (ticket : Nat)
  | done (implKey : String) (res : Option (Except String Bool))

structure PrivacyWorld where
  lock : PrivacyLock
  turning : ConnId → Option Turning := fun _ => none
  /-- The threads that have yet to take the lock. -/
  jobs : List (ConnId × String × Nat) := []
  tickets : Nat := 0
  sent : List (ConnId × PrivacyMessage) := []

inductive PrivacyEvent where
  /-- `turn_on_privacy` up to its outcome, or to the wait for it. -/
  | turnOn (conn : ConnId) (implKey : String) (calls : PlatformCalls)
  /-- The thread at that place of `jobs` takes the lock. -/
  | runJob (i : Nat) (calls : PlatformCalls)
  /-- The 7.5 seconds are over. -/
  | timeout (conn : ConnId)
  /-- The rest of `turn_on_privacy`. -/
  | react (conn : ConnId) (calls : PlatformCalls)
  | turnOff (conn : ConnId) (implKey : String) (calls : PlatformCalls)
  | disconnect (conn : ConnId) (calls : PlatformCalls)
  /-- The option for the implementation is set on this machine. -/
  | switch (implKey : String)

namespace PrivacyWorld

variable (h : PrivacyHost)

def isPrivacyModeSupported : Bool := !h.defaultImpl.isEmpty

def unsupported : String :=
  "Unsupported. 1 Multi-screen is not supported. 2 Please confirm the license is activated."

def send (conn : ConnId) (m : PrivacyMessage) (w : PrivacyWorld) : PrivacyWorld :=
  { w with sent := w.sent ++ [(conn, m)] }

def setTurning (conn : ConnId) (t : Option Turning) (w : PrivacyWorld) : PrivacyWorld :=
  { w with turning := Function.update w.turning conn t }

/-- The message for a mode that would be replaced. The key compared is the one just read, so
    that it is never sent. -/
def offMessage (conn : ConnId) (w : PrivacyWorld) : PrivacyWorld :=
  match w.lock.isInPrivacyMode, w.lock.map (·.implKey) with
  | true, some preImplKey =>
    if w.lock.any (·.implKey == preImplKey) then w
    else w.send conn { notice := .prvOffSucceeded, implKey := preImplKey }
  | _, _ => w

def turnOn (conn : ConnId) (implKey : String) (calls : PlatformCalls) (w : PrivacyWorld) :
    PrivacyWorld :=
  if !isPrivacyModeSupported h then
    w.send conn { notice := .prvNotSupported, details := unsupported, implKey := implKey }
  else
    let w := w.offMessage conn
    if w.lock.isAsyncPrivacyMode calls then
      { w.setTurning conn (some (.waiting implKey w.tickets)) with
        jobs := w.jobs ++ [(conn, implKey, w.tickets)]
        tickets := w.tickets + 1 }
    else
      let (res, lock) := w.lock.turnOnPrivacySync h calls implKey conn.1
      { w.setTurning conn (some (.done implKey res)) with lock := lock }

/-- The thread of a job. Nobody may wait for it any more. -/
def runJob (i : Nat) (calls : PlatformCalls) (w : PrivacyWorld) : PrivacyWorld :=
  match w.jobs[i]? with
  | none => w
  | some (conn, implKey, ticket) =>
    let (res, lock) := w.lock.turnOnPrivacySync h calls implKey conn.1
    let w := { w with lock := lock, jobs := w.jobs.eraseIdx i }
    match w.turning conn with
    | some (.waiting _ t) =>
      if t = ticket then w.setTurning conn (some (.done implKey res)) else w
    | _ => w

def timeout (conn : ConnId) (w : PrivacyWorld) : PrivacyWorld :=
  match w.turning conn with
  | some (.waiting implKey _) =>
    w.setTurning conn (some (.done implKey (some (.error "deadline has elapsed"))))
  | _ => w

/-- `turn_off_privacy_to_msg`: the message, and what is left of the mode. -/
def turnOffPrivacyToMsg (calls : PlatformCalls) (connId : Int) (lock : PrivacyLock) :
    PrivacyMessage × PrivacyLock :=
  match lock.turnOffPrivacy calls connId with
  | (some (.ok ()), lock) => ({ notice := .prvOffSucceeded, implKey := "" }, lock)
  | (some (.error e), lock) => ({ notice := .prvOffFailed, details := e, implKey := "" }, lock)
  | (none, lock) => ({ notice := .prvOffFailed, details := "Not supported", implKey := "" }, lock)

/-- What the peer is told, and what the handler leaves of the mode. -/
def reaction (conn : ConnId) (implKey : String) (calls : PlatformCalls)
    (res : Option (Except String Bool)) (lock : PrivacyLock) : PrivacyMessage × PrivacyLock :=
  match res with
  | some (.ok true) =>
    if calls.check.isEmpty then ({ notice := .prvOnSucceeded, implKey := implKey }, lock)
    else ({ notice := .prvOnFailed, details := calls.check, implKey := implKey },
      (turnOffPrivacyToMsg calls conn.1 lock).2)
  | some (.ok false) => ({ notice := .prvOnFailedPlugin, implKey := implKey }, lock)
  | some (.error e) =>
    ({ notice := .prvOnFailed, details := e, implKey := implKey },
      if lock.isInPrivacyMode then
        (turnOffPrivacyToMsg calls invalidPrivacyModeConnId lock).2
      else lock)
  | none => ({ notice := .prvOffFailed, details := "Not supported", implKey := implKey }, lock)

def react (conn : ConnId) (calls : PlatformCalls) (w : PrivacyWorld) : PrivacyWorld :=
  match w.turning conn with
  | some (.done implKey res) =>
    let (msg, lock) := reaction conn implKey calls res w.lock
    send conn msg { w.setTurning conn none with lock := lock }
  | _ => w

def turnOff (conn : ConnId) (implKey : String) (calls : PlatformCalls) (w : PrivacyWorld) :
    PrivacyWorld :=
  if !isPrivacyModeSupported h then
    w.send conn { notice := .prvNotSupported, details := unsupported, implKey := implKey }
  else
    let (msg, lock) := turnOffPrivacyToMsg calls conn.1 w.lock
    send conn msg { w with lock := lock }

/-- The end of the connection's loop. -/
def disconnect (conn : ConnId) (calls : PlatformCalls) (w : PrivacyWorld) : PrivacyWorld :=
  if w.lock.getPrivacyModeConnId = some conn.1 then
    { w with lock := (turnOffPrivacyToMsg calls conn.1 w.lock).2 }
  else w

/-- A connection does one thing at a time. -/
def step (w : PrivacyWorld) : PrivacyEvent → PrivacyWorld
  | .turnOn conn implKey calls =>
    if (w.turning conn).isSome then w else w.turnOn h conn implKey calls
  | .runJob i calls => w.runJob h i calls
  | .timeout conn => w.timeout conn
  | .react conn calls => w.react conn calls
  | .turnOff conn implKey calls =>
    if (w.turning conn).isSome then w else w.turnOff h conn implKey calls
  | .disconnect conn calls =>
    if (w.turning conn).isSome then w else w.disconnect conn calls
  | .switch implKey => { w with lock := w.lock.switch h implKey }

/-! ## Owners -/

/-- The connection that has the mode. -/
def Owns (w : PrivacyWorld) (conn : ConnId) : Prop := w.lock.getPrivacyModeConnId = some conn.1

instance (w : PrivacyWorld) (conn : ConnId) : Decidable (w.Owns conn) :=
  inferInstanceAs (Decidable (_ = _))

/-- The connection a step is taken for. -/
def actor (w : PrivacyWorld) : PrivacyEvent → Option ConnId
  | .turnOn conn _ _ | .timeout conn | .react conn _ | .turnOff conn _ _ | .disconnect conn _ =>
    some conn
  | .runJob i _ => (w.jobs[i]?).map (·.1)
  | .switch _ => none

def OneOwner (w : PrivacyWorld) : Prop := ∀ a b, w.Owns a → w.Owns b → a = b

/-- A step for one connection leaves the mode to the other that has it. -/
def KeepsOwner (w : PrivacyWorld) (e : PrivacyEvent) : Prop :=
  ∀ b ∈ w.actor e, ∀ a, a ≠ b → w.Owns a → (w.step h e).Owns a

/-- A request that failed is answered with a message that means off; where there is nothing to
    fail, it left things as they were. -/
def FailureTold (w : PrivacyWorld) (e : PrivacyEvent) : Prop :=
  match e with
  | .react conn calls => ∀ implKey res, w.turning conn = some (.done implKey (some res)) →
      (res ≠ .ok true ∨ calls.check ≠ "") →
      ∃ msg, (w.step h e).sent = w.sent ++ [(conn, msg)] ∧ msg.notice.meansOff = true
  | .turnOn conn implKey _ => w.turning conn = none →
      (isPrivacyModeSupported h = false ∨
        (w.step h e).turning conn = some (.done implKey none)) →
      (w.step h e).lock = w.lock
  | _ => True

/-- After an error nobody else has the mode, or the platform does not turn it off. -/
def ErrorIsOwn (w : PrivacyWorld) (e : PrivacyEvent) : Prop :=
  match e with
  | .react conn calls => ∀ implKey err,
      w.turning conn = some (.done implKey (some (.error err))) → calls.turnOff = .ok () →
      ∀ a, a ≠ conn → ¬ w.Owns a
  | _ => True

theorem oneOwner (w : PrivacyWorld) : w.OneOwner := by
  intro a b ha hb
  exact Subtype.ext (Option.some.inj (ha.symm.trans hb))

/-! ## What a step does to the mode of another -/

section

variable {h} {w : PrivacyWorld} {a b : ConnId} {calls : PlatformCalls}

/-- The mode is on for `a`. -/
theorem Owns.impl (ha : w.Owns a) : ∃ m, w.lock = some m ∧ m.connId = a.1 := by
  unfold Owns PrivacyLock.getPrivacyModeConnId at ha
  exact Option.map_eq_some_iff.mp ha

theorem turnOnPrivacySync_other (ha : w.Owns a) (hne : a ≠ b) (implKey : String) :
    w.lock.turnOnPrivacySync h calls implKey b.1 =
      (some (.error "Privacy occupied by another one."), w.lock) := by
  obtain ⟨m, hlock, hconn⟩ := ha.impl
  have hcheck : m.checkOnConnId b.1 = .error "Privacy occupied by another one." := by
    unfold PrivacyModeImpl.checkOnConnId
    rw [if_neg, if_pos]
    · rw [hconn]
      exact a.2
    · rw [hconn]
      exact fun h => hne (Subtype.ext h)
  rw [hlock]
  simp only [PrivacyLock.turnOnPrivacySync, Option.map_some, hcheck]

theorem turnOffPrivacyToMsg_other (ha : w.Owns a) (hne : a ≠ b) :
    (turnOffPrivacyToMsg calls b.1 w.lock).2 = w.lock := by
  obtain ⟨m, hlock, hconn⟩ := ha.impl
  have hcheck : m.checkOffConnId b.1 =
      .error "Failed to turn off privacy mode that belongs to someone else." := by
    unfold PrivacyModeImpl.checkOffConnId
    refine if_pos ⟨?_, b.2, ?_⟩
    · rw [hconn]
      exact a.2
    · rw [hconn]
      exact fun h => hne (Subtype.ext h)
  rw [hlock]
  simp only [turnOffPrivacyToMsg, PrivacyLock.turnOffPrivacy, PrivacyModeImpl.turnOffPrivacy,
    hcheck]

/-- With the invalid id, the mode is turned off whoever has it. -/
theorem turnOffPrivacyToMsg_anybody (ha : w.Owns a) :
    (turnOffPrivacyToMsg calls invalidPrivacyModeConnId w.lock).2.getPrivacyModeConnId =
        some a.1 ↔
      calls.turnOff ≠ .ok () := by
  obtain ⟨m, hlock, hconn⟩ := ha.impl
  have hcheck : m.checkOffConnId invalidPrivacyModeConnId = .ok () := by
    unfold PrivacyModeImpl.checkOffConnId
    exact if_neg fun h => h.2.1 rfl
  rw [hlock]
  simp only [turnOffPrivacyToMsg, PrivacyLock.turnOffPrivacy, PrivacyModeImpl.turnOffPrivacy,
    hcheck]
  cases hoff : calls.turnOff with
  | ok u =>
    refine iff_of_false ?_ (fun h => h rfl)
    intro h
    exact a.2 (Option.some.inj h).symm
  | error e =>
    refine iff_of_true ?_ (by simp)
    show some m.connId = some a.1
    rw [hconn]

theorem lock_offMessage (conn : ConnId) (w : PrivacyWorld) : (w.offMessage conn).lock = w.lock := by
  unfold offMessage
  split
  · split
    · rfl
    · rfl
  · rfl

theorem owns_of_lock {w' : PrivacyWorld} (hlock : w'.lock = w.lock) (ha : w.Owns a) :
    w'.Owns a := by
  unfold Owns
  rw [hlock]
  exact ha

theorem lock_turnOn (ha : w.Owns a) (hne : a ≠ b) (implKey : String) :
    (w.turnOn h b implKey calls).lock = w.lock := by
  unfold turnOn
  split
  · rfl
  · dsimp only
    split
    · exact lock_offMessage b w
    · have hoff : (w.offMessage b).Owns a := owns_of_lock (lock_offMessage b w) ha
      rw [turnOnPrivacySync_other hoff hne]
      exact lock_offMessage b w

theorem lock_runJob (i : Nat) (calls : PlatformCalls) {implKey : String} {ticket : Nat}
    (hjob : w.jobs[i]? = some (b, implKey, ticket)) (ha : w.Owns a) (hne : a ≠ b) :
    (w.runJob h i calls).lock = w.lock := by
  unfold runJob
  rw [hjob]
  dsimp only
  rw [turnOnPrivacySync_other ha hne]
  split
  · split
    · rfl
    · rfl
  · rfl

theorem lock_timeout (conn : ConnId) (w : PrivacyWorld) : (w.timeout conn).lock = w.lock := by
  unfold timeout
  split
  · rfl
  · rfl

/-- Only after an error does an answer touch the mode of another. -/
theorem owns_react_iff (ha : w.Owns a) (hne : a ≠ b) :
    (w.react b calls).Owns a ↔
      ∀ implKey err, w.turning b = some (.done implKey (some (.error err))) →
        calls.turnOff ≠ .ok () := by
  unfold react
  cases hturning : w.turning b with
  | none => exact iff_of_true ha (by simp)
  | some t =>
    cases t with
    | waiting implKey ticket => exact iff_of_true ha (by simp)
    | done implKey res =>
      cases res with
      | none => exact iff_of_true ha (by simp)
      | some res =>
        cases res with
        | ok on =>
          refine iff_of_true ?_ (by simp)
          cases on with
          | false => exact ha
          | true =>
            unfold reaction
            dsimp only
            split
            · exact ha
            · show (turnOffPrivacyToMsg calls b.1 w.lock).2.getPrivacyModeConnId = _
              rw [turnOffPrivacyToMsg_other ha hne]
              exact ha
        | error err =>
          have hon : w.lock.isInPrivacyMode = true := by
            obtain ⟨m, hlock, hconn⟩ := ha.impl
            rw [hlock]
            simp [PrivacyLock.isInPrivacyMode, hconn, a.2]
          unfold reaction
          dsimp only
          rw [hon, if_pos rfl]
          refine (@turnOffPrivacyToMsg_anybody w a calls ha).trans ?_
          constructor
          · intro hoff _ _ _
            exact hoff
          · intro hoff
            exact hoff implKey err rfl

theorem keepsOwner_iff (h : PrivacyHost) (w : PrivacyWorld) (e : PrivacyEvent) :
    w.KeepsOwner h e ↔ w.ErrorIsOwn e := by
  cases e with
  | turnOn conn implKey calls =>
    refine iff_of_true (fun b hb a hne ha => ?_) trivial
    cases hb
    simp only [step]
    split
    · exact ha
    · exact owns_of_lock (lock_turnOn ha hne implKey) ha
  | runJob i calls =>
    refine iff_of_true (fun b hb a hne ha => ?_) trivial
    obtain ⟨⟨conn, implKey, ticket⟩, hjob, rfl⟩ := Option.map_eq_some_iff.mp hb
    exact owns_of_lock (lock_runJob (h := h) i calls hjob ha hne) ha
  | timeout conn =>
    exact iff_of_true (fun b _ a _ ha => owns_of_lock (lock_timeout conn w) ha) trivial
  | react conn calls =>
    constructor
    · intro hkeeps implKey err hturning hoff a hne ha
      exact (owns_react_iff ha hne).mp (hkeeps conn rfl a hne ha) implKey err hturning hoff
    · intro herror b hb a hne ha
      cases hb
      refine (owns_react_iff ha hne).mpr fun implKey err hturning hoff => ?_
      exact herror implKey err hturning hoff a hne ha
  | turnOff conn implKey calls =>
    refine iff_of_true (fun b hb a hne ha => ?_) trivial
    cases hb
    simp only [step]
    split
    · exact ha
    · unfold turnOff
      split
      · exact ha
      · exact owns_of_lock (turnOffPrivacyToMsg_other ha hne) ha
  | disconnect conn calls =>
    refine iff_of_true (fun b hb a hne ha => ?_) trivial
    cases hb
    simp only [step]
    split
    · exact ha
    · unfold disconnect
      rw [if_neg]
      · exact ha
      · intro hown
        exact hne (w.oneOwner a conn ha hown)
  | switch implKey => exact iff_of_true (fun b hb => by cases hb) trivial

/-- Only where there is no implementation does a request come to nothing, and then it did
    nothing. -/
theorem turnOnPrivacySync_none {implKey : String} {connId : Int} {lock lock' : PrivacyLock}
    (hres : lock.turnOnPrivacySync h calls implKey connId = (none, lock')) : lock' = lock := by
  unfold PrivacyLock.turnOnPrivacySync at hres
  dsimp only at hres
  split at hres
  · cases hres
  · split at hres
    · cases hres
    · split at hres
      · cases hres
      · rename_i hreplaced
        cases hres
        -- what is created is never nothing
        split at hreplaced
        · exact (Except.ok.inj hreplaced).symm
        · split at hreplaced
          · cases hreplaced
          · cases hreplaced
      · cases hres

theorem sent_react {implKey : String} {res : Except String Bool}
    (hturning : w.turning b = some (.done implKey (some res))) :
    (w.react b calls).sent = w.sent ++ [(b, (reaction b implKey calls (some res) w.lock).1)] := by
  unfold react
  rw [hturning]
  rfl

theorem meansOff_reaction (implKey : String) {res : Except String Bool} (lock : PrivacyLock)
    (hfailed : res ≠ .ok true ∨ calls.check ≠ "") :
    (reaction b implKey calls (some res) lock).1.notice.meansOff = true := by
  cases res with
  | error e => rfl
  | ok on =>
    cases on with
    | false => rfl
    | true =>
      have hcheck : calls.check.isEmpty = false := by
        simpa using hfailed
      unfold reaction
      dsimp only
      rw [hcheck]
      rfl

theorem failureTold (h : PrivacyHost) (w : PrivacyWorld) (e : PrivacyEvent) :
    w.FailureTold h e := by
  cases e with
  | react conn calls =>
    intro implKey res hturning hfailed
    exact ⟨_, sent_react hturning, meansOff_reaction implKey w.lock hfailed⟩
  | turnOn conn implKey calls =>
    show w.turning conn = none → _ ∨ (w.step h _).turning conn = _ → _
    intro hidle hfailed
    simp only [step, hidle, Option.isSome_none, Bool.false_eq_true, if_false] at hfailed ⊢
    unfold turnOn at hfailed ⊢
    split
    · rfl
    · rename_i hsupported
      have hdone := hfailed.resolve_left (by simpa using hsupported)
      rw [if_neg hsupported] at hdone
      dsimp only at hdone ⊢
      split
      · exact lock_offMessage conn w
      · rename_i hasync
        rw [if_neg hasync] at hdone
        have hnone : ((w.offMessage conn).lock.turnOnPrivacySync h calls implKey conn.1).1 =
            none := by
          simpa [setTurning] using hdone
        exact (turnOnPrivacySync_none (Prod.ext hnone rfl)).trans (lock_offMessage conn w)
  | runJob => trivial
  | timeout => trivial
  | turnOff => trivial
  | disconnect => trivial
  | switch => trivial

end

/-! ## Whole runs -/

/-- In a run, one connection at most has the mode, and a failed request is answered with a message
    that means off, or changed nothing. The mode stays with who has it, against the requests of
    all others, exactly if no error was answered while it was somebody else's and could be turned
    off. -/
theorem owner_kept_iff (h : PrivacyHost) (w : PrivacyWorld) (es : List PrivacyEvent) :
    Along (step h) (fun w e => w.OneOwner ∧ w.KeepsOwner h e ∧ w.FailureTold h e) w es ↔
      Along (step h) ErrorIsOwn w es := by
  constructor
  · intro hkept
    exact hkept.mono fun w e hw => (keepsOwner_iff h w e).mp hw.2.1
  · intro hown
    exact hown.mono fun w e hw => ⟨w.oneOwner, (keepsOwner_iff h w e).mpr hw, failureTold h w e⟩

/-- A Mac, and a platform where everything goes well. -/
def mac : PrivacyHost where
  creator key := if key = "privacy_mode_impl_macos" then some .macos else none
  defaultImpl := "privacy_mode_impl_macos"

def allWell : PlatformCalls where
  supported := ["privacy_mode_impl_macos"]
  optionKey := ""
  turnOn := .ok true
  turnOff := .ok ()

def peerA : ConnId := ⟨1, by decide⟩

def peerB : ConnId := ⟨2, by decide⟩

/-- The peer of connection 1 has the mode on; that of connection 2 asks for it too and is refused.
    Nobody has the mode then, and the first peer was told nothing but that it is on. -/
theorem refused_request_turns_off :
    let w := run (step mac) { lock := some { implKey := mac.defaultImpl, kind := .macos } }
      [.turnOn peerA "" allWell, .react peerA allWell]
    let es : List PrivacyEvent := [.turnOn peerB "" allWell, .react peerB allWell]
    w.Owns peerA ∧ ¬ Along (step mac) (KeepsOwner mac) w es ∧
      (run (step mac) w es).lock.isInPrivacyMode = false ∧
      (run (step mac) w es).sent =
        [(peerA, { notice := .prvOnSucceeded, implKey := "" }),
          (peerB, { notice := .prvOnFailed, details := "Privacy occupied by another one.",
                    implKey := "" })] := by
  refine ⟨by decide, ?_, by decide, by decide⟩
  intro hkept
  have hstep : KeepsOwner mac _ (.react peerB allWell) := hkept.2.1
  have howns := hstep peerB rfl peerA (by decide) (by decide)
  revert howns
  decide

end PrivacyWorld

end LuodaRemote
