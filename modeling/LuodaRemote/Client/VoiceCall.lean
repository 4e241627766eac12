/-
  The two ends of a voice call: the client's loop (`src/client/io_loop.rs`), which records while a
  call is on, and the connection on the controlled side, whose part `Call` has.

  The client asks with a timestamp and takes an answer only if it carries the timestamp of its last
  request; either side may hang up. `ends_agree`: with whatever else goes on at the controlled side,
  once all that was said has arrived the client records precisely while the controlled side has
  the call on, and it shows its user as much. This takes a user who asks only while no request is
  open and no call is on, and hangs up only while no request is open (`Patient`).
  `close_voice_call` forgets neither side's request, so that an answer to a request that was given
  up still starts a recorder; and a refusal of a second request ends the call on one side only.
  `recorded_on_consent` is what holds of any user and any peer: a recorder that runs was asked for,
  was accepted, and nobody has hung up.

  A recorder is a thread that looks at its channel before each frame; the frames are left out.
-/
import LuodaRemote.Connection.CameraCall

namespace LuodaRemote
open Lib

/-! ## The client's loop -/

/-- The last `on_voice_call_*` that the user interface has got. -/
inductive VoiceCallStatus where
  | waiting
  | started
  | closed (reason : String)
  deriving DecidableEq

structure VoiceCaller where
  voiceCallRequestTimestamp : Option Int := none
  /-- The recorder at the other end of the channel. -/
  stopVoiceCallSender : Option ℕ := none
  /-- The recorders that are subscribed to the audio service of the client. -/
  recorders : List ℕ := []
  newId : ℕ := 0
  status : Option VoiceCallStatus := none
  deriving DecidableEq

namespace VoiceCaller

/-- `records` is false of file transfers, port forwards and terminals, and on iOS. A recorder whose
    sender is replaced has lost it. -/
def startVoiceCall (records : Bool) (c : VoiceCaller) : VoiceCaller :=
  if records then
    { c with
      newId := c.newId + 1
      recorders := c.recorders ++ [c.newId]
      stopVoiceCallSender := some c.newId }
  else { c with stopVoiceCallSender := none }

/-- `Data::NewVoiceCall`; `time` and `now` are read from the clock. -/
def newVoiceCall (time now : Int) (c : VoiceCaller) : VoiceCaller × Message :=
  ({ c with
      voiceCallRequestTimestamp := some (if time = 0 then now else time)
      status := some .waiting },
    .voiceCallRequest true time)

/-- `Data::CloseVoiceCall`. -/
def closeVoiceCall (time : Int) (c : VoiceCaller) : VoiceCaller × Message :=
  ({ c with
      stopVoiceCallSender := none
      status := some (.closed "Closed manually by the peer") },
    .voiceCallRequest false time)

def onVoiceCallResponse (records : Bool) (reqTimestamp : Int) (accepted : Bool) (c : VoiceCaller) :
    VoiceCaller :=
  let c' := { c with voiceCallRequestTimestamp := none }
  match c.voiceCallRequestTimestamp with
  | none => c'
  | some ts =>
    if reqTimestamp ≠ ts then c'
    else if accepted then { c'.startVoiceCall records with status := some .started }
    else { c' with status := some (.closed "") }

def onMessage (records : Bool) (c : VoiceCaller) : Outgoing → VoiceCaller
  | .voiceCallRequest isConnect =>
    if !isConnect && c.stopVoiceCallSender.isSome then
      { c with stopVoiceCallSender := none, status := some (.closed "") }
    else c
  | .voiceCallResponse reqTimestamp accepted => c.onVoiceCallResponse records reqTimestamp accepted
  | _ => c

/-- A recorder looks at its channel, and ends if it was stopped or nobody can stop it any more. -/
def recorderTurn (n : ℕ) (c : VoiceCaller) : VoiceCaller :=
  if c.stopVoiceCallSender = some n then c else { c with recorders := c.recorders.erase n }

end VoiceCaller

/-! ## Any user and any peer -/

inductive VoiceCallerAct where
  | newVoiceCall (time now : Int)
  | closeVoiceCall (time : Int)
  | message (m : Outgoing)
  | recorderTurn (n : ℕ)
  deriving DecidableEq

namespace VoiceCaller

variable {records : Bool}

def step (records : Bool) (c : VoiceCaller) : VoiceCallerAct → VoiceCaller
  | .newVoiceCall time now => (c.newVoiceCall time now).1
  | .closeVoiceCall time => (c.closeVoiceCall time).1
  | .message m => c.onMessage records m
  | .recorderTurn n => c.recorderTurn n

/-- Something that a request does not outlive. -/
def answers : VoiceCallerAct → Bool
  | .newVoiceCall _ _ | .message (.voiceCallResponse _ _) => true
  | _ => false

/-- Something that a call does not outlive. -/
def hangsUp : VoiceCallerAct → Bool
  | .closeVoiceCall _ | .message (.voiceCallRequest false) => true
  | _ => false

/-- The user has asked, and nothing has come of it. -/
def Asked (ts : Int) (xs : List VoiceCallerAct) : Prop :=
  ∃ before time now mid, xs = before ++ .newVoiceCall time now :: mid ∧
    ts = (if time = 0 then now else time) ∧ mid.all (!answers ·)

/-- The user has asked, the peer has accepted, and neither has hung up. -/
def Consented (xs : List VoiceCallerAct) : Prop :=
  ∃ asking ts talk, xs = asking ++ .message (.voiceCallResponse ts true) :: talk ∧
    Asked ts asking ∧ talk.all (!hangsUp ·)

theorem Asked.snoc {ts : Int} {xs : List VoiceCallerAct} {x : VoiceCallerAct} (h : Asked ts xs)
    (hx : answers x = false) : Asked ts (xs ++ [x]) := by
  obtain ⟨before, time, now, mid, rfl, hts, hmid⟩ := h
  refine ⟨before, time, now, mid ++ [x], by simp, hts, ?_⟩
  rw [List.all_append, hmid]
  simp [hx]

theorem Consented.snoc {xs : List VoiceCallerAct} {x : VoiceCallerAct} (h : Consented xs)
    (hx : hangsUp x = false) : Consented (xs ++ [x]) := by
  obtain ⟨asking, ts, talk, rfl, hasked, htalk⟩ := h
  refine ⟨asking, ts, talk ++ [x], by simp, hasked, ?_⟩
  rw [List.all_append, htalk]
  simp [hx]

/-- What the client knows of a call is what has happened. -/
def Traced (c : VoiceCaller) (xs : List VoiceCallerAct) : Prop :=
  (∀ ts, c.voiceCallRequestTimestamp = some ts → Asked ts xs) ∧
    (c.stopVoiceCallSender.isSome = true → Consented xs)

theorem traced_snoc {c : VoiceCaller} {xs : List VoiceCallerAct} (hc : Traced c xs)
    (x : VoiceCallerAct) : Traced (c.step records x) (xs ++ [x]) := by
  -- Most steps neither answer nor hang up.
  have hsame : ∀ c' : VoiceCaller, c'.voiceCallRequestTimestamp = c.voiceCallRequestTimestamp →
      c'.stopVoiceCallSender = c.stopVoiceCallSender → answers x = false → hangsUp x = false →
      Traced c' (xs ++ [x]) := by
    intro c' hts hstop hanswer hhang
    refine ⟨fun ts h => (hc.1 ts (hts ▸ h)).snoc hanswer, fun h => (hc.2 ?_).snoc hhang⟩
    rw [← hstop]
    exact h
  cases x with
  | newVoiceCall time now =>
    refine ⟨fun ts h => ⟨xs, time, now, [], rfl, (Option.some.inj h).symm, rfl⟩, fun h => ?_⟩
    exact (hc.2 h).snoc rfl
  | closeVoiceCall time =>
    refine ⟨fun ts h => (hc.1 ts h).snoc rfl, fun h => ?_⟩
    cases h
  | recorderTurn n =>
    refine hsame _ ?_ ?_ rfl rfl <;> unfold step recorderTurn <;> dsimp only <;> split <;> rfl
  | message m =>
    cases m with
    | voiceCallRequest isConnect =>
      cases isConnect with
      | true => exact hsame _ rfl rfl rfl rfl
      | false =>
        change Traced (if c.stopVoiceCallSender.isSome = true then _ else c) _
        split
        · exact ⟨fun ts h => (hc.1 ts h).snoc rfl, fun h => by cases h⟩
        · rename_i hstop
          exact ⟨fun ts h => (hc.1 ts h).snoc rfl, fun h => absurd h hstop⟩
    | voiceCallResponse reqTimestamp accepted =>
      have hkept : ∀ c' : VoiceCaller, c'.voiceCallRequestTimestamp = none →
          c'.stopVoiceCallSender = c.stopVoiceCallSender →
          Traced c' (xs ++ [.message (.voiceCallResponse reqTimestamp accepted)]) := by
        intro c' hnone hstop
        refine ⟨fun ts h => (Option.some_ne_none ts (h.symm.trans hnone)).elim, fun h => ?_⟩
        rw [hstop] at h
        exact (hc.2 h).snoc rfl
      change Traced (c.onVoiceCallResponse records reqTimestamp accepted) _
      unfold onVoiceCallResponse
      dsimp only
      split
      · exact hkept _ rfl rfl
      · rename_i ts hts
        split_ifs with hne hacc
        · exact hkept _ rfl rfl
        · obtain rfl : reqTimestamp = ts := not_not.mp hne
          subst hacc
          refine ⟨fun ts h => ?_, fun _ => ⟨xs, reqTimestamp, [], rfl, hc.1 _ hts, rfl⟩⟩
          unfold startVoiceCall at h
          split at h <;> cases h
        · exact hkept _ rfl rfl
    | _ => exact hsame _ rfl rfl rfl rfl

theorem traced_run (xs : List VoiceCallerAct) : Traced (run (step records) {} xs) xs := by
  induction xs using List.reverseRecOn with
  | nil => exact ⟨fun ts h => (nomatch h), fun h => (nomatch h)⟩
  | append_singleton xs x ih =>
    rw [run_append]
    exact traced_snoc ih x

/-- The recorder that is not told to stop is one of those that run, and none runs twice. -/
structure Recording (c : VoiceCaller) : Prop where
  nodup : c.recorders.Nodup
  fresh : ∀ n ∈ c.recorders, n < c.newId
  running : ∀ n, c.stopVoiceCallSender = some n → n ∈ c.recorders

theorem recording_startVoiceCall {c : VoiceCaller} (h : Recording c) :
    Recording (c.startVoiceCall records) := by
  unfold startVoiceCall
  split
  · refine ⟨?_, fun n hn => ?_, fun n hn => ?_⟩
    · refine List.nodup_append.mpr ⟨h.nodup, List.nodup_singleton _, fun n hn m hm => ?_⟩
      have hlt := h.fresh n hn
      obtain rfl := List.mem_singleton.mp hm
      omega
    · obtain hold | hnew := List.mem_append.mp hn
      · exact Nat.lt_succ_of_lt (h.fresh n hold)
      · rw [List.mem_singleton.mp hnew]
        exact Nat.lt_succ_self _
    · rw [← Option.some.inj hn]
      exact List.mem_append_right _ (List.mem_singleton_self _)
  · exact ⟨h.nodup, h.fresh, fun n hn => by cases hn⟩

theorem recording_step {c : VoiceCaller} (h : Recording c) (x : VoiceCallerAct) :
    Recording (c.step records x) := by
  cases x with
  | newVoiceCall time now => exact ⟨h.nodup, h.fresh, h.running⟩
  | closeVoiceCall time => exact ⟨h.nodup, h.fresh, fun n hn => by cases hn⟩
  | recorderTurn n =>
    change Recording (c.recorderTurn n)
    unfold recorderTurn
    split
    · exact h
    · rename_i hn
      refine ⟨h.nodup.erase n, fun m hm => h.fresh m (List.mem_of_mem_erase hm), fun m hm => ?_⟩
      refine (List.mem_erase_of_ne fun heq => hn ?_).mpr (h.running m hm)
      rw [← heq]
      exact hm
  | message m =>
    cases m with
    | voiceCallRequest isConnect =>
      change Recording (if _ then _ else c)
      split
      · exact ⟨h.nodup, h.fresh, fun n hn => by cases hn⟩
      · exact h
    | voiceCallResponse reqTimestamp accepted =>
      change Recording (c.onVoiceCallResponse records reqTimestamp accepted)
      unfold onVoiceCallResponse
      dsimp only
      split
      · exact ⟨h.nodup, h.fresh, h.running⟩
      · split_ifs
        · exact ⟨h.nodup, h.fresh, h.running⟩
        · have hstart := @recording_startVoiceCall records
            { c with voiceCallRequestTimestamp := none } ⟨h.nodup, h.fresh, h.running⟩
          exact ⟨hstart.nodup, hstart.fresh, hstart.running⟩
        · exact ⟨h.nodup, h.fresh, h.running⟩
    | _ => exact h

/-- Whatever the user and the peer do, at most one recorder goes on at its next turn, and if one
    does, the user has asked for the call, the peer has accepted that request, and since then
    neither has hung up. -/
theorem recorded_on_consent (records : Bool) (xs : List VoiceCallerAct) :
    let c := run (step records) {} xs
    (c.recorders.filter fun n => (c.recorderTurn n).recorders.contains n) =
      c.stopVoiceCallSender.toList ∧
    (c.stopVoiceCallSender.isSome = true → Consented xs) := by
  intro c
  have hrec : Recording c := (always_of_step (P := Recording) (fun _ x h => recording_step h x)
    ⟨List.nodup_nil, by simp, fun n hn => by cases hn⟩ xs).last
  refine ⟨?_, (traced_run xs).2⟩
  have hturn : ∀ n ∈ c.recorders, (c.recorderTurn n).recorders.contains n =
      decide (some n = c.stopVoiceCallSender) := by
    intro n hn
    unfold recorderTurn
    split
    · rename_i heq
      simp [heq, hn]
    · rename_i hne
      rw [decide_eq_false (Ne.symm hne)]
      simp [hrec.nodup.not_mem_erase]
  rw [List.filter_congr hturn]
  cases hstop : c.stopVoiceCallSender with
  | none => simp
  | some m =>
    have hcount := List.count_eq_one_of_mem hrec.nodup (hrec.running m hstop)
    simp only [Option.some.injEq]
    rw [List.filter_eq, hcount]
    rfl

end VoiceCaller

/-! ## The two ends -/

/-- `ofCall` are the messages that ask for a call or end one. -/
def Message.ofCall : Message → Bool
  | .voiceCallRequest _ _ => true
  | _ => false

/-- A client and the connection it is served by, with what is on the way between them. -/
structure VoiceCall where
  caller : VoiceCaller := {}
  callee : World
  toCallee : List Message := []
  /-- How much of what the connection said has arrived. -/
  arrived : ℕ

inductive VoiceCallAct where
  | newVoiceCall (time now : Int)
  | closeVoiceCall (time : Int)
  /-- Whatever else the client sends. -/
  | other (msg : Message)
  /-- The connection's loop gets the next message. -/
  | peer (env : Env)
  | arm (env : Env) (a : Arm)
  /-- The client's loop gets what the connection said next. -/
  | message
  | recorderTurn (n : ℕ)
  /-- What other connections do to the state they share. -/
  | others (glob : Globals)

namespace VoiceCall

/-- A connection that has logged on, and has not had a call yet. -/
def start (w : World) : VoiceCall := { callee := w, arrived := w.conn.said.length }

/-- A connection that has left its loop does nothing any more. -/
def runArm (h : Host) (env : Env) (a : Arm) (w : World) : World :=
  if w.conn.running then w.arm h env a else w

def step (h : Host) (records : Bool) (s : VoiceCall) : VoiceCallAct → VoiceCall
  | .newVoiceCall time now =>
    let (caller, msg) := s.caller.newVoiceCall time now
    { s with caller, toCallee := s.toCallee ++ [msg] }
  | .closeVoiceCall time =>
    let (caller, msg) := s.caller.closeVoiceCall time
    { s with caller, toCallee := s.toCallee ++ [msg] }
  | .other msg => { s with toCallee := s.toCallee ++ [msg] }
  | .peer env =>
    match s.toCallee with
    | [] => s
    | msg :: rest =>
      if s.callee.conn.running then
        { s with callee := s.callee.arm h env (.peer msg), toCallee := rest }
      else s
  | .arm env a => { s with callee := runArm h env a s.callee }
  | .message =>
    match s.callee.conn.said[s.arrived]? with
    | none => s
    | some m => { s with caller := s.caller.onMessage records m, arrived := s.arrived + 1 }
  | .recorderTurn n => { s with caller := s.caller.recorderTurn n }
  | .others glob => { s with callee := { s.callee with glob } }

/-- The user asks, with a time, only while the client records nothing and has no request open, and
    hangs up only while it has none open; the other messages of the client and the other arms of the
    connection do not log in again. -/
def Patient (s : VoiceCall) : VoiceCallAct → Bool
  | .newVoiceCall time _ =>
    s.caller.voiceCallRequestTimestamp.isNone && s.caller.stopVoiceCallSender.isNone &&
      time != 0
  | .closeVoiceCall _ => s.caller.voiceCallRequestTimestamp.isNone
  | .other msg => !msg.ofCall && !msg.isLogin
  | .arm _ (.peer _) => false
  | .arm _ a => !a.isLogin
  | _ => true

/-! ## What is on the way -/

/-- The requests among the messages of the client. -/
def asking (msgs : List Message) : List Int :=
  msgs.filterMap fun
    | .voiceCallRequest true reqTimestamp => some reqTimestamp
    | _ => none

/-- The answers among what the connection said. -/
def answering (said : List Outgoing) : List Int :=
  said.filterMap fun
    | .voiceCallResponse reqTimestamp _ => some reqTimestamp
    | _ => none

/-- Whether the connection has the call on after these messages. -/
def onAfter (on : Bool) (msgs : List Message) : Bool :=
  msgs.foldl (fun | _, .voiceCallRequest false _ => false | on, _ => on) on

/-- Whether the client records after it has heard this. -/
def recordsAfter (records recording : Bool) (said : List Outgoing) : Bool :=
  said.foldl (fun
    | _, .voiceCallRequest false => false
    | _, .voiceCallResponse _ true => records
    | recording, _ => recording) recording

/-- The last of these messages about calls ends one; `b` is what came before them. -/
def endsOn (b : Bool) (msgs : List Message) : Bool :=
  msgs.foldl (fun | _, .voiceCallRequest isConnect _ => !isConnect | b, _ => b) b

theorem onAfter_append (on : Bool) (msgs msgs' : List Message) :
    onAfter on (msgs ++ msgs') = onAfter (onAfter on msgs) msgs' := List.foldl_append

theorem endsOn_append (b : Bool) (msgs msgs' : List Message) :
    endsOn b (msgs ++ msgs') = endsOn (endsOn b msgs) msgs' := List.foldl_append

theorem recordsAfter_append (records recording : Bool) (said said' : List Outgoing) :
    recordsAfter records recording (said ++ said') =
      recordsAfter records (recordsAfter records recording said) said' := List.foldl_append

theorem endsOn_mono {msgs : List Message} (h : endsOn true msgs = false) :
    endsOn false msgs = false := by
  induction msgs with
  | nil => cases h
  | cons msg msgs ih => cases msg <;> first | exact h | exact ih h

/-- If nobody asks and the last word does not end the call, no word does. -/
theorem onAfter_of_endsOn {msgs : List Message} (on : Bool) (hask : asking msgs = [])
    (hends : endsOn false msgs = false) : onAfter on msgs = on := by
  induction msgs with
  | nil => rfl
  | cons msg msgs ih =>
    cases msg with
    | voiceCallRequest isConnect ts =>
      cases isConnect with
      | true => cases hask
      | false =>
        have hrest : asking msgs = [] := hask
        have hstill : ∀ msgs, asking msgs = [] → endsOn true msgs = true := by
          intro msgs
          induction msgs with
          | nil => exact fun _ => rfl
          | cons msg msgs ih =>
            intro h
            cases msg with
            | voiceCallRequest isConnect ts =>
              cases isConnect with
              | true => cases h
              | false => exact ih h
            | _ => exact ih h
        rw [show endsOn false (.voiceCallRequest false ts :: msgs) = endsOn true msgs from rfl,
          hstill msgs hrest] at hends
        cases hends
    | _ => exact ih hask hends

theorem onAfter_false (msgs : List Message) : onAfter false msgs = false := by
  induction msgs with
  | nil => rfl
  | cons msg msgs ih =>
    cases msg with
    | voiceCallRequest isConnect ts => cases isConnect <;> exact ih
    | _ => exact ih

/-- Without an answer the client does not begin to record. -/
theorem recordsAfter_false {records : Bool} {said : List Outgoing} (h : answering said = []) :
    recordsAfter records false said = false := by
  induction said with
  | nil => rfl
  | cons m said ih =>
    cases m with
    | voiceCallRequest isConnect => cases isConnect <;> exact ih h
    | voiceCallResponse ts accepted => cases h
    | _ => exact ih h

/-! ## What carries the agreement -/

/-- What the connection said and the client has not heard yet. -/
def coming (s : VoiceCall) : List Outgoing := s.callee.conn.said.drop s.arrived

structure Sound (records : Bool) (s : VoiceCall) : Prop where
  heard : s.callee.conn.heard = true
  plain : ∀ msg ∈ s.toCallee, msg.isLogin = false
  arrived : s.arrived ≤ s.callee.conn.said.length
  /-- The client's request is in one place: on the way, with the connection, or answered. -/
  token : asking s.toCallee ++ s.callee.conn.call.request.toList ++ answering s.coming =
    s.caller.voiceCallRequestTimestamp.toList
  nonzero : s.caller.voiceCallRequestTimestamp ≠ some 0
  idle : s.caller.voiceCallRequestTimestamp.isSome = true → s.caller.stopVoiceCallSender = none
  /-- A call was ended before the request was made, if at all. -/
  ended : s.caller.voiceCallRequestTimestamp.isSome = true → endsOn false s.toCallee = false
  agree : recordsAfter records s.caller.stopVoiceCallSender.isSome s.coming =
    (onAfter s.callee.conn.call.on s.toCallee && records)
  waiting : s.caller.status = some .waiting ↔
    s.caller.voiceCallRequestTimestamp.isSome = true
  started : records = true → (s.caller.status = some .started ↔
    s.caller.stopVoiceCallSender.isSome = true)

section
variable {h : Host} {records : Bool} {env : Env} {s : VoiceCall}

theorem heard_arm {w : World} {a : Arm} (hl : a.isLogin = false) (hw : w.conn.heard = true) :
    (w.arm h env a).conn.heard = true := by
  have hpassive := World.passive_arm h env hl w
  have hauth := congrArg (fun w : World => w.conn.authorized) hpassive.identity_eq
  have hauth : (w.arm h env a).conn.authorized = w.conn.authorized := hauth
  unfold Connection.heard at hw ⊢
  rw [Bool.and_eq_true, Option.isNone_iff_eq_none] at hw ⊢
  refine ⟨hauth.trans hw.1, ?_⟩
  obtain hsocket | hsocket := hpassive.socket
  · rw [hsocket, hw.2]
  · exact hsocket

theorem only_of_token {x y : List Int} {o : Option Int} {t : Int}
    (h : x ++ [t] ++ y = o.toList) : x = [] ∧ o = some t ∧ y = [] := by
  have hlen := congrArg List.length h
  have ho : o.toList.length ≤ 1 := by cases o <;> simp
  simp only [List.length_append, List.length_singleton] at hlen
  have hx : x = [] := List.eq_nil_of_length_eq_zero (by omega)
  have hy : y = [] := List.eq_nil_of_length_eq_zero (by omega)
  subst hx hy
  cases o with
  | none => cases h
  | some t' => exact ⟨rfl, congrArg some (List.singleton_inj.mp h).symm, rfl⟩

/-- The connection says no more than it does. -/
theorem sound_of_view {w : World} {said : List Outgoing} (hs : Sound records s)
    (hheard : w.conn.heard = true) (hsaid : w.conn.said = s.callee.conn.said ++ said)
    (htoken : asking s.toCallee ++ w.conn.call.request.toList ++ answering (s.coming ++ said) =
      s.caller.voiceCallRequestTimestamp.toList)
    (hagree : recordsAfter records s.caller.stopVoiceCallSender.isSome (s.coming ++ said) =
      (onAfter w.conn.call.on s.toCallee && records)) : Sound records { s with callee := w } := by
  have hcoming : ({ s with callee := w } : VoiceCall).coming = s.coming ++ said := by
    unfold coming
    dsimp only
    rw [hsaid, List.drop_append_of_le_length hs.arrived]
  refine ⟨hheard, hs.plain, ?_, ?_, hs.nonzero, hs.idle, hs.ended, ?_, hs.waiting, hs.started⟩
  · change s.arrived ≤ w.conn.said.length
    rw [hsaid, List.length_append]
    exact Nat.le_add_right_of_le hs.arrived
  · rw [hcoming]
    exact htoken
  · rw [hcoming]
    exact hagree

theorem sound_arm {a : Arm} (hs : Sound records s) (hl : a.isLogin = false)
    (hpeer : ∀ msg, a ≠ .peer msg) :
    Sound records { s with callee := s.callee.arm h env a } := by
  have hview := @World.callView_arm h env s.callee a hl
  have hcall := congrArg Prod.fst hview
  have hsaid := congrArg (fun p => p.2.1) hview
  dsimp only [World.callView] at hcall hsaid
  have hheard := @heard_arm h env _ _ hl hs.heard
  refine And.elim (sound_of_view hs hheard hsaid) ?_
  rw [hcall]
  clear hview hcall hsaid hheard
  cases a with
  | peer msg => exact absurd rfl (hpeer msg)
  | cm data =>
    cases data with
    | voiceCallResponse accepted =>
      have htoken := hs.token
      unfold Call.next Call.replies
      dsimp only
      cases hreq : s.callee.conn.call.request with
      | none => exact ⟨by simpa [hreq] using htoken, by simpa [hreq] using hs.agree⟩
      | some t =>
        rw [hreq] at htoken
        obtain ⟨hask, hts, hans⟩ := only_of_token htoken
        refine ⟨?_, ?_⟩
        · rw [hask, hts]
          simpa [answering] using hans
        · have hsome : s.caller.voiceCallRequestTimestamp.isSome = true := by rw [hts]; rfl
          -- The client is not recording, and will not be before it has this answer.
          rw [recordsAfter_append, hs.idle hsome, Option.isSome_none, recordsAfter_false hans]
          cases accepted with
          | true => simp [recordsAfter, onAfter_of_endsOn _ hask (hs.ended hsome)]
          | false => simp [recordsAfter, onAfter_false]
    | closeVoiceCall =>
      refine ⟨by simpa [Call.next, Call.replies, answering] using hs.token, ?_⟩
      rw [recordsAfter_append]
      simp [Call.next, Call.replies, recordsAfter, onAfter_false]
    | _ =>
      exact ⟨by simpa [Call.next, Call.replies] using hs.token,
        by simpa [Call.next, Call.replies] using hs.agree⟩
  | _ =>
    exact ⟨by simpa [Call.next, Call.replies] using hs.token,
      by simpa [Call.next, Call.replies] using hs.agree⟩

/-- The connection's loop gets a message of the client. -/
theorem sound_peer {msg : Message} {rest : List Message} (hs : Sound records s)
    (hq : s.toCallee = msg :: rest) :
    Sound records { s with callee := s.callee.arm h env (.peer msg), toCallee := rest } := by
  have hl : msg.isLogin = false := hs.plain msg (hq ▸ List.mem_cons_self)
  have hview := @World.callView_arm h env s.callee (.peer msg) hl
  have hcall := congrArg Prod.fst hview
  have hsaid := congrArg (fun p => p.2.1) hview
  dsimp only [World.callView] at hcall hsaid
  rw [show s.callee.conn.call.replies (.peer msg) = [] from rfl, List.append_nil] at hsaid
  have hcoming : ({ s with callee := s.callee.arm h env (.peer msg), toCallee := rest }
      : VoiceCall).coming = s.coming := by
    unfold coming
    dsimp only
    rw [hsaid]
  have htoken := hs.token
  have hagree := hs.agree
  have hended := hs.ended
  rw [hq] at htoken hagree hended
  refine ⟨heard_arm (a := .peer msg) hl hs.heard, fun m hm => hs.plain m ?_, ?_, ?_, hs.nonzero,
    hs.idle, fun hsome => ?_, ?_, hs.waiting, hs.started⟩
  · exact hq ▸ List.mem_cons_of_mem _ hm
  · dsimp only
    rw [hsaid]
    exact hs.arrived
  · rw [hcoming]
    dsimp only
    rw [hcall]
    cases msg with
    | voiceCallRequest isConnect ts =>
      cases isConnect with
      | true =>
        -- This is the client's request, so there is no other.
        have hone : [] ++ [ts] ++ (asking rest ++ s.callee.conn.call.request.toList ++
            answering s.coming) = s.caller.voiceCallRequestTimestamp.toList := by
          simpa [asking] using htoken
        obtain ⟨-, hts, hrest⟩ := only_of_token hone
        have hzero : ts ≠ 0 := fun h0 => hs.nonzero (by rw [hts, h0])
        rw [List.append_eq_nil_iff, List.append_eq_nil_iff] at hrest
        obtain ⟨⟨hask, hreq⟩, hans⟩ := hrest
        simp [Call.next, hs.heard, hask, hans, hts, hzero]
      | false => simpa [Call.next, hs.heard, asking] using htoken
    | _ => simpa [Call.next, asking] using htoken
  · cases msg with
    | voiceCallRequest isConnect ts =>
      cases isConnect with
      | true => exact hended hsome
      | false => exact endsOn_mono (hended hsome)
    | _ => exact hended hsome
  · rw [hcoming]
    dsimp only
    rw [hcall]
    cases msg with
    | voiceCallRequest isConnect ts =>
      cases isConnect <;> simpa [Call.next, hs.heard, onAfter] using hagree
    | _ => simpa [Call.next, onAfter] using hagree

/-- The client's loop gets what the connection said next. -/
theorem sound_message {m : Outgoing} (hs : Sound records s)
    (hm : s.callee.conn.said[s.arrived]? = some m) :
    Sound records { s with caller := s.caller.onMessage records m, arrived := s.arrived + 1 } := by
  obtain ⟨hlt, heq⟩ := List.getElem?_eq_some_iff.mp hm
  have hcoming : s.coming = m :: s.callee.conn.said.drop (s.arrived + 1) := by
    unfold coming
    rw [List.drop_eq_getElem_cons hlt, heq]
  have htoken := hs.token
  have hagree := hs.agree
  rw [hcoming] at htoken hagree
  cases m with
  | voiceCallRequest isConnect =>
    cases isConnect with
    | true => exact ⟨hs.heard, hs.plain, hlt, htoken, hs.nonzero, hs.idle, hs.ended, hagree,
        hs.waiting, hs.started⟩
    | false =>
      cases hstop : s.caller.stopVoiceCallSender with
      | none =>
        have hsame : s.caller.onMessage records (.voiceCallRequest false) = s.caller := by
          simp [VoiceCaller.onMessage, hstop]
        rw [hsame]
        rw [hstop] at hagree
        refine ⟨hs.heard, hs.plain, hlt, htoken, hs.nonzero, hs.idle, hs.ended, ?_, hs.waiting,
          hs.started⟩
        dsimp only
        rw [hstop]
        exact hagree
      | some n =>
        have hidle : s.caller.voiceCallRequestTimestamp = none := by
          by_contra hne
          have hnone := hs.idle (Option.isSome_iff_ne_none.mpr hne)
          rw [hstop] at hnone
          cases hnone
        have hsame : s.caller.onMessage records (.voiceCallRequest false) =
            { s.caller with stopVoiceCallSender := none, status := some (.closed "") } := by
          simp [VoiceCaller.onMessage, hstop]
        rw [hsame]
        refine ⟨hs.heard, hs.plain, hlt, htoken, hs.nonzero, fun _ => rfl, hs.ended, hagree, ?_, ?_⟩
        · simp [hidle]
        · simp
  | voiceCallResponse ts accepted =>
    -- Only an answer to the client's own request can come.
    have hone : (asking s.toCallee ++ s.callee.conn.call.request.toList) ++ [ts] ++
        answering (s.callee.conn.said.drop (s.arrived + 1)) =
          s.caller.voiceCallRequestTimestamp.toList := by
      simpa [answering] using htoken
    obtain ⟨hbefore, hts, hafter⟩ := only_of_token hone
    have hstop := hs.idle (by rw [hts]; rfl)
    rw [hstop] at hagree
    have htoken' : asking s.toCallee ++ s.callee.conn.call.request.toList ++
        answering (s.callee.conn.said.drop (s.arrived + 1)) = [] := by
      rw [hbefore, hafter]
      rfl
    cases accepted with
    | true =>
      have hsame : s.caller.onMessage records (.voiceCallResponse ts true) =
          { ({ s.caller with voiceCallRequestTimestamp := none }.startVoiceCall records) with
            status := some .started } := by
        simp [VoiceCaller.onMessage, VoiceCaller.onVoiceCallResponse, hts]
      rw [hsame]
      unfold VoiceCaller.startVoiceCall
      cases records with
      | true => exact ⟨hs.heard, hs.plain, hlt, htoken', nofun, nofun, nofun, hagree,
          by simp, by simp⟩
      | false => exact ⟨hs.heard, hs.plain, hlt, htoken', nofun, nofun, nofun, hagree,
          by simp, nofun⟩
    | false =>
      have hsame : s.caller.onMessage records (.voiceCallResponse ts false) =
          { s.caller with
            voiceCallRequestTimestamp := none
            status := some (.closed "") } := by
        simp [VoiceCaller.onMessage, VoiceCaller.onVoiceCallResponse, hts]
      rw [hsame]
      refine ⟨hs.heard, hs.plain, hlt, htoken', nofun, nofun, nofun, ?_, by simp, ?_⟩
      · dsimp only
        rw [hstop]
        exact hagree
      · simp [hstop]
  | _ => exact ⟨hs.heard, hs.plain, hlt, htoken, hs.nonzero, hs.idle, hs.ended, hagree,
      hs.waiting, hs.started⟩

/-- The client sends something that is not about calls. -/
theorem sound_other {msg : Message} (hs : Sound records s) (hcall : msg.ofCall = false)
    (hl : msg.isLogin = false) : Sound records { s with toCallee := s.toCallee ++ [msg] } := by
  have hask : asking (s.toCallee ++ [msg]) = asking s.toCallee := by
    unfold asking
    rw [List.filterMap_append]
    cases msg with
    | voiceCallRequest _ _ => cases hcall
    | _ => exact List.append_nil _
  have hends : endsOn false (s.toCallee ++ [msg]) = endsOn false s.toCallee := by
    rw [endsOn_append]
    cases msg with
    | voiceCallRequest _ _ => cases hcall
    | _ => rfl
  have hon : ∀ on, onAfter on (s.toCallee ++ [msg]) = onAfter on s.toCallee := by
    intro on
    rw [onAfter_append]
    cases msg with
    | voiceCallRequest _ _ => cases hcall
    | _ => rfl
  refine ⟨hs.heard, ?_, hs.arrived, ?_, hs.nonzero, hs.idle, fun hsome => ?_, ?_, hs.waiting,
    hs.started⟩
  · exact List.forall_mem_append.mpr ⟨hs.plain, by simpa using hl⟩
  · exact (congrArg (· ++ _ ++ _) hask).trans hs.token
  · exact hends.trans (hs.ended hsome)
  · exact hs.agree.trans (congrArg (· && records) (hon _).symm)

theorem sound_newVoiceCall {time now : Int} (hs : Sound records s)
    (hts : s.caller.voiceCallRequestTimestamp = none)
    (hstop : s.caller.stopVoiceCallSender = none) (hzero : time ≠ 0) :
    Sound records (step h records s (.newVoiceCall time now)) := by
  have htoken := hs.token
  rw [hts, Option.toList_none, List.append_eq_nil_iff, List.append_eq_nil_iff] at htoken
  obtain ⟨⟨hask, hreq⟩, hans⟩ := htoken
  have hnew : asking (s.toCallee ++ [.voiceCallRequest true time]) = [time] := by
    unfold asking at hask ⊢
    rw [List.filterMap_append, hask]
    rfl
  unfold step VoiceCaller.newVoiceCall
  dsimp only
  rw [if_neg hzero]
  refine ⟨hs.heard, List.forall_mem_append.mpr ⟨hs.plain, by simp [Message.isLogin]⟩, hs.arrived,
    ?_, ?_, fun _ => hstop, fun _ => ?_, ?_, by simp, by simp [hstop]⟩
  · dsimp only
    rw [hnew, hreq]
    exact congrArg ([time] ++ [] ++ ·) hans
  · simpa using hzero
  · exact endsOn_append _ _ _
  · dsimp only
    rw [onAfter_append]
    exact hs.agree

theorem sound_closeVoiceCall {time : Int} (hs : Sound records s)
    (hts : s.caller.voiceCallRequestTimestamp = none) :
    Sound records (step h records s (.closeVoiceCall time)) := by
  have htoken := hs.token
  rw [hts, Option.toList_none, List.append_eq_nil_iff, List.append_eq_nil_iff] at htoken
  obtain ⟨⟨hask, hreq⟩, hans⟩ := htoken
  have hnew : asking (s.toCallee ++ [.voiceCallRequest false time]) = [] := by
    unfold asking at hask ⊢
    rw [List.filterMap_append, hask]
    rfl
  unfold step VoiceCaller.closeVoiceCall
  dsimp only
  refine ⟨hs.heard, List.forall_mem_append.mpr ⟨hs.plain, by simp [Message.isLogin]⟩, hs.arrived,
    ?_, hs.nonzero, fun _ => rfl, fun hsome => ?_, ?_, by simp [hts], by simp⟩
  · dsimp only
    rw [hnew, hreq, hts]
    exact hans
  · rw [hts] at hsome
    cases hsome
  · -- Nothing that comes can start the recorder again.
    dsimp only
    rw [onAfter_append]
    exact (recordsAfter_false hans).trans (Bool.false_and _).symm

theorem sound_step {x : VoiceCallAct} (hs : Sound records s) (hx : s.Patient x = true) :
    Sound records (step h records s x) := by
  cases x with
  | newVoiceCall time now =>
    simp only [Patient, Bool.and_eq_true, Option.isNone_iff_eq_none, bne_iff_ne] at hx
    exact sound_newVoiceCall hs hx.1.1 hx.1.2 hx.2
  | closeVoiceCall time => exact sound_closeVoiceCall hs (Option.isNone_iff_eq_none.mp hx)
  | other msg =>
    simp only [Patient, Bool.and_eq_true, Bool.not_eq_true'] at hx
    exact sound_other hs hx.1 hx.2
  | peer env =>
    unfold step
    dsimp only
    split
    · exact hs
    · rename_i msg rest hq
      split
      · exact sound_peer hs hq
      · exact hs
  | arm env a =>
    unfold step runArm
    dsimp only
    split
    · cases a with
      | peer msg => cases hx
      | _ => exact sound_arm hs (by simpa [Patient] using hx) fun msg hmsg => by cases hmsg
    · exact hs
  | message =>
    unfold step
    dsimp only
    split
    · exact hs
    · rename_i m hm
      exact sound_message hs hm
  | recorderTurn n =>
    have hkept : Sound records { s with caller :=
        { s.caller with recorders := s.caller.recorders.erase n } } :=
      ⟨hs.heard, hs.plain, hs.arrived, hs.token, hs.nonzero, hs.idle, hs.ended, hs.agree,
        hs.waiting, hs.started⟩
    unfold step VoiceCaller.recorderTurn
    dsimp only
    split
    · exact hs
    · exact hkept
  | others glob => exact ⟨hs.heard, hs.plain, hs.arrived, hs.token, hs.nonzero, hs.idle, hs.ended,
      hs.agree, hs.waiting, hs.started⟩

theorem sound_start {w : World} (hheard : w.conn.heard = true) (hcall : w.conn.call = {}) :
    Sound records (start w) := by
  have hcoming : (start w).coming = [] := List.drop_length
  refine ⟨hheard, by simp [start], le_refl _, ?_, nofun, nofun, nofun, ?_, ?_, ?_⟩
  · rw [hcoming]
    change [] ++ w.conn.call.request.toList ++ [] = []
    rw [hcall]
    rfl
  · rw [hcoming]
    change false = (w.conn.call.on && records)
    rw [hcall]
    rfl
  · simp [start]
  · simp [start]

/-- When nothing is on the way, both ends have the same call. -/
def Agree (records : Bool) (s : VoiceCall) : Prop :=
  s.toCallee = [] → s.coming = [] →
    s.caller.stopVoiceCallSender.isSome = (s.callee.conn.voiceCalling && records) ∧
    s.callee.conn.voiceCallRequestTimestamp = s.caller.voiceCallRequestTimestamp ∧
    (s.caller.status = some .waiting ↔
      s.callee.conn.voiceCallRequestTimestamp.isSome = true) ∧
    (records = true →
      (s.caller.status = some .started ↔ s.callee.conn.voiceCalling = true))

theorem Sound.agree_of_quiet (hs : Sound records s) : Agree records s := by
  intro hq hcoming
  have htoken := hs.token
  have hagree := hs.agree
  rw [hq, hcoming] at htoken hagree
  have hreq : s.callee.conn.voiceCallRequestTimestamp = s.caller.voiceCallRequestTimestamp := by
    have hhead := congrArg List.head? htoken
    simpa [asking, answering, Connection.call] using hhead
  have hon : s.caller.stopVoiceCallSender.isSome = (s.callee.conn.voiceCalling && records) := hagree
  refine ⟨hon, hreq, ?_, fun hrecords => ?_⟩
  · rw [hreq]
    exact hs.waiting
  · rw [hs.started hrecords, hon, hrecords, Bool.and_true]

/-- A connection that has logged on and a client whose user is patient agree on their call whenever
    nothing is on the way between them, in whatever order their loops go on, and whatever the user
    of the connection manager and the other connections do. -/
theorem ends_agree (h : Host) (records : Bool) (w : World) (xs : List VoiceCallAct)
    (hheard : w.conn.heard = true) (hcall : w.conn.call = {})
    (hpatient : Along (step h records) (fun s x => s.Patient x = true) (start w) xs) :
    Always (step h records) (Agree records) (start w) xs :=
  (always_of_along (fun _ _ hs hx => sound_step hs hx) (sound_start hheard hcall) hpatient).mono
    fun _ hs => hs.agree_of_quiet

end

/-- A peer with a password that has logged on. -/
def loggedOn : World :=
  ({ conn := .start .sample .sample 1 (.v4 3232235778) .sample none
     glob := .init (.new .sample false false false) } : World).arm .sample .sample
    (.peer (.loginRequest { LoginRequest.sample "111222333" with password := sampleAnswer }))

/-- A call that is asked for and accepted. -/
def accepted : List VoiceCallAct :=
  [.newVoiceCall 7 7, .peer .sample, .arm .sample (.cm (.voiceCallResponse true)), .message]

theorem ends_agree_accepted :
    (run (step .sample true) (start loggedOn) accepted).callee.conn.voiceCalling = true ∧
      Always (step .sample true) (Agree true) (start loggedOn) accepted :=
  ⟨by decide +kernel, ends_agree .sample true loggedOn accepted (by decide +kernel)
    (by decide +kernel) (by decide +kernel)⟩

/-- A user who gives a request up while the answer is on its way is recorded without a call. -/
example :
    let s := run (step .sample true) (start loggedOn)
      [.newVoiceCall 7 7, .peer .sample, .arm .sample (.cm (.voiceCallResponse true)),
        .closeVoiceCall 8, .message, .peer .sample]
    s.toCallee = [] ∧ s.coming = [] ∧ s.callee.conn.voiceCalling = false ∧
      s.caller.stopVoiceCallSender = some 0 := by decide +kernel

end VoiceCall

end LuodaRemote
