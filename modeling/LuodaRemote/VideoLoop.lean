/-
  The video loop against the connections that come and go: with which frame a viewer starts.

  A new subscriber waits in `new_subscribes` until the loop has a frame to encode. If the loop then
  finds old subscribers as well, it gives up its encoder, so that old and new start over on the
  first frame of the next one. If it finds none, it takes the new subscriber in and goes on. That
  is right for an encoder that has not produced anything, but it is also what happens when the last
  old viewer has left since the loop last asked whether anybody is there: the encoder is kept for
  the new one, who is fed from the middle of the stream (`starts_on_key_frame`).

  Every operation under the lock of the service is one step, and between any two of them
  connections subscribe and unsubscribe. What happens outside the lock (the set-up, the capturer,
  the encoder, all that makes the loop give up) is an outcome given with the step. Encoders are
  counted, and frames for each of them. What is left out is all that has no part in who is sent
  which frame.

  Source: `run` and `handle_one_frame` of `src/server/video_service.rs`; `on_subscribe`,
  `on_unsubscribe`, `snapshot`, `send_video_frame_shared`, `swap_new_subscribes`, `ok`, `join` and
  `run` of `src/server/service.rs`.
-/
import LuodaRemote.Server
import LuodaRemote.Lib.Run

namespace LuodaRemote

open Lib

/-! ## The loop -/

structure VideoFrame where
  encoder : Nat
  number : Nat
  deriving DecidableEq

/-- What becomes known to a connection of the service: that it is subscribed, and frames. -/
inductive Heard where
  | subscribed
  | frame (f : VideoFrame)
  deriving DecidableEq

structure EncoderKind where
  isHardware : Bool
  latencyFree : Bool

/-- Where the thread of the service is. -/
inductive VideoPc where
  /-- `sp.active()` of the thread. -/
  | active
  /-- `sp.has_subscribes()` of the thread. -/
  | hasSubscribes
  /-- `run`, up to its loop. -/
  | setUp
  /-- `sp.ok()`. -/
  | ok
  /-- The loop, up to a frame. -/
  | capture
  /-- `snapshot` looks for new subscribers. -/
  | snapshot
  /-- The callback of `handle_one_frame` looks for old ones. -/
  | callback
  /-- The `ServiceSwap` is dropped, and after that the loop may be given up. -/
  | swap (switch : Bool)
  | encode
  | sendVideoFrame (f : VideoFrame)
  /-- The loop, after the frame. -/
  | rest
  | exited
  deriving DecidableEq

inductive Captured where
  | frame
  | nothing
  | bails

inductive Encoded where
  | ok
  | error (needSwitch : Bool)

/-- What happens outside the lock, as far as the step at hand depends on it. -/
structure Outcome where
  setUp : Option EncoderKind := some ⟨false, true⟩
  captured : Captured := .frame
  encoded : Encoded := .ok
  bails : Bool := false

structure VideoLoop where
  sp : Service
  isActive : Bool := true
  pc : VideoPc := .active
  /-- How many encoders there were before this one. -/
  encoder : Nat := 0
  kind : EncoderKind := ⟨false, true⟩
  /-- How many frames the encoder has produced. -/
  produced : Nat := 0
  encodeFailCounter : Nat := 0
  firstFrame : Bool := true
  heard : Int → List Heard := fun _ => []

def Service.hasSubscribes (s : Service) : Bool :=
  !s.subscribes.isEmpty || !s.newSubscribes.isEmpty

inductive VideoStep where
  | onSubscribe (id : Int)
  | onUnsubscribe (id : Int)
  | join
  | loop (o : Outcome)

namespace VideoLoop

/-- A connection that is subscribed already is not subscribed anew. -/
def onSubscribe (id : Int) (s : VideoLoop) : VideoLoop :=
  { s with
    sp := s.sp.onSubscribe id
    heard := if id ∈ s.sp.subscribes then s.heard
      else Function.update s.heard id (s.heard id ++ [.subscribed]) }

def sendVideoFrame (f : VideoFrame) (s : VideoLoop) : VideoLoop :=
  { s with
    pc := .rest
    heard := fun id => if id ∈ s.sp.subscribes then s.heard id ++ [.frame f] else s.heard id }

/-- The branch of `handle_one_frame` where the encoder has failed. -/
def encodeFailed (needSwitch : Bool) (s : VideoLoop) : VideoLoop :=
  let encodeFailCounter := s.encodeFailCounter + 1
  let maxFailTimes := 3
  let repeats := !s.kind.latencyFree
  let failed := s.firstFrame && !repeats || decide (maxFailTimes ≤ encodeFailCounter)
  { s with
    encodeFailCounter := if failed then 0 else encodeFailCounter
    firstFrame := false
    pc := if failed && s.kind.isHardware || needSwitch then .active else .rest }

def loop (o : Outcome) (s : VideoLoop) : VideoLoop :=
  match s.pc with
  | .active => { s with pc := if s.isActive then .hasSubscribes else .exited }
  | .hasSubscribes => { s with pc := if s.sp.hasSubscribes then .setUp else .active }
  | .setUp =>
    match o.setUp with
    | none => { s with pc := .active }
    | some kind =>
      { s with
        pc := .ok, encoder := s.encoder + 1, kind := kind, produced := 0
        encodeFailCounter := 0, firstFrame := true }
  | .ok => { s with pc := if s.isActive && s.sp.hasSubscribes then .capture else .active }
  | .capture =>
    match o.captured with
    | .frame => { s with pc := .snapshot }
    | .nothing => { s with pc := .rest }
    | .bails => { s with pc := .active }
  | .snapshot => { s with pc := if s.sp.newSubscribes.isEmpty then .encode else .callback }
  | .callback => { s with pc := .swap (!s.sp.subscribes.isEmpty) }
  | .swap switch =>
    { s with sp := s.sp.swapNewSubscribes, pc := if switch then .active else .encode }
  | .encode =>
    match o.encoded with
    | .ok =>
      { s with
        pc := .sendVideoFrame ⟨s.encoder, s.produced⟩, produced := s.produced + 1
        encodeFailCounter := 0, firstFrame := false }
    | .error needSwitch => s.encodeFailed needSwitch
  | .sendVideoFrame f => s.sendVideoFrame f
  | .rest => { s with pc := if o.bails then .active else .ok }
  | .exited => s

def step (s : VideoLoop) : VideoStep → VideoLoop
  | .onSubscribe id => s.onSubscribe id
  | .onUnsubscribe id => { s with sp := s.sp.onUnsubscribe id }
  | .join => { s with isActive := false }
  | .loop o => s.loop o

/-- A service nobody is subscribed to. -/
def start (name : ServiceName) : VideoLoop where
  sp := .new name true

/-! ## Starting on a key frame -/

/-- A frame that can be decoded without those before it. -/
def Opens (isKey : VideoFrame → Bool) (f : VideoFrame) : Prop := f.number = 0 ∨ isKey f = true

/-- After it was subscribed, a connection first hears of such a frame. -/
def OpensAfter (isKey : VideoFrame → Bool) (before after : Heard) : Prop :=
  before = .subscribed → ∀ f, after = .frame f → Opens isKey f

/-- Every subscription starts so. -/
def StartsOnKeyFrame (isKey : VideoFrame → Bool) (s : VideoLoop) : Prop :=
  ∀ id, (s.heard id).IsChain (OpensAfter isKey)

/-- New subscribers are not taken in where the encoder has produced something and no old one is
    left. -/
def TakesInEarly (s : VideoLoop) : VideoStep → Prop
  | .loop _ => s.pc = .swap false → s.sp.newSubscribes ≠ [] → s.produced = 0
  | _ => True

instance (s : VideoLoop) : ∀ a, Decidable (s.TakesInEarly a)
  | .loop _ => inferInstanceAs (Decidable (_ → _ → _))
  | .onSubscribe _ | .onUnsubscribe _ | .join => inferInstanceAs (Decidable True)

/-- The connection is subscribed and has not been sent a frame since. -/
def Waits (s : VideoLoop) (id : Int) : Prop := (s.heard id).getLast? = some .subscribed

/-- The number of the next frame that may be sent, while the loop has an encoder. -/
def next (s : VideoLoop) : Option Nat :=
  match s.pc with
  | .active | .hasSubscribes | .setUp | .exited => none
  | .sendVideoFrame f => some f.number
  | _ => some s.produced

/-- Whoever waits for the next frame waits for the first one. -/
def NextOpens (s : VideoLoop) : Prop :=
  ∀ id ∈ s.sp.subscribes, s.Waits id → ∀ n, s.next = some n → n = 0

structure Inv (isKey : VideoFrame → Bool) (s : VideoLoop) : Prop where
  snapshot : s.sp.needSnapshot = true
  next : s.NextOpens
  starts : s.StartsOnKeyFrame isKey

variable {isKey : VideoFrame → Bool} {s s' : VideoLoop}

/-- With a snapshot, who subscribes is not sent anything yet. -/
theorem subscribes_onSubscribe {sp : Service} (hsp : sp.needSnapshot = true) (id : Int) :
    (sp.onSubscribe id).subscribes = sp.subscribes ∧
      (sp.onSubscribe id).needSnapshot = true := by
  unfold Service.onSubscribe
  by_cases hid : id ∈ sp.subscribes
  · rw [dif_pos hid]
    exact ⟨rfl, hsp⟩
  · rw [dif_neg hid, dif_pos hsp]
    exact ⟨rfl, hsp⟩

theorem subscribes_onUnsubscribe (sp : Service) (id : Int) :
    (∀ j ∈ (sp.onUnsubscribe id).subscribes, j ∈ sp.subscribes) ∧
      (sp.onUnsubscribe id).needSnapshot = sp.needSnapshot := by
  unfold Service.onUnsubscribe
  split
  · exact ⟨fun j hj => List.mem_of_mem_filter hj, rfl⟩
  · exact ⟨fun j hj => hj, rfl⟩

/-- A step that lets nobody in and has no other frame coming. -/
theorem Inv.mono (hs : s.Inv isKey) (hsnap : s'.sp.needSnapshot = true)
    (hsub : ∀ id ∈ s'.sp.subscribes, id ∈ s.sp.subscribes) (hheard : s'.heard = s.heard)
    (hnext : ∀ n, s'.next = some n → n = 0 ∨ s.next = some n) : s'.Inv isKey := by
  refine ⟨hsnap, fun id hid hwaits n hn => ?_, fun id => ?_⟩
  · unfold Waits at hwaits
    rw [hheard] at hwaits
    exact (hnext n hn).elim (fun hzero => hzero) (hs.next id (hsub id hid) hwaits n)
  · rw [hheard]
    exact hs.starts id

theorem inv_onSubscribe (hs : s.Inv isKey) (id : Int) : (s.onSubscribe id).Inv isKey := by
  obtain ⟨hsub, hsnap⟩ := subscribes_onSubscribe hs.snapshot id
  have hheard : ∀ j, (s.onSubscribe id).heard j = s.heard j ∨
      j = id ∧ id ∉ s.sp.subscribes ∧
        (s.onSubscribe id).heard j = s.heard j ++ [.subscribed] := by
    intro j
    unfold onSubscribe
    dsimp only
    split
    · exact Or.inl rfl
    · rename_i hno
      by_cases hj : j = id
      · refine Or.inr ⟨hj, hno, ?_⟩
        rw [hj]
        exact Function.update_self _ _ _
      · exact Or.inl (Function.update_of_ne hj _ _)
  refine ⟨hsnap, fun j hj hwaits n hn => ?_, fun j => ?_⟩
  · replace hj : j ∈ s.sp.subscribes := by
      rw [← hsub]
      exact hj
    rcases hheard j with hsame | ⟨rfl, hno, _⟩
    · refine hs.next j hj ?_ n hn
      unfold Waits at hwaits ⊢
      rw [← hsame]
      exact hwaits
    · exact absurd hj hno
  · rcases hheard j with hsame | ⟨_, _, hmore⟩
    · rw [hsame]
      exact hs.starts j
    · rw [hmore, List.isChain_append]
      refine ⟨hs.starts j, List.isChain_singleton _, fun before _ after hafter _ f hf => ?_⟩
      cases hafter
      cases hf

/-- Where the frame is sent, it is right for those who wait. -/
theorem inv_sendVideoFrame (hs : s.Inv isKey) {f : VideoFrame} (hpc : s.pc = .sendVideoFrame f) :
    (s.sendVideoFrame f).Inv isKey := by
  have hnext : s.next = some f.number := by
    unfold next
    rw [hpc]
  refine ⟨hs.snapshot, fun id hid hwaits => ?_, fun id => ?_⟩
  · replace hid : id ∈ s.sp.subscribes := hid
    unfold Waits sendVideoFrame at hwaits
    dsimp only at hwaits
    rw [if_pos hid, List.getLast?_concat] at hwaits
    cases hwaits
  · unfold sendVideoFrame
    dsimp only
    split
    · rename_i hid
      rw [List.isChain_append]
      refine ⟨hs.starts id, List.isChain_singleton _, fun before hbefore after hafter => ?_⟩
      intro hsub g hg
      cases hafter
      cases hg
      rw [hsub] at hbefore
      exact Or.inl (hs.next id hid hbefore _ hnext)
    · exact hs.starts id

theorem inv_swap (hs : s.Inv isKey) {switch : Bool} (hpc : s.pc = .swap switch) {o : Outcome}
    (hearly : s.TakesInEarly (.loop o)) :
    Inv isKey { s with
      sp := s.sp.swapNewSubscribes, pc := if switch then .active else .encode } := by
  refine ⟨hs.snapshot, fun id hid hwaits n hn => ?_, hs.starts⟩
  cases switch with
  | true => cases hn
  | false =>
    cases hn
    rcases List.mem_append.mp hid with hnew | hold
    · exact hearly hpc (List.ne_nil_of_mem hnew)
    · refine hs.next id hold hwaits _ ?_
      unfold next
      rw [hpc]

/-- Elsewhere the loop sends nothing and takes nobody in, and the frame to come is the same or the
    first one. -/
theorem loop_other (o : Outcome) (hswap : ∀ switch, s.pc ≠ .swap switch)
    (hsend : ∀ f, s.pc ≠ .sendVideoFrame f) :
    (s.loop o).sp = s.sp ∧ (s.loop o).heard = s.heard ∧
      ∀ n, (s.loop o).next = some n → n = 0 ∨ s.next = some n := by
  have hnone : ∀ {s' : VideoLoop}, s'.next = none →
      ∀ n, s'.next = some n → n = 0 ∨ s.next = some n := by
    intro s' hnone n hn
    rw [hnone] at hn
    cases hn
  have hsame : ∀ {s' : VideoLoop}, s.next = some s.produced → s'.next = some s.produced →
      ∀ n, s'.next = some n → n = 0 ∨ s.next = some n := by
    intro s' hs hs' n hn
    rw [hs, ← hs']
    exact Or.inr hn
  unfold loop
  cases hpc : s.pc with
  | active =>
    refine ⟨rfl, rfl, hnone ?_⟩
    unfold next
    cases s.isActive with
    | true => rfl
    | false => rfl
  | hasSubscribes =>
    refine ⟨rfl, rfl, hnone ?_⟩
    unfold next
    cases s.sp.hasSubscribes with
    | true => rfl
    | false => rfl
  | setUp =>
    cases o.setUp with
    | none => exact ⟨rfl, rfl, hnone rfl⟩
    | some kind =>
      refine ⟨rfl, rfl, fun n hn => Or.inl ?_⟩
      cases hn
      rfl
  | ok =>
    refine ⟨rfl, rfl, ?_⟩
    cases s.isActive && s.sp.hasSubscribes with
    | true => exact hsame (by unfold next; rw [hpc]) rfl
    | false => exact hnone rfl
  | capture =>
    cases o.captured with
    | frame => exact ⟨rfl, rfl, hsame (by unfold next; rw [hpc]) rfl⟩
    | nothing => exact ⟨rfl, rfl, hsame (by unfold next; rw [hpc]) rfl⟩
    | bails => exact ⟨rfl, rfl, hnone rfl⟩
  | snapshot =>
    refine ⟨rfl, rfl, hsame (by unfold next; rw [hpc]) ?_⟩
    cases s.sp.newSubscribes.isEmpty with
    | true => rfl
    | false => rfl
  | callback => exact ⟨rfl, rfl, hsame (by unfold next; rw [hpc]) rfl⟩
  | swap switch => exact absurd hpc (hswap switch)
  | encode =>
    cases o.encoded with
    | ok => exact ⟨rfl, rfl, hsame (by unfold next; rw [hpc]) rfl⟩
    | error needSwitch =>
      refine ⟨rfl, rfl, ?_⟩
      unfold encodeFailed
      dsimp only
      split
      · exact hnone rfl
      · exact hsame (by unfold next; rw [hpc]) rfl
  | sendVideoFrame f => exact absurd hpc (hsend f)
  | rest =>
    refine ⟨rfl, rfl, ?_⟩
    cases o.bails with
    | true => exact hnone rfl
    | false => exact hsame (by unfold next; rw [hpc]) rfl
  | exited => exact ⟨rfl, rfl, fun n hn => Or.inr hn⟩

theorem inv_step (hs : s.Inv isKey) {a : VideoStep} (hearly : s.TakesInEarly a) :
    (s.step a).Inv isKey := by
  cases a with
  | onSubscribe id => exact inv_onSubscribe hs id
  | onUnsubscribe id =>
    obtain ⟨hsub, hsnap⟩ := subscribes_onUnsubscribe s.sp id
    exact hs.mono (hsnap.trans hs.snapshot) hsub rfl fun n hn => Or.inr hn
  | join => exact hs.mono hs.snapshot (fun _ hid => hid) rfl fun n hn => Or.inr hn
  | loop o =>
    by_cases hswap : ∃ switch, s.pc = .swap switch
    · obtain ⟨switch, hpc⟩ := hswap
      have hloop : s.step (.loop o) = { s with
          sp := s.sp.swapNewSubscribes, pc := if switch then .active else .encode } := by
        show s.loop o = _
        unfold loop
        rw [hpc]
      rw [hloop]
      exact inv_swap hs hpc hearly
    · by_cases hsend : ∃ f, s.pc = .sendVideoFrame f
      · obtain ⟨f, hpc⟩ := hsend
        have hloop : s.step (.loop o) = s.sendVideoFrame f := by
          show s.loop o = _
          unfold loop
          rw [hpc]
        rw [hloop]
        exact inv_sendVideoFrame hs hpc
      · obtain ⟨hsp, hheard, hnext⟩ := loop_other o (not_exists.mp hswap) (not_exists.mp hsend)
        exact hs.mono (hsp ▸ hs.snapshot) (fun id hid => hsp ▸ hid) hheard hnext

theorem inv_start (isKey : VideoFrame → Bool) (name : ServiceName) : (start name).Inv isKey := by
  refine ⟨rfl, fun id hid => ?_, fun id => List.isChain_nil⟩
  cases hid

/-- Over a run in which new subscribers are taken in early, every subscription starts on a frame
    that can be decoded. -/
theorem starts_on_key_frame (isKey : VideoFrame → Bool) (name : ServiceName)
    (steps : List VideoStep) (hearly : Along step TakesInEarly (start name) steps) :
    Always step (StartsOnKeyFrame isKey) (start name) steps := by
  have hinv : Always step (Inv isKey) (start name) steps :=
    always_of_along (fun s a hs ha => inv_step hs ha) (inv_start isKey name) hearly
  exact hinv.mono fun s hs => hs.starts

/-- The steps of the thread from the first look for subscribers to a frame that is sent. -/
def firstRound : List VideoStep := List.replicate 10 (.loop {})

/-- A connection comes, is sent the first frame and one more, and leaves again. -/
theorem starts_on_key_frame_one :
    Always step (StartsOnKeyFrame fun f => f.number % 120 = 0) (start (.video .monitor 0))
      (.onSubscribe 1 :: firstRound ++ List.replicate 6 (.loop {}) ++ [.onUnsubscribe 1]) :=
  starts_on_key_frame _ _ _ (by decide +kernel)

/-- The last viewer leaves between two rounds of the loop, and another one comes: he is sent the
    second frame of the encoder. -/
theorem starts_in_the_middle :
    ¬ Always step (StartsOnKeyFrame fun f => f.number % 120 = 0) (start (.video .monitor 0))
      (.onSubscribe 1 :: firstRound ++ [.onUnsubscribe 1, .onSubscribe 2] ++
        List.replicate 8 (.loop {})) := by
  intro hall
  have hchain := hall.last 2
  have hheard : (run step (start (.video .monitor 0)) (.onSubscribe 1 :: firstRound ++
      [.onUnsubscribe 1, .onSubscribe 2] ++ List.replicate 8 (.loop {}))).heard 2 =
        [.subscribed, .frame ⟨1, 1⟩] := by decide +kernel
  rw [hheard] at hchain
  have hopens := List.isChain_pair.mp hchain rfl ⟨1, 1⟩ rfl
  revert hopens
  unfold Opens
  decide

end VideoLoop

end LuodaRemote
