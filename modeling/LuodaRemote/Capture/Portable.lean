/-
  Capture through shared memory (src/server/portable_service.rs, src/shared_counter.rs).

  The service process captures a display in `run_capture`; the client asks for a display with
  `CapturerPortable::new`, takes frames with `frame` and gives the last one back in `drop`. The
  two share a block of parameters, a frame with its counter, and a flag. Every access to the
  shared memory is one atomic step, and the steps of the two interleave in any way; the calls of
  the client exclude one another (`SHMEM` is a mutex). What the service does between two accesses
  is a part of the second one.

  The service writes the parameters back after it has created a capturer, with the values it read
  before. `requests_kept_iff`: nothing is lost, and the frames are those of the display asked for,
  precisely in the runs in which no `new` has written the parameters between the service's read
  and its write.
-/
import LuodaRemote.Lib.Run

namespace LuodaRemote
open Lib

namespace Portable

/-! ## The shared memory -/

structure CapturerPara where
  recreate : Bool
  currentDisplay : Nat
  timeoutMs : Int
deriving DecidableEq

structure FrameInfo where
  length : Nat
  width : Nat
  height : Nat
deriving DecidableEq

/-- The two slots of a shared counter. -/
structure Counter where
  written : Int
  consumed : Int
deriving DecidableEq

namespace Counter

def reset : Counter := ⟨0, 0⟩

def pending (c : Counter) : Option Int := if c.written ≠ c.consumed then some c.written else none

def consume (c : Counter) (sequence : Int) : Counter := { c with consumed := sequence }

def consumePending (c : Counter) (pending : Option Int) : Counter :=
  match pending with
  | some sequence => c.consume sequence
  | none => c

def equal (c : Counter) : Bool := c.written == c.consumed

def publish (c : Counter) : Counter :=
  let next := if c.written = 2 ^ 31 - 1 then 0 else c.written + 1
  { written := next, consumed := if c.consumed = next then c.written else c.consumed }

end Counter

structure Shared where
  para : CapturerPara
  counter : Counter
  wouldBlock : Bool
  frameInfo : FrameInfo
  /-- The bytes there are for a frame. -/
  capacity : Nat
deriving DecidableEq

/-! ## The two sides -/

def maxDxgiFailTime : Nat := 5

/-- A capturer of the service, and how many requests had been made when the parameters were read
    that it was created from. -/
structure Capturer where
  display : Nat
  since : Nat
deriving DecidableEq

/-- Where `run_capture` stands. -/
inductive ServiceAt where
  /-- At the top of the loop. -/
  | loop
  /-- The parameters have been read, with `seen` requests made by then. -/
  | holding (para : CapturerPara) (seen : Nat)
  /-- There is a capturer for the parameters; the counter is looked at next. -/
  | ready
  /-- The next frame is captured. -/
  | capturing
  /-- The frame info is written, then the frame, then the flag. -/
  | wroteInfo
  | wroteFrame
  | wroteFlag
deriving DecidableEq

/-- The local variables of `run_capture`; `last_current_display` is the display of the capturer. -/
structure Service where
  pc : ServiceAt
  capturer : Option Capturer
  firstFrameCaptured : Bool
  dxgiFailedTimes : Nat
deriving DecidableEq

/-- Where the client stands in a call. -/
inductive ClientAt where
  | idle
  /-- In `new`: the counter is reset, then the flag is set. -/
  | newReset (display : Nat)
  | newFlagged (display : Nat)
  /-- In `frame`: the last frame is given back, the parameters are read, and written if needed. -/
  | frameConsumed (timeout : Int) (width height : Nat)
  | frameRead (timeout : Int) (width height : Nat) (para : CapturerPara)
  | framePara (width height : Nat)
  | frameSequence (width height : Nat) (sequence : Int)
deriving DecidableEq

/-- A frame that was published: the display it shows, and the one that had been asked for if the
    capturer was created after the service next read the parameters. -/
structure Published where
  display : Nat
  asked : Option Nat
deriving DecidableEq

structure State where
  shared : Shared
  service : Service
  client : ClientAt
  /-- How often `new` wrote the parameters, and with which display last. -/
  requests : Nat
  requested : Nat
  /-- A `set_para` overwrote a newer display or cleared a newer request. -/
  lost : Bool
  published : List Published
deriving DecidableEq

/-- What `frame` of the capturer comes to. -/
inductive Captured where
  | pixelBuffer (info : FrameInfo)
  | texture
  | desktopChanged
  /-- An error that is not `WouldBlock`. -/
  | failed (isGdi : Bool)
  | wouldBlock
deriving DecidableEq

inductive Event where
  /-- `get_para` of the service. -/
  | serviceRead
  /-- The service goes on with the parameters: the number of displays, or that they could not be
      enumerated, and whether a capturer could be created. -/
  | serviceUse (displays : Option Nat) (createOk : Bool)
  /-- The service looks at the counter. -/
  | serviceCounter
  | serviceCapture (captured : Captured)
  /-- The service writes the next part of a frame. -/
  | servicePublish
  | clientNew (display : Nat)
  | clientFrame (timeout : Int) (width height : Nat) (pendingSequence : Option Int)
  | clientDrop (pendingSequence : Option Int)
  /-- The client goes on with its call. -/
  | clientStep
deriving DecidableEq

/-! ## Steps of the service -/

def stepUse (s : State) (para : CapturerPara) (seen : Nat) (displays : Option Nat)
    (createOk : Bool) : State :=
  match s.service.capturer with
  | none =>
    match displays with
    | none => { s with service := { s.service with pc := .loop } }
    | some n =>
      if n ≤ para.currentDisplay ∨ createOk = false then
        { s with service := { s.service with pc := .loop } }
      else
        { s with
          shared := { s.shared with
            para := ⟨false, para.currentDisplay, para.timeoutMs⟩ }
          service :=
            { pc := .ready
              capturer := some ⟨para.currentDisplay, seen⟩
              firstFrameCaptured := false
              dxgiFailedTimes :=
                if maxDxgiFailTime < s.service.dxgiFailedTimes then 0
                else s.service.dxgiFailedTimes }
          -- a request that came after the read is overwritten and cleared
          lost := s.lost || seen != s.requests }
  | some c =>
    if para.recreate ∨ para.currentDisplay ≠ c.display then
      { s with service := { s.service with pc := .loop, capturer := none } }
    else { s with service := { s.service with pc := .ready } }

def stepCapture (s : State) : Captured → State
  | .pixelBuffer info =>
    { s with shared := { s.shared with frameInfo := info }
             service := { s.service with pc := .wroteInfo } }
  | .texture => { s with service := { s.service with pc := .loop } }
  | .desktopChanged => { s with service := { s.service with pc := .loop, capturer := none } }
  | .failed isGdi =>
    let failed := if isGdi then s.service.dxgiFailedTimes else s.service.dxgiFailedTimes + 1
    if maxDxgiFailTime < failed then
      { s with shared := { s.shared with wouldBlock := false }
               service := { s.service with pc := .loop, capturer := none,
                                           dxgiFailedTimes := failed } }
    else { s with service := { s.service with pc := .loop, dxgiFailedTimes := failed } }
  | .wouldBlock =>
    { s with shared := { s.shared with wouldBlock := true }
             service := { s.service with pc := .loop } }

/-- What is recorded of a frame of the capturer. -/
def State.publishedBy (s : State) (c : Capturer) : Published where
  display := c.display
  asked := if c.since = s.requests then some s.requested else none

def stepPublish (s : State) : State :=
  match s.service.pc with
  | .wroteInfo => { s with service := { s.service with pc := .wroteFrame } }
  | .wroteFrame =>
    { s with shared := { s.shared with wouldBlock := true }
             service := { s.service with pc := .wroteFlag } }
  | .wroteFlag =>
    { s with shared := { s.shared with counter := s.shared.counter.publish }
             service := { s.service with pc := .loop, firstFrameCaptured := true,
                                         dxgiFailedTimes := 0 }
             published := s.published ++ (s.service.capturer.map s.publishedBy).toList }
  | _ => s

/-! ## Steps of the client -/

def stepClient (s : State) : State :=
  match s.client with
  | .idle => s
  | .newReset display =>
    { s with shared := { s.shared with wouldBlock := true }, client := .newFlagged display }
  | .newFlagged display =>
    { s with shared := { s.shared with para := ⟨true, display, 33⟩ }
             client := .idle
             requests := s.requests + 1
             requested := display }
  | .frameConsumed timeout width height =>
    { s with client := .frameRead timeout width height s.shared.para }
  | .frameRead timeout width height para =>
    if timeout ≠ para.timeoutMs then
      { s with shared := { s.shared with para := { para with timeoutMs := timeout } }
               client := .framePara width height
               -- only the service can have changed the display since it was read
               lost := s.lost || s.shared.para.currentDisplay != para.currentDisplay }
    else { s with client := .framePara width height }
  | .framePara width height =>
    match s.shared.counter.pending with
    | some sequence => { s with client := .frameSequence width height sequence }
    | none => { s with client := .idle }
  | .frameSequence width height sequence =>
    -- a frame that does not fit is given back at once
    if s.shared.frameInfo.width ≠ width ∨ s.shared.frameInfo.height ≠ height ∨
        s.shared.capacity < s.shared.frameInfo.length then
      { s with shared := { s.shared with counter := s.shared.counter.consume sequence }
               client := .idle }
    else { s with client := .idle }

def step (s : State) : Event → State
  | .serviceRead =>
    match s.service.pc with
    | .loop =>
      { s with service := { s.service with pc := .holding s.shared.para s.requests } }
    | _ => s
  | .serviceUse displays createOk =>
    match s.service.pc with
    | .holding para seen => stepUse s para seen displays createOk
    | _ => s
  | .serviceCounter =>
    match s.service.pc with
    | .ready =>
      if s.service.firstFrameCaptured ∧ s.shared.counter.equal = false then
        { s with service := { s.service with pc := .loop } }
      else { s with service := { s.service with pc := .capturing } }
    | _ => s
  | .serviceCapture captured =>
    match s.service.pc with
    | .capturing => stepCapture s captured
    | _ => s
  | .servicePublish => stepPublish s
  | .clientNew display =>
    match s.client with
    | .idle => { s with shared := { s.shared with counter := .reset }, client := .newReset display }
    | _ => s
  | .clientFrame timeout width height pendingSequence =>
    match s.client with
    | .idle =>
      { s with shared := { s.shared with counter :=
                 s.shared.counter.consumePending pendingSequence }
               client := .frameConsumed timeout width height }
    | _ => s
  | .clientDrop pendingSequence =>
    match s.client with
    | .idle =>
      { s with shared := { s.shared with counter :=
                 s.shared.counter.consumePending pendingSequence } }
    | _ => s
  | .clientStep => stepClient s

/-- Fresh shared memory and no capturer. -/
def State.init (capacity : Nat) : State where
  shared := ⟨⟨false, 0, 0⟩, .reset, false, ⟨0, 0, 0⟩, capacity⟩
  service := ⟨.loop, none, false, 0⟩
  client := .idle
  requests := 0
  requested := 0
  lost := false
  published := []

/-! ## The property -/

/-- No write lost anything, and each frame of a capturer that was created after the service next
    read the parameters is a frame of the display asked for last. -/
def State.Kept (s : State) : Prop :=
  s.lost = false ∧ ∀ p ∈ s.published, ∀ d, p.asked = some d → p.display = d

/-- The step is not the service's write of parameters that it read before the last request. -/
def InTime (s : State) : Event → Prop
  | .serviceUse (some n) true =>
    ∀ para seen, s.service.pc = .holding para seen → s.service.capturer = none →
      para.currentDisplay < n → seen = s.requests
  | _ => True

/-! ## What holds as long as nothing is lost -/

/-- What was read or created with all requests seen is for the display asked for. -/
def State.UpToDate (s : State) (seen display : Nat) : Prop :=
  seen ≤ s.requests ∧ (seen = s.requests → display = s.requested)

structure State.Sound (s : State) : Prop where
  para : s.shared.para.currentDisplay = s.requested
  holding : ∀ para seen, s.service.pc = .holding para seen → s.UpToDate seen para.currentDisplay
  capturer : ∀ c, s.service.capturer = some c → s.UpToDate c.since c.display
  reading : ∀ t w h para, s.client = .frameRead t w h para → para.currentDisplay = s.requested

variable {s : State}

theorem sound_init (capacity : Nat) : (State.init capacity).Sound :=
  ⟨rfl, nofun, nofun, nofun⟩

/-- A step of the service that leaves the parameters alone and reads nothing. -/
theorem State.Sound.service (hs : s.Sound) {shared : Shared} {service : Service} {lost : Bool}
    {published : List Published} (hpara : shared.para = s.shared.para)
    (hat : ∀ para seen, service.pc ≠ .holding para seen)
    (hcapturer : service.capturer = s.service.capturer ∨ service.capturer = none) :
    State.Sound { s with shared := shared, service := service, lost := lost,
                         published := published } := by
  refine ⟨?_, fun para seen heq => absurd heq (hat para seen), fun c hc => ?_, hs.reading⟩
  · show shared.para.currentDisplay = _
    rw [hpara]
    exact hs.para
  · rcases hcapturer with heq | heq
    · exact hs.capturer c (heq ▸ hc)
    · have hnone : service.capturer = some c := hc
      rw [heq] at hnone
      cases hnone

/-- A step of the client that leaves the parameters alone and does not read them. -/
theorem State.Sound.client (hs : s.Sound) {shared : Shared} {client : ClientAt}
    (hpara : shared.para = s.shared.para) (hat : ∀ t w h para, client ≠ .frameRead t w h para) :
    State.Sound { s with shared := shared, client := client } := by
  refine ⟨?_, hs.holding, hs.capturer, fun t w h para heq => absurd heq (hat t w h para)⟩
  show shared.para.currentDisplay = _
  rw [hpara]
  exact hs.para

theorem sound_stepUse (hs : s.Sound) {para : CapturerPara} {seen : Nat} (displays : Option Nat)
    (createOk : Bool) (hat : s.service.pc = .holding para seen)
    (hlost : (stepUse s para seen displays createOk).lost = false) :
    (stepUse s para seen displays createOk).Sound := by
  unfold stepUse at hlost ⊢
  split
  · next hnone =>
      rw [hnone] at hlost
      dsimp only at hlost
      split
      · exact hs.service rfl nofun (.inl rfl)
      · next n =>
          dsimp only at hlost
          split
          · exact hs.service rfl nofun (.inl rfl)
          · next hcreate =>
              rw [if_neg hcreate] at hlost
              -- nothing is lost, so all requests had been seen
              have hseen : seen = s.requests := by
                simpa using (Bool.or_eq_false_iff.mp hlost).2
              obtain ⟨-, hdisplay⟩ := hs.holding para seen hat
              refine ⟨hdisplay hseen, nofun, fun c hc => ?_, hs.reading⟩
              cases hc
              exact hs.holding para seen hat
  · split
    · exact hs.service rfl nofun (.inr rfl)
    · exact hs.service rfl nofun (.inl rfl)

theorem sound_stepCapture (hs : s.Sound) (captured : Captured) :
    (stepCapture s captured).Sound := by
  unfold stepCapture
  split
  · exact hs.service rfl nofun (.inl rfl)
  · exact hs.service rfl nofun (.inl rfl)
  · exact hs.service rfl nofun (.inr rfl)
  · next isGdi =>
      dsimp only
      generalize (if isGdi = true then s.service.dxgiFailedTimes
        else s.service.dxgiFailedTimes + 1) = failed
      split
      · exact hs.service rfl nofun (.inr rfl)
      · exact hs.service rfl nofun (.inl rfl)
  · exact hs.service rfl nofun (.inl rfl)

theorem sound_stepPublish (hs : s.Sound) : (stepPublish s).Sound := by
  unfold stepPublish
  split
  · exact hs.service rfl nofun (.inl rfl)
  · exact hs.service rfl nofun (.inl rfl)
  · exact hs.service rfl nofun (.inl rfl)
  · exact hs

/-- A request makes everything that was read before it out of date. -/
theorem State.UpToDate.request {seen display : Nat} (h : s.UpToDate seen display) (asked : Nat)
    (shared : Shared) (client : ClientAt) :
    State.UpToDate { s with shared := shared, client := client, requests := s.requests + 1,
                            requested := asked } seen display := by
  obtain ⟨hle, -⟩ := h
  refine ⟨Nat.le_succ_of_le hle, fun heq => ?_⟩
  have hno : seen = s.requests + 1 := heq
  omega

theorem sound_stepClient (hs : s.Sound) : (stepClient s).Sound := by
  unfold stepClient
  split
  · exact hs
  · exact hs.client rfl nofun
  · next display hclient =>
      refine ⟨rfl, fun para seen heq => ?_, fun c hc => ?_, nofun⟩
      · exact (hs.holding para seen heq).request _ _ _
      · exact (hs.capturer c hc).request _ _ _
  · next t w h hclient =>
      refine ⟨hs.para, hs.holding, hs.capturer, fun t' w' h' para heq => ?_⟩
      cases heq
      exact hs.para
  · next t w h para hclient =>
      split
      · exact ⟨hs.reading t w h para hclient, hs.holding, hs.capturer, nofun⟩
      · exact hs.client rfl nofun
  · split
    · exact hs.client rfl nofun
    · exact hs.client rfl nofun
  · split
    · exact hs.client rfl nofun
    · exact hs.client rfl nofun

theorem sound_step (hs : s.Sound) (e : Event) (hlost : (step s e).lost = false) :
    (step s e).Sound := by
  cases e with
  | serviceRead =>
    rw [step]
    split
    · refine ⟨hs.para, fun para seen heq => ?_, hs.capturer, hs.reading⟩
      cases heq
      exact ⟨le_refl _, fun _ => hs.para⟩
    · exact hs
  | serviceUse displays createOk =>
    rw [step] at hlost ⊢
    split
    · next para seen hat =>
        rw [hat] at hlost
        exact sound_stepUse hs displays createOk hat hlost
    · exact hs
  | serviceCounter =>
    rw [step]
    split
    · split
      · exact hs.service rfl nofun (.inl rfl)
      · exact hs.service rfl nofun (.inl rfl)
    · exact hs
  | serviceCapture captured =>
    rw [step]
    split
    · exact sound_stepCapture hs captured
    · exact hs
  | servicePublish => exact sound_stepPublish hs
  | clientNew display =>
    rw [step]
    split
    · exact hs.client rfl nofun
    · exact hs
  | clientFrame timeout width height pendingSequence =>
    rw [step]
    split
    · exact hs.client rfl nofun
    · exact hs
  | clientDrop pendingSequence =>
    rw [step]
    split
    · next hidle => exact ⟨hs.para, hs.holding, hs.capturer, hs.reading⟩
    · exact hs
  | clientStep => exact sound_stepClient hs

/-! ## One step -/

theorem State.Kept.of_same {s' : State} (hk : s.Kept) (hlost : s'.lost = s.lost)
    (hpublished : s'.published = s.published) : s'.Kept := by
  obtain ⟨hno, hframes⟩ := hk
  exact ⟨hlost.trans hno, hpublished ▸ hframes⟩

theorem kept_stepUse_iff (hk : s.Kept) {para : CapturerPara} {seen : Nat} (displays : Option Nat)
    (createOk : Bool) (hat : s.service.pc = .holding para seen) :
    (stepUse s para seen displays createOk).Kept ↔ InTime s (.serviceUse displays createOk) := by
  cases hcapturer : s.service.capturer with
  | some c =>
    have hkept : (stepUse s para seen displays createOk).Kept := by
      unfold stepUse
      rw [hcapturer]
      dsimp only
      split
      · exact hk.of_same rfl rfl
      · exact hk.of_same rfl rfl
    refine iff_of_true hkept ?_
    unfold InTime
    split
    · intro para' seen' _ hnone
      rw [hcapturer] at hnone
      cases hnone
    · trivial
  | none =>
    cases displays with
    | none =>
      refine iff_of_true ?_ trivial
      unfold stepUse
      rw [hcapturer]
      exact hk.of_same rfl rfl
    | some n =>
      by_cases hcreate : n ≤ para.currentDisplay ∨ createOk = false
      · refine iff_of_true ?_ ?_
        · simp only [stepUse, hcapturer, if_pos hcreate]
          exact hk.of_same rfl rfl
        · cases createOk with
          | false => trivial
          | true =>
            intro para' seen' hat' _ hlt
            rw [hat] at hat'
            cases hat'
            have hle : n ≤ para.currentDisplay := by simpa using hcreate
            omega
      · obtain ⟨hlt, hok⟩ := not_or.mp hcreate
        rw [Bool.not_eq_false] at hok
        subst hok
        have hlost : (stepUse s para seen (some n) true).lost = (seen != s.requests) := by
          simp only [stepUse, hcapturer, if_neg hcreate, hk.1, Bool.false_or]
        have hpublished : (stepUse s para seen (some n) true).published = s.published := by
          simp only [stepUse, hcapturer, if_neg hcreate]
        constructor
        · intro hkept para' seen' hat' _ _
          rw [hat] at hat'
          cases hat'
          have hno := hlost.symm.trans hkept.1
          simpa using hno
        · intro htime
          have hseen := htime para seen hat hcapturer (by omega)
          refine ⟨?_, hpublished ▸ hk.2⟩
          rw [hlost, hseen]
          simp

theorem kept_stepPublish (hs : s.Sound) (hk : s.Kept) : (stepPublish s).Kept := by
  unfold stepPublish
  split
  · exact hk.of_same rfl rfl
  · exact hk.of_same rfl rfl
  · refine ⟨hk.1, fun p hp d hd => ?_⟩
    rcases List.mem_append.mp hp with hold | hnew
    · exact hk.2 p hold d hd
    · rw [Option.mem_toList, Option.map_eq_some_iff] at hnew
      obtain ⟨c, hc, rfl⟩ := hnew
      simp only [State.publishedBy] at hd ⊢
      split at hd
      · next hsince =>
          cases hd
          exact (hs.capturer c hc).2 hsince
      · cases hd
  · exact hk

theorem kept_stepClient (hs : s.Sound) (hk : s.Kept) : (stepClient s).Kept := by
  unfold stepClient
  split
  · exact hk
  · exact hk.of_same rfl rfl
  · exact hk.of_same rfl rfl
  · exact hk.of_same rfl rfl
  · next t w h para hclient =>
      split
      · refine ⟨?_, hk.2⟩
        show (s.lost || _) = false
        rw [hk.1, hs.para, hs.reading t w h para hclient]
        simp
      · exact hk.of_same rfl rfl
  · split
    · exact hk.of_same rfl rfl
    · exact hk.of_same rfl rfl
  · split
    · exact hk.of_same rfl rfl
    · exact hk.of_same rfl rfl

/-- From a state in which nothing was lost, only a late write of the service loses something. -/
theorem kept_step_iff (hs : s.Sound) (hk : s.Kept) (e : Event) :
    (step s e).Kept ↔ InTime s e := by
  cases e with
  | serviceUse displays createOk =>
    rw [step]
    split
    · next para seen hat => exact kept_stepUse_iff hk displays createOk hat
    · next hat =>
        refine iff_of_true hk ?_
        unfold InTime
        split
        · intro para seen hholding
          exact absurd hholding (hat para seen)
        · trivial
  | serviceRead =>
    refine iff_of_true ?_ trivial
    rw [step]
    split
    · exact hk.of_same rfl rfl
    · exact hk
  | serviceCounter =>
    refine iff_of_true ?_ trivial
    rw [step]
    split
    · split
      · exact hk.of_same rfl rfl
      · exact hk.of_same rfl rfl
    · exact hk
  | serviceCapture captured =>
    refine iff_of_true ?_ trivial
    rw [step]
    split
    · cases captured with
      | failed isGdi =>
        simp only [stepCapture]
        generalize (if isGdi = true then s.service.dxgiFailedTimes
          else s.service.dxgiFailedTimes + 1) = failed
        split
        · exact hk.of_same rfl rfl
        · exact hk.of_same rfl rfl
      | pixelBuffer info => exact hk.of_same rfl rfl
      | texture => exact hk.of_same rfl rfl
      | desktopChanged => exact hk.of_same rfl rfl
      | wouldBlock => exact hk.of_same rfl rfl
    · exact hk
  | servicePublish => exact iff_of_true (kept_stepPublish hs hk) trivial
  | clientNew display =>
    refine iff_of_true ?_ trivial
    rw [step]
    split
    · exact hk.of_same rfl rfl
    · exact hk
  | clientFrame timeout width height pendingSequence =>
    refine iff_of_true ?_ trivial
    rw [step]
    split
    · exact hk.of_same rfl rfl
    · exact hk
  | clientDrop pendingSequence =>
    refine iff_of_true ?_ trivial
    rw [step]
    split
    · exact hk.of_same rfl rfl
    · exact hk
  | clientStep => exact iff_of_true (kept_stepClient hs hk) trivial

/-! ## Every run -/

/-- What was lost stays lost. -/
theorem lost_step (h : s.lost = true) (e : Event) : (step s e).lost = true := by
  cases e <;> simp only [step, stepUse, stepCapture, stepPublish, stepClient] <;>
    (repeat' split) <;> simp [h]

/-- Requests are kept throughout a run precisely when the service never writes parameters back
    that it read before the last request. -/
theorem requests_kept_iff (capacity : Nat) (events : List Event) :
    Always step State.Kept (.init capacity) events ↔ Along step InTime (.init capacity) events := by
  refine always_iff_along (I := fun s => s.lost = false → s.Sound) ?_ ?_ ?_ ?_
  · intro s e hs hlost
    have hbefore : s.lost = false := by
      rw [← Bool.not_eq_true]
      exact fun h => Bool.false_ne_true (hlost.symm.trans (lost_step h e))
    exact sound_step (hs hbefore) e hlost
  · intro s e hs hk
    exact kept_step_iff (hs hk.1) hk e
  · exact fun _ => sound_init capacity
  · exact ⟨rfl, fun p hp => absurd hp List.not_mem_nil⟩

/-- The service has read the parameters and creates a capturer for display 0, while the client
    asks for display 1. -/
def lateWrite : List Event :=
  [.serviceRead, .clientNew 1, .clientStep, .clientStep, .serviceUse (some 2) true]

theorem request_overwritten : ¬ Always step State.Kept (.init 0) lateWrite := by
  intro h
  exact absurd h.last.1 (by decide)

end Portable
end LuodaRemote
