/-
  The frame rate of a video session (`src/server/video_qos.rs`).

  Each user has a rate of his own, found from the delays of his network and from the rate in force;
  he may cap it. The rate in force is the least of them, below every cap and almost nothing while a
  user does not answer. Besides it there is a ratio for the bitrate, which goes by the quality that
  was asked for last.

  The arithmetic is checked, and floating point numbers are fractions. An event comes at an instant,
  in milliseconds; the map of the users may be in another order after any event.
-/
import LuodaRemote.Lib.Checked
import Mathlib.Data.List.AList

namespace LuodaRemote.VideoQos
open Lib

def fpsDefault : Nat := 30
def minFps : Nat := 1
def maxFps : Nat := 120
def initFps : Nat := 30

def brBest : ℚ := 3 / 2
def brBalanced : ℚ := 4 / 5
def brSpeed : ℚ := 1 / 2
def brMax : ℚ := 40
def brMin : ℚ := 1 / 5
def brMinHighResolution : ℚ := 1 / 10
def maxBrMultiple : ℚ := 3 / 2

def historyDelayLen : Nat := 8
def adjustRatioInterval : Nat := 2
def dynamicScreenThreshold : Nat := 2
def delayThreshold150Ms : Nat := 150

/-! ## Round trips -/

structure RttCalculator where
  minRtt : Option Nat
  windowMinRtt : Option Nat
  smoothedRtt : Option Nat
  samples : List Nat
  deriving DecidableEq

namespace RttCalculator

def windowSamples : Nat := 60
def minSamples : Nat := 10
def alpha : ℚ := 1 / 2

/-- The least of a delay and those before it. -/
def lower (least : Option Nat) (delay : Nat) : Option Nat :=
  match least with
  | some least => some (if delay < least then delay else least)
  | none => some delay

def update (c : RttCalculator) (delay : Nat) : RttCalculator :=
  let minRtt := lower c.minRtt delay
  let full := decide (windowSamples ≤ c.samples.length)
  let samples := if full then c.samples.tail else c.samples
  let windowMinRtt :=
    if full && c.samples.head?.isSome && c.samples.head? == c.windowMinRtt then samples.min?
    else c.windowMinRtt
  let samples := samples ++ [delay]
  let windowMinRtt := lower windowMinRtt delay
  let smoothedRtt :=
    if windowSamples ≤ samples.length then
      match minRtt, windowMinRtt with
      | some min, some windowMin => some (U32.ofRat ((1 - alpha) * min + alpha * windowMin))
      | _, _ => c.smoothedRtt
    else c.smoothedRtt
  { minRtt, windowMinRtt, smoothedRtt, samples }

def getRtt (c : RttCalculator) : Option Nat :=
  match c.smoothedRtt with
  | some rtt => some rtt
  | none => if minSamples ≤ c.samples.length then c.minRtt else none

end RttCalculator

/-! ## Users -/

structure UserDelay where
  responseDelayed : Bool := false
  delayHistory : List Nat := []
  fps : Option Nat := none
  rttCalculator : RttCalculator := ⟨none, none, none, []⟩
  quickIncreaseFpsCount : Nat := 0
  increaseFpsCount : Nat := 0
  deriving DecidableEq

namespace UserDelay

def addDelay (d : UserDelay) (delay : Nat) : UserDelay :=
  let history :=
    if historyDelayLen < d.delayHistory.length then d.delayHistory.tail else d.delayHistory
  { d with rttCalculator := d.rttCalculator.update delay, delayHistory := history ++ [delay] }

def avgDelay (d : UserDelay) : Except Fault Nat :=
  if 0 < d.delayHistory.length then do
    let sum ← U32.sum d.delayHistory
    let avg ← U32.div sum (d.delayHistory.length % 2 ^ 32)
    match d.rttCalculator.getRtt with
    | some rtt => if rtt < avg then U32.sub avg rtt else pure avg
    | none => pure avg
  else pure delayThreshold150Ms

/-- The first part of the rule: the count of good samples in a row, and the rate before the caps.
    `dividendMs` is the least product of delay and rate. -/
def adaptFps (quickIncreaseFpsCount fps minFps normalFps dividendMs oldAvgDelay avgDelay : Nat) :
    Except Fault (Nat × Nat) :=
  if avgDelay < 50 then
    if 3 ≤ quickIncreaseFpsCount + 1 then do
      let fps ← U32.add fps 5
      pure (0, max minFps fps)
    else do
      let fps ← U32.add fps (if fps < normalFps then 1 else 0)
      pure (quickIncreaseFpsCount + 1, max minFps fps)
  else if avgDelay < 100 then do
    let fps ← U32.add fps (if avgDelay < oldAvgDelay then if fps < normalFps then 1 else 0 else 0)
    pure (quickIncreaseFpsCount, max minFps fps)
  else if avgDelay < delayThreshold150Ms then pure (quickIncreaseFpsCount, max minFps fps)
  else do
    let times ← divRat avgDelay delayThreshold150Ms
    let devide ← divRat fps times
    let devideFps := U32.ofRat ⌈devide⌉
    if avgDelay < 200 then pure (quickIncreaseFpsCount, max minFps devideFps)
    else if avgDelay < 300 then pure (quickIncreaseFpsCount, min minFps devideFps)
    else if avgDelay < 600 then do
      let fps ← U32.div dividendMs avgDelay
      pure (quickIncreaseFpsCount, fps)
    else do
      let fps ← U32.div dividendMs avgDelay
      pure (quickIncreaseFpsCount, min fps devideFps)

/-- What a delay changes: the history, the counts and the rate of the user. -/
def networkDelay (d : UserDelay) (delay fps highestFps minFps normalFps dividendMs : Nat) :
    Except Fault UserDelay := do
  let delay := max delay 10
  let oldAvgDelay ← d.avgDelay
  let d := d.addDelay delay
  let avgDelay ← d.avgDelay
  let avgDelay := max avgDelay 10
  let (quickIncreaseFpsCount, fps) ←
    adaptFps d.quickIncreaseFpsCount fps minFps normalFps dividendMs oldAvgDelay avgDelay
  let increaseFpsCount := if avgDelay < delayThreshold150Ms then d.increaseFpsCount + 1 else 0
  let fps ← (if 3 ≤ increaseFpsCount then U32.add fps 1 else pure fps)
  let fps ← clamp VideoQos.minFps highestFps fps
  pure { d with
    increaseFpsCount := if 3 ≤ increaseFpsCount then 0 else increaseFpsCount
    quickIncreaseFpsCount := if 50 < avgDelay then 0 else quickIncreaseFpsCount
    fps := some fps }

end UserDelay

inductive Quality where
  | best
  | balanced
  | low
  | custom (ratio : ℚ)
  deriving DecidableEq

def Quality.ratio : Quality → ℚ
  | best => brBest
  | balanced => brBalanced
  | low => brSpeed
  | custom ratio => ratio

structure UserData where
  autoAdjustFps : Option Nat := none
  customFps : Option Nat := none
  /-- When it was asked for, and what. -/
  quality : Option (Int × Quality) := none
  delay : UserDelay := {}
  deriving DecidableEq

structure DisplayData where
  sendCounter : Nat := 0
  supportChangingQuality : Bool := false
  deriving DecidableEq

/-- A `HashMap`: each key once, in an order that `rehash` may change. -/
abbrev Table (κ α : Type) : Type := AList fun _ : κ => α

namespace Table

variable {κ α : Type} [DecidableEq κ]

def values (t : Table κ α) : List α := t.entries.map Sigma.snd

/-- `iter_mut`. -/
def update (t : Table κ α) (f : κ → α → α) : Table κ α where
  entries := t.entries.map fun e => ⟨e.1, f e.1 e.2⟩
  nodupKeys := by
    have hkeys := t.nodupKeys
    rw [List.NodupKeys, List.keys] at hkeys ⊢
    rwa [List.map_map]

/-- What is done through `get_mut`. -/
def modify (t : Table κ α) (k : κ) (f : α → α) : Table κ α :=
  t.update fun k' a => if k' = k then f a else a

end Table

structure VideoQoS where
  fps : Nat
  ratio : ℚ
  users : Table Int UserData
  displays : Table String DisplayData
  bitrateStore : Nat
  adjustRatioInstant : Nat
  abrConfig : Bool
  newUserInstant : Nat
  deriving DecidableEq

/-- `VideoQoS::default` at an instant, in milliseconds. -/
def VideoQoS.init (now : Nat) : VideoQoS where
  fps := fpsDefault
  ratio := brBalanced
  users := ∅
  displays := ∅
  bitrateStore := 0
  adjustRatioInstant := now
  abrConfig := true
  newUserInstant := now

/-- `instant.elapsed().as_secs()`. -/
def elapsedSecs (now instant : Nat) : Nat := (now - instant) / 1000

namespace VideoQoS

variable (s : VideoQoS)

/-! ## Rates and ratios -/

def userFps (u : UserData) : Nat :=
  let fps := u.customFps.getD fpsDefault
  match u.autoAdjustFps with
  | some autoAdjustFps => if fps = 0 ∨ autoAdjustFps < fps then autoAdjustFps else fps
  | none => fps

def highestFps : Except Fault Nat :=
  let fps := ((s.users.values.map userFps).filter (minFps ≤ ·)).min?.getD fpsDefault
  clamp minFps maxFps fps

def adjustFps (now : Nat) : Except Fault VideoQoS := do
  let highestFps ← s.highestFps
  let fps := (s.users.values.map (·.delay.fps.getD initFps)).min?.getD initFps
  let fps :=
    if s.users.values.any (·.delay.responseDelayed) then
      if minFps + 1 < fps then minFps + 1 else fps
    else fps
  let fps :=
    if elapsedSecs now s.newUserInstant < 1 then if initFps < fps then initFps else fps else fps
  let fps ← clamp minFps highestFps fps
  pure { s with fps }

/-- Of two that were asked for at the same time, the one that comes later in the map. -/
def later (latest : Option (Int × Quality)) (q : Int × Quality) : Option (Int × Quality) :=
  match latest with
  | some p => if q.1 < p.1 then some p else some q
  | none => some q

def latestQuality : Quality :=
  match (s.users.values.filterMap (·.quality)).foldl later none with
  | some q => q.2
  | none => .balanced

def inVbrState : Bool := s.abrConfig && s.displays.values.all (·.supportChangingQuality)

/-- `min`, or the ratio of a bitrate of 1 Mbps if that is less. -/
def lowered (min : ℚ) (ratio1Mbps : Option ℚ) : ℚ :=
  match ratio1Mbps with
  | some ratio1Mbps => if ratio1Mbps < min then ratio1Mbps else min
  | none => min

def minRatio (ratio1Mbps : Option ℚ) : Quality → ℚ
  | .best => max (lowered (brBest / (5 / 2)) ratio1Mbps) brMin
  | .balanced => max (lowered (min (brBalanced / 2) (2 / 5)) ratio1Mbps) brMinHighResolution
  | .low => brMinHighResolution
  | .custom _ => brMinHighResolution

def delayFactor (maxDelay : Nat) (dynamicScreen : Bool) : ℚ :=
  if maxDelay < 50 then if dynamicScreen then 23 / 20 else 1
  else if maxDelay < 100 then if dynamicScreen then 11 / 10 else 1
  else if maxDelay < delayThreshold150Ms then if dynamicScreen then 21 / 20 else 1
  else if maxDelay < 200 then 19 / 20
  else if maxDelay < 300 then 9 / 10
  else if maxDelay < 500 then 17 / 20
  else 4 / 5

def ratio1Mbps : Except Fault (Option ℚ) :=
  if 0 < s.bitrateStore then do
    let ratio ← divRat (s.ratio * 1000) s.bitrateStore
    pure (some (max ratio brMinHighResolution))
  else pure none

/-- The ratio with 300 kbps more. -/
def ratioAddStepKbps : Except Fault (Option ℚ) :=
  if 0 < s.bitrateStore then do
    let bitrate ← U32.add s.bitrateStore 300
    let ratio ← divRat (bitrate * s.ratio) s.bitrateStore
    pure (some ratio)
  else pure none

def adjustRatio (dynamicScreen : Bool) (now : Nat) : Except Fault VideoQoS :=
  if !s.inVbrState then pure s
  else do
    let delays : List Nat ← s.users.values.mapM (·.delay.avgDelay)
    match delays.max? with
    | none => pure s
    | some maxDelay => do
      let targetQuality := s.latestQuality
      let ratio1Mbps ← s.ratio1Mbps
      let ratioAddStepKbps ← s.ratioAddStepKbps
      let v := s.ratio * delayFactor maxDelay dynamicScreen
      let v :=
        match ratioAddStepKbps with
        | some step => if step < v ∧ s.ratio < step ∧ brSpeed ≤ s.ratio then step else v
        | none => v
      let ratio ← clamp (minRatio ratio1Mbps targetQuality) (targetQuality.ratio * maxBrMultiple) v
      pure { s with ratio, adjustRatioInstant := now }

/-! ## Operations -/

def onConnectionOpen (id : Int) (enableAbr : String) (now : Nat) : VideoQoS :=
  { s with users := s.users.insert id {}, abrConfig := enableAbr != "N", newUserInstant := now }

def onConnectionClose (id : Int) (now : Nat) : VideoQoS :=
  let users := s.users.erase id
  if users.entries.isEmpty then .init now else { s with users }

def userCustomFps (id : Int) (fps : Nat) : VideoQoS :=
  if fps < minFps ∨ maxFps < fps then s
  else { s with users := s.users.modify id fun u => { u with customFps := some fps } }

def userAutoAdjustFps (id : Int) (fps : Nat) : VideoQoS :=
  if fps < minFps ∨ maxFps < fps then s
  else { s with users := s.users.modify id fun u => { u with autoAdjustFps := some fps } }

def convertQuality (q : Int) : Except Fault Quality :=
  if q = 3 then pure .balanced
  else if q = 2 then pure .low
  else if q = 4 then pure .best
  else do
    -- `((q >> 8 & 0xFFF) * 2) as f32 / 100.0`
    let b : ℚ := ((q / 256 % 4096 * 2 : Int) : ℚ) / 100
    let b ← clamp brMin brMax b
    pure (.custom b)

def userImageQuality (id imageQuality time : Int) : Except Fault VideoQoS := do
  let quality ← convertQuality imageQuality
  if (s.users.lookup id).isSome then
    let s := { s with users := s.users.modify id fun u =>
      { u with quality := some (time, quality) } }
    pure { s with ratio := s.latestQuality.ratio }
  else pure s

/-- The least and the usual rate for a ratio. -/
def usualFps (targetRatio : ℚ) : Nat × Nat :=
  if brBest ≤ targetRatio then (8, 16)
  else if brBalanced ≤ targetRatio then (10, 20)
  else (12, 24)

def userNetworkDelay (linux : Bool) (id : Int) (delay now : Nat) : Except Fault VideoQoS := do
  let highestFps ← s.highestFps
  let (minFps, normalFps) := usualFps s.latestQuality.ratio
  let dividendMs ← U32.mul delayThreshold150Ms minFps
  match s.users.lookup id with
  | some user => do
    let d ← user.delay.networkDelay delay s.fps highestFps minFps normalFps dividendMs
    let s := { s with users := s.users.modify id fun u => { u with delay := d } }
    let s ← s.adjustFps now
    -- the first delay of a user
    if user.delay.fps.isNone && !linux then s.adjustRatio false now else pure s
  | none => s.adjustFps now

def userDelayResponseElapsed (id : Int) (elapsed now : Nat) : Except Fault VideoQoS :=
  if (s.users.lookup id).isSome then
    if 2000 < elapsed then
      let late (u : UserData) : UserData :=
        { u with delay := { u.delay with responseDelayed := true }.addDelay (elapsed % 2 ^ 32) }
      { s with users := s.users.modify id late }.adjustFps now
    else
      let answered (u : UserData) : UserData :=
        { u with delay := { u.delay with responseDelayed := false } }
      pure { s with users := s.users.modify id answered }
  else pure s

def newDisplay (videoServiceName : String) : VideoQoS :=
  { s with displays := s.displays.insert videoServiceName {} }

def removeDisplay (videoServiceName : String) : VideoQoS :=
  { s with displays := s.displays.erase videoServiceName }

def setSupportChangingQuality (videoServiceName : String) (support : Bool) : VideoQoS :=
  { s with displays := s.displays.modify videoServiceName fun d =>
      { d with supportChangingQuality := support } }

def updateDisplayData (videoServiceName : String) (sendCounter now : Nat) :
    Except Fault VideoQoS := do
  let s := { s with displays := s.displays.modify videoServiceName fun d =>
    { d with sendCounter := (d.sendCounter + sendCounter) % 2 ^ 64 } }
  let s ← s.adjustFps now
  if s.inVbrState then
    if adjustRatioInterval ≤ elapsedSecs now s.adjustRatioInstant then
      let dynamicScreen := s.displays.values.any fun d =>
        decide (adjustRatioInterval * dynamicScreenThreshold ≤ d.sendCounter)
      let displays := s.displays.update fun _ d => { d with sendCounter := 0 }
      { s with displays }.adjustRatio dynamicScreen now
    else pure s
  else pure { s with ratio := s.latestQuality.ratio }

/-- `self.ratio()` puts a ratio that is out of bounds right. -/
def checkRatio : VideoQoS :=
  if s.ratio < brMinHighResolution ∨ brMax < s.ratio then { s with ratio := brBalanced } else s

end VideoQoS

/-- A bitrate that an encoder has, in kbit/s. -/
structure Bitrate where
  kbps : Nat
  small : kbps + 300 < 2 ^ 32

inductive QosEvent where
  | onConnectionOpen (id : Int) (enableAbr : String)
  | onConnectionClose (id : Int)
  | userCustomFps (id : Int) (fps : Nat)
  | userAutoAdjustFps (id : Int) (fps : Nat)
  | userImageQuality (id imageQuality time : Int)
  | userNetworkDelay (id : Int) (delay : Nat)
  | userDelayResponseElapsed (id : Int) (elapsed : Nat)
  | newDisplay (videoServiceName : String)
  | removeDisplay (videoServiceName : String)
  | updateDisplayData (videoServiceName : String) (sendCounter : Nat)
  | setSupportChangingQuality (videoServiceName : String) (support : Bool)
  | storeBitrate (bitrate : Bitrate)
  | ratio
  /-- The map of the users is in another order from here on. -/
  | rehash (users : Table Int UserData)

/-- An event at an instant. -/
def step (linux : Bool) (s : VideoQoS) : Nat × QosEvent → Except Fault VideoQoS
  | (now, .onConnectionOpen id enableAbr) => pure (s.onConnectionOpen id enableAbr now)
  | (now, .onConnectionClose id) => pure (s.onConnectionClose id now)
  | (_, .userCustomFps id fps) => pure (s.userCustomFps id fps)
  | (_, .userAutoAdjustFps id fps) => pure (s.userAutoAdjustFps id fps)
  | (_, .userImageQuality id imageQuality time) => s.userImageQuality id imageQuality time
  | (now, .userNetworkDelay id delay) => s.userNetworkDelay linux id delay now
  | (now, .userDelayResponseElapsed id elapsed) => s.userDelayResponseElapsed id elapsed now
  | (_, .newDisplay name) => pure (s.newDisplay name)
  | (_, .removeDisplay name) => pure (s.removeDisplay name)
  | (now, .updateDisplayData name sendCounter) => s.updateDisplayData name sendCounter now
  | (_, .setSupportChangingQuality name support) => pure (s.setSupportChangingQuality name support)
  | (_, .storeBitrate bitrate) => pure { s with bitrateStore := bitrate.kbps }
  | (_, .ratio) => pure s.checkRatio
  | (_, .rehash users) =>
    pure (if users.entries.Perm s.users.entries then { s with users } else s)

end LuodaRemote.VideoQos
