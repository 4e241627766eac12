/-
  Who may touch the frame in the shared memory.

  `Portable.step` is run here together with the capturers of the client: any number of them, each
  with the sequence number of the frame that it still reads. The frames published are numbered in
  order, so that a frame can be followed through resets and through the wrap of the counter.

  Two counters decide whether the service may write, and two things get around them: `new` resets
  them while another capturer still reads, and the service does not look at them before the first
  frame of a capturer of its own. `frames_exclusive`: in the runs in which neither meets an
  unfinished frame, no frame is written over while it is read, none is given back twice, and the
  counters are equal precisely when nothing is unread.
-/
import LuodaRemote.Capture.Portable

namespace LuodaRemote
open Lib

namespace Portable

/-- What `pending` returned, and which of the published frames it was. -/
structure Taken where
  sequence : Int
  frame : Nat
deriving DecidableEq

/-- A `CapturerPortable` of the client. -/
structure Reader where
  width : Nat
  height : Nat
  pendingSequence : Option Taken
deriving DecidableEq

/-- The capturer that the client's last call is about. -/
inductive Calling where
  | new (i width height : Nat)
  | frame (i : Nat)
deriving DecidableEq

structure Frames where
  state : State
  readers : Nat → Option Reader
  calling : Option Calling
  /-- The frame that `frame` of the client is looking at. -/
  taking : Nat
  /-- How many frames have been published. -/
  published : Nat
  /-- The frame in the memory that is complete and has not been given back. -/
  unread : Option Nat
  /-- The frames given back so far. -/
  consumed : List Nat

namespace Frames

inductive Act where
  | serviceRead
  | serviceUse (displays : Option Nat) (createOk : Bool)
  | serviceCounter
  | serviceCapture (captured : Captured)
  | servicePublish
  | new (i display width height : Nat)
  | frame (i : Nat) (timeout : Int)
  | drop (i : Nat)
  | clientStep
deriving DecidableEq

/-- A frame is given back. -/
def giveBack (f : Frames) (frame : Nat) : Frames :=
  { f with unread := if f.unread = some frame then none else f.unread
           consumed := f.consumed ++ [frame] }

/-- The frame that a reader still holds is given back. -/
def giveBackPending (f : Frames) (reader : Reader) : Frames :=
  match reader.pendingSequence with
  | some taken => f.giveBack taken.frame
  | none => f

def setReader (f : Frames) (i : Nat) (reader : Option Reader) : Frames :=
  { f with readers := Function.update f.readers i reader }

/-- The capturer that a call of the client leaves behind: the new one, or the one that `frame` was
    called on, with what it takes. -/
def finishCall (f : Frames) (taken : Option Taken) : Frames :=
  match f.calling with
  | some (.new i width height) => f.setReader i (some ⟨width, height, none⟩)
  | some (.frame i) =>
    f.setReader i ((f.readers i).map fun reader => { reader with pendingSequence := taken })
  | none => f

/-- What a step of the client's call means for its capturers. -/
def stepReader (f : Frames) : Frames :=
  match f.state.client with
  | .newFlagged _ => f.finishCall none
  | .framePara _ _ =>
    match f.state.shared.counter.pending with
    | some _ => { f with taking := f.published }
    | none => f.finishCall none
  | .frameSequence width height sequence =>
    if f.state.shared.frameInfo.width ≠ width ∨ f.state.shared.frameInfo.height ≠ height ∨
        f.state.shared.capacity < f.state.shared.frameInfo.length then
      (f.giveBack f.taking).finishCall none
    else f.finishCall (some ⟨sequence, f.taking⟩)
  | _ => f

def step (f : Frames) : Act → Frames
  | .serviceRead => { f with state := Portable.step f.state .serviceRead }
  | .serviceUse displays createOk =>
    { f with state := Portable.step f.state (.serviceUse displays createOk) }
  | .serviceCounter => { f with state := Portable.step f.state .serviceCounter }
  | .serviceCapture captured =>
    { f with
      state := Portable.step f.state (.serviceCapture captured)
      -- what was in the memory is no longer complete
      unread :=
        match f.state.service.pc, captured with
        | .capturing, .pixelBuffer _ => none
        | _, _ => f.unread }
  | .servicePublish =>
    match f.state.service.pc with
    | .wroteFlag =>
      { f with state := Portable.step f.state .servicePublish
               published := f.published + 1
               unread := some (f.published + 1) }
    | _ => { f with state := Portable.step f.state .servicePublish }
  | .new i display width height =>
    match f.state.client, f.readers i with
    | .idle, none =>
      { f with state := Portable.step f.state (.clientNew display)
               calling := some (.new i width height)
               unread := none }
    | _, _ => f
  | .frame i timeout =>
    match f.state.client, f.readers i with
    | .idle, some reader =>
      { (f.giveBackPending reader).setReader i (some { reader with pendingSequence := none }) with
        state := Portable.step f.state (.clientFrame timeout reader.width reader.height
          (reader.pendingSequence.map Taken.sequence))
        calling := some (.frame i) }
    | _, _ => f
  | .drop i =>
    match f.state.client, f.readers i with
    | .idle, some reader =>
      { (f.giveBackPending reader).setReader i none with
        state := Portable.step f.state
          (.clientDrop (reader.pendingSequence.map Taken.sequence)) }
    | _, _ => f
  | .clientStep => { f.stepReader with state := Portable.step f.state .clientStep }

def init (capacity : Nat) : Frames where
  state := .init capacity
  readers := fun _ => none
  calling := none
  taking := 0
  published := 0
  unread := none
  consumed := []

/-! ## The property -/

/-- The capturer `i` has a `pending_sequence`. -/
def Holds (f : Frames) (i : Nat) (taken : Taken) : Prop :=
  ∃ reader, f.readers i = some reader ∧ reader.pendingSequence = some taken

/-- The step writes the frame info or the frame. -/
def Writes (f : Frames) : Act → Prop
  | .serviceCapture (.pixelBuffer _) => f.state.service.pc = .capturing
  | .servicePublish => f.state.service.pc = .wroteInfo
  | _ => False

/-- Nothing is written while a capturer holds a frame. -/
def Untouched (f : Frames) (a : Act) : Prop := f.Writes a → ∀ i taken, ¬ f.Holds i taken

/-- No frame was given back twice, and with no frame held the counters tell whether one is
    unread. -/
def Accounted (f : Frames) : Prop :=
  f.consumed.Nodup ∧
    ((∀ i taken, ¬ f.Holds i taken) →
      (f.state.shared.counter.equal = true ↔ f.unread = none))

/-- No capturer is created while another one holds a frame, none takes a frame while another one
    holds one, and the first frame of a capturer of the service is not written over a frame that
    is unread or held. -/
def Careful (f : Frames) : Act → Prop
  | .new _ _ _ _ => ∀ i taken, ¬ f.Holds i taken
  | .frame i _ => ∀ j taken, f.Holds j taken → j = i
  | .serviceCapture (.pixelBuffer _) =>
    f.state.service.pc = .capturing → f.state.service.firstFrameCaptured = false →
      f.state.shared.counter.equal = true
  | _ => True

/-! ## What the counters stand for -/

/-- What was taken is the frame in the memory. -/
def Live (f : Frames) (taken : Taken) : Prop :=
  taken.sequence = f.state.shared.counter.written ∧ f.unread = some taken.frame

/-- The service is between two writes of one frame. -/
def Writing (s : State) : Prop :=
  s.service.pc = .wroteInfo ∨ s.service.pc = .wroteFrame ∨ s.service.pc = .wroteFlag

structure Sound (f : Frames) : Prop where
  counter : f.state.shared.counter.equal = true ↔ f.unread = none
  held : ∀ i taken, f.Holds i taken → f.Live taken
  one : ∀ i j taken other, f.Holds i taken → f.Holds j other → i = j
  /-- Nobody holds a frame while a call of the client goes on. -/
  quiet : f.state.client ≠ .idle → ∀ i taken, ¬ f.Holds i taken
  taking : ∀ w h sequence, f.state.client = .frameSequence w h sequence →
    f.Live ⟨sequence, f.taking⟩
  writing : Writing f.state → f.state.shared.counter.equal = true
  checked : f.state.service.pc = .capturing → f.state.service.firstFrameCaptured = true →
    f.state.shared.counter.equal = true
  fresh : ∀ frame, f.unread = some frame → frame = f.published ∧ frame ∉ f.consumed
  bounded : ∀ frame ∈ f.consumed, frame ≤ f.published
  nodup : f.consumed.Nodup

variable {f : Frames}

theorem sound_init (capacity : Nat) : (init capacity).Sound where
  counter := by simp [init, State.init, Counter.reset, Counter.equal]
  held := fun i taken h => by obtain ⟨reader, hreader, -⟩ := h; cases hreader
  one := fun i j taken other h => by obtain ⟨reader, hreader, -⟩ := h; cases hreader
  quiet := fun h => absurd rfl h
  taking := fun _ _ _ h => by cases h
  writing := fun h => by rcases h with h | h | h <;> cases h
  checked := fun h => by cases h
  fresh := fun _ h => by cases h
  bounded := fun frame h => absurd h List.not_mem_nil
  nodup := List.nodup_nil

/-- With equal counters nobody holds a frame. -/
theorem Sound.not_holds (hf : f.Sound) (heq : f.state.shared.counter.equal = true) (i : Nat)
    (taken : Taken) : ¬ f.Holds i taken := by
  intro h
  have hunread := (hf.held i taken h).2
  rw [hf.counter.mp heq] at hunread
  cases hunread

theorem equal_publish (c : Counter) : c.publish.equal = false := by
  unfold Counter.publish Counter.equal
  simp only [beq_eq_false_iff_ne]
  split <;> split <;> omega

theorem equal_consume (c : Counter) {sequence : Int} (h : sequence = c.written) :
    (c.consume sequence).equal = true := by
  simp [Counter.consume, Counter.equal, h]

/-- A step of the service that leaves the counters alone. -/
theorem Sound.service (hf : f.Sound) {t : State}
    (hcounter : t.shared.counter = f.state.shared.counter) (hclient : t.client = f.state.client)
    (hwriting : Writing t → f.state.shared.counter.equal = true)
    (hchecked : t.service.pc = .capturing → t.service.firstFrameCaptured = true →
      f.state.shared.counter.equal = true) : Sound { f with state := t } where
  counter := by
    show t.shared.counter.equal = true ↔ _
    rw [hcounter]
    exact hf.counter
  held := fun i taken h => by
    refine ⟨?_, (hf.held i taken h).2⟩
    show taken.sequence = t.shared.counter.written
    rw [hcounter]
    exact (hf.held i taken h).1
  one := hf.one
  quiet := fun h => hf.quiet (fun hidle => h (hclient.trans hidle))
  taking := fun w h sequence hat => by
    have hlive := hf.taking w h sequence (hclient.symm.trans hat)
    refine ⟨?_, hlive.2⟩
    show sequence = t.shared.counter.written
    rw [hcounter]
    exact hlive.1
  writing := fun h => by
    show t.shared.counter.equal = true
    rw [hcounter]
    exact hwriting h
  checked := fun hpc hfirst => by
    show t.shared.counter.equal = true
    rw [hcounter]
    exact hchecked hpc hfirst
  fresh := hf.fresh
  bounded := hf.bounded
  nodup := hf.nodup

/-! ## Steps of the service -/

/-- What the service does short of a frame. -/
theorem Sound.elsewhere (hf : f.Sound) {t : State}
    (hcounter : t.shared.counter = f.state.shared.counter) (hclient : t.client = f.state.client)
    (hpc : ∀ at', t.service.pc = at' → at' = .loop ∨ at' = .ready ∨ ∃ para seen,
      at' = .holding para seen) : Sound { f with state := t } := by
  refine hf.service hcounter hclient ?_ ?_
  · intro h
    rcases h with h | h | h <;> rcases hpc _ h with h | h | ⟨_, _, h⟩ <;> cases h
  · intro h _
    rcases hpc _ h with h | h | ⟨_, _, h⟩ <;> cases h

theorem sound_serviceRead (hf : f.Sound) : (step f .serviceRead).Sound := by
  simp only [step, Portable.step]
  split
  · exact hf.elsewhere rfl rfl fun _ h => .inr (.inr ⟨_, _, h.symm⟩)
  · exact hf

theorem sound_serviceUse (hf : f.Sound) (displays : Option Nat) (createOk : Bool) :
    (step f (.serviceUse displays createOk)).Sound := by
  simp only [step, Portable.step]
  split
  · unfold stepUse
    split
    · split
      · exact hf.elsewhere rfl rfl fun _ h => .inl h.symm
      · split
        · exact hf.elsewhere rfl rfl fun _ h => .inl h.symm
        · exact hf.elsewhere rfl rfl fun _ h => .inr (.inl h.symm)
    · split
      · exact hf.elsewhere rfl rfl fun _ h => .inl h.symm
      · exact hf.elsewhere rfl rfl fun _ h => .inr (.inl h.symm)
  · exact hf

theorem sound_serviceCounter (hf : f.Sound) : (step f .serviceCounter).Sound := by
  simp only [step, Portable.step]
  split
  · split
    · exact hf.elsewhere rfl rfl fun _ h => .inl h.symm
    · next hcheck =>
        refine hf.service rfl rfl ?_ ?_
        · rintro (h | h | h) <;> cases h
        · intro _ hfirst
          -- the check was made, and passed
          by_contra hne
          exact hcheck ⟨hfirst, by simpa using hne⟩
  · exact hf

theorem sound_serviceCapture (hf : f.Sound) {captured : Captured}
    (hcareful : f.Careful (.serviceCapture captured)) :
    (step f (.serviceCapture captured)).Sound := by
  by_cases hat : f.state.service.pc = .capturing
  · cases captured with
    | pixelBuffer info =>
      have heq : f.state.shared.counter.equal = true := by
        cases hfirst : f.state.service.firstFrameCaptured with
        | true => exact hf.checked hat hfirst
        | false => exact hcareful hat hfirst
      have hunread := hf.counter.mp heq
      have hsame : step f (.serviceCapture (.pixelBuffer info)) =
          { f with state := stepCapture f.state (.pixelBuffer info) } := by
        simp only [step, Portable.step, hat, hunread]
      rw [hsame]
      exact hf.service rfl rfl (fun _ => heq) (fun h => by cases h)
    | texture =>
      simp only [step, Portable.step, hat]
      exact hf.elsewhere rfl rfl fun _ h => .inl h.symm
    | desktopChanged =>
      simp only [step, Portable.step, hat]
      exact hf.elsewhere rfl rfl fun _ h => .inl h.symm
    | failed isGdi =>
      simp only [step, Portable.step, hat, stepCapture]
      generalize (if isGdi = true then f.state.service.dxgiFailedTimes
        else f.state.service.dxgiFailedTimes + 1) = failed
      split
      · exact hf.elsewhere rfl rfl fun _ h => .inl h.symm
      · exact hf.elsewhere rfl rfl fun _ h => .inl h.symm
    | wouldBlock =>
      simp only [step, Portable.step, hat]
      exact hf.elsewhere rfl rfl fun _ h => .inl h.symm
  · have hsame : step f (.serviceCapture captured) = f := by
      simp only [step, Portable.step]
      split <;> simp_all
    rw [hsame]
    exact hf

theorem sound_servicePublish (hf : f.Sound) : (step f .servicePublish).Sound := by
  simp only [step, Portable.step, stepPublish]
  split
  · next hat =>
      have heq := hf.writing (.inr (.inr hat))
      have hnone := hf.not_holds heq
      rw [hat]
      -- the counters were equal, so this is the only frame there is
      exact
        { counter := iff_of_false (by simp [equal_publish]) (fun h => by cases h)
          held := fun i taken h => absurd h (hnone i taken)
          one := fun i j taken other h => absurd h (hnone i taken)
          quiet := fun _ => hnone
          taking := fun w h sequence hclient => by
            have hlive := (hf.taking w h sequence hclient).2
            rw [hf.counter.mp heq] at hlive
            cases hlive
          writing := fun h => by rcases h with h | h | h <;> cases h
          checked := fun h => by cases h
          fresh := fun frame h => by
            cases h
            refine ⟨rfl, fun hmem => ?_⟩
            have hle : f.published + 1 ≤ f.published := hf.bounded _ hmem
            omega
          bounded := fun frame h => Nat.le_succ_of_le (hf.bounded frame h)
          nodup := hf.nodup }
  · split
    · next hat =>
        exact hf.service rfl rfl (fun _ => hf.writing (.inl hat)) (fun h => by cases h)
    · next hat =>
        exact hf.service rfl rfl (fun _ => hf.writing (.inr (.inl hat))) (fun h => by cases h)
    · next hno _ hat => exact absurd hat hno
    · exact hf

/-! ## Steps of the client -/

/-- A step of the client that neither resets the counters nor gives anything back. -/
theorem Sound.client (hf : f.Sound) {shared : Shared} {client : ClientAt}
    {requests requested : Nat} {lost : Bool} {readers : Nat → Option Reader}
    {calling : Option Calling} {taking : Nat}
    (hcounter : shared.counter = f.state.shared.counter)
    (hholds : ∀ i taken, Holds { f with readers := readers } i taken → f.Holds i taken)
    (hquiet : client ≠ .idle → ∀ i taken, ¬ f.Holds i taken)
    (htaking : ∀ w h sequence, client = .frameSequence w h sequence →
      f.Live ⟨sequence, taking⟩) :
    Sound { f with state := { f.state with shared := shared, client := client,
                                           requests := requests, requested := requested,
                                           lost := lost }
                   readers := readers, calling := calling, taking := taking } where
  counter := by
    show shared.counter.equal = true ↔ _
    rw [hcounter]
    exact hf.counter
  held := fun i taken h => by
    obtain ⟨hsequence, hunread⟩ := hf.held i taken (hholds i taken h)
    exact ⟨hsequence.trans (congrArg Counter.written hcounter.symm), hunread⟩
  one := fun i j taken other h h' => hf.one i j taken other (hholds i taken h) (hholds j other h')
  quiet := fun h i taken hold => hquiet h i taken (hholds i taken hold)
  taking := fun w h sequence hat => by
    obtain ⟨hsequence, hunread⟩ := htaking w h sequence hat
    exact ⟨hsequence.trans (congrArg Counter.written hcounter.symm), hunread⟩
  writing := fun h => by
    show shared.counter.equal = true
    rw [hcounter]
    exact hf.writing h
  checked := fun hpc hfirst => by
    show shared.counter.equal = true
    rw [hcounter]
    exact hf.checked hpc hfirst
  fresh := hf.fresh
  bounded := hf.bounded
  nodup := hf.nodup

/-- The frame in the memory is given back, and nobody holds one then. -/
theorem Sound.released (hf : f.Sound) {taken : Taken} (hlive : f.Live taken) {shared : Shared}
    {client : ClientAt} {readers : Nat → Option Reader} {calling : Option Calling}
    (hcounter : shared.counter = f.state.shared.counter.consume taken.sequence)
    (hclient : ∀ w h sequence, client ≠ .frameSequence w h sequence)
    (hnone : ∀ i other, ¬ Holds { f with readers := readers } i other) :
    Sound { f.giveBack taken.frame with
            state := { f.state with shared := shared, client := client }
            readers := readers, calling := calling } := by
  obtain ⟨hsequence, hunread⟩ := hlive
  have hequal : shared.counter.equal = true := by
    rw [hcounter]
    exact equal_consume _ hsequence
  have hgone : (f.giveBack taken.frame).unread = none := by
    simp [giveBack, hunread]
  obtain ⟨hlast, hnew⟩ := hf.fresh taken.frame hunread
  exact
    { counter := iff_of_true hequal hgone
      held := fun i other h => absurd h (hnone i other)
      one := fun i j other other' h => absurd h (hnone i other)
      quiet := fun _ => hnone
      taking := fun w h sequence hat => absurd hat (hclient w h sequence)
      writing := fun _ => hequal
      checked := fun _ _ => hequal
      fresh := fun frame h => by
        rw [show (f.giveBack taken.frame).unread = some frame from h] at hgone
        cases hgone
      bounded := fun frame h => by
        rcases List.mem_append.mp h with hold | hmem
        · exact hf.bounded frame hold
        · rw [List.mem_singleton.mp hmem, hlast]
          exact le_refl _
      nodup := List.nodup_append.mpr ⟨hf.nodup, List.nodup_singleton _, fun a ha b hb heq => by
        rw [List.mem_singleton.mp hb] at heq
        exact hnew (heq ▸ ha)⟩ }

theorem sound_new (hf : f.Sound) {i display width height : Nat}
    (hcareful : f.Careful (.new i display width height)) :
    (step f (.new i display width height)).Sound := by
  simp only [step]
  split
  · next hidle _ =>
      simp only [Portable.step, hidle]
      have hnone : ∀ j taken, ¬ f.Holds j taken := hcareful
      exact
        { counter := iff_of_true rfl rfl
          held := fun j taken h => absurd h (hnone j taken)
          one := fun j k taken other h => absurd h (hnone j taken)
          quiet := fun _ => hnone
          taking := fun _ _ _ h => by cases h
          writing := fun _ => rfl
          checked := fun _ _ => rfl
          fresh := fun _ h => by cases h
          bounded := hf.bounded
          nodup := hf.nodup }
  · exact hf

theorem holds_setReader_none {i j : Nat} (reader : Option Reader) {taken : Taken}
    (hreader : ∀ r, reader = some r → r.pendingSequence = none)
    (h : (f.setReader i reader).Holds j taken) : j ≠ i ∧ f.Holds j taken := by
  obtain ⟨r, hr, htaken⟩ := h
  have hne : j ≠ i := by
    rintro rfl
    have hnone := hreader r (by simpa [setReader] using hr)
    rw [hnone] at htaken
    cases htaken
  refine ⟨hne, r, ?_, htaken⟩
  simpa [setReader, Function.update_of_ne hne] using hr

theorem sound_frame (hf : f.Sound) {i : Nat} {timeout : Int}
    (hcareful : f.Careful (.frame i timeout)) : (step f (.frame i timeout)).Sound := by
  simp only [step]
  split
  · next reader hidle hreader =>
      have hother : ∀ j other,
          ¬ (f.setReader i (some { reader with pendingSequence := none })).Holds j other := by
        intro j other h
        obtain ⟨hne, hold⟩ := holds_setReader_none _ (by simp) h
        exact hne (hcareful j other hold)
      simp only [Portable.step, hidle, giveBackPending]
      cases hpending : reader.pendingSequence with
      | some taken =>
        exact hf.released (hf.held i taken ⟨reader, hreader, hpending⟩) rfl (by simp) hother
      | none =>
        have hnone : ∀ j taken, ¬ f.Holds j taken := by
          intro j taken hold
          obtain rfl := hcareful j taken hold
          obtain ⟨r, hr, htaken⟩ := hold
          rw [hreader] at hr
          cases hr
          rw [hpending] at htaken
          cases htaken
        exact hf.client rfl (fun j taken h => absurd h (hother j taken)) (fun _ => hnone)
          (by simp)
  · exact hf

theorem sound_drop (hf : f.Sound) (i : Nat) : (step f (.drop i)).Sound := by
  simp only [step]
  split
  · next reader hidle hreader =>
      simp only [Portable.step, hidle, giveBackPending]
      cases hpending : reader.pendingSequence with
      | some taken =>
        have hholds : f.Holds i taken := ⟨reader, hreader, hpending⟩
        refine hf.released (hf.held i taken hholds) rfl (by simp) ?_
        intro j other h
        obtain ⟨hne, hold⟩ := holds_setReader_none (f := f) (i := i) none (by simp) h
        exact hne (hf.one j i other taken hold hholds)
      | none =>
        refine hf.client rfl (fun j taken h => ?_) (fun h => absurd rfl h) (by simp)
        exact (holds_setReader_none (f := f) (i := i) none (by simp) h).2
  · exact hf

theorem finishCall_state (f : Frames) (taken : Option Taken) :
    ∃ readers, f.finishCall taken = { f with readers := readers } := by
  unfold finishCall
  split
  · exact ⟨_, rfl⟩
  · exact ⟨_, rfl⟩
  · exact ⟨f.readers, rfl⟩

/-- Only what the call takes is held after it. -/
theorem holds_finishCall {taken : Option Taken} (hnone : ∀ i other, ¬ f.Holds i other) {i : Nat}
    {other : Taken} (h : (f.finishCall taken).Holds i other) :
    taken = some other ∧ ∃ j, f.calling = some (.frame j) ∧ i = j := by
  unfold finishCall at h
  split at h
  · obtain ⟨-, hold⟩ := holds_setReader_none _ (by simp) h
    exact absurd hold (hnone i other)
  · next j hcalling =>
      obtain ⟨reader, hreader, hpending⟩ := h
      by_cases hij : i = j
      · subst hij
        simp only [setReader, Function.update_self, Option.map_eq_some_iff] at hreader
        obtain ⟨old, -, rfl⟩ := hreader
        exact ⟨hpending, i, hcalling, rfl⟩
      · simp only [setReader, Function.update_of_ne hij] at hreader
        exact absurd ⟨reader, hreader, hpending⟩ (hnone i other)
  · exact absurd h (hnone i other)

/-- A call that takes nothing ends with no frame held. -/
theorem not_holds_finishCall (hnone : ∀ i other, ¬ f.Holds i other) (i : Nat) (other : Taken) :
    ¬ (f.finishCall none).Holds i other := by
  intro h
  obtain ⟨htaken, -⟩ := holds_finishCall hnone h
  cases htaken

theorem pending_eq_some {c : Counter} {sequence : Int} (h : c.pending = some sequence) :
    sequence = c.written ∧ c.equal = false := by
  unfold Counter.pending at h
  split at h
  · next hne =>
      cases h
      exact ⟨rfl, by simpa [Counter.equal] using hne⟩
  · cases h

/-- `pending` finds a frame only if one is unread, and that is the last one published. -/
theorem Sound.live_pending (hf : f.Sound) {sequence : Int}
    (h : f.state.shared.counter.pending = some sequence) : f.Live ⟨sequence, f.published⟩ := by
  obtain ⟨hsequence, hdiffer⟩ := pending_eq_some h
  have hsome : f.unread ≠ none := by
    intro hnone
    rw [hf.counter.mpr hnone] at hdiffer
    cases hdiffer
  obtain ⟨frame, hframe⟩ := Option.ne_none_iff_exists'.mp hsome
  refine ⟨hsequence, ?_⟩
  rw [hframe, (hf.fresh frame hframe).1]

/-- The call of `frame` ends with the frame in the memory. -/
theorem Sound.taken (hf : f.Sound) {taken : Taken} (hlive : f.Live taken)
    (hnone : ∀ i other, ¬ f.Holds i other) :
    Sound { f.finishCall (some taken) with state := { f.state with client := .idle } } := by
  obtain ⟨readers, hfinish⟩ := finishCall_state f (some taken)
  have hholds : ∀ i other, Holds { f with readers := readers } i other →
      other = taken ∧ ∃ j, f.calling = some (.frame j) ∧ i = j := by
    intro i other h
    rw [← hfinish] at h
    obtain ⟨hsome, hcalling⟩ := holds_finishCall hnone h
    cases hsome
    exact ⟨rfl, hcalling⟩
  rw [hfinish]
  exact
    { counter := hf.counter
      held := fun i other h => by
        obtain ⟨rfl, -⟩ := hholds i other h
        exact hlive
      one := fun i j other other' h h' => by
        obtain ⟨-, k, hk, rfl⟩ := hholds i other h
        obtain ⟨-, k', hk', rfl⟩ := hholds j other' h'
        rw [hk] at hk'
        cases hk'
        rfl
      quiet := fun h => absurd rfl h
      taking := fun _ _ _ h => by cases h
      writing := hf.writing
      checked := hf.checked
      fresh := hf.fresh
      bounded := hf.bounded
      nodup := hf.nodup }

/-- A call that takes nothing ends. -/
theorem Sound.finished (hf : f.Sound) (hnone : ∀ i other, ¬ f.Holds i other) {shared : Shared}
    {requests requested : Nat} (hcounter : shared.counter = f.state.shared.counter) :
    Sound { f.finishCall none with
            state := { f.state with shared := shared, client := .idle, requests := requests,
                                    requested := requested } } := by
  obtain ⟨readers, hfinish⟩ := finishCall_state f none
  rw [hfinish]
  refine hf.client hcounter (fun i taken h => ?_) (fun h => absurd rfl h) (by simp)
  rw [← hfinish] at h
  exact absurd h (not_holds_finishCall hnone i taken)

theorem sound_clientStep (hf : f.Sound) : (step f .clientStep).Sound := by
  simp only [step, Portable.step, stepClient, stepReader]
  cases hclient : f.state.client with
  | idle => exact hf
  | newReset display =>
    exact hf.client rfl (fun _ _ h => h) (fun _ => hf.quiet (by simp [hclient])) (by simp)
  | newFlagged display => exact hf.finished (hf.quiet (by simp [hclient])) rfl
  | frameConsumed timeout width height =>
    exact hf.client rfl (fun _ _ h => h) (fun _ => hf.quiet (by simp [hclient])) (by simp)
  | frameRead timeout width height para =>
    dsimp only
    split
    · exact hf.client rfl (fun _ _ h => h) (fun _ => hf.quiet (by simp [hclient])) (by simp)
    · exact hf.client rfl (fun _ _ h => h) (fun _ => hf.quiet (by simp [hclient])) (by simp)
  | framePara width height =>
    have hnone := hf.quiet (by simp [hclient])
    cases hpending : f.state.shared.counter.pending with
    | some sequence =>
      refine hf.client rfl (fun _ _ h => h) (fun _ => hnone) ?_
      intro w h sequence' hat
      cases hat
      exact hf.live_pending hpending
    | none => exact hf.finished hnone rfl
  | frameSequence width height sequence =>
    have hnone := hf.quiet (by simp [hclient])
    have hlive := hf.taking width height sequence hclient
    by_cases hmismatch : f.state.shared.frameInfo.width ≠ width ∨
        f.state.shared.frameInfo.height ≠ height ∨
        f.state.shared.capacity < f.state.shared.frameInfo.length
    · simp only [if_pos hmismatch]
      obtain ⟨readers, hfinish⟩ := finishCall_state (f.giveBack f.taking) none
      rw [hfinish]
      refine hf.released hlive rfl (by simp) fun i other h => ?_
      have hback : ∀ i other, ¬ (f.giveBack f.taking).Holds i other := hnone
      refine not_holds_finishCall hback i other ?_
      rw [hfinish]
      exact h
    · simp only [if_neg hmismatch]
      exact hf.taken hlive hnone

/-! ## Every run -/

theorem sound_step (hf : f.Sound) (a : Act) (hcareful : f.Careful a) : (step f a).Sound := by
  cases a with
  | serviceRead => exact sound_serviceRead hf
  | serviceUse displays createOk => exact sound_serviceUse hf displays createOk
  | serviceCounter => exact sound_serviceCounter hf
  | serviceCapture captured => exact sound_serviceCapture hf hcareful
  | servicePublish => exact sound_servicePublish hf
  | new i display width height => exact sound_new hf hcareful
  | frame i timeout => exact sound_frame hf hcareful
  | drop i => exact sound_drop hf i
  | clientStep => exact sound_clientStep hf

theorem Sound.untouched (hf : f.Sound) (a : Act) (hcareful : f.Careful a) : f.Untouched a := by
  intro hwrites
  refine hf.not_holds ?_
  cases a with
  | serviceCapture captured =>
    cases captured with
    | pixelBuffer info =>
      cases hfirst : f.state.service.firstFrameCaptured with
      | true => exact hf.checked hwrites hfirst
      | false => exact hcareful hwrites hfirst
    | texture => exact hwrites.elim
    | desktopChanged => exact hwrites.elim
    | failed isGdi => exact hwrites.elim
    | wouldBlock => exact hwrites.elim
  | servicePublish => exact hf.writing (.inl hwrites)
  | serviceRead => exact hwrites.elim
  | serviceUse displays createOk => exact hwrites.elim
  | serviceCounter => exact hwrites.elim
  | new i display width height => exact hwrites.elim
  | frame i timeout => exact hwrites.elim
  | drop i => exact hwrites.elim
  | clientStep => exact hwrites.elim

/-- In a careful run no frame is written over while it is read, none is given back twice, and the
    counters tell whether a frame is unread. -/
theorem frames_exclusive (capacity : Nat) (acts : List Act)
    (hcareful : Along step Careful (init capacity) acts) :
    Along step Untouched (init capacity) acts ∧ Always step Accounted (init capacity) acts := by
  have hsound : Always step Sound (init capacity) acts :=
    always_of_along (fun f a hf h => sound_step hf a h) (sound_init capacity) hcareful
  refine ⟨hsound.along (fun f a hf h => hf.untouched a h) hcareful, ?_⟩
  exact hsound.mono fun f hf => ⟨hf.nodup, fun _ => hf.counter⟩

/-- A display is asked for, the service captures one frame of it and publishes it. -/
def firstFrame : List Act :=
  [.new 0 0 8 8, .clientStep, .clientStep, .serviceRead, .serviceUse (some 1) true,
    .serviceCounter, .serviceCapture (.pixelBuffer ⟨256, 8, 8⟩), .servicePublish, .servicePublish,
    .servicePublish]

/-- The frame is taken and given back at the end. -/
def oneFrame : List Act :=
  firstFrame ++ [.frame 0 33, .clientStep, .clientStep, .clientStep, .clientStep, .drop 0]

theorem careful_oneFrame : Along step Careful (init 256) oneFrame := by
  have hnew : (init 256).Careful (.new 0 0 8 8) := by
    rintro i taken ⟨reader, hreader, -⟩
    cases hreader
  have hframe : (run step (init 256) firstFrame).Careful (.frame 0 33) := by
    rintro j taken ⟨reader, hreader, -⟩
    by_contra hne
    have hnone : (run step (init 256) firstFrame).readers j = none :=
      Function.update_of_ne hne _ _
    rw [hnone] at hreader
    cases hreader
  refine ⟨hnew, trivial, trivial, trivial, trivial, trivial, ?_, trivial, trivial, trivial, hframe,
    trivial, trivial, trivial, trivial, trivial, trivial⟩
  exact fun _ _ => rfl

theorem frames_exclusive_oneFrame :
    Along step Untouched (init 256) oneFrame ∧ Always step Accounted (init 256) oneFrame ∧
      (run step (init 256) oneFrame).consumed = [1] :=
  ⟨(frames_exclusive 256 oneFrame careful_oneFrame).1,
    (frames_exclusive 256 oneFrame careful_oneFrame).2, rfl⟩

/-- The client asks again while the service captures; the frame is published after the reset and
    taken, and then the service, told to recreate, captures the next one without a look at the
    counters. -/
def unchecked : List Act :=
  [.new 0 0 8 8, .clientStep, .clientStep, .serviceRead, .serviceUse (some 1) true,
    .serviceCounter, .drop 0, .new 1 0 8 8, .clientStep, .clientStep,
    .serviceCapture (.pixelBuffer ⟨256, 8, 8⟩), .servicePublish, .servicePublish, .servicePublish,
    .frame 1 33, .clientStep, .clientStep, .clientStep, .clientStep,
    .serviceRead, .serviceUse (some 1) true, .serviceRead, .serviceUse (some 1) true,
    .serviceCounter]

theorem frame_overwritten :
    ¬ Along step Untouched (init 256)
      (unchecked ++ [.serviceCapture (.pixelBuffer ⟨256, 8, 8⟩)]) := by
  intro h
  obtain ⟨hlast, -⟩ := (along_append.mp h).2
  exact hlast rfl 1 ⟨1, 1⟩ ⟨⟨8, 8, some ⟨1, 1⟩⟩, rfl, rfl⟩

end Frames
end Portable
end LuodaRemote
