/-
  Downloads of one URL (src/hbbs_http/downloader.rs).

  `DOWNLOADERS` has at most one entry for the URL. `download_file` inserts it in two locked passes
  and starts a thread, which looks the entry up by its URL at each access; `cancel` and `remove`
  act on whatever entry there is. Every locked access is one step. The calls are numbered, and an
  entry says which call inserted it.

  A thread does not notice that its entry was taken out and another one put in.
  `downloads_apart`: in the runs in which an entry is removed only after its thread is through,
  each thread changes its own entry only. Whether the runtime of a thread lives long enough for
  the removal that is spawned at its end is left open: it may happen at any time, or not at all.
-/
import LuodaRemote.Lib.Run

namespace LuodaRemote
open Lib

namespace Download

structure Downloader where
  /-- The call that inserted it. -/
  owner : Nat
  data : List UInt8
  path : Option String
  totalSize : Option Nat
  downloadedSize : Nat
  error : Option String
  finished : Bool
deriving DecidableEq

structure DownloadData where
  data : List UInt8
  path : Option String
  totalSize : Option Nat
  downloadedSize : Nat
  error : Option String
deriving DecidableEq

/-- The file of an errored entry that `download_file` took out. -/
structure Stale where
  owner : Nat
  path : String
deriving DecidableEq

/-- Where a call of `download_file`, and then its thread, stands. -/
inductive At where
  /-- After the first pass. -/
  | checked (stale : Option Stale)
  /-- After the second pass, which inserted the entry. -/
  | inserted (stale : Option Stale)
  | head
  | get
  | chunks
  | finishing (isAllDownloaded : Bool)
  /-- Canceled: the entry is removed next. -/
  | removing
  | failing (err : String)
  /-- Through, but for the removal after `auto_del_dur`. -/
  | autoDel
  | over
deriving DecidableEq

structure Job where
  path : Option String
  autoDelDur : Option Nat
  at' : At
  /-- The chunks that the thread received. -/
  received : List (List UInt8)
deriving DecidableEq

structure State where
  entry : Option Downloader
  jobs : Nat → Option Job
  /-- The calls so far. -/
  calls : Nat
  /-- To whose entry a cancel was sent. -/
  canceled : Nat → Bool
  /-- Which thread changed whose entry, and who (a thread, or else a call) removed whose file. -/
  changed : List (Nat × Nat)
  removed : List (Option Nat × Nat)

/-! ## Accesses of a thread -/

inductive Access where
  | pass
  | setTotalSize (n : Nat)
  | addChunk (chunk : List UInt8) (keep : Bool)
  | setFinished
  | setError (err : String)
  /-- Remove the entry, and its file if asked to. -/
  | remove (file : Bool)
deriving DecidableEq

def Access.apply (d : Downloader) : Access → Option Downloader
  | .pass => some d
  | .setTotalSize n => some { d with totalSize := some n }
  | .addChunk chunk keep =>
    some { d with data := if keep then d.data ++ chunk else d.data
                  downloadedSize := d.downloadedSize + chunk.length }
  | .setFinished => some { d with finished := true }
  | .setError err => some { d with error := some err }
  | .remove _ => none

def Access.chunks : Access → List (List UInt8)
  | .addChunk chunk _ => [chunk]
  | _ => []

/-- The access is made by thread `t` on whatever entry there is. -/
def State.access (s : State) (t : Nat) (a : Access) : State :=
  match s.entry with
  | none => s
  | some d =>
    { s with
      entry := a.apply d
      changed := if a = .pass then s.changed else s.changed ++ [(t, d.owner)]
      removed := if a = .remove true ∧ d.path ≠ none then s.removed ++ [(some t, d.owner)]
        else s.removed }

/-- What a thread may come to next. -/
inductive ThreadAct where
  | head (totalSize : Nat)
  | got
  | chunk (chunk : List UInt8)
  | last
  | canceled
  | fail (err : String)
  | finish
  | removeEntry (fileExists : Bool)
  | setError
  | autoDelete
deriving DecidableEq

/-- `do_download` and the end of the thread; `signaled` says that `rx_cancel` has something, or is
    closed. -/
def Job.next (j : Job) (signaled : Bool) : ThreadAct → Option (At × Access)
  | .head totalSize =>
    match j.at' with
    | .head => some (.get, .setTotalSize totalSize)
    | _ => none
  | .got =>
    match j.at' with
    | .get => some (.chunks, .pass)
    | _ => none
  | .chunk chunk =>
    match j.at' with
    | .chunks => some (.chunks, .addChunk chunk j.path.isNone)
    | _ => none
  | .last =>
    match j.at' with
    | .chunks => some (.finishing true, .pass)
    | _ => none
  | .canceled =>
    match signaled, j.at' with
    | true, .head => some (.removing, .pass)
    | true, .get => some (.removing, .pass)
    | true, .chunks => some (.finishing false, .pass)
    | _, _ => none
  | .fail err =>
    match j.at' with
    | .head => some (.failing err, .pass)
    | .get => some (.failing err, .pass)
    | .chunks => some (.failing err, .pass)
    | .finishing _ => some (.failing err, .pass)
    | _ => none
  | .finish =>
    match j.at' with
    | .finishing true => some (if j.autoDelDur = none then .over else .autoDel, .setFinished)
    | .finishing false => some (.removing, .setFinished)
    | _ => none
  | .removeEntry fileExists =>
    match j.at' with
    | .removing => some (.over, .remove fileExists)
    | _ => none
  | .setError =>
    match j.at' with
    | .failing err => some (.over, .setError err)
    | _ => none
  | .autoDelete =>
    match j.at' with
    | .autoDel => some (.over, .remove false)
    | _ => none

/-- The receiver of `i` has a message, or its sender is gone with the entry. -/
def State.signaled (s : State) (i : Nat) : Bool :=
  s.canceled i || s.entry.all fun d => d.owner != i

def State.setJob (s : State) (i : Nat) (j : Job) : State :=
  { s with jobs := Function.update s.jobs i (some j) }

def State.stepThread (s : State) (i : Nat) (a : ThreadAct) : State :=
  match s.jobs i with
  | none => s
  | some j =>
    match j.next (s.signaled i) a with
    | none => s
    | some (at', access) =>
      (s.access i access).setJob i
        { j with at' := at', received := j.received ++ access.chunks }

/-! ## Calls -/

/-- A locked pass of `download_file`: there is an entry without an error, or the place is free
    now, with the file of the errored entry that had it. -/
def State.pass (s : State) : Option (Option Stale × State) :=
  match s.entry with
  | none => some (none, s)
  | some d =>
    if d.error = none then none
    else some (d.path.map (⟨d.owner, ·⟩), { s with entry := none })

/-- A fresh entry of call `i`. -/
def Downloader.new (i : Nat) (path : Option String) : Downloader :=
  ⟨i, [], path, none, 0, none, false⟩

inductive CallAct where
  /-- Remove the file of an errored entry, if it exists. -/
  | removeStale (fileExists : Bool)
  /-- The file exists already, or its directory could not be created. -/
  | bail
  /-- The second pass. -/
  | insert
  | spawn
deriving DecidableEq

def State.stepCall (s : State) (i : Nat) (a : CallAct) : State :=
  match s.jobs i with
  | none => s
  | some j =>
    match a, j.at' with
    | .removeStale fileExists, .checked (some stale) =>
      { s.setJob i { j with at' := .checked none } with
        removed := if fileExists then s.removed ++ [(none, stale.owner)] else s.removed }
    | .removeStale fileExists, .inserted (some stale) =>
      { s.setJob i { j with at' := .inserted none } with
        removed := if fileExists then s.removed ++ [(none, stale.owner)] else s.removed }
    | .bail, .checked none => s.setJob i { j with at' := .over }
    | .insert, .checked none =>
      match s.pass with
      | none => s.setJob i { j with at' := .over }
      | some (stale, s) =>
        { s.setJob i { j with at' := .inserted stale } with
          entry := some (.new i j.path) }
    | .spawn, .inserted none => s.setJob i { j with at' := .head }
    | _, _ => s

inductive Event where
  /-- A new call of `download_file`, with its first pass. -/
  | downloadFile (path : Option String) (autoDelDur : Option Nat)
  | call (i : Nat) (a : CallAct)
  | thread (i : Nat) (a : ThreadAct)
  | getDownloadData
  | cancel
  | remove
deriving DecidableEq

/-- `get_download_data`; without an entry it fails. -/
def State.getDownloadData (s : State) : Option DownloadData :=
  s.entry.map fun d =>
    { data := if d.totalSize.getD 0 = d.downloadedSize ∧ d.path = none then d.data else []
      path := d.path
      totalSize := d.totalSize
      downloadedSize := d.downloadedSize
      error := d.error }

def step (s : State) : Event → State
  | .downloadFile path autoDelDur =>
    match s.pass with
    | none => { s with calls := s.calls + 1 }
    | some (stale, s) =>
      { s.setJob s.calls ⟨path, autoDelDur, .checked stale, []⟩ with calls := s.calls + 1 }
  | .call i a => s.stepCall i a
  | .thread i a => s.stepThread i a
  | .getDownloadData => s
  | .cancel =>
    match s.entry with
    | none => s
    | some d => { s with canceled := Function.update s.canceled d.owner true }
  | .remove => { s with entry := none }

def State.init : State where
  entry := none
  jobs := fun _ => none
  calls := 0
  canceled := fun _ => false
  changed := []
  removed := []

/-! ## The property -/

/-- What the thread of a call received. -/
def State.received (s : State) (i : Nat) : List UInt8 :=
  ((s.jobs i).elim [] Job.received).flatten

structure State.Apart (s : State) : Prop where
  /-- A thread has changed no entry but its own. -/
  changed : ∀ c ∈ s.changed, c.1 = c.2
  /-- A file is removed by the thread of its entry. -/
  removed : ∀ r ∈ s.removed, r.1 = some r.2
  /-- The entry has what its thread received. -/
  size : ∀ d, s.entry = some d → d.downloadedSize = (s.received d.owner).length
  data : ∀ d, s.entry = some d → d.data = if d.path = none then s.received d.owner else []

/-- The thread of the call has nothing left to do. -/
def State.Through (s : State) (i : Nat) : Prop :=
  ∃ j, s.jobs i = some j ∧ j.at' = .over

/-- An entry is removed only after its thread is through, and a call retries only a download that
    had no file. -/
def Careful (s : State) : Event → Prop
  | .remove => ∀ d, s.entry = some d → s.Through d.owner
  | .downloadFile _ _ => ∀ d, s.entry = some d → d.error ≠ none → d.path = none
  | .call _ .insert => ∀ d, s.entry = some d → d.error ≠ none → d.path = none
  | _ => True

/-! ## What a thread does next -/

/-- The entry of the job is in the map. -/
def At.Busy : At → Prop
  | .checked _ => False
  | .over => False
  | _ => True

/-- The job is past the call, and ends with the access that takes the entry out or marks it. -/
structure Next (j : Job) (at' : At) (a : Access) : Prop where
  busy : j.at'.Busy
  later : at'.Busy ∨ at' = .over
  notInserted : ∀ stale, at' ≠ .inserted stale
  removes : ∀ file, a = .remove file → at' = .over
  fails : ∀ err, a = .setError err → at' = .over
  keeps : ∀ chunk keep, a = .addChunk chunk keep → keep = j.path.isNone

theorem next_spec {j : Job} {signaled : Bool} {act : ThreadAct} {at' : At} {a : Access}
    (h : j.next signaled act = some (at', a)) : Next j at' a := by
  cases act with
  | finish =>
    simp only [Job.next] at h
    split at h
    · next hat =>
        cases h
        by_cases hdur : j.autoDelDur = none
        · constructor <;> simp [hat, hdur, At.Busy]
        · constructor <;> simp [hat, hdur, At.Busy]
    · next hat =>
        cases h
        constructor <;> simp [hat, At.Busy]
    · cases h
  | _ =>
    simp only [Job.next] at h
    split at h <;> cases h <;> constructor <;> simp_all [At.Busy]

variable {d d' : Downloader} {a : Access}

theorem apply_same (h : a.apply d = some d') : d'.owner = d.owner ∧ d'.path = d.path := by
  cases a <;> cases h <;> exact ⟨rfl, rfl⟩

theorem apply_downloadedSize (h : a.apply d = some d') :
    d'.downloadedSize = d.downloadedSize + a.chunks.flatten.length := by
  cases a <;> cases h <;> simp [Access.chunks]

theorem apply_data (hkeep : ∀ chunk keep, a = .addChunk chunk keep → keep = d.path.isNone)
    (h : a.apply d = some d') :
    d'.data = if d.path = none then d.data ++ a.chunks.flatten else d.data := by
  cases a with
  | addChunk chunk keep =>
    cases h
    rw [hkeep chunk keep rfl]
    cases d.path <;> simp [Access.chunks]
  | remove file => cases h
  | pass => cases h; simp [Access.chunks]
  | setTotalSize n => cases h; simp [Access.chunks]
  | setFinished => cases h; simp [Access.chunks]
  | setError err => cases h; simp [Access.chunks]

theorem apply_error (hfails : ∀ err, a ≠ .setError err) (h : a.apply d = some d') :
    d'.error = d.error := by
  cases a with
  | setError err => exact absurd rfl (hfails err)
  | remove file => cases h
  | pass => cases h; rfl
  | setTotalSize n => cases h; rfl
  | addChunk chunk keep => cases h; rfl
  | setFinished => cases h; rfl

/-! ## What holds as long as no entry is taken from its thread -/

structure State.Sound (s : State) : Prop where
  apart : s.Apart
  busy : ∀ i j, s.jobs i = some j → j.at'.Busy →
    ∃ d, s.entry = some d ∧ d.owner = i ∧ d.path = j.path
  errored : ∀ d, s.entry = some d → d.error ≠ none → s.Through d.owner
  fresh : ∀ i, s.calls ≤ i → s.jobs i = none
  checked : ∀ i j stale, s.jobs i = some j → j.at' = .checked stale → stale = none ∧ j.received = []
  inserted : ∀ i j stale, s.jobs i = some j → j.at' = .inserted stale → stale = none

variable {s : State}

theorem sound_init : State.init.Sound where
  apart := ⟨fun _ hc => absurd hc List.not_mem_nil, fun _ hr => absurd hr List.not_mem_nil, nofun,
    nofun⟩
  busy := nofun
  errored := nofun
  fresh := fun _ _ => rfl
  checked := nofun
  inserted := nofun

/-- With the entry's thread through, no thread is at work. -/
theorem State.Sound.idle (hs : s.Sound) (hthrough : ∀ d, s.entry = some d → s.Through d.owner)
    {i : Nat} {j : Job} (hj : s.jobs i = some j) : ¬ j.at'.Busy := by
  intro hbusy
  obtain ⟨d, hd, rfl, -⟩ := hs.busy i j hj hbusy
  obtain ⟨j', hj', hover⟩ := hthrough d hd
  rw [hj] at hj'
  cases hj'
  rw [hover] at hbusy
  exact hbusy

theorem received_setJob (s : State) (i : Nat) (j : Job) (k : Nat) :
    (s.setJob i j).received k = if k = i then j.received.flatten else s.received k := by
  unfold State.received State.setJob
  by_cases hk : k = i
  · subst hk
    simp
  · simp [hk]

theorem received_setJob_same {i : Nat} {j : Job} (hsame : j.received.flatten = s.received i)
    (k : Nat) : (s.setJob i j).received k = s.received k := by
  rw [received_setJob]
  split
  · next hk => rw [hk, hsame]
  · rfl

theorem jobs_setJob {i k : Nat} {j j₁ : Job} (h : (s.setJob i j).jobs k = some j₁) :
    (k = i ∧ j₁ = j) ∨ (k ≠ i ∧ s.jobs k = some j₁) := by
  by_cases hk : k = i
  · subst hk
    exact .inl ⟨rfl, by simpa [State.setJob, eq_comm] using h⟩
  · exact .inr ⟨hk, by simpa [State.setJob, hk] using h⟩

/-- The numbers of the calls to come stay free. -/
theorem State.Sound.fresh_setJob (hs : s.Sound) {i k : Nat} {j j' : Job}
    (hj : s.jobs i = some j) (hk : s.calls ≤ k) : (s.setJob i j').jobs k = none := by
  have hnone := hs.fresh k hk
  have hne : k ≠ i := by
    rintro rfl
    rw [hj] at hnone
    cases hnone
  simpa [State.setJob, hne] using hnone

/-- The entry is taken out while no thread is at work on it. -/
theorem State.Sound.taken (hs : s.Sound) (hthrough : ∀ d, s.entry = some d → s.Through d.owner) :
    State.Sound { s with entry := none } where
  apart := ⟨hs.apart.changed, hs.apart.removed, nofun, nofun⟩
  busy := fun _ _ hj hbusy => absurd hbusy (hs.idle hthrough hj)
  errored := nofun
  fresh := hs.fresh
  checked := hs.checked
  inserted := hs.inserted

/-- A pass of `download_file` leaves nothing behind. -/
theorem State.Sound.pass (hs : s.Sound) {stale : Option Stale} {s' : State}
    (hretry : ∀ d, s.entry = some d → d.error ≠ none → d.path = none)
    (h : s.pass = some (stale, s')) :
    stale = none ∧ s' = { s with entry := none } ∧
      State.Sound { s with entry := none } := by
  unfold State.pass at h
  cases hentry : s.entry with
  | none =>
    rw [hentry] at h
    cases h
    refine ⟨rfl, ?_, hs.taken ?_⟩
    · rw [← hentry]
    · intro d hd
      rw [hentry] at hd
      cases hd
  | some d =>
    rw [hentry] at h
    dsimp only at h
    split at h
    · cases h
    · next herror =>
        cases h
        refine ⟨?_, rfl, hs.taken ?_⟩
        · rw [hretry d hentry herror]
          rfl
        · intro d' hd'
          exact hs.errored d' hd' (by rw [hentry] at hd'; cases hd'; exact herror)

/-- A job that has no entry moves on. -/
theorem State.Sound.setJob (hs : s.Sound) {i : Nat} {j j' : Job} (hj : s.jobs i = some j)
    (hreceived : j'.received = j.received) (hpath : j'.path = j.path)
    (hbusy : j'.at'.Busy → j.at'.Busy) (hthrough : j.at' = .over → j'.at' = .over)
    (hchecked : ∀ stale, j'.at' = .checked stale → stale = none ∧ j'.received = [])
    (hinserted : ∀ stale, j'.at' = .inserted stale → stale = none) : (s.setJob i j').Sound := by
  have hsame : ∀ k, (s.setJob i j').received k = s.received k := by
    refine received_setJob_same ?_
    rw [State.received, hj, hreceived]
    rfl
  refine ⟨⟨hs.apart.changed, hs.apart.removed, ?_, ?_⟩, ?_, ?_, ?_, ?_, ?_⟩
  · intro d hd
    rw [hsame]
    exact hs.apart.size d hd
  · intro d hd
    rw [hsame]
    exact hs.apart.data d hd
  · intro k j₁ hk hb
    obtain ⟨rfl, rfl⟩ | ⟨hne, hold⟩ := jobs_setJob hk
    · obtain ⟨d, hd, ho, hp⟩ := hs.busy k j hj (hbusy hb)
      exact ⟨d, hd, ho, hp.trans hpath.symm⟩
    · exact hs.busy k j₁ hold hb
  · intro d hd herror
    obtain ⟨j₁, hj₁, hover⟩ := hs.errored d hd herror
    by_cases hk : d.owner = i
    · rw [hk] at hj₁ ⊢
      rw [hj] at hj₁
      cases hj₁
      exact ⟨j', by simp [State.setJob], hthrough hover⟩
    · exact ⟨j₁, by simpa [State.setJob, hk] using hj₁, hover⟩
  · exact fun k hk => hs.fresh_setJob hj hk
  · intro k j₁ stale hk hat
    obtain ⟨rfl, rfl⟩ | ⟨hne, hold⟩ := jobs_setJob hk
    · exact hchecked stale hat
    · exact hs.checked k j₁ stale hold hat
  · intro k j₁ stale hk hat
    obtain ⟨rfl, rfl⟩ | ⟨hne, hold⟩ := jobs_setJob hk
    · exact hinserted stale hat
    · exact hs.inserted k j₁ stale hold hat

/-- A call has made its first pass. -/
theorem State.Sound.checkedIn (hs : s.Sound) (path : Option String) (autoDelDur : Option Nat) :
    State.Sound { s.setJob s.calls ⟨path, autoDelDur, .checked none, []⟩ with
                  calls := s.calls + 1 } := by
  have hfree := hs.fresh s.calls (le_refl _)
  have hsame : ∀ k, (s.setJob s.calls ⟨path, autoDelDur, .checked none, []⟩).received k =
      s.received k := by
    refine received_setJob_same ?_
    rw [State.received, hfree]
    rfl
  refine ⟨⟨hs.apart.changed, hs.apart.removed, ?_, ?_⟩, ?_, ?_, ?_, ?_, ?_⟩
  · exact fun d hd => (hs.apart.size d hd).trans (congrArg List.length (hsame d.owner).symm)
  · intro d hd
    show d.data = if d.path = none then State.received (s.setJob s.calls _) d.owner else []
    rw [hsame]
    exact hs.apart.data d hd
  · intro k j hk hbusy
    obtain ⟨rfl, rfl⟩ | ⟨hne, hold⟩ := jobs_setJob hk
    · exact hbusy.elim
    · exact hs.busy k j hold hbusy
  · intro d hd herror
    obtain ⟨j, hj, hover⟩ := hs.errored d hd herror
    have hne : d.owner ≠ s.calls := by
      intro heq
      rw [heq, hfree] at hj
      cases hj
    exact ⟨j, by simpa [State.setJob, hne] using hj, hover⟩
  · intro k hk
    have hlt : s.calls + 1 ≤ k := hk
    have hne : k ≠ s.calls := by omega
    simpa [State.setJob, hne] using hs.fresh k (by omega)
  · intro k j stale hk hat
    obtain ⟨rfl, rfl⟩ | ⟨hne, hold⟩ := jobs_setJob hk
    · cases hat
      exact ⟨rfl, rfl⟩
    · exact hs.checked k j stale hold hat
  · intro k j stale hk hat
    obtain ⟨rfl, rfl⟩ | ⟨hne, hold⟩ := jobs_setJob hk
    · cases hat
    · exact hs.inserted k j stale hold hat

/-- The second pass has inserted a fresh entry into the free place. -/
theorem State.Sound.insert (hs : s.Sound) (hentry : s.entry = none) {i : Nat} {j : Job}
    (hj : s.jobs i = some j) (hreceived : j.received = []) :
    State.Sound { s.setJob i { j with at' := .inserted none } with
                  entry := some (.new i j.path) } := by
  have hidle : ∀ k j₁, s.jobs k = some j₁ → ¬ j₁.at'.Busy := by
    intro k j₁ hk
    refine hs.idle (fun d hd => ?_) hk
    rw [hentry] at hd
    cases hd
  have hnothing : State.received (s.setJob i { j with at' := .inserted none }) i = [] := by
    rw [received_setJob, if_pos rfl, hreceived]
    rfl
  refine ⟨⟨hs.apart.changed, hs.apart.removed, ?_, ?_⟩, ?_, ?_, ?_, ?_, ?_⟩
  · intro d hd
    cases hd
    exact (congrArg List.length hnothing).symm
  · intro d hd
    cases hd
    show [] = if j.path = none then State.received (s.setJob i _) i else []
    rw [hnothing]
    split
    · rfl
    · rfl
  · intro k j₁ hk hbusy
    obtain ⟨rfl, rfl⟩ | ⟨hne, hold⟩ := jobs_setJob hk
    · exact ⟨_, rfl, rfl, rfl⟩
    · exact absurd hbusy (hidle k j₁ hold)
  · intro d hd herror
    cases hd
    exact absurd rfl herror
  · exact fun k hk => hs.fresh_setJob hj hk
  · intro k j₁ stale hk hat
    obtain ⟨rfl, rfl⟩ | ⟨hne, hold⟩ := jobs_setJob hk
    · cases hat
    · exact hs.checked k j₁ stale hold hat
  · intro k j₁ stale hk hat
    obtain ⟨rfl, rfl⟩ | ⟨hne, hold⟩ := jobs_setJob hk
    · cases hat
      rfl
    · exact hs.inserted k j₁ stale hold hat

/-! ### An access of a thread to its own entry -/

theorem entry_access (s : State) (t : Nat) (a : Access) :
    (s.access t a).entry = s.entry.bind a.apply := by
  unfold State.access
  cases hentry : s.entry with
  | none => exact hentry
  | some d => rfl

theorem apply_of_access {d d' : Downloader} (hd : s.entry = some d)
    (h : (s.access d.owner a).entry = some d') : a.apply d = some d' := by
  rw [entry_access, hd] at h
  exact h

@[simp] theorem jobs_access (s : State) (t : Nat) (a : Access) :
    (s.access t a).jobs = s.jobs := by
  unfold State.access
  split
  · rfl
  · rfl

@[simp] theorem calls_access (s : State) (t : Nat) (a : Access) :
    (s.access t a).calls = s.calls := by
  unfold State.access
  split
  · rfl
  · rfl

theorem changed_access (hs : s.Apart) {d : Downloader} (hd : s.entry = some d) :
    ∀ c ∈ (s.access d.owner a).changed, c.1 = c.2 := by
  intro c hc
  unfold State.access at hc
  rw [hd] at hc
  dsimp only at hc
  split at hc
  · exact hs.changed c hc
  · rcases List.mem_append.mp hc with hold | hnew
    · exact hs.changed c hold
    · rw [List.mem_singleton.mp hnew]

theorem removed_access (hs : s.Apart) {d : Downloader} (hd : s.entry = some d) :
    ∀ r ∈ (s.access d.owner a).removed, r.1 = some r.2 := by
  intro r hr
  unfold State.access at hr
  rw [hd] at hr
  dsimp only at hr
  split at hr
  · rcases List.mem_append.mp hr with hold | hnew
    · exact hs.removed r hold
    · rw [List.mem_singleton.mp hnew]
  · exact hs.removed r hr

/-- The thread has received what its access brought. -/
theorem received_access {d : Downloader} {j : Job} {at' : At} (hj : s.jobs d.owner = some j) :
    ((s.access d.owner a).setJob d.owner
      { j with at' := at', received := j.received ++ a.chunks }).received d.owner =
      s.received d.owner ++ a.chunks.flatten := by
  have hreceived : s.received d.owner = j.received.flatten := by
    rw [State.received, hj]
    rfl
  rw [received_setJob, if_pos rfl, hreceived]
  exact List.flatten_append

/-- The entry keeps to what its thread received. -/
theorem State.Sound.apart_access (hs : s.Sound) {d : Downloader} {j : Job} {at' : At}
    (hd : s.entry = some d) (hpath : d.path = j.path) (hj : s.jobs d.owner = some j)
    (hnext : Next j at' a) :
    ((s.access d.owner a).setJob d.owner
      { j with at' := at', received := j.received ++ a.chunks }).Apart := by
  refine ⟨changed_access hs.apart hd, removed_access hs.apart hd, ?_, ?_⟩
  · intro d' hd'
    have happly := apply_of_access hd hd'
    rw [(apply_same happly).1, received_access hj, apply_downloadedSize happly,
      hs.apart.size d hd, List.length_append]
  · intro d' hd'
    have happly := apply_of_access hd hd'
    have hkeep : ∀ chunk keep, a = .addChunk chunk keep → keep = d.path.isNone := by
      rw [hpath]
      exact hnext.keeps
    rw [(apply_same happly).1, (apply_same happly).2, received_access hj,
      apply_data hkeep happly, hs.apart.data d hd]
    split
    · rfl
    · rfl

/-- Only the thread of the entry is at work. -/
theorem State.Sound.alone (hs : s.Sound) {d : Downloader} (hd : s.entry = some d) {k : Nat}
    {j : Job} (hne : k ≠ d.owner) (hk : s.jobs k = some j) : ¬ j.at'.Busy := by
  intro hbusy
  obtain ⟨d', hd', rfl, -⟩ := hs.busy k j hk hbusy
  rw [hd] at hd'
  cases hd'
  exact hne rfl

/-- The entry is gone only when its thread is through. -/
theorem over_of_gone {d : Downloader} {j : Job} {at' : At} (hnext : Next j at' a)
    (h : a.apply d = none) : at' = .over := by
  cases a with
  | remove file => exact hnext.removes file rfl
  | _ => cases h

/-- A thread at work has an entry without an error, so that an error in it is new. -/
theorem State.Sound.over_of_errored (hs : s.Sound) {d d' : Downloader} {j : Job} {at' : At}
    (hd : s.entry = some d) (hj : s.jobs d.owner = some j) (hnext : Next j at' a)
    (h : a.apply d = some d') (herror : d'.error ≠ none) : at' = .over := by
  by_cases hfails : ∃ err, a = .setError err
  · obtain ⟨err, herr⟩ := hfails
    exact hnext.fails err herr
  · rw [apply_error (not_exists.mp hfails) h] at herror
    obtain ⟨j', hj', hover⟩ := hs.errored d hd herror
    rw [hj] at hj'
    cases hj'
    have hbusy := hnext.busy
    rw [hover] at hbusy
    exact hbusy.elim

/-- A thread makes its next access, on its own entry. -/
theorem State.Sound.access (hs : s.Sound) {i : Nat} {j : Job} {at' : At}
    (hj : s.jobs i = some j) (hnext : Next j at' a) :
    ((s.access i a).setJob i
      { j with at' := at', received := j.received ++ a.chunks }).Sound := by
  obtain ⟨d, hd, rfl, hpath⟩ := hs.busy i j hj hnext.busy
  refine ⟨hs.apart_access hd hpath hj hnext, ?_, ?_, ?_, ?_, ?_⟩
  · intro k j₁ hk hbusy
    obtain ⟨rfl, rfl⟩ | ⟨hne, hold⟩ := jobs_setJob hk
    · cases happly : a.apply d with
      | some d' =>
        obtain ⟨howner, hsame⟩ := apply_same happly
        refine ⟨d', ?_, howner, hsame.trans hpath⟩
        exact (entry_access s d.owner a).trans ((congrArg (·.bind a.apply) hd).trans happly)
      | none =>
        rw [over_of_gone hnext happly] at hbusy
        exact hbusy.elim
    · rw [jobs_access] at hold
      exact absurd hbusy (hs.alone hd hne hold)
  · intro d' hd' herror
    have happly := apply_of_access hd hd'
    rw [(apply_same happly).1]
    exact ⟨_, Function.update_self _ _ _, hs.over_of_errored hd hj hnext happly herror⟩
  · intro k hk
    have hcalls : s.calls ≤ k := by
      rw [← calls_access s d.owner a]
      exact hk
    unfold State.setJob
    rw [jobs_access]
    exact hs.fresh_setJob hj hcalls
  · intro k j₁ stale hk hat
    obtain ⟨rfl, rfl⟩ | ⟨hne, hold⟩ := jobs_setJob hk
    · have hat' : at' = .checked stale := hat
      rcases hnext.later with hbusy | hover
      · rw [hat'] at hbusy
        exact hbusy.elim
      · rw [hat'] at hover
        cases hover
    · rw [jobs_access] at hold
      exact hs.checked k j₁ stale hold hat
  · intro k j₁ stale hk hat
    obtain ⟨rfl, rfl⟩ | ⟨hne, hold⟩ := jobs_setJob hk
    · exact absurd hat (hnext.notInserted stale)
    · rw [jobs_access] at hold
      exact hs.inserted k j₁ stale hold hat

/-! ## Every run -/

theorem sound_stepThread (hs : s.Sound) (i : Nat) (act : ThreadAct) :
    (s.stepThread i act).Sound := by
  unfold State.stepThread
  split
  · exact hs
  · next j hj =>
      split
      · exact hs
      · next at' a hnext => exact hs.access hj (next_spec hnext)

theorem sound_stepCall (hs : s.Sound) (i : Nat) (act : CallAct)
    (hcareful : Careful s (.call i act)) : (s.stepCall i act).Sound := by
  unfold State.stepCall
  split
  · exact hs
  · next j hj =>
      split
      · next fileExists stale hat => cases (hs.checked i j (some stale) hj hat).1
      · next fileExists stale hat => cases hs.inserted i j (some stale) hj hat
      · next hat => exact hs.setJob hj rfl rfl nofun (fun _ => rfl) nofun nofun
      · next hat =>
          split
          · exact hs.setJob hj rfl rfl nofun (fun _ => rfl) nofun nofun
          · next stale s' hpass =>
              obtain ⟨rfl, rfl, hfree⟩ := hs.pass hcareful hpass
              exact hfree.insert rfl hj (hs.checked i j none hj hat).2
      · next hat =>
          refine hs.setJob hj rfl rfl ?_ ?_ nofun nofun
          · intro _
            rw [hat]
            trivial
          · intro hover
            rw [hat] at hover
            cases hover
      · exact hs

theorem sound_step (hs : s.Sound) (e : Event) (hcareful : Careful s e) : (step s e).Sound := by
  cases e with
  | downloadFile path autoDelDur =>
    rw [step]
    split
    · exact ⟨⟨hs.apart.changed, hs.apart.removed, hs.apart.size, hs.apart.data⟩, hs.busy,
        hs.errored, fun k hk => hs.fresh k (Nat.le_of_succ_le hk), hs.checked, hs.inserted⟩
    · next stale s' hpass =>
        obtain ⟨rfl, rfl, hfree⟩ := hs.pass hcareful hpass
        exact hfree.checkedIn path autoDelDur
  | call i act => exact sound_stepCall hs i act hcareful
  | thread i act => exact sound_stepThread hs i act
  | getDownloadData => exact hs
  | cancel =>
    rw [step]
    split
    · exact hs
    · exact ⟨⟨hs.apart.changed, hs.apart.removed, hs.apart.size, hs.apart.data⟩, hs.busy,
        hs.errored, hs.fresh, hs.checked, hs.inserted⟩
  | remove => exact hs.taken hcareful

/-- As long as an entry is only removed after its thread is through, and only a download without
    a file is retried, the downloads of one URL stay apart. -/
theorem downloads_apart (events : List Event) (hcareful : Along step Careful .init events) :
    Always step State.Apart .init events := by
  have hsound : Always step State.Sound .init events :=
    always_of_along (fun s e hs he => sound_step hs e he) sound_init hcareful
  exact hsound.mono fun s hs => hs.apart

/-- Two calls at once, of which the first gets to download; it fails half-way, and the next call
    downloads all there is. -/
def threeCalls : List Event :=
  [.downloadFile none none, .downloadFile none none, .call 0 .insert, .call 0 .spawn,
    .call 1 .insert, .thread 0 (.head 3), .thread 0 .got, .thread 0 (.chunk [1]),
    .thread 0 (.fail "reset"), .thread 0 .setError, .downloadFile none none, .call 2 .insert,
    .call 2 .spawn, .thread 2 (.head 3), .thread 2 .got, .thread 2 (.chunk [1, 2]),
    .thread 2 (.chunk [3]), .thread 2 .last, .thread 2 .finish, .remove]

theorem downloads_apart_threeCalls : Always step State.Apart .init threeCalls := by
  refine downloads_apart threeCalls ⟨nofun, nofun, nofun, trivial, ?_, trivial, trivial, trivial,
    trivial, trivial, ?_, nofun, trivial, trivial, trivial, trivial, trivial, trivial, trivial, ?_,
    trivial⟩
  · -- The entry of the first call has no error yet.
    intro d hd hno
    cases hd
    exact absurd rfl hno
  · intro d hd _
    cases hd
    rfl
  · intro d hd
    cases hd
    exact ⟨_, rfl, rfl⟩

/-- An entry is removed while its thread runs, and the file is asked for again. -/
def removedEarly : List Event :=
  [.downloadFile (some "a") none, .call 0 .insert, .call 0 .spawn, .thread 0 (.head 3),
    .thread 0 .got, .remove, .downloadFile (some "b") none, .call 1 .insert, .call 1 .spawn,
    .thread 0 .canceled, .thread 0 .finish, .thread 0 (.removeEntry true)]

/-- The first thread removes the entry of the second, and its file. -/
theorem downloads_mixed : ¬ Always step State.Apart .init removedEarly := by
  intro h
  have hmem : (some 0, 1) ∈ (run step .init removedEarly).removed := by decide
  exact absurd (h.last.removed _ hmem) (by decide)

end Download
end LuodaRemote
