/-
  What `get_download_data` tells of a download into memory while `do_download` goes on
  (src/hbbs_http/downloader.rs).

  The size of the file comes from the response to a `HEAD` request, the bytes from a `GET` request
  whose status nobody looks at. The data counts as complete when as many bytes came as `HEAD` has
  announced, whether the body has ended or not. `data_honest_iff`: this never misleads precisely in
  the downloads in which the two sizes never agree, so in none that has anything to give.

  The thread is the one of `LuodaRemote.Downloader`, with no other download of the URL. Here the
  responses are what the server sends.
-/
import LuodaRemote.Downloader

namespace LuodaRemote
open Lib

namespace Download

structure StatusCode where
  code : Nat
  reason : String
deriving DecidableEq

def StatusCode.isSuccess (status : StatusCode) : Bool := 200 ≤ status.code && status.code < 300

def StatusCode.display (status : StatusCode) : String :=
  toString status.code ++ " " ++ status.reason

inductive HttpEvent where
  /-- The response to `HEAD`, with its content length if there is a number. -/
  | headResponse (status : StatusCode) (contentLength : Option Nat)
  | getResponse (status : StatusCode)
  | chunk (bytes : List UInt8)
  | bodyEnd
  /-- What the thread waits for fails: a request, or the body. -/
  | error (err : String)
  /-- The thread sees that it is canceled, or goes on to its end. -/
  | canceled
  | finish
  | removeEntry (fileExists : Bool)
  | setError
  | autoDelete
  /-- The calls of that name. -/
  | cancel
  | remove
deriving DecidableEq

/-- A download, and what became of its `GET` request. -/
structure Exchange where
  state : State
  /-- The status of the response to `GET`. -/
  getStatus : Option StatusCode
  /-- The body of the response has ended. -/
  ended : Bool

/-- What `do_download` makes of the response to `HEAD`. -/
def headAct (status : StatusCode) (contentLength : Option Nat) : ThreadAct :=
  if status.isSuccess then
    match contentLength with
    | some totalSize => .head totalSize
    | none => .fail "Failed to get content length"
  else .fail ("Failed to get content length: " ++ status.display)

/-- A thread that waits for an answer of the server. -/
def At.awaits : At → Bool
  | .head | .get | .chunks => true
  | _ => false

/-- What the event is for a thread at this point, if it can happen there. -/
def HttpEvent.act (at' : At) : HttpEvent → Option ThreadAct
  | .headResponse status contentLength =>
    if at' = .head then some (headAct status contentLength) else none
  | .getResponse _ => if at' = .get then some .got else none
  | .chunk bytes => if at' = .chunks then some (.chunk bytes) else none
  | .bodyEnd => if at' = .chunks then some .last else none
  | .error err => if at'.awaits then some (.fail err) else none
  | .canceled => some .canceled
  | .finish => some .finish
  | .removeEntry fileExists => some (.removeEntry fileExists)
  | .setError => some .setError
  | .autoDelete => some .autoDelete
  | .cancel => none
  | .remove => none

def HttpEvent.status : HttpEvent → Option StatusCode
  | .getResponse status => some status
  | _ => none

/-- Where the event leads the thread, and what the thread does to the entry. -/
def Exchange.next (x : Exchange) (j : Job) (e : HttpEvent) : Option (At × Access) :=
  (e.act j.at').bind (j.next (x.state.signaled 0))

def Exchange.stepThread (x : Exchange) (j : Job) (e : HttpEvent) : Exchange :=
  match e.act j.at', x.next j e with
  | some act, some _ =>
    { state := Download.step x.state (.thread 0 act)
      getStatus := e.status.or x.getStatus
      ended := x.ended || e == .bodyEnd }
  | _, _ => x

def Exchange.step (x : Exchange) (e : HttpEvent) : Exchange :=
  match e with
  | .cancel => { x with state := Download.step x.state .cancel }
  | .remove => { x with state := Download.step x.state .remove }
  | e =>
    match x.state.jobs 0 with
    | none => x
    | some j => x.stepThread j e

/-- A download into memory whose thread was just spawned. -/
def Exchange.start (autoDelDur : Option Nat) : Exchange where
  state := run Download.step .init [.downloadFile none autoDelDur, .call 0 .insert, .call 0 .spawn]
  getStatus := none
  ended := false

/-! ## The property -/

/-- The whole body of a successful `GET` response that has ended. -/
structure Exchange.Complete (x : Exchange) (data : List UInt8) : Prop where
  success : ∃ status, x.getStatus = some status ∧ status.isSuccess = true
  ended : x.ended = true
  whole : data = x.state.received 0

/-- What `get_download_data` returns now misleads nobody. -/
def Exchange.Honest (x : Exchange) : Prop :=
  ∀ reply, x.state.getDownloadData = some reply →
    (reply.data = [] ∨ x.Complete reply.data) ∧
    (reply.error = none → reply.totalSize = some reply.downloadedSize → x.Complete reply.data)

/-- The thread of the download, at this point, has its entry. -/
def Exchange.Has (x : Exchange) (at' : At) (d : Downloader) : Prop :=
  x.state.entry = some d ∧ ∃ j, x.state.jobs 0 = some j ∧ j.at' = at'

/-- The event does not make the two sizes agree. -/
def Unfilled (x : Exchange) : HttpEvent → Prop
  | .headResponse status contentLength =>
    ∀ d, x.Has .head d → status.isSuccess = true → contentLength ≠ some d.downloadedSize
  | .chunk bytes => ∀ d, x.Has .chunks d → d.totalSize ≠ some (d.downloadedSize + bytes.length)
  | _ => True

/-! ## What the entry says of its thread -/

/-- The entry is what the thread has made of it. -/
structure Holds (d : Downloader) (j : Job) : Prop where
  inMemory : d.path = none
  data : d.data = j.received.flatten
  size : d.downloadedSize = d.data.length
  sized : d.totalSize = none → d.data = [] ∧ j.at' ≠ .chunks
  empty : j.at' = .head ∨ j.at' = .get → d.data = []
  unsized : j.at' = .get → d.totalSize ≠ none
  error : d.error ≠ none → j.at' = .over

structure Exchange.Sound (x : Exchange) (j : Job) : Prop where
  job : x.state.jobs 0 = some j
  inMemory : j.path = none
  ended : x.ended = true → j.at'.awaits = false
  entry : ∀ d, x.state.entry = some d → Holds d j

variable {x : Exchange} {j : Job} {d : Downloader}

theorem received_of_sound (hs : x.Sound j) : x.state.received 0 = j.received.flatten := by
  rw [State.received, hs.job]
  rfl

/-- What is told misleads only while the sizes agree. -/
theorem honest_iff (hs : x.Sound j) : x.Honest ↔ ∀ d, x.state.entry = some d →
    d.totalSize = some d.downloadedSize →
      x.Complete d.data ∨ (d.data = [] ∧ d.error ≠ none) := by
  unfold Exchange.Honest State.getDownloadData
  constructor
  · intro h d hd hfull
    rw [hd] at h
    obtain ⟨hdata, hdone⟩ := h _ rfl
    dsimp only at hdata hdone
    have hgiven : (if d.totalSize.getD 0 = d.downloadedSize ∧ d.path = none then d.data else []) =
        d.data := if_pos ⟨by rw [hfull]; rfl, (hs.entry d hd).inMemory⟩
    rw [hgiven] at hdata hdone
    by_cases herror : d.error = none
    · exact .inl (hdone herror hfull)
    · rcases hdata with hnil | hcomplete
      · exact .inr ⟨hnil, herror⟩
      · exact .inl hcomplete
  · intro h reply hreply
    obtain ⟨d, hd, rfl⟩ := Option.map_eq_some_iff.mp hreply
    dsimp only
    have hholds := hs.entry d hd
    by_cases hfull : d.totalSize = some d.downloadedSize
    · rw [if_pos ⟨by rw [hfull]; rfl, hholds.inMemory⟩]
      rcases h d hd hfull with hcomplete | ⟨hnil, herror⟩
      · exact ⟨.inr hcomplete, fun _ _ => hcomplete⟩
      · exact ⟨.inl hnil, fun hnone => absurd hnone herror⟩
    · refine ⟨.inl ?_, fun _ hagree => absurd hagree hfull⟩
      split
      · next hagree =>
          cases htotal : d.totalSize with
          | none => exact (hholds.sized htotal).1
          | some n =>
            rw [htotal] at hagree hfull
            exact absurd (congrArg some hagree.1) hfull
      · rfl

/-! ## One step -/

/-- What a step of the thread leaves. -/
structure Exchange.Moved (x : Exchange) (j : Job) (e : HttpEvent) (at' : At) (a : Access)
    (y : Exchange) : Prop where
  job : y.state.jobs 0 = some { j with at' := at', received := j.received ++ a.chunks }
  entry : y.state.entry = x.state.entry.bind a.apply
  getStatus : y.getStatus = e.status.or x.getStatus
  ended : y.ended = (x.ended || e == .bodyEnd)

theorem stepThread_cases (hs : x.Sound j) (e : HttpEvent) :
    x.stepThread j e = x ∧ x.next j e = none ∨
      ∃ at' a, x.next j e = some (at', a) ∧ x.Moved j e at' a (x.stepThread j e) := by
  unfold Exchange.stepThread
  cases hact : e.act j.at' with
  | none => exact .inl ⟨rfl, by rw [Exchange.next, hact]; rfl⟩
  | some act =>
    have hnext : x.next j e = j.next (x.state.signaled 0) act := by
      rw [Exchange.next, hact]
      rfl
    cases hres : j.next (x.state.signaled 0) act with
    | none =>
      rw [hnext, hres]
      exact .inl ⟨rfl, rfl⟩
    | some res =>
      obtain ⟨at', a⟩ := res
      rw [hnext, hres]
      have hstate : Download.step x.state (.thread 0 act) = (x.state.access 0 a).setJob 0
          { j with at' := at', received := j.received ++ a.chunks } := by
        rw [Download.step, State.stepThread, hs.job]
        dsimp only
        rw [hres]
      refine .inr ⟨at', a, rfl, ?_, ?_, rfl, rfl⟩
      · dsimp only
        rw [hstate]
        simp [State.setJob]
      · dsimp only
        rw [hstate, ← entry_access x.state 0 a]
        rfl

/-- The accesses that leave the bytes and the sizes alone. -/
inductive Quiet : At → Access → Prop where
  | pass (at' : At) : Quiet at' .pass
  | setFinished (at' : At) : Quiet at' .setFinished
  | setError (err : String) : Quiet .over (.setError err)
  | remove (at' : At) (file : Bool) : Quiet at' (.remove file)

/-- The steps of the thread. -/
inductive Moves (x : Exchange) (j : Job) : HttpEvent → At → Access → Prop where
  | head {status : StatusCode} {totalSize : Nat} (hat : j.at' = .head)
      (hstatus : status.isSuccess = true) :
      Moves x j (.headResponse status (some totalSize)) .get (.setTotalSize totalSize)
  | got {status : StatusCode} (hat : j.at' = .get) : Moves x j (.getResponse status) .chunks .pass
  | chunk {bytes : List UInt8} (hat : j.at' = .chunks) :
      Moves x j (.chunk bytes) .chunks (.addChunk bytes j.path.isNone)
  | bodyEnd (hat : j.at' = .chunks) : Moves x j .bodyEnd (.finishing true) .pass
  /-- The thread gives up, or goes on to its end. -/
  | later {e : HttpEvent} {at' : At} {a : Access} (hstatus : e.status = none)
      (hunfilled : Unfilled x e) (hbusy : j.at' ≠ .over) (hat : at'.awaits = false)
      (hquiet : Quiet at' a) : Moves x j e at' a

theorem next_fail {signaled : Bool} {err : String} {at' : At} {a : Access}
    (h : j.next signaled (.fail err) = some (at', a)) : at' = .failing err ∧ a = .pass := by
  simp only [Job.next] at h
  split at h <;> cases h <;> exact ⟨rfl, rfl⟩

theorem next_canceled {signaled : Bool} {at' : At} {a : Access}
    (h : j.next signaled .canceled = some (at', a)) : at'.awaits = false ∧ a = .pass := by
  simp only [Job.next] at h
  split at h <;> cases h <;> exact ⟨rfl, rfl⟩

theorem next_finish {signaled : Bool} {at' : At} {a : Access}
    (h : j.next signaled .finish = some (at', a)) : at'.awaits = false ∧ a = .setFinished := by
  simp only [Job.next] at h
  split at h
  · cases h
    split
    · exact ⟨rfl, rfl⟩
    · exact ⟨rfl, rfl⟩
  · cases h
    exact ⟨rfl, rfl⟩
  · cases h

theorem next_last {signaled : Bool} {act : ThreadAct} {at' : At} {a : Access}
    (hact : (∃ file, act = .removeEntry file) ∨ act = .setError ∨ act = .autoDelete)
    (h : j.next signaled act = some (at', a)) : at'.awaits = false ∧ Quiet at' a := by
  rcases hact with ⟨file, rfl⟩ | rfl | rfl
  · simp only [Job.next] at h
    split at h <;> cases h
    exact ⟨rfl, .remove _ _⟩
  · simp only [Job.next] at h
    split at h <;> cases h
    exact ⟨rfl, .setError _⟩
  · simp only [Job.next] at h
    split at h <;> cases h
    exact ⟨rfl, .remove _ _⟩

theorem moves_of_next {e : HttpEvent} {at' : At} {a : Access} (h : x.next j e = some (at', a)) :
    Moves x j e at' a := by
  obtain ⟨act, hact, hnext⟩ := Option.bind_eq_some_iff.mp h
  have hbusy : j.at' ≠ .over := by
    intro hover
    have := (next_spec hnext).busy
    rw [hover] at this
    exact this
  cases e with
  | headResponse status contentLength =>
    obtain ⟨hat, heq⟩ := Option.ite_none_right_eq_some.mp hact
    cases heq
    unfold headAct at hnext
    split at hnext
    · next hstatus =>
        cases contentLength with
        | some totalSize =>
          simp only [Job.next, hat] at hnext
          cases hnext
          exact .head hat hstatus
        | none =>
          obtain ⟨rfl, rfl⟩ := next_fail hnext
          refine .later rfl ?_ hbusy rfl (.pass _)
          intro d _ _ heq
          cases heq
    · next hstatus =>
        obtain ⟨rfl, rfl⟩ := next_fail hnext
        refine .later rfl ?_ hbusy rfl (.pass _)
        exact fun d _ hsuccess => absurd hsuccess hstatus
  | getResponse status =>
    obtain ⟨hat, heq⟩ := Option.ite_none_right_eq_some.mp hact
    cases heq
    simp only [Job.next, hat] at hnext
    cases hnext
    exact .got hat
  | chunk bytes =>
    obtain ⟨hat, heq⟩ := Option.ite_none_right_eq_some.mp hact
    cases heq
    simp only [Job.next, hat] at hnext
    cases hnext
    exact .chunk hat
  | bodyEnd =>
    obtain ⟨hat, heq⟩ := Option.ite_none_right_eq_some.mp hact
    cases heq
    simp only [Job.next, hat] at hnext
    cases hnext
    exact .bodyEnd hat
  | error err =>
    obtain ⟨-, heq⟩ := Option.ite_none_right_eq_some.mp hact
    cases heq
    obtain ⟨rfl, rfl⟩ := next_fail hnext
    exact .later rfl trivial hbusy rfl (.pass _)
  | canceled =>
    cases hact
    obtain ⟨hat, rfl⟩ := next_canceled hnext
    exact .later rfl trivial hbusy hat (.pass _)
  | finish =>
    cases hact
    obtain ⟨hat, rfl⟩ := next_finish hnext
    exact .later rfl trivial hbusy hat (.setFinished _)
  | removeEntry file =>
    cases hact
    obtain ⟨hat, hquiet⟩ := next_last (.inl ⟨file, rfl⟩) hnext
    exact .later rfl trivial hbusy hat hquiet
  | setError =>
    cases hact
    obtain ⟨hat, hquiet⟩ := next_last (.inr (.inl rfl)) hnext
    exact .later rfl trivial hbusy hat hquiet
  | autoDelete =>
    cases hact
    obtain ⟨hat, hquiet⟩ := next_last (.inr (.inr rfl)) hnext
    exact .later rfl trivial hbusy hat hquiet
  | cancel => cases hact
  | remove => cases hact

/-- The thread as a step leaves it. -/
def Job.after (j : Job) (at' : At) (a : Access) : Job :=
  { j with at' := at', received := j.received ++ a.chunks }

variable {y : Exchange} {e : HttpEvent} {at' : At} {a : Access} {d' : Downloader}

theorem no_error (hh : Holds d j) (hbusy : j.at' ≠ .over) : d.error = none := by
  by_contra herror
  exact hbusy (hh.error herror)

/-- What a quiet access keeps of the entry. -/
structure Same (d d' : Downloader) : Prop where
  path : d'.path = d.path
  data : d'.data = d.data
  size : d'.downloadedSize = d.downloadedSize
  total : d'.totalSize = d.totalSize

theorem same_of_quiet (hquiet : Quiet at' a) (hd : a.apply d = some d') : Same d d' := by
  cases hquiet <;> cases hd <;> exact ⟨rfl, rfl, rfl, rfl⟩

theorem chunks_of_quiet (hquiet : Quiet at' a) : a.chunks = [] := by
  cases hquiet <;> rfl

theorem error_of_quiet (hquiet : Quiet at' a) (hd : a.apply d = some d') :
    d'.error = d.error ∨ at' = .over := by
  cases hquiet <;> cases hd
  · exact .inl rfl
  · exact .inl rfl
  · exact .inr rfl

theorem holds_quiet (hh : Holds d j) (hbusy : j.at' ≠ .over) (hat : at'.awaits = false)
    (hquiet : Quiet at' a) (hd : a.apply d = some d') : Holds d' (j.after at' a) := by
  have hsame := same_of_quiet hquiet hd
  have hnot : ∀ p : At, p.awaits = true → at' ≠ p := by
    rintro p hp rfl
    rw [hat] at hp
    cases hp
  constructor
  · rw [hsame.path, hh.inMemory]
  · rw [hsame.data, hh.data, Job.after, chunks_of_quiet hquiet, List.append_nil]
  · rw [hsame.size, hsame.data, hh.size]
  · intro hn
    rw [hsame.total] at hn
    exact ⟨hsame.data.trans (hh.sized hn).1, hnot _ rfl⟩
  · rintro (hc | hc)
    · exact absurd hc (hnot _ rfl)
    · exact absurd hc (hnot _ rfl)
  · exact fun hc => absurd hc (hnot _ rfl)
  · intro hne
    rcases error_of_quiet hquiet hd with hsame | hover
    · rw [hsame, no_error hh hbusy] at hne
      exact absurd rfl hne
    · exact hover

theorem holds_moved (hh : Holds d j) (hmem : j.path = none) (hm : Moves x j e at' a)
    (hd : a.apply d = some d') : Holds d' (j.after at' a) := by
  cases hm with
  | head hat hstatus =>
    cases hd
    have hdata : d.data = (j.received ++ []).flatten := by rw [List.append_nil, hh.data]
    exact ⟨hh.inMemory, hdata, hh.size, nofun, fun _ => hh.empty (.inl hat), nofun,
      fun hne => absurd (no_error hh (by rw [hat]; nofun)) hne⟩
  | got hat =>
    cases hd
    have hdata : d.data = (j.received ++ []).flatten := by rw [List.append_nil, hh.data]
    exact ⟨hh.inMemory, hdata, hh.size, fun hn => absurd hn (hh.unsized hat), nofun, nofun,
      fun hne => absurd (no_error hh (by rw [hat]; nofun)) hne⟩
  | @chunk bytes hat =>
    have hkeep : (Access.addChunk bytes j.path.isNone).apply d = some
        { d with data := d.data ++ bytes
                 downloadedSize := d.downloadedSize + bytes.length } := by
      rw [hmem]
      rfl
    rw [hkeep] at hd
    cases hd
    refine ⟨hh.inMemory, ?_, ?_, fun hn => absurd hat (hh.sized hn).2, nofun, nofun,
      fun hne => absurd (no_error hh (by rw [hat]; nofun)) hne⟩
    · show d.data ++ bytes = (j.received ++ [bytes]).flatten
      rw [List.flatten_append, hh.data, List.flatten_singleton]
    · dsimp only
      rw [List.length_append, hh.size]
  | bodyEnd hat =>
    exact holds_quiet hh (by rw [hat]; nofun) rfl (.pass _) hd
  | later hstatus hunfilled hbusy hat hquiet => exact holds_quiet hh hbusy hat hquiet hd

theorem sound_moved (hs : x.Sound j) (hm : Moves x j e at' a) (hy : x.Moved j e at' a y) :
    y.Sound (j.after at' a) where
  job := hy.job
  inMemory := hs.inMemory
  ended h := by
    rw [hy.ended, Bool.or_eq_true] at h
    -- The body of a thread at work has not ended.
    have hnot (hat : j.at'.awaits = true) : x.ended ≠ true := by
      intro hended
      rw [hs.ended hended] at hat
      cases hat
    cases hm with
    | head hat hstatus => exact absurd (h.resolve_right nofun) (hnot (by rw [hat]; rfl))
    | got hat => exact absurd (h.resolve_right nofun) (hnot (by rw [hat]; rfl))
    | chunk hat => exact absurd (h.resolve_right nofun) (hnot (by rw [hat]; rfl))
    | bodyEnd hat => rfl
    | later hstatus hunfilled hbusy hat hquiet => exact hat
  entry d' hd' := by
    rw [hy.entry] at hd'
    obtain ⟨d, hd, happly⟩ := Option.bind_eq_some_iff.mp hd'
    exact holds_moved (hs.entry d hd) hs.inMemory hm happly

/-! ## Honesty, step by step -/

/-- A thread at work has told nothing wrong only if the sizes do not agree yet. -/
theorem honest_awaiting (hs : x.Sound j) (hat : j.at'.awaits = true) :
    x.Honest ↔ ∀ d, x.state.entry = some d → d.totalSize ≠ some d.downloadedSize := by
  rw [honest_iff hs]
  refine forall_congr' fun d => forall_congr' fun hd => ⟨?_, fun hne hfull => absurd hfull hne⟩
  intro h hfull
  rcases h hfull with hcomplete | ⟨-, herror⟩
  · have := hs.ended hcomplete.ended
    rw [hat] at this
    cases this
  · have hover := (hs.entry d hd).error herror
    rw [hover] at hat
    cases hat

/-- What was not misleading is not after a step that leaves bytes and sizes alone. -/
theorem honest_quiet (hs : x.Sound j) (hbusy : j.at' ≠ .over) (hquiet : Quiet at' a)
    (hy : x.Moved j e at' a y) (hys : y.Sound (j.after at' a)) (hstatus : e.status = none)
    (hx : x.Honest) : y.Honest := by
  rw [honest_iff hys]
  intro d' hd' hfull
  rw [hy.entry] at hd'
  obtain ⟨d, hd, happly⟩ := Option.bind_eq_some_iff.mp hd'
  have hsame := same_of_quiet hquiet happly
  rw [hsame.total, hsame.size] at hfull
  rcases (honest_iff hs).mp hx d hd hfull with hcomplete | ⟨-, herror⟩
  · refine .inl ⟨?_, ?_, ?_⟩
    · rw [hy.getStatus, hstatus]
      exact hcomplete.success
    · rw [hy.ended, hcomplete.ended]
      rfl
    · rw [hsame.data, hcomplete.whole, received_of_sound hs, received_of_sound hys, Job.after,
        chunks_of_quiet hquiet, List.append_nil]
  · exact absurd (no_error (hs.entry d hd) hbusy) herror

/-- A step of the thread misleads precisely if it makes the sizes agree. -/
theorem honest_moved (hs : x.Sound j) (hm : Moves x j e at' a) (hy : x.Moved j e at' a y)
    (hx : x.Honest) : y.Honest ↔ Unfilled x e := by
  have hys := sound_moved hs hm hy
  cases hm with
  | @head status totalSize hat hstatus =>
    rw [honest_awaiting hys rfl, hy.entry]
    constructor
    · rintro h d ⟨hd, -⟩ - heq
      rw [hd] at h
      refine h _ rfl ?_
      exact heq
    · intro h d' hd' heq
      obtain ⟨d, hd, happly⟩ := Option.bind_eq_some_iff.mp hd'
      cases happly
      exact h d ⟨hd, j, hs.job, hat⟩ hstatus heq
  | got hat =>
    rw [honest_awaiting hys rfl, hy.entry]
    refine ⟨fun _ => trivial, fun _ d' hd' => ?_⟩
    obtain ⟨d, hd, happly⟩ := Option.bind_eq_some_iff.mp hd'
    cases happly
    exact (honest_awaiting hs (by rw [hat]; rfl)).mp hx _ hd
  | @chunk bytes hat =>
    rw [honest_awaiting hys rfl, hy.entry]
    constructor
    · rintro h d ⟨hd, -⟩ heq
      rw [hd] at h
      exact h _ rfl heq
    · intro h d' hd' heq
      obtain ⟨d, hd, happly⟩ := Option.bind_eq_some_iff.mp hd'
      cases happly
      exact h d ⟨hd, j, hs.job, hat⟩ heq
  | bodyEnd hat =>
    refine ⟨fun _ => trivial, fun _ => (honest_iff hys).mpr fun d' hd' hfull => ?_⟩
    rw [hy.entry] at hd'
    obtain ⟨d, hd, happly⟩ := Option.bind_eq_some_iff.mp hd'
    cases happly
    exact absurd hfull ((honest_awaiting hs (by rw [hat]; rfl)).mp hx _ hd)
  | later hstatus hunfilled hbusy hat hquiet =>
    exact ⟨fun _ => hunfilled, fun _ => honest_quiet hs hbusy hquiet hy hys hstatus hx⟩

/-- Nothing happened to the thread, and the entry may be gone. -/
theorem sound_idle (hs : x.Sound j) (hjobs : y.state.jobs 0 = x.state.jobs 0)
    (hentry : y.state.entry = x.state.entry ∨ y.state.entry = none) (hended : y.ended = x.ended) :
    y.Sound j where
  job := hjobs.trans hs.job
  inMemory := hs.inMemory
  ended h := hs.ended (hended ▸ h)
  entry d hd := by
    rcases hentry with hsame | hnone
    · exact hs.entry d (hsame ▸ hd)
    · rw [hnone] at hd
      cases hd

theorem honest_idle (hs : x.Sound j) (hjobs : y.state.jobs 0 = x.state.jobs 0)
    (hentry : y.state.entry = x.state.entry ∨ y.state.entry = none) (hended : y.ended = x.ended)
    (hstatus : y.getStatus = x.getStatus) (hx : x.Honest) : y.Honest := by
  rw [honest_iff (sound_idle hs hjobs hentry hended)]
  intro d hd hfull
  rcases hentry with hsame | hnone
  · rw [hsame] at hd
    refine ((honest_iff hs).mp hx d hd hfull).imp_left fun hcomplete => ⟨?_, ?_, ?_⟩
    · rw [hstatus]
      exact hcomplete.success
    · rw [hended]
      exact hcomplete.ended
    · rw [hcomplete.whole, State.received, State.received, hjobs]
  · rw [hnone] at hd
    cases hd

theorem unfilled_of_not_next (hs : x.Sound j) (h : x.next j e = none) : Unfilled x e := by
  cases e with
  | headResponse status contentLength =>
    rintro d ⟨-, j', hj', hat⟩ hstatus hlength
    rw [hs.job] at hj'
    cases hj'
    rw [hlength, Exchange.next, HttpEvent.act, if_pos hat, headAct, if_pos hstatus] at h
    simp [Job.next, hat] at h
  | chunk bytes =>
    rintro d ⟨-, j', hj', hat⟩ -
    rw [hs.job] at hj'
    cases hj'
    rw [Exchange.next, HttpEvent.act, if_pos hat] at h
    simp [Job.next, hat] at h
  | _ => trivial

/-- The step lemma. -/
theorem exchange_step (hs : x.Sound j) (e : HttpEvent) :
    (∃ j', (x.step e).Sound j') ∧ (x.Honest → ((x.step e).Honest ↔ Unfilled x e)) := by
  have hthread : x.step e = x.stepThread j e →
      (∃ j', (x.step e).Sound j') ∧ (x.Honest → ((x.step e).Honest ↔ Unfilled x e)) := by
    intro hstep
    rw [hstep]
    rcases stepThread_cases hs e with ⟨hsame, hnone⟩ | ⟨at', a, hnext, hmoved⟩
    · rw [hsame]
      exact ⟨⟨j, hs⟩, fun hx => ⟨fun _ => unfilled_of_not_next hs hnone, fun _ => hx⟩⟩
    · have hm := moves_of_next hnext
      exact ⟨⟨_, sound_moved hs hm hmoved⟩, honest_moved hs hm hmoved⟩
  have hidle (hjobs : (x.step e).state.jobs 0 = x.state.jobs 0)
      (hentry : (x.step e).state.entry = x.state.entry ∨ (x.step e).state.entry = none)
      (hended : (x.step e).ended = x.ended) (hstatus : (x.step e).getStatus = x.getStatus)
      (hunfilled : Unfilled x e) :
      (∃ j', (x.step e).Sound j') ∧ (x.Honest → ((x.step e).Honest ↔ Unfilled x e)) :=
    ⟨⟨j, sound_idle hs hjobs hentry hended⟩,
      fun hx => ⟨fun _ => hunfilled, fun _ => honest_idle hs hjobs hentry hended hstatus hx⟩⟩
  cases e with
  | cancel =>
    refine hidle ?_ (.inl ?_) rfl rfl trivial
    · rw [Exchange.step, Download.step]
      split
      · rfl
      · rfl
    · rw [Exchange.step, Download.step]
      split
      · rfl
      · rfl
  | remove => exact hidle rfl (.inr rfl) rfl rfl trivial
  | _ => exact hthread (by simp only [Exchange.step, hs.job])

theorem sound_start (autoDelDur : Option Nat) :
    (Exchange.start autoDelDur).Sound ⟨none, autoDelDur, .head, []⟩ where
  job := rfl
  inMemory := rfl
  ended := nofun
  entry d hd := by
    cases hd
    exact ⟨rfl, rfl, rfl, fun _ => ⟨rfl, nofun⟩, fun _ => rfl, nofun, fun h => absurd rfl h⟩

theorem honest_start (autoDelDur : Option Nat) : (Exchange.start autoDelDur).Honest := by
  rw [honest_awaiting (sound_start autoDelDur) rfl]
  intro d hd
  cases hd
  nofun

/-- Nothing misleading is told throughout a download if and only if the sizes never come to
    agree. -/
theorem data_honest_iff (autoDelDur : Option Nat) (events : List HttpEvent) :
    Always Exchange.step Exchange.Honest (.start autoDelDur) events ↔
      Along Exchange.step Unfilled (.start autoDelDur) events :=
  always_iff_along (I := fun x => ∃ j, x.Sound j) (fun _ e ⟨_, hs⟩ => (exchange_step hs e).1)
    (fun _ e ⟨_, hs⟩ hx => (exchange_step hs e).2 hx) ⟨_, sound_start autoDelDur⟩
    (honest_start autoDelDur)

/-- `HEAD` announces three bytes; `GET` is answered with an error page of that length. -/
def errorPage : List HttpEvent :=
  [.headResponse ⟨200, "OK"⟩ (some 3), .getResponse ⟨404, "Not Found"⟩, .chunk [1, 2, 3], .bodyEnd,
    .finish]

/-- The error page is returned as the file, and no error with it. -/
theorem errorPage_told : ¬ Always Exchange.step Exchange.Honest (.start none) errorPage := by
  intro h
  have hreply : (run Exchange.step (.start none) errorPage).state.getDownloadData =
      some ⟨[1, 2, 3], none, some 3, 3, none⟩ := by decide +kernel
  obtain ⟨status, hstatus, hsuccess⟩ := ((h.last _ hreply).2 rfl rfl).success
  have hgot : (run Exchange.step (.start none) errorPage).getStatus = some ⟨404, "Not Found"⟩ := by
    decide +kernel
  rw [hgot] at hstatus
  cases hstatus
  exact absurd hsuccess (by decide)

end Download

end LuodaRemote
