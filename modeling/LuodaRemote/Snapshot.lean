/-
  A service that brings new subscribers up to date before they see the stream (`snapshot`,
  `ServiceSwap` and `send_shared` of `src/server/service.rs`).

  A new subscriber waits in `new_subscribes`. The service thread looks whether anybody waits, and
  if so runs a callback, which sends its messages to whoever waits at that moment; when it returns,
  everybody who waits then is moved to `subscribes` and gets what all others get. Each of these
  holds the lock for itself, and connections subscribe and unsubscribe in between.

  A subscriber has everything that the callback sent since it came. It has a whole snapshot only if
  it came before the first of these messages and the callback did not fail (`snapshot_complete`).
  The messages are numbered.
-/
import LuodaRemote.Server
import LuodaRemote.Lib.Run

namespace LuodaRemote
open Lib

/-! ## The steps -/

/-- A call of the callback that is over. -/
structure Callback where
  sent : List Nat
  ok : Bool
deriving DecidableEq

/-- A subscriber since it was added. -/
structure Listener where
  /-- The number of the next message then. -/
  since : Nat
  heard : List Nat
  /-- What moved it to `subscribes`. -/
  moved : Option Callback
deriving DecidableEq

structure Snapshots where
  sp : Service
  /-- What the running callback has sent. -/
  running : Option (List Nat)
  next : Nat
  listener : Int → Listener

inductive SnapshotStep where
  | onSubscribe (id : Int)
  | onUnsubscribe (id : Int)
  | sendShared
  /-- The service thread calls `snapshot`, unless its callback is running. -/
  | snapshot
  /-- The callback calls `ServiceSwap::send`. -/
  | swapSend
  /-- The callback returns, and `ServiceSwap` is dropped. -/
  | returns (ok : Bool)
deriving DecidableEq

namespace Snapshots

def hear (ids : List Int) (n : Nat) (listener : Int → Listener) : Int → Listener := fun id =>
  if id ∈ ids then { listener id with heard := (listener id).heard ++ [n] } else listener id

def move (ids : List Int) (c : Callback) (listener : Int → Listener) : Int → Listener := fun id =>
  if id ∈ ids then { listener id with moved := some c } else listener id

/-- Who is there already is not added anew. -/
def onSubscribe (id : Int) (s : Snapshots) : Snapshots :=
  { s with
    sp := s.sp.onSubscribe id
    listener := if s.sp.isSubed id then s.listener
      else Function.update s.listener id ⟨s.next, [], none⟩ }

def sendShared (s : Snapshots) : Snapshots :=
  { s with next := s.next + 1, listener := hear s.sp.subscribes s.next s.listener }

def snapshot (s : Snapshots) : Snapshots :=
  match s.running with
  | some _ => s
  | none => { s with running := if s.sp.newSubscribes.isEmpty then none else some [] }

def swapSend (s : Snapshots) : Snapshots :=
  match s.running with
  | none => s
  | some sent =>
    { s with
      running := some (sent ++ [s.next])
      next := s.next + 1
      listener := hear s.sp.newSubscribes s.next s.listener }

def returns (ok : Bool) (s : Snapshots) : Snapshots :=
  match s.running with
  | none => s
  | some sent =>
    { s with
      sp := s.sp.swapNewSubscribes
      running := none
      listener := move s.sp.newSubscribes ⟨sent, ok⟩ s.listener }

def step (s : Snapshots) : SnapshotStep → Snapshots
  | .onSubscribe id => s.onSubscribe id
  | .onUnsubscribe id => { s with sp := s.sp.onUnsubscribe id }
  | .sendShared => s.sendShared
  | .snapshot => s.snapshot
  | .swapSend => s.swapSend
  | .returns ok => s.returns ok

/-- A service with `need_snapshot`, to which nobody is subscribed. -/
def start (name : ServiceName) : Snapshots where
  sp := .new name true
  running := none
  next := 0
  listener := fun _ => ⟨0, [], none⟩

/-! ## What a subscriber has heard -/

/-- Everything that the callback sent since the subscriber was added. -/
def SinceAdded (l : Listener) (sent : List Nat) : Prop := ∀ n ∈ sent, l.since ≤ n → n ∈ l.heard

/-- Whoever gets what is sent to all was moved by a callback of which it has heard what was sent
    since it was added. -/
def Follows (s : Snapshots) : Prop :=
  ∀ id ∈ s.sp.subscribes, ∃ c, (s.listener id).moved = some c ∧ SinceAdded (s.listener id) c.sent

/-- And it has its snapshot: the callback did not fail, and nothing that it sent is missing. -/
def Complete (s : Snapshots) : Prop :=
  ∀ id ∈ s.sp.subscribes, ∃ c, (s.listener id).moved = some c ∧
    SinceAdded (s.listener id) c.sent ∧ c.ok = true ∧ ∀ n ∈ c.sent, n ∈ (s.listener id).heard

/-- A callback that returns while somebody waits has not failed, and whoever waits was added
    before its first message. -/
def InTime (s : Snapshots) : SnapshotStep → Prop
  | .returns ok => ∀ sent, s.running = some sent → ∀ id ∈ s.sp.newSubscribes,
      ok = true ∧ ∀ n ∈ sent, (s.listener id).since ≤ n
  | _ => True

structure Inv (s : Snapshots) : Prop where
  needSnapshot : s.sp.needSnapshot = true
  sent : ∀ sent, s.running = some sent → ∀ n ∈ sent, n < s.next
  since : ∀ id, (s.listener id).since ≤ s.next
  /-- Nothing was heard before the subscriber was there. -/
  heard : ∀ id, ∀ n ∈ (s.listener id).heard, (s.listener id).since ≤ n
  waiting : ∀ sent, s.running = some sent → ∀ id ∈ s.sp.newSubscribes,
    SinceAdded (s.listener id) sent
  follows : s.Follows

section Steps

variable {s : Snapshots} {id : Int} {n : Nat}

theorem hear_eq (ids : List Int) (n : Nat) (listener : Int → Listener) (id : Int) :
    (hear ids n listener id).since = (listener id).since ∧
      (hear ids n listener id).moved = (listener id).moved ∧
      ∀ m, m ∈ (hear ids n listener id).heard ↔
        m ∈ (listener id).heard ∨ id ∈ ids ∧ m = n := by
  unfold hear
  split
  · rename_i hmem
    exact ⟨rfl, rfl, fun m => by simp [hmem]⟩
  · rename_i hmem
    exact ⟨rfl, rfl, fun m => by simp [hmem]⟩

theorem move_eq (ids : List Int) (c : Callback) (listener : Int → Listener) (id : Int) :
    (move ids c listener id).since = (listener id).since ∧
      (move ids c listener id).heard = (listener id).heard ∧
      (move ids c listener id).moved = if id ∈ ids then some c else (listener id).moved := by
  unfold move
  split
  · exact ⟨rfl, rfl, rfl⟩
  · exact ⟨rfl, rfl, rfl⟩

theorem move_mem {ids : List Int} {id : Int} (hid : id ∈ ids) (c : Callback)
    (listener : Int → Listener) : (move ids c listener id).moved = some c :=
  (move_eq ids c listener id).2.2.trans (if_pos hid)

theorem move_not_mem {ids : List Int} {id : Int} (hid : id ∉ ids) (c : Callback)
    (listener : Int → Listener) : (move ids c listener id).moved = (listener id).moved :=
  (move_eq ids c listener id).2.2.trans (if_neg hid)

theorem sinceAdded_move {ids : List Int} {c : Callback} {listener : Int → Listener} {id : Int}
    {sent : List Nat} :
    SinceAdded (move ids c listener id) sent ↔ SinceAdded (listener id) sent := by
  rw [SinceAdded, (move_eq ids c listener id).1, (move_eq ids c listener id).2.1]
  rfl

/-- What a subscriber has heard it goes on having heard. -/
structure Kept (l l' : Listener) : Prop where
  since : l'.since = l.since
  moved : l'.moved = l.moved
  heard : ∀ n ∈ l.heard, n ∈ l'.heard

theorem Kept.refl (l : Listener) : Kept l l := ⟨rfl, rfl, fun _ hn => hn⟩

theorem hear_kept (ids : List Int) (n : Nat) (listener : Int → Listener) (id : Int) :
    Kept (listener id) (hear ids n listener id) := by
  obtain ⟨hsince, hmoved, hheard⟩ := hear_eq ids n listener id
  exact ⟨hsince, hmoved, fun m hm => (hheard m).mpr (.inl hm)⟩

theorem SinceAdded.kept {l l' : Listener} {sent : List Nat} (h : SinceAdded l sent)
    (hk : Kept l l') : SinceAdded l' sent :=
  fun n hn hle => hk.heard n (h n hn (hk.since ▸ hle))

/-- A step after which `subscribes` has no one new. -/
def Stays (s s' : Snapshots) : Prop :=
  ∀ id ∈ s'.sp.subscribes, id ∈ s.sp.subscribes ∧ Kept (s.listener id) (s'.listener id)

theorem Follows.stays {s' : Snapshots} (h : s.Follows) (hs : Stays s s') : s'.Follows := by
  intro id hid
  obtain ⟨hold, hk⟩ := hs id hid
  obtain ⟨c, hc, hsent⟩ := h id hold
  exact ⟨c, hk.moved.trans hc, hsent.kept hk⟩

theorem Complete.stays {s' : Snapshots} (h : s.Complete) (hs : Stays s s') : s'.Complete := by
  intro id hid
  obtain ⟨hold, hk⟩ := hs id hid
  obtain ⟨c, hc, hsent, hok, hall⟩ := h id hold
  exact ⟨c, hk.moved.trans hc, hsent.kept hk, hok, fun n hn => hk.heard n (hall n hn)⟩

end Steps

/-! ### One lemma per step -/

section Preserved

variable {s : Snapshots}

theorem isSubed_eq_false {sp : Service} {id : Int} (hno : sp.isSubed id = false) :
    id ∉ sp.subscribes ∧ id ∉ sp.newSubscribes := by
  simpa [Service.isSubed] using hno

theorem onSubscribe_new {sp : Service} (hn : sp.needSnapshot = true) (id : Int) :
    (sp.onSubscribe id).needSnapshot = true ∧ (sp.onSubscribe id).subscribes = sp.subscribes ∧
      ∀ j ∈ (sp.onSubscribe id).newSubscribes, j ∈ sp.newSubscribes ∨
        j = id ∧ sp.isSubed id = false := by
  unfold Service.onSubscribe
  by_cases hsub : id ∈ sp.subscribes
  · rw [dif_pos hsub]
    exact ⟨hn, rfl, fun j hj => .inl hj⟩
  · rw [dif_neg hsub, dif_pos hn]
    refine ⟨hn, rfl, fun j hj => ?_⟩
    rcases List.mem_cons.mp hj with rfl | hj
    · by_cases hwaits : j ∈ sp.newSubscribes
      · exact .inl hwaits
      · exact .inr ⟨rfl, by simp [Service.isSubed, hsub, hwaits]⟩
    · exact .inl hj

theorem onUnsubscribe_sub (sp : Service) (id : Int) :
    (sp.onUnsubscribe id).needSnapshot = sp.needSnapshot ∧
      (∀ j ∈ (sp.onUnsubscribe id).subscribes, j ∈ sp.subscribes) ∧
      ∀ j ∈ (sp.onUnsubscribe id).newSubscribes, j ∈ sp.newSubscribes := by
  unfold Service.onUnsubscribe
  split
  · exact ⟨rfl, fun j hj => List.mem_of_mem_filter hj, fun j hj => hj⟩
  · exact ⟨rfl, fun j hj => hj, fun j hj => List.mem_of_mem_filter hj⟩

/-- A subscriber that is added has heard nothing, and nothing was sent since. -/
theorem onSubscribe_inv (hs : s.Inv) (id : Int) :
    (s.onSubscribe id).Inv ∧ Stays s (s.onSubscribe id) := by
  obtain ⟨hneed, hsub, hnew⟩ := onSubscribe_new hs.needSnapshot id
  cases hthere : s.sp.isSubed id with
  | true =>
    have hlistener : (s.onSubscribe id).listener = s.listener := if_pos hthere
    have hstays : Stays s (s.onSubscribe id) := fun j hj =>
      ⟨hsub ▸ hj, by rw [hlistener]; exact .refl _⟩
    refine ⟨⟨hneed, hs.sent, ?_, ?_, ?_, hs.follows.stays hstays⟩, hstays⟩
    · rw [hlistener]
      exact hs.since
    · rw [hlistener]
      exact hs.heard
    · intro sent hrun j hj
      rw [hlistener]
      refine hs.waiting sent hrun j ((hnew j hj).resolve_right ?_)
      simp [hthere]
  | false =>
    have hlistener : (s.onSubscribe id).listener =
        Function.update s.listener id ⟨s.next, [], none⟩ := if_neg (by simp [hthere])
    have hadded : (s.onSubscribe id).listener id = ⟨s.next, [], none⟩ := by
      rw [hlistener, Function.update_self]
    have hother (j : Int) (hj : j ≠ id) : (s.onSubscribe id).listener j = s.listener j := by
      rw [hlistener, Function.update_of_ne hj]
    have hstays : Stays s (s.onSubscribe id) := by
      intro j hj
      have hin : j ∈ s.sp.subscribes := hsub ▸ hj
      refine ⟨hin, ?_⟩
      rw [hother j fun heq => (isSubed_eq_false hthere).1 (heq ▸ hin)]
      exact .refl _
    refine ⟨⟨hneed, hs.sent, fun j => ?_, fun j n hn => ?_, fun sent hrun j hj => ?_,
      hs.follows.stays hstays⟩, hstays⟩
    · by_cases hj : j = id
      · rw [hj, hadded]
        exact le_rfl
      · rw [hother j hj]
        exact hs.since j
    · by_cases hj : j = id
      · rw [hj, hadded] at hn
        cases hn
      · rw [hother j hj] at hn ⊢
        exact hs.heard j n hn
    · by_cases hid : j = id
      · intro n hn hle
        rw [hid, hadded] at hle
        exact absurd (hs.sent sent hrun n hn) (Nat.not_lt.mpr hle)
      · rw [hother j hid]
        exact hs.waiting sent hrun j ((hnew j hj).resolve_right fun hno => hid hno.1)

theorem onUnsubscribe_inv (hs : s.Inv) (id : Int) :
    Inv { s with sp := s.sp.onUnsubscribe id } ∧
      Stays s { s with sp := s.sp.onUnsubscribe id } := by
  obtain ⟨hneed, hsub, hnew⟩ := onUnsubscribe_sub s.sp id
  have hstays : Stays s { s with sp := s.sp.onUnsubscribe id } := fun j hj =>
    ⟨hsub j hj, .refl _⟩
  exact ⟨⟨hneed.trans hs.needSnapshot, hs.sent, hs.since, hs.heard,
    fun sent hrun j hj => hs.waiting sent hrun j (hnew j hj), hs.follows.stays hstays⟩, hstays⟩

/-- The numbers go on. -/
theorem hear_since (hs : s.Inv) (ids : List Int) (id : Int) :
    (hear ids s.next s.listener id).since ≤ s.next + 1 ∧
      ∀ n ∈ (hear ids s.next s.listener id).heard,
        (hear ids s.next s.listener id).since ≤ n := by
  obtain ⟨hsince, _, hheard⟩ := hear_eq ids s.next s.listener id
  rw [hsince]
  refine ⟨Nat.le_succ_of_le (hs.since id), fun n hn => ?_⟩
  rcases (hheard n).mp hn with hold | ⟨_, rfl⟩
  · exact hs.heard id n hold
  · exact hs.since id

theorem sendShared_inv (hs : s.Inv) : s.sendShared.Inv ∧ Stays s s.sendShared := by
  have hstays : Stays s s.sendShared := fun j hj => ⟨hj, hear_kept _ _ _ _⟩
  exact ⟨⟨hs.needSnapshot, fun sent hrun n hn => Nat.lt_succ_of_lt (hs.sent sent hrun n hn),
    fun id => (hear_since hs _ id).1, fun id => (hear_since hs _ id).2,
    fun sent hrun j hj => (hs.waiting sent hrun j hj).kept (hear_kept _ _ _ _),
    hs.follows.stays hstays⟩, hstays⟩

theorem snapshot_inv (hs : s.Inv) : s.snapshot.Inv ∧ Stays s s.snapshot := by
  unfold snapshot
  split
  · exact ⟨hs, fun j hj => ⟨hj, .refl _⟩⟩
  · have hrun (sent : List Nat)
        (h : (if s.sp.newSubscribes.isEmpty then none else some []) = some sent) : sent = [] := by
      split at h
      · cases h
      · cases h
        rfl
    refine ⟨⟨hs.needSnapshot, ?_, hs.since, hs.heard, ?_, hs.follows⟩, fun j hj => ⟨hj, .refl _⟩⟩
    · intro sent h n hn
      rw [hrun sent h] at hn
      cases hn
    · intro sent h j _ n hn
      rw [hrun sent h] at hn
      cases hn

/-- Whoever waits hears what the callback sends. -/
theorem swapSend_inv (hs : s.Inv) : s.swapSend.Inv ∧ Stays s s.swapSend := by
  unfold swapSend
  split
  · exact ⟨hs, fun j hj => ⟨hj, .refl _⟩⟩
  · rename_i sent hrun
    have hstays : Stays s
        { s with
          running := some (sent ++ [s.next])
          next := s.next + 1
          listener := hear s.sp.newSubscribes s.next s.listener } :=
      fun j hj => ⟨hj, hear_kept _ _ _ _⟩
    refine ⟨⟨hs.needSnapshot, ?_, fun id => (hear_since hs _ id).1,
      fun id => (hear_since hs _ id).2, ?_, hs.follows.stays hstays⟩, hstays⟩
    · rintro _ ⟨⟩ n hn
      rcases List.mem_append.mp hn with hold | hnew
      · exact Nat.lt_succ_of_lt (hs.sent sent hrun n hold)
      · rw [List.mem_singleton.mp hnew]
        exact Nat.lt_succ_self _
    · rintro _ ⟨⟩ j hj n hn hle
      rcases List.mem_append.mp hn with hold | hnew
      · exact (hs.waiting sent hrun j hj).kept (hear_kept _ _ _ _) n hold hle
      · rw [List.mem_singleton.mp hnew]
        exact ((hear_eq _ _ _ _).2.2 _).mpr (.inr ⟨hj, rfl⟩)

/-- Whoever waits is moved. -/
theorem returns_inv (hs : s.Inv) (ok : Bool) : (s.returns ok).Inv := by
  unfold returns
  split
  · exact hs
  · rename_i sent hrun
    have hwas (id : Int) := move_eq s.sp.newSubscribes ⟨sent, ok⟩ s.listener id
    refine ⟨hs.needSnapshot, by rintro _ ⟨⟩, ?_, ?_, by rintro _ ⟨⟩, ?_⟩
    · intro id
      dsimp only
      rw [(hwas id).1]
      exact hs.since id
    · intro id n hn
      dsimp only at hn ⊢
      rw [(hwas id).2.1] at hn
      rw [(hwas id).1]
      exact hs.heard id n hn
    · intro id hid
      rcases List.mem_append.mp hid with hid | hid
      · exact ⟨_, move_mem hid _ _, sinceAdded_move.mpr (hs.waiting sent hrun id hid)⟩
      · obtain ⟨c, hc, hsent⟩ := hs.follows id hid
        exact ⟨c, (move_not_mem (s.sp.disjoint id hid) _ _).trans hc, sinceAdded_move.mpr hsent⟩

/-- Whoever is moved has a whole snapshot precisely if the callback was in time for it. -/
theorem returns_complete_iff (hs : s.Inv) (hc : s.Complete) (ok : Bool) :
    (s.returns ok).Complete ↔ s.InTime (.returns ok) := by
  unfold returns
  split
  · rename_i hrun
    refine iff_of_true hc ?_
    intro sent hsent
    rw [hrun] at hsent
    cases hsent
  · rename_i sent hrun
    have hheard (id : Int) := (move_eq s.sp.newSubscribes ⟨sent, ok⟩ s.listener id).2.1
    constructor
    · intro hcomplete sent' hsent' id hid
      rw [hrun] at hsent'
      cases hsent'
      obtain ⟨c, hmoved, _, hok, hall⟩ := hcomplete id (List.mem_append_left _ hid)
      obtain rfl := Option.some.inj ((move_mem hid _ _).symm.trans hmoved)
      refine ⟨hok, fun n hn => hs.heard id n ?_⟩
      rw [← hheard id]
      exact hall n hn
    · intro htime id hid
      rcases List.mem_append.mp hid with hid | hid
      · obtain ⟨hok, hle⟩ := htime sent hrun id hid
        have hwaited := hs.waiting sent hrun id hid
        refine ⟨_, move_mem hid _ _, sinceAdded_move.mpr hwaited, hok, fun n hn => ?_⟩
        rw [hheard id]
        exact hwaited n hn (hle n hn)
      · obtain ⟨c, hmoved, hsent, hok, hall⟩ := hc id hid
        refine ⟨c, (move_not_mem (s.sp.disjoint id hid) _ _).trans hmoved,
          sinceAdded_move.mpr hsent, hok, fun n hn => ?_⟩
        rw [hheard id]
        exact hall n hn

theorem step_inv (hs : s.Inv) (e : SnapshotStep) :
    (step s e).Inv ∧ (s.Complete → ((step s e).Complete ↔ s.InTime e)) := by
  have hfree {s' : Snapshots} (h : s'.Inv ∧ Stays s s') :
      s'.Inv ∧ (s.Complete → (s'.Complete ↔ True)) :=
    ⟨h.1, fun hc => iff_of_true (hc.stays h.2) trivial⟩
  cases e with
  | onSubscribe id => exact hfree (onSubscribe_inv hs id)
  | onUnsubscribe id => exact hfree (onUnsubscribe_inv hs id)
  | sendShared => exact hfree (sendShared_inv hs)
  | snapshot => exact hfree (snapshot_inv hs)
  | swapSend => exact hfree (swapSend_inv hs)
  | returns ok => exact ⟨returns_inv hs ok, fun hc => returns_complete_iff hs hc ok⟩

end Preserved

/-! ## Every run -/

theorem start_inv (name : ServiceName) : (start name).Inv :=
  ⟨rfl, by rintro _ ⟨⟩, fun _ => le_rfl, by rintro _ _ ⟨⟩, by rintro _ ⟨⟩, by rintro _ ⟨⟩⟩

/-- In every order of steps, what is sent to all goes to subscribers that have heard what the
    callback that moved them sent since they were added. They all have their snapshots precisely
    if every callback that moved somebody succeeded, and whoever it moved was there before its
    first message. -/
theorem snapshot_complete (name : ServiceName) (es : List SnapshotStep) :
    Always step Follows (start name) es ∧
      (Always step Complete (start name) es ↔ Along step InTime (start name) es) := by
  have hinv : Always step Inv (start name) es :=
    always_of_step (P := Inv) (fun s e hs => (step_inv hs e).1) (start_inv name) es
  refine ⟨hinv.mono fun s hs => hs.follows, ?_⟩
  exact always_iff_along (I := Inv) (fun s e hs => (step_inv hs e).1)
    (fun s e hs hc => (step_inv hs e).2 hc) (start_inv name) (by rintro _ ⟨⟩)

/-- The second subscriber comes when everything has been sent, and gets the stream without it. -/
theorem late_subscriber_without_snapshot :
    let es := [.onSubscribe 1, .snapshot, .swapSend, .onSubscribe 2, .returns true, .sendShared]
    (run step (start .cursor) es).listener 2 = ⟨1, [1], some ⟨[0], true⟩⟩ ∧
      ¬ Always step Complete (start .cursor) es := by
  intro es
  have hlistener : (run step (start .cursor) es).listener 2 = ⟨1, [1], some ⟨[0], true⟩⟩ := by
    decide
  refine ⟨hlistener, fun hall => ?_⟩
  obtain ⟨c, hmoved, _, _, hheard⟩ := hall.last 2 (by decide)
  rw [hlistener] at hmoved hheard
  obtain rfl := Option.some.inj hmoved
  exact absurd (hheard 0 (by decide)) (by decide)

end Snapshots

end LuodaRemote
