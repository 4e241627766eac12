/-
  The clipboard listener (`clipboard_listener` of `src/clipboard.rs`).

  Whoever wants to hear of changes to the clipboard subscribes under a name, and the thread that
  watches it is there as long as somebody does. `subscribe` registers the subscriber before it
  starts the thread and does not take it out again if that fails; until the thread is started for
  somebody else, the listener has a subscriber and no thread. `listener_follows_iff`: nothing else
  goes wrong, in any sequence of calls.

  A change of the clipboard is a call of `on_clipboard_change`, which is the thread's.
-/
import LuodaRemote.Lib.Run

namespace LuodaRemote
open Lib

inductive CallbackResult where
  | next
  | stop
  | stopWithError (error : String)
deriving DecidableEq

structure ClipboardListener where
  /-- Names, with the sender of each. -/
  subscribers : List (String × ℕ)
  handle : Bool
deriving DecidableEq

/-- What comes back from the thread that `start_clipboard_master_thread` spawns. -/
inductive StartResult where
  | started
  /-- `Master::new` fails. -/
  | failed (err : String)
  /-- The thread ends without a word. -/
  | gone (e : String)
deriving DecidableEq

inductive ListenerCall where
  | subscribe (name : String) (tx : ℕ) (start : StartResult)
  | unsubscribe (name : String)
  | change
  | error (error : String)
deriving DecidableEq

namespace ClipboardListener

def default : ClipboardListener := ⟨[], false⟩

/-- `HashMap::insert`. -/
def insert (name : String) (tx : ℕ) (subscribers : List (String × ℕ)) : List (String × ℕ) :=
  (name, tx) :: subscribers.filter (·.1 ≠ name)

/-- `HashMap::remove`. -/
def remove (name : String) (subscribers : List (String × ℕ)) : List (String × ℕ) :=
  subscribers.filter (·.1 ≠ name)

def subscribe (name : String) (tx : ℕ) (start : StartResult) (l : ClipboardListener) :
    Except String Unit × ClipboardListener :=
  let l := { l with subscribers := insert name tx l.subscribers }
  if l.handle then (.ok (), l)
  else match start with
    | .started => (.ok (), { l with handle := true })
    | .failed err => (.error ("Failed to create clipboard listener: " ++ err), l)
    | .gone e => (.error ("Failed to create clipboard listener: " ++ e), l)

def unsubscribe (name : String) (l : ClipboardListener) : ClipboardListener :=
  let subscribers := remove name l.subscribers
  { subscribers, handle := if subscribers.isEmpty then false else l.handle }

def call (l : ClipboardListener) : ListenerCall → Except String Unit × ClipboardListener
  | .subscribe name tx start => l.subscribe name tx start
  | .unsubscribe name => (.ok (), l.unsubscribe name)
  | .change | .error _ => (.ok (), l)

/-- What all subscribers are sent, if there is a thread. -/
def notify (res : CallbackResult) (l : ClipboardListener) : List (ℕ × CallbackResult) :=
  if l.handle then l.subscribers.map fun p => (p.2, res) else []

/-- What a call sends, and where. -/
def sent (l : ClipboardListener) : ListenerCall → List (ℕ × CallbackResult)
  | .subscribe .. => []
  | .unsubscribe name => (l.subscribers.filter (·.1 = name)).map fun p => (p.2, .stop)
  | .change => l.notify .next
  | .error error => l.notify (.stopWithError ("Clipboard listener error: " ++ error))

end ClipboardListener

/-! ## Who is listening -/

/-- The listener, with the names whose last call that went well was `subscribe`. -/
structure Listening where
  listener : ClipboardListener
  wanted : String → Option ℕ

namespace Listening

def start : Listening := ⟨.default, fun _ => none⟩

def want (wanted : String → Option ℕ) : ListenerCall → Except String Unit → String → Option ℕ
  | .subscribe name tx _, .ok () => Function.update wanted name (some tx)
  | .unsubscribe name, _ => Function.update wanted name none
  | _, _ => wanted

def step (s : Listening) (c : ListenerCall) : Listening where
  listener := (s.listener.call c).2
  wanted := want s.wanted c (s.listener.call c).1

/-- The thread is there if somebody subscribes, a call that fails has changed no subscriber, and a
    change is told to everybody who has subscribed. -/
structure Follows (s : Listening) (c : ListenerCall) : Prop where
  handle : (step s c).listener.handle = true ↔ (step s c).listener.subscribers ≠ []
  unchanged : ∀ e, (s.listener.call c).1 = .error e →
    ∀ p, p ∈ (step s c).listener.subscribers ↔ p ∈ s.listener.subscribers
  told : c = .change → ∀ name tx, s.wanted name = some tx → (tx, .next) ∈ s.listener.sent c

/-- The call does not have to start the thread, or starts it. -/
def Starts (s : Listening) : ListenerCall → Prop
  | .subscribe _ _ start => s.listener.handle = true ∨ start = .started
  | _ => True

instance (s : Listening) (c : ListenerCall) : Decidable (Starts s c) := by
  unfold Starts
  split <;> infer_instance

/-! ## One call -/

structure Inv (s : Listening) : Prop where
  handle : s.listener.handle = true ↔ s.listener.subscribers ≠ []
  wanted : ∀ name tx, s.wanted name = some tx → (name, tx) ∈ s.listener.subscribers

section Steps

variable {s : Listening} {c : ListenerCall} {name : String} {tx : ℕ} {st : StartResult}

/-- Whoever is subscribed under another name stays so. -/
theorem mem_remove {subscribers : List (String × ℕ)} {other : String} {tx' : ℕ}
    (hne : other ≠ name) : (other, tx') ∈ ClipboardListener.remove name subscribers ↔
      (other, tx') ∈ subscribers := by
  simp [ClipboardListener.remove, hne]

theorem call_subscribe (hst : s.Starts (.subscribe name tx st)) :
    s.listener.call (.subscribe name tx st) =
      (.ok (), ⟨ClipboardListener.insert name tx s.listener.subscribers, true⟩) := by
  show s.listener.subscribe name tx st = _
  unfold ClipboardListener.subscribe
  cases hhandle : s.listener.handle with
  | true => simp
  | false =>
    rcases hst with h | rfl
    · rw [hhandle] at h
      cases h
    · simp

/-- A subscriber whose thread did not start is there all the same. -/
theorem call_subscribe_failed (hst : ¬ s.Starts (.subscribe name tx st)) :
    s.listener.handle = false ∧ ∃ e, s.listener.call (.subscribe name tx st) =
      (.error e, ⟨ClipboardListener.insert name tx s.listener.subscribers, false⟩) := by
  obtain ⟨hhandle, hnot⟩ := not_or.mp hst
  rw [Bool.not_eq_true] at hhandle
  refine ⟨hhandle, ?_⟩
  show ∃ e, s.listener.subscribe name tx st = _
  unfold ClipboardListener.subscribe
  cases st with
  | started => exact absurd rfl hnot
  | failed err => exact ⟨_, by simp [hhandle]; rfl⟩
  | gone e => exact ⟨_, by simp [hhandle]; rfl⟩

theorem step_subscribe (hst : s.Starts (.subscribe name tx st)) :
    step s (.subscribe name tx st) =
      ⟨⟨ClipboardListener.insert name tx s.listener.subscribers, true⟩,
        Function.update s.wanted name (some tx)⟩ := by
  rw [step, call_subscribe hst]
  rfl

theorem subscribe_inv (hs : s.Inv) (hst : s.Starts (.subscribe name tx st)) :
    (step s (.subscribe name tx st)).Inv := by
  rw [step_subscribe hst]
  refine ⟨iff_of_true rfl (List.cons_ne_nil _ _), fun other tx' hw => ?_⟩
  dsimp only at hw ⊢
  by_cases hother : other = name
  · subst hother
    rw [Function.update_self] at hw
    cases hw
    exact List.mem_cons_self
  · rw [Function.update_of_ne hother] at hw
    exact List.mem_cons_of_mem _ ((mem_remove hother).mpr (hs.wanted other tx' hw))

theorem unsubscribe_inv (hs : s.Inv) : (step s (.unsubscribe name)).Inv := by
  have hsub : ClipboardListener.remove name s.listener.subscribers ≠ [] →
      s.listener.subscribers ≠ [] := by
    intro hne hnil
    rw [hnil] at hne
    exact hne rfl
  refine ⟨?_, fun other tx' hw => ?_⟩
  · show (if (ClipboardListener.remove name s.listener.subscribers).isEmpty then false
      else s.listener.handle) = true ↔ ClipboardListener.remove name s.listener.subscribers ≠ []
    cases hrest : ClipboardListener.remove name s.listener.subscribers with
    | nil => simp
    | cons p rest =>
      rw [hrest] at hsub
      simpa using hs.handle.mpr (hsub (List.cons_ne_nil _ _))
  · replace hw : Function.update s.wanted name none other = some tx' := hw
    by_cases hother : other = name
    · subst hother
      rw [Function.update_self] at hw
      cases hw
    · rw [Function.update_of_ne hother] at hw
      exact (mem_remove hother).mpr (hs.wanted other tx' hw)

theorem step_inv (hs : s.Inv) (c : ListenerCall) (hst : s.Starts c) : (step s c).Inv := by
  cases c with
  | subscribe name tx st => exact subscribe_inv hs hst
  | unsubscribe name => exact unsubscribe_inv hs
  | change => exact hs
  | error e => exact hs

/-- A change is told to everybody who has subscribed, as they are all in the map and the thread
    is there. -/
theorem told_of_inv (hs : s.Inv) (hw : s.wanted name = some tx) :
    (tx, .next) ∈ s.listener.sent .change := by
  have hmem : (name, tx) ∈ s.listener.subscribers := hs.wanted name tx hw
  have hhandle : s.listener.handle = true := hs.handle.mpr (List.ne_nil_of_mem hmem)
  show _ ∈ s.listener.notify .next
  rw [ClipboardListener.notify, if_pos hhandle]
  exact List.mem_map_of_mem (f := fun p : String × ℕ => (p.2, CallbackResult.next)) hmem

theorem call_ok (hst : s.Starts c) : (s.listener.call c).1 = .ok () := by
  cases c with
  | subscribe name tx st => rw [call_subscribe hst]
  | unsubscribe name => rfl
  | change => rfl
  | error e => rfl

theorem follows_iff (hs : s.Inv) (c : ListenerCall) : s.Follows c ↔ s.Starts c := by
  constructor
  · intro hf
    cases c with
    | subscribe name tx st =>
      by_contra hst
      obtain ⟨_, e, hcall⟩ := call_subscribe_failed hst
      have hhandle := hf.handle
      rw [step, hcall] at hhandle
      exact absurd (hhandle.mpr (List.cons_ne_nil _ _)) Bool.false_ne_true
    | unsubscribe name => trivial
    | change => trivial
    | error e => trivial
  · intro hst
    refine ⟨(step_inv hs c hst).handle, fun e he => ?_, fun hc name tx hw => ?_⟩
    · rw [call_ok hst] at he
      cases he
    · subst hc
      exact told_of_inv hs hw

end Steps

/-! ## Every sequence of calls -/

theorem start_inv : start.Inv := ⟨by decide, by rintro name tx ⟨⟩⟩

/-- All calls keep the thread and the subscribers together precisely if the thread starts whenever
    it has to. -/
theorem listener_follows_iff (calls : List ListenerCall) :
    Along step Follows start calls ↔ Along step Starts start calls :=
  along_iff_along (I := Inv) (fun _ c hs => follows_iff hs c)
    (fun _ c hs hst => step_inv hs c hst) start_inv

/-- The first subscriber stays in the map though its thread did not start. -/
theorem failed_subscriber_stays : ¬ ∀ calls, Along step Follows start calls := by
  intro hall
  have hf := (hall [.subscribe "clipboard" 0 (.failed "no display")]).1
  exact absurd (hf.handle.mpr (by decide)) (by decide)

end Listening

end LuodaRemote
