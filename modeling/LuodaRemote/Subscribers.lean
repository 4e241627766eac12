/-
  The subscribers of a service (`ServiceInner` and `ServiceTmpl` of `src/server/service.rs`, with
  the two kinds of subscriber, `ConnInner` and `MouseCursorSub`).

  A service keeps its subscribers under their ids in two maps. What is sent goes to `subscribes`; a
  new subscriber of a service with `need_snapshot` waits in `new_subscribes` until it is swapped
  over. Who leaves is removed from one of the maps only, so no id may be in both; who is sent
  something is told by its own id here and by its key there, so the two must agree. Both hold after
  any calls (`bookkeeping`).

  A map may be in another order after any call. Taking the lock, the call and giving it back are
  one step.
-/
import LuodaRemote.Server
import LuodaRemote.Lib.Run
import Mathlib.Data.List.AList

namespace LuodaRemote
open Lib

namespace Subscribers

/-! ## Subscribers -/

/-- `Message`, as far as a subscriber looks at it. -/
inductive ServiceMessage where
  | videoFrame (payload : List UInt8)
  | switchDisplay (payload : List UInt8)
  | cursorData (id : UInt64) (payload : List UInt8)
  | cursorId (id : UInt64)
  | other (payload : List UInt8)
deriving DecidableEq

/-- The two channels of a connection. -/
inductive Sender where
  | tx
  | txVideo
deriving DecidableEq

/-- `ConnInner`: its id, and which of the senders are there. -/
structure ConnInner where
  id : Int
  tx : Bool
  txVideo : Bool
deriving DecidableEq

/-- `SwitchDisplay` takes the channel of the frames, so as to stay in order with them. -/
def ConnInner.send (msg : ServiceMessage) (c : ConnInner) : Option (Sender × ServiceMessage) :=
  match msg with
  | .videoFrame _ | .switchDisplay _ => if c.txVideo then some (.txVideo, msg) else none
  | _ => if c.tx then some (.tx, msg) else none

structure MouseCursorSub where
  inner : ConnInner
  cached : AList fun _ : UInt64 => ServiceMessage

/-- A cursor that was sent before is named by its id the next time. -/
def MouseCursorSub.send (msg : ServiceMessage) (s : MouseCursorSub) :
    Option (Sender × ServiceMessage) × MouseCursorSub :=
  match msg with
  | .cursorData id _ =>
    match s.cached.lookup id with
    | some msg => (s.inner.send msg, s)
    | none => (s.inner.send msg, { s with cached := s.cached.insert id (.cursorId id) })
  | _ => (s.inner.send msg, s)

/-- `Subscriber` with `From<ConnInner>`. It keeps its id, and has that of its connection. -/
class Subscriber (T : Type) where
  id : T → Int
  send : ServiceMessage → T → Option (Sender × ServiceMessage) × T
  into : ConnInner → T
  id_send : ∀ msg s, id (send msg s).2 = id s
  id_into : ∀ c, id (into c) = c.id

instance : Subscriber ConnInner where
  id c := c.id
  send msg c := (c.send msg, c)
  into c := c
  id_send _ _ := rfl
  id_into _ := rfl

theorem MouseCursorSub.send_inner (msg : ServiceMessage) (s : MouseCursorSub) :
    (s.send msg).2.inner = s.inner := by
  unfold send
  split
  · split <;> rfl
  · rfl

instance : Subscriber MouseCursorSub where
  id s := s.inner.id
  send := MouseCursorSub.send
  into c := ⟨c, ∅⟩
  id_send msg s := congrArg ConnInner.id (s.send_inner msg)
  id_into _ := rfl

/-! ## The service -/

variable {T : Type}

/-- A `HashMap<i32, T>`. -/
abbrev SubscriberMap (T : Type) : Type := AList fun _ : Int => T

structure ServiceInner (T : Type) where
  subscribes : SubscriberMap T
  newSubscribes : SubscriberMap T
  needSnapshot : Bool

/-- A call of `Subscriber::send`: on whom, with what, and what went where. -/
structure Delivery where
  id : Int
  msg : ServiceMessage
  sent : Option (Sender × ServiceMessage)
deriving DecidableEq

inductive ServiceCall where
  | onSubscribe (sub : ConnInner)
  | onUnsubscribe (id : Int)
  | swapNewSubscribes
  | sendTo (msg : ServiceMessage) (id : Int)
  | sendToOthers (msg : ServiceMessage) (id : Int)
  | sendShared (msg : ServiceMessage)
  | sendVideoFrameShared (msg : ServiceMessage)
  | sendWithout (msg : ServiceMessage) (sub : Int)
  | sendNewSubscribes (msg : ServiceMessage)
  /-- From now on the maps are in the order of another hash. -/
  | rehash (hash : Int → ℕ)

def reorder (hash : Int → ℕ) (m : SubscriberMap T) : SubscriberMap T where
  entries := m.entries.insertionSort fun a b => hash a.1 ≤ hash b.1
  nodupKeys := (List.perm_nodupKeys (List.perm_insertionSort _ _)).mpr m.nodupKeys

theorem mem_reorder (hash : Int → ℕ) (m : SubscriberMap T) (id : Int) :
    id ∈ reorder hash m ↔ id ∈ m :=
  AList.mem_of_perm (List.perm_insertionSort _ _)

section Service

variable [Subscriber T]

/-- `send` on everybody in the map that `whom` says, by its key and itself. -/
def deliver (whom : Int → T → Bool) (msg : ServiceMessage) (m : SubscriberMap T) :
    List Delivery × SubscriberMap T where
  fst := (m.entries.filter fun e => whom e.1 e.2).map fun e =>
    ⟨Subscriber.id e.2, msg, (Subscriber.send msg e.2).1⟩
  snd :=
    { entries := m.entries.map fun e =>
        ⟨e.1, if whom e.1 e.2 then (Subscriber.send msg e.2).2 else e.2⟩
      nodupKeys := by
        have hkeys := m.nodupKeys
        rw [List.NodupKeys, List.keys] at hkeys ⊢
        rwa [List.map_map] }

namespace ServiceInner

/-- `ServiceTmpl::new`. -/
def new (needSnapshot : Bool) : ServiceInner T := ⟨∅, ∅, needSnapshot⟩

def isSubed (id : Int) (s : ServiceInner T) : Bool :=
  (s.subscribes.lookup id).isSome || (s.newSubscribes.lookup id).isSome

def onSubscribe (sub : ConnInner) (s : ServiceInner T) : ServiceInner T :=
  if (s.subscribes.lookup sub.id).isSome then s
  else if s.needSnapshot then
    { s with newSubscribes := s.newSubscribes.insert sub.id (Subscriber.into sub) }
  else { s with subscribes := s.subscribes.insert sub.id (Subscriber.into sub) }

def onUnsubscribe (id : Int) (s : ServiceInner T) : ServiceInner T :=
  match s.subscribes.lookup id with
  | none => { s with newSubscribes := s.newSubscribes.erase id }
  | some _ => { s with subscribes := s.subscribes.erase id }

/-- Who was new is kept under its own id. -/
def swapNewSubscribes (s : ServiceInner T) : ServiceInner T :=
  { s with
    subscribes := s.newSubscribes.entries.foldl
      (fun m e => m.insert (Subscriber.id e.2) e.2) s.subscribes
    newSubscribes := ∅ }

/-- What the `send` functions have in common. -/
def sendSome (whom : Int → T → Bool) (msg : ServiceMessage) (s : ServiceInner T) :
    List Delivery × ServiceInner T :=
  ((deliver whom msg s.subscribes).1, { s with subscribes := (deliver whom msg s.subscribes).2 })

def sendTo (msg : ServiceMessage) (id : Int) : ServiceInner T → List Delivery × ServiceInner T :=
  sendSome (fun sid _ => sid = id) msg

def sendToOthers (msg : ServiceMessage) (id : Int) :
    ServiceInner T → List Delivery × ServiceInner T :=
  sendSome (fun sid _ => sid ≠ id) msg

def sendShared (msg : ServiceMessage) : ServiceInner T → List Delivery × ServiceInner T :=
  sendSome (fun _ _ => true) msg

/-- The ids of those who were sent the frame come with it. -/
def sendVideoFrameShared (msg : ServiceMessage) (s : ServiceInner T) :
    Finset Int × List Delivery × ServiceInner T :=
  ((s.subscribes.entries.map fun e => Subscriber.id e.2).toFinset,
    s.sendSome (fun _ _ => true) msg)

def sendWithout (msg : ServiceMessage) (sub : Int) :
    ServiceInner T → List Delivery × ServiceInner T :=
  sendSome (fun _ s => sub ≠ Subscriber.id s) msg

/-- What `ServiceSwap` sends. -/
def sendNewSubscribes (msg : ServiceMessage) (s : ServiceInner T) :
    List Delivery × ServiceInner T :=
  ((deliver (fun _ _ => true) msg s.newSubscribes).1,
    { s with newSubscribes := (deliver (fun _ _ => true) msg s.newSubscribes).2 })

def rehash (hash : Int → ℕ) (s : ServiceInner T) : ServiceInner T :=
  { s with subscribes := reorder hash s.subscribes, newSubscribes := reorder hash s.newSubscribes }

def call (s : ServiceInner T) : ServiceCall → List Delivery × ServiceInner T
  | .onSubscribe sub => ([], s.onSubscribe sub)
  | .onUnsubscribe id => ([], s.onUnsubscribe id)
  | .swapNewSubscribes => ([], s.swapNewSubscribes)
  | .sendTo msg id => s.sendTo msg id
  | .sendToOthers msg id => s.sendToOthers msg id
  | .sendShared msg => s.sendShared msg
  | .sendVideoFrameShared msg => (s.sendVideoFrameShared msg).2
  | .sendWithout msg sub => s.sendWithout msg sub
  | .sendNewSubscribes msg => s.sendNewSubscribes msg
  | .rehash hash => ([], s.rehash hash)

def step (s : ServiceInner T) (c : ServiceCall) : ServiceInner T := (s.call c).2

end ServiceInner

/-! ## The maps -/

/-- Every key is the id of who is kept there. -/
def Keyed (m : SubscriberMap T) : Prop := ∀ e ∈ m.entries, Subscriber.id e.2 = e.1

section Maps

variable {m : SubscriberMap T}

theorem Keyed.insert (h : Keyed m) {id : Int} {t : T} (ht : Subscriber.id t = id) :
    Keyed (m.insert id t) := by
  intro e he
  rw [AList.entries_insert] at he
  rcases List.mem_cons.mp he with rfl | he
  · exact ht
  · exact h e ((List.kerase_sublist _ _).subset he)

theorem Keyed.erase (h : Keyed m) (id : Int) : Keyed (m.erase id) :=
  fun e he => h e ((List.kerase_sublist _ _).subset he)

theorem Keyed.deliver (h : Keyed m) (whom : Int → T → Bool) (msg : ServiceMessage) :
    Keyed (deliver whom msg m).2 := by
  intro e he
  obtain ⟨e, hmem, rfl⟩ := List.mem_map.mp he
  show Subscriber.id (if whom e.1 e.2 then (Subscriber.send msg e.2).2 else e.2) = e.1
  split
  · rw [Subscriber.id_send, h e hmem]
  · exact h e hmem

theorem Keyed.reorder (h : Keyed m) (hash : Int → ℕ) : Keyed (reorder hash m) :=
  fun e he => h e ((List.mem_insertionSort _).mp he)

theorem mem_deliver (whom : Int → T → Bool) (msg : ServiceMessage) (id : Int) :
    id ∈ (deliver whom msg m).2 ↔ id ∈ m := by
  show id ∈ (m.entries.map _).map Sigma.fst ↔ id ∈ m.entries.map Sigma.fst
  rw [List.map_map]
  rfl

/-- Nobody is sent a message twice: they have different keys. -/
theorem ids_deliver (h : Keyed m) (whom : Int → T → Bool) (msg : ServiceMessage) :
    List.Sublist ((deliver whom msg m).1.map Delivery.id) m.keys := by
  have hids : (deliver whom msg m).1.map Delivery.id =
      (m.entries.filter fun e => whom e.1 e.2).map Sigma.fst := by
    rw [deliver, List.map_map]
    apply List.map_congr_left
    intro e he
    exact h e (List.mem_of_mem_filter he)
  rw [hids]
  exact List.filter_sublist.map Sigma.fst

/-- The swap puts everybody under the key that was there before. -/
theorem mem_foldl_insert {l : List (Sigma fun _ : Int => T)}
    (hl : ∀ e ∈ l, Subscriber.id e.2 = e.1) (id : Int) :
    id ∈ l.foldl (fun m e => m.insert (Subscriber.id e.2) e.2) m ↔ id ∈ l.keys ∨ id ∈ m := by
  induction l generalizing m with
  | nil => simp
  | cons e l ih =>
    rw [List.foldl_cons, ih fun e' he' => hl e' (List.mem_cons_of_mem _ he'), AList.mem_insert,
      hl e List.mem_cons_self, List.keys_cons, List.mem_cons]
    tauto

theorem keyed_foldl_insert (hm : Keyed m) (l : List (Sigma fun _ : Int => T)) :
    Keyed (l.foldl (fun m e => m.insert (Subscriber.id e.2) e.2) m) := by
  induction l generalizing m with
  | nil => exact hm
  | cons e l ih => exact ih (hm.insert rfl)

end Maps

namespace ServiceInner

/-! ## The ids alone -/

/-- What a call does to a service that knows only the ids. -/
def idsStep (svc : Service) : ServiceCall → Service
  | .onSubscribe sub => svc.onSubscribe sub.id
  | .onUnsubscribe id => svc.onUnsubscribe id
  | .swapNewSubscribes => svc.swapNewSubscribes
  | _ => svc

structure Refines (s : ServiceInner T) (svc : Service) : Prop where
  needSnapshot : svc.needSnapshot = s.needSnapshot
  subscribes : ∀ id, id ∈ s.subscribes ↔ id ∈ svc.subscribes
  newSubscribes : ∀ id, id ∈ s.newSubscribes ↔ id ∈ svc.newSubscribes
  keyed : Keyed s.subscribes
  keyedNew : Keyed s.newSubscribes

variable {s : ServiceInner T} {svc : Service}

theorem Refines.isSubed (h : Refines s svc) (id : Int) : s.isSubed id = svc.isSubed id := by
  rw [Bool.eq_iff_iff, ServiceInner.isSubed, Service.isSubed]
  simp only [Bool.or_eq_true, AList.lookup_isSome, List.contains_iff_mem, h.subscribes,
    h.newSubscribes]

theorem refines_onSubscribe (h : Refines s svc) (sub : ConnInner) :
    Refines (s.onSubscribe sub) (svc.onSubscribe sub.id) := by
  have hinto : Subscriber.id (Subscriber.into sub : T) = sub.id := Subscriber.id_into sub
  simp only [onSubscribe, Service.onSubscribe, AList.lookup_isSome]
  by_cases hs : sub.id ∈ s.subscribes
  · rw [if_pos hs, dif_pos ((h.subscribes _).mp hs)]
    exact h
  · rw [if_neg hs, dif_neg (mt (h.subscribes _).mpr hs)]
    by_cases hn : s.needSnapshot
    · rw [if_pos hn, dif_pos (h.needSnapshot.trans hn)]
      exact { h with
        newSubscribes := fun id => by rw [AList.mem_insert, List.mem_cons, h.newSubscribes]
        keyedNew := h.keyedNew.insert hinto }
    · rw [if_neg hn, dif_neg (by rwa [h.needSnapshot])]
      exact { h with
        subscribes := fun id => by rw [AList.mem_insert, List.mem_cons, h.subscribes]
        keyed := h.keyed.insert hinto }

theorem refines_onUnsubscribe (h : Refines s svc) (id : Int) :
    Refines (s.onUnsubscribe id) (svc.onUnsubscribe id) := by
  rw [onUnsubscribe, Service.onUnsubscribe]
  cases hlookup : s.subscribes.lookup id with
  | none =>
    have hs := AList.lookup_eq_none.mp hlookup
    rw [if_neg (mt (h.subscribes id).mpr hs)]
    exact { h with
      newSubscribes := fun j => by
        rw [AList.mem_erase, h.newSubscribes, List.mem_filter, decide_eq_true_iff, and_comm]
      keyedNew := h.keyedNew.erase id }
  | some t =>
    have hs : id ∈ s.subscribes := AList.lookup_isSome.mp (by rw [hlookup]; rfl)
    rw [if_pos ((h.subscribes id).mp hs)]
    exact { h with
      subscribes := fun j => by
        rw [AList.mem_erase, h.subscribes, List.mem_filter, decide_eq_true_iff, and_comm]
      keyed := h.keyed.erase id }

theorem refines_swapNewSubscribes (h : Refines s svc) :
    Refines s.swapNewSubscribes svc.swapNewSubscribes where
  needSnapshot := h.needSnapshot
  subscribes id := by
    rw [swapNewSubscribes, mem_foldl_insert h.keyedNew, h.subscribes]
    show id ∈ s.newSubscribes ∨ _ ↔ id ∈ svc.newSubscribes ++ svc.subscribes
    rw [h.newSubscribes, List.mem_append]
  newSubscribes id := iff_of_false (AList.notMem_empty id) List.not_mem_nil
  keyed := keyed_foldl_insert h.keyed _
  keyedNew e he := absurd he List.not_mem_nil

theorem refines_sendSome (h : Refines s svc) (whom : Int → T → Bool) (msg : ServiceMessage) :
    Refines (s.sendSome whom msg).2 svc :=
  { h with
    subscribes := fun id => (mem_deliver whom msg id).trans (h.subscribes id)
    keyed := h.keyed.deliver whom msg }

theorem refines_step (h : Refines s svc) (c : ServiceCall) :
    Refines (s.step c) (idsStep svc c) := by
  cases c with
  | onSubscribe sub => exact refines_onSubscribe h sub
  | onUnsubscribe id => exact refines_onUnsubscribe h id
  | swapNewSubscribes => exact refines_swapNewSubscribes h
  | sendTo msg id => exact refines_sendSome h _ msg
  | sendToOthers msg id => exact refines_sendSome h _ msg
  | sendShared msg => exact refines_sendSome h _ msg
  | sendVideoFrameShared msg => exact refines_sendSome h _ msg
  | sendWithout msg sub => exact refines_sendSome h _ msg
  | sendNewSubscribes msg =>
    exact { h with
      newSubscribes := fun id => (mem_deliver (fun _ _ => true) msg id).trans (h.newSubscribes id)
      keyedNew := h.keyedNew.deliver (fun _ _ => true) msg }
  | rehash hash =>
    exact { h with
      subscribes := fun id => (mem_reorder hash _ id).trans (h.subscribes id)
      newSubscribes := fun id => (mem_reorder hash _ id).trans (h.newSubscribes id)
      keyed := h.keyed.reorder hash
      keyedNew := h.keyedNew.reorder hash }

theorem refines_run (h : Refines s svc) (calls : List ServiceCall) :
    Refines (run step s calls) (run idsStep svc calls) := by
  induction calls generalizing s svc with
  | nil => exact h
  | cons c calls ih => exact ih (refines_step h c)

theorem refines_new (name : ServiceName) (needSnapshot : Bool) :
    Refines (new needSnapshot : ServiceInner T) (.new name needSnapshot) where
  needSnapshot := rfl
  subscribes id := iff_of_false (AList.notMem_empty id) List.not_mem_nil
  newSubscribes id := iff_of_false (AList.notMem_empty id) List.not_mem_nil
  keyed _ he := absurd he List.not_mem_nil
  keyedNew _ he := absurd he List.not_mem_nil

/-! ## Every sequence of calls -/

/-- Of the calls that subscribe or unsubscribe `id`, the last one subscribes it. -/
def SubscribedLast (id : Int) (calls : List ServiceCall) : Prop :=
  ∃ before sub after, calls = before ++ .onSubscribe sub :: after ∧ sub.id = id ∧
    .onUnsubscribe id ∉ after

/-- What holds after `calls`, and what holds of any call after them. -/
structure Bookkept (calls : List ServiceCall) (s : ServiceInner T) : Prop where
  disjoint : ∀ id, ¬ (id ∈ s.subscribes ∧ id ∈ s.newSubscribes)
  keyed : Keyed s.subscribes
  keyedNew : Keyed s.newSubscribes
  isSubed : ∀ id, s.isSubed id = true ↔ SubscribedLast id calls
  /-- Who is unsubscribed is sent nothing until it subscribes again. -/
  unsubscribed : ∀ id later, (∀ sub, .onSubscribe sub ∈ later → sub.id ≠ id) →
    ∀ d ∈ emitted step (fun s c => (s.call c).1) (s.onUnsubscribe id) later, d.id ≠ id
  once : ∀ c, ((s.call c).1.map Delivery.id).Nodup

theorem subscribedLast_concat (id : Int) (calls : List ServiceCall) (c : ServiceCall) :
    SubscribedLast id (calls ++ [c]) ↔
      (∃ sub, c = .onSubscribe sub ∧ sub.id = id) ∨
        c ≠ .onUnsubscribe id ∧ SubscribedLast id calls := by
  constructor
  · rintro ⟨before, sub, after, heq, hid, hafter⟩
    obtain rfl | ⟨after, last, rfl⟩ := after.eq_nil_or_concat
    · obtain ⟨-, hlast⟩ := List.append_inj' heq rfl
      exact Or.inl ⟨sub, List.head_eq_of_cons_eq hlast, hid⟩
    · rw [List.concat_eq_append] at heq hafter
      rw [← List.cons_append, ← List.append_assoc] at heq
      obtain ⟨hinit, hlast⟩ := List.append_inj' heq rfl
      have hc : c = last := List.head_eq_of_cons_eq hlast
      refine Or.inr ⟨fun h => hafter ?_, before, sub, after, hinit, hid, fun h => hafter ?_⟩
      · rw [← h, hc]
        exact List.mem_append_right _ List.mem_cons_self
      · exact List.mem_append_left _ h
  · rintro (⟨sub, rfl, hid⟩ | ⟨hc, before, sub, after, rfl, hid, hafter⟩)
    · exact ⟨calls, sub, [], rfl, hid, List.not_mem_nil⟩
    · refine ⟨before, sub, after ++ [c], by rw [List.append_assoc]; rfl, hid, ?_⟩
      rw [List.mem_append, List.mem_singleton, not_or]
      exact ⟨hafter, Ne.symm hc⟩

theorem isSubed_idsStep (svc : Service) (c : ServiceCall) (id : Int) :
    (idsStep svc c).isSubed id = true ↔
      (∃ sub, c = .onSubscribe sub ∧ sub.id = id) ∨
        c ≠ .onUnsubscribe id ∧ svc.isSubed id = true := by
  cases c with
  | onSubscribe sub =>
    rw [idsStep, Service.isSubed_onSubscribe, Bool.or_eq_true, beq_iff_eq, @eq_comm _ id]
    simp
  | onUnsubscribe j =>
    rw [idsStep, Service.isSubed_onUnsubscribe, Bool.and_eq_true, bne_iff_ne, @ne_comm _ id]
    simp
  | swapNewSubscribes =>
    rw [idsStep, Service.isSubed_swapNewSubscribes]
    simp
  | _ => simp [idsStep]

theorem isSubed_run (name : ServiceName) (needSnapshot : Bool) (id : Int)
    (calls : List ServiceCall) :
    (run idsStep (.new name needSnapshot) calls).isSubed id = true ↔ SubscribedLast id calls := by
  induction calls using List.reverseRecOn with
  | nil =>
    refine iff_of_false (by simp [Service.new, Service.isSubed]) ?_
    rintro ⟨before, sub, after, h, -⟩
    exact List.append_ne_nil_of_right_ne_nil before (List.cons_ne_nil _ after) h.symm
  | append_singleton calls c ih =>
    rw [run_append, run_cons, run_nil, isSubed_idsStep, subscribedLast_concat, ih]

theorem ids_sendSome (h : Refines s svc) (whom : Int → T → Bool) (msg : ServiceMessage) :
    ((s.sendSome whom msg).1.map Delivery.id).Nodup ∧
      ∀ d ∈ (s.sendSome whom msg).1, svc.isSubed d.id = true := by
  have hids := ids_deliver h.keyed whom msg
  refine ⟨s.subscribes.keys_nodup.sublist hids, fun d hd => ?_⟩
  rw [← h.isSubed, ServiceInner.isSubed, Bool.or_eq_true]
  exact Or.inl (AList.lookup_isSome.mpr (hids.subset (List.mem_map_of_mem hd)))

theorem ids_sendNewSubscribes (h : Refines s svc) (msg : ServiceMessage) :
    ((s.sendNewSubscribes msg).1.map Delivery.id).Nodup ∧
      ∀ d ∈ (s.sendNewSubscribes msg).1, svc.isSubed d.id = true := by
  have hids := ids_deliver h.keyedNew (fun _ _ => true) msg
  refine ⟨s.newSubscribes.keys_nodup.sublist hids, fun d hd => ?_⟩
  rw [← h.isSubed, ServiceInner.isSubed, Bool.or_eq_true]
  exact Or.inr (AList.lookup_isSome.mpr (hids.subset (List.mem_map_of_mem hd)))

/-- Only a subscriber is sent something, and only once. -/
theorem ids_call (h : Refines s svc) (c : ServiceCall) :
    ((s.call c).1.map Delivery.id).Nodup ∧ ∀ d ∈ (s.call c).1, svc.isSubed d.id = true := by
  cases c with
  | sendTo msg id => exact ids_sendSome h _ msg
  | sendToOthers msg id => exact ids_sendSome h _ msg
  | sendShared msg => exact ids_sendSome h _ msg
  | sendVideoFrameShared msg => exact ids_sendSome h _ msg
  | sendWithout msg sub => exact ids_sendSome h _ msg
  | sendNewSubscribes msg => exact ids_sendNewSubscribes h msg
  | _ => exact ⟨List.nodup_nil, fun d hd => absurd hd List.not_mem_nil⟩

theorem not_reached (h : Refines s svc) {id : Int} (hid : svc.isSubed id = false)
    {later : List ServiceCall} (hlater : ∀ sub, .onSubscribe sub ∈ later → sub.id ≠ id) :
    ∀ d ∈ emitted step (fun s c => (s.call c).1) s later, d.id ≠ id := by
  induction later generalizing s svc with
  | nil => exact fun d hd => absurd hd List.not_mem_nil
  | cons c later ih =>
    intro d hd
    rcases List.mem_append.mp hd with hd | hd
    · intro heq
      have hsub := (ids_call h c).2 d hd
      rw [heq, hid] at hsub
      exact Bool.false_ne_true hsub
    · refine ih (refines_step h c) ?_
        (fun sub hsub => hlater sub (List.mem_cons_of_mem _ hsub)) d hd
      rw [← Bool.not_eq_true, isSubed_idsStep, hid]
      rintro (⟨sub, rfl, hsub⟩ | ⟨-, h⟩)
      · exact hlater sub List.mem_cons_self hsub
      · exact Bool.false_ne_true h

/-- The subscribers of any service are kept in order, whatever is called. -/
theorem bookkeeping (needSnapshot : Bool) (calls : List ServiceCall) :
    (run step (new needSnapshot : ServiceInner T) calls).Bookkept calls := by
  -- the name plays no part
  have h := refines_run (refines_new (T := T) .audio needSnapshot) calls
  exact
    { disjoint := fun id hid =>
        Service.disjoint _ id ((h.subscribes id).mp hid.1) ((h.newSubscribes id).mp hid.2)
      keyed := h.keyed
      keyedNew := h.keyedNew
      isSubed := fun id => by rw [h.isSubed, isSubed_run]
      unsubscribed := fun id later hlater =>
        not_reached (refines_onUnsubscribe h id) (by simp [Service.isSubed_onUnsubscribe]) hlater
      once := fun c => (ids_call h c).1 }

end ServiceInner
end Service
end Subscribers
end LuodaRemote
