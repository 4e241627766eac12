/-
  A port forwarding connection, from the first `LoginRequest` to the bytes it carries.

  Both ends begin with framed messages and turn to raw bytes on their own: the host when it has
  authorized the peer, the client when it gets the `PeerInfo`. What the host's user of the port
  writes before that is kept in `buffer`. The two halves of the stream are `Channel`s, framed
  messages in front and raw bytes behind them. An end that is raw takes any number of bytes from
  its channel, whatever they were: a frame on its way is then carried as data.

  The host may have a `TestDelay` pending, and a reply to it would be such a frame. After a
  `LoginRequest` it waits for the reply; after `Authorize` it does not. `tunnel_carries` is what
  holds as long as no frame of the client is on its way to a raw host: the target gets the local
  bytes in order, and the local socket the bytes of the target. `run_forward` drops a chunk above
  8 MiB, which is more than the buffer it reads from can give (`Chunked`).

  Left out are the messages that have no part in this (chat and permission changes of the
  connection manager, other messages of the client's user interface) and all that ends one of the
  two connections.

  Source: `connect_and_login` and `run_forward` of `src/port_forward.rs`; the main loop,
  `send_logon_response_and_keep_alive` and `try_port_forward_loop` of
  `src/server/connection.rs`.
-/
import LuodaRemote.Host
import LuodaRemote.Lib.Run

namespace LuodaRemote

open Lib

/-! ## The stream between the two -/

inductive TunnelMessage where
  | hash
  | loginRequest
  | loginError
  | peerInfo
  | testDelay
  /-- The `TestDelay` that the client sends back. -/
  | testDelayReply
  deriving DecidableEq

/-- What is on its way in one direction: framed messages, each with its bytes on the wire, and
    behind them raw bytes. -/
structure Channel where
  frames : List (TunnelMessage × Bytes) := []
  raw : Bytes := []
  deriving DecidableEq

namespace Channel

def bytes (ch : Channel) : Bytes := ch.frames.flatMap (·.2) ++ ch.raw

/-- Behind raw bytes a frame is bytes like others. -/
def sendFrame (m : TunnelMessage) (wire : Bytes) (ch : Channel) : Channel :=
  if ch.raw.isEmpty then { ch with frames := ch.frames ++ [(m, wire)] }
  else { ch with raw := ch.raw ++ wire }

def sendBytes (bytes : Bytes) (ch : Channel) : Channel := { ch with raw := ch.raw ++ bytes }

/-- What is left when a raw reader has taken `n` bytes. -/
def drop (n : Nat) (ch : Channel) : Channel where
  raw := ch.bytes.drop n

end Channel

/-! ## The two ends -/

structure TunnelClient where
  /-- `run_forward` has begun. -/
  raw : Bool := false
  buffer : Bytes := []
  /-- How many framed messages were sent. -/
  sent : Nat := 0
  deriving DecidableEq

structure TunnelHost where
  /-- `try_port_forward_loop` has begun. -/
  raw : Bool := false
  /-- `self.lr` has a port to forward. -/
  requested : Bool := false
  /-- `authorized`, and with it `port_forward_socket.is_some()`. -/
  authorized : Bool := false
  /-- `last_test_delay.is_some()`. -/
  lastTestDelay : Bool := false
  sent : Nat := 0
  deriving DecidableEq

/-- The connection and, on both sides, what was read from the socket so far (`early` and `up`
    from the local socket, before and after the login; `targetRead` from the target) and written
    to it. -/
structure Tunnel where
  client : TunnelClient := {}
  host : TunnelHost := {}
  toHost : Channel := {}
  toClient : Channel
  closed : Bool := false
  early : Bytes := []
  up : Bytes := []
  targetRead : Bytes := []
  target : Bytes := []
  localWritten : Bytes := []
  deriving DecidableEq

/-- What the host makes of a `LoginRequest`. -/
inductive LoginVerdict where
  /-- The password is right and the target can be reached. -/
  | accept
  /-- It is not, and the peer may try again. -/
  | refuse
  /-- The user of the host is asked. -/
  | ask
  | close
  deriving DecidableEq

inductive TunnelEvent where
  /-- `Data::Login`: the user of the client enters a password. -/
  | clientLogin
  /-- The client gets the next frame; `tryAgain` is what `handle_login_error` answers. -/
  | clientReceive (tryAgain : Bool)
  /-- The client gets a chunk of `n` bytes of the stream. -/
  | clientReceiveRaw (n : Nat)
  /-- The client gets a chunk of the local socket. -/
  | localChunk (bytes : Bytes)
  /-- `test_delay_timer.tick()`. -/
  | hostTestDelay
  | hostReceive (verdict : LoginVerdict)
  /-- `ipc::Data::Authorize` from the connection manager; `connected` if the target can be
      reached. -/
  | hostAuthorize (connected : Bool)
  | hostReceiveRaw (n : Nat)
  | targetChunk (bytes : Bytes)
  deriving DecidableEq

def maxForwardFrame : Nat := 8 * 1024 * 1024

def fits (chunk : Bytes) : Bool := decide (chunk.length ≤ maxForwardFrame)

namespace Tunnel

/-- The host has sent its `Hash`. -/
def start (hash : Bytes) : Tunnel where
  host := { sent := 1 }
  toClient := { frames := [(.hash, hash)] }

/-- `wire n m` are the bytes of the `n`th framed message of one end, with header and
    encryption. -/
structure Framing where
  ofClient : Nat → TunnelMessage → Bytes
  ofHost : Nat → TunnelMessage → Bytes

variable (f : Framing)

def clientSend (m : TunnelMessage) (t : Tunnel) : Tunnel :=
  { t with
    client := { t.client with sent := t.client.sent + 1 }
    toHost := t.toHost.sendFrame m (f.ofClient t.client.sent m) }

def hostSend (m : TunnelMessage) (t : Tunnel) : Tunnel :=
  { t with
    host := { t.host with sent := t.host.sent + 1 }
    toClient := t.toClient.sendFrame m (f.ofHost t.host.sent m) }

/-- The client leaves `connect_and_login`: raw from now on, what was buffered first. -/
def startForward (t : Tunnel) : Tunnel :=
  { t with
    client := { t.client with raw := true, buffer := [] }
    toHost := if t.client.buffer.isEmpty then t.toHost else t.toHost.sendBytes t.client.buffer }

/-- `connect_and_login` on a message. -/
def clientMessage (tryAgain : Bool) (m : TunnelMessage) (t : Tunnel) : Tunnel :=
  match m with
  | .hash => t.clientSend f .loginRequest
  | .testDelay => t.clientSend f .testDelayReply
  | .loginError => if tryAgain then t else { t with closed := true }
  | .peerInfo => t.startForward
  | .loginRequest | .testDelayReply => t

/-- `send_logon_response_and_keep_alive`, for a port forward whose target was reached. -/
def logon (t : Tunnel) : Tunnel :=
  hostSend f .peerInfo { t with host := { t.host with authorized := true } }

/-- The answer to a `LoginRequest`. -/
def answerLogin (verdict : LoginVerdict) (t : Tunnel) : Tunnel :=
  match verdict with
  | .accept => t.logon f
  | .refuse => t.hostSend f .loginError
  | .ask => t
  | .close => { t with closed := true }

/-- `on_message` of the host. -/
def hostMessage (verdict : LoginVerdict) (m : TunnelMessage) (t : Tunnel) : Tunnel :=
  match m with
  | .loginRequest =>
    let t := { t with host := { t.host with requested := true } }
    if t.host.authorized then t else t.answerLogin f verdict
  | .testDelayReply => { t with host := { t.host with lastTestDelay := false } }
  | .hash | .loginError | .peerInfo | .testDelay => t

/-- `run_forward` on `n` bytes of the stream. -/
def forwardFromStream (n : Nat) (t : Tunnel) : Tunnel :=
  let chunk := t.toClient.bytes.take n
  { t with
    toClient := t.toClient.drop n
    localWritten := if fits chunk then t.localWritten ++ chunk else t.localWritten }

/-- `run_forward` on a chunk of the local socket. -/
def forwardFromLocal (bytes : Bytes) (t : Tunnel) : Tunnel :=
  { t with
    up := t.up ++ bytes
    toHost := if fits bytes then t.toHost.sendBytes bytes else t.toHost }

/-- `connect_and_login` on one. -/
def bufferLocal (bytes : Bytes) (t : Tunnel) : Tunnel :=
  { t with
    early := t.early ++ bytes
    client := { t.client with buffer := t.client.buffer ++ bytes } }

/-- `try_port_forward_loop` on `n` bytes of the stream. -/
def writeTarget (n : Nat) (t : Tunnel) : Tunnel :=
  { t with toHost := t.toHost.drop n, target := t.target ++ t.toHost.bytes.take n }

/-- `try_port_forward_loop` on bytes of the target. -/
def readTarget (bytes : Bytes) (t : Tunnel) : Tunnel :=
  { t with targetRead := t.targetRead ++ bytes, toClient := t.toClient.sendBytes bytes }

def hostForward (t : Tunnel) : Tunnel := { t with host := { t.host with raw := true } }

/-- After a message the loop ends for a port forward, unless a `TestDelay` is pending. -/
def hostGuard (t : Tunnel) : Tunnel :=
  if !t.closed && t.host.authorized && !t.host.lastTestDelay then t.hostForward else t

/-- `ipc::Data::Authorize`: the loop ends whatever is pending. -/
def hostAuthorize (connected : Bool) (t : Tunnel) : Tunnel :=
  if t.host.authorized then t.hostForward
  else if connected then (t.logon f).hostForward
  else { t with closed := true }

/-- `test_delay_timer.tick()`. -/
def hostTestDelay (t : Tunnel) : Tunnel :=
  hostSend f .testDelay { t with host := { t.host with lastTestDelay := true } }

def step (t : Tunnel) (e : TunnelEvent) : Tunnel :=
  if t.closed then t
  else match e with
    | .clientLogin => if t.client.raw then t else t.clientSend f .loginRequest
    | .clientReceive tryAgain =>
      match t.client.raw, t.toClient.frames with
      | false, (m, _) :: rest =>
        clientMessage f tryAgain m { t with toClient := { t.toClient with frames := rest } }
      | _, _ => t
    | .clientReceiveRaw n => if t.client.raw then t.forwardFromStream n else t
    | .localChunk bytes => if t.client.raw then t.forwardFromLocal bytes else t.bufferLocal bytes
    | .hostTestDelay =>
      if t.host.raw || t.host.lastTestDelay || t.host.authorized then t else t.hostTestDelay f
    | .hostReceive verdict =>
      match t.host.raw, t.toHost.frames with
      | false, (m, _) :: rest =>
        (hostMessage f verdict m
          { t with toHost := { t.toHost with frames := rest } }).hostGuard
      | _, _ => t
    | .hostAuthorize connected =>
      if t.host.raw || !t.host.requested then t else t.hostAuthorize f connected
    | .hostReceiveRaw n => if t.host.raw then t.writeTarget n else t
    | .targetChunk bytes => if t.host.raw then t.readTarget bytes else t

/-! ## What is on its way -/

/-- A message is among the frames. -/
def Has (m : TunnelMessage) (frames : List (TunnelMessage × Bytes)) : Prop := ∃ x ∈ frames, x.1 = m

def count (m : TunnelMessage) (frames : List (TunnelMessage × Bytes)) : Nat :=
  frames.countP fun x => decide (x.1 = m)

/-- A chunk is what was in a read buffer of `Framed`, which is of the size of kilobytes. -/
def Chunked : TunnelEvent → Prop
  | .localChunk bytes => fits bytes = true
  | .clientReceiveRaw n => n ≤ maxForwardFrame
  | _ => True

/-- The password, once it is right, is the last message but replies: none of the client's
    `LoginRequest`s, nor the `Hash` that asks for one, is left when the host authorizes, and the
    user enters none after that. The connection manager authorizes with no `TestDelay` pending,
    as the other path does. -/
def Clean (t : Tunnel) : TunnelEvent → Prop
  | .clientLogin => t.host.authorized = false
  | .hostReceive .accept => t.host.authorized = false →
      ¬ Has .loginRequest t.toHost.frames.tail ∧ ¬ Has .hash t.toClient.frames
  | .hostAuthorize _ => t.host.lastTestDelay = false ∧
      ¬ Has .loginRequest t.toHost.frames ∧ ¬ Has .hash t.toClient.frames
  | _ => True

instance (m : TunnelMessage) (frames : List (TunnelMessage × Bytes)) : Decidable (Has m frames) :=
  inferInstanceAs (Decidable (∃ x ∈ frames, x.1 = m))

instance : DecidablePred Chunked
  | .localChunk _ => inferInstanceAs (Decidable (_ = _))
  | .clientReceiveRaw _ => inferInstanceAs (Decidable (_ ≤ _))
  | .clientLogin | .clientReceive _ | .hostTestDelay | .hostReceive _ | .hostAuthorize _
  | .hostReceiveRaw _ | .targetChunk _ => inferInstanceAs (Decidable True)

instance (t : Tunnel) : DecidablePred t.Clean
  | .clientLogin => inferInstanceAs (Decidable (_ = _))
  | .hostReceive .accept => inferInstanceAs (Decidable (_ → _))
  | .hostAuthorize _ => inferInstanceAs (Decidable (_ ∧ _))
  | .hostReceive .refuse | .hostReceive .ask | .hostReceive .close | .clientReceive _
  | .clientReceiveRaw _ | .localChunk _ | .hostTestDelay | .hostReceiveRaw _ | .targetChunk _ =>
    inferInstanceAs (Decidable True)

/-- What both ends and the stream between them keep to. -/
structure Sound (t : Tunnel) : Prop where
  hostRaw : t.host.raw = true → t.host.authorized = true ∧ t.host.lastTestDelay = false
  clientRaw : t.client.raw = true →
    t.host.authorized = true ∧ t.client.buffer = [] ∧ t.toClient.frames = []
  clientFramed : t.client.raw = false → t.up = [] ∧ t.toHost.raw = []
  hostFramed : t.host.raw = false → t.toClient.raw = []
  toHost : ∀ x ∈ t.toHost.frames, x.1 = .loginRequest ∨ x.1 = .testDelayReply
  /-- `PeerInfo` is the last frame of the host. -/
  peerInfo : t.host.authorized = true → t.client.raw = false →
    ∃ before wire, t.toClient.frames = before ++ [(.peerInfo, wire)] ∧ ¬ Has .peerInfo before
  noPeerInfo : t.host.authorized = false → ¬ Has .peerInfo t.toClient.frames
  /-- A pending `TestDelay` or its reply is on its way. -/
  pending : count .testDelay t.toClient.frames + count .testDelayReply t.toHost.frames =
    if t.host.lastTestDelay then 1 else 0
  quiet : t.host.authorized = true →
    ¬ Has .loginRequest t.toHost.frames ∧ ¬ Has .hash t.toClient.frames
  upstream : t.target ++ t.toHost.raw ++ t.client.buffer = t.early ++ t.up
  downstream : t.localWritten ++ t.toClient.raw = t.targetRead

section

variable {f} {t : Tunnel} {m : TunnelMessage} {wire : Bytes}
variable {rest : List (TunnelMessage × Bytes)}

theorem not_has_nil : ¬ Has m [] := by simp [Has]

theorem has_cons {x : TunnelMessage × Bytes} : Has m (x :: rest) ↔ x.1 = m ∨ Has m rest := by
  simp [Has]

theorem has_append {more : List (TunnelMessage × Bytes)} :
    Has m (rest ++ more) ↔ Has m rest ∨ Has m more := by
  simp [Has, or_and_right, exists_or]

theorem has_single {m' : TunnelMessage} : Has m [(m', wire)] ↔ m' = m := by
  simp [Has]

theorem count_cons {x : TunnelMessage × Bytes} :
    count m (x :: rest) = count m rest + if x.1 = m then 1 else 0 := by
  simp [count, List.countP_cons]

theorem count_append {more : List (TunnelMessage × Bytes)} :
    count m (rest ++ more) = count m rest + count m more := List.countP_append ..

theorem count_eq_zero : count m rest = 0 ↔ ¬ Has m rest := by
  unfold count
  rw [List.countP_eq_zero]
  constructor
  · intro h ⟨x, hx, hm⟩
    exact h x hx (by simpa using hm)
  · intro h x hx hm
    exact h ⟨x, hx, by simpa using hm⟩

theorem sendFrame_framed {ch : Channel} (hch : ch.raw = []) :
    ch.sendFrame m wire = { ch with frames := ch.frames ++ [(m, wire)] } := by
  simp [Channel.sendFrame, hch]

theorem bytes_of_raw {ch : Channel} (hch : ch.frames = []) : ch.bytes = ch.raw := by
  simp [Channel.bytes, hch]

/-- No frame is on its way to a raw host. -/
theorem Sound.no_frames (hs : t.Sound) (hraw : t.host.raw = true) : t.toHost.frames = [] := by
  obtain ⟨hauthorized, hdelay⟩ := hs.hostRaw hraw
  have hpending := hs.pending
  rw [hdelay, if_neg (by simp)] at hpending
  have hreply : ¬ Has .testDelayReply t.toHost.frames := count_eq_zero.mp (by omega)
  apply List.eq_nil_iff_forall_not_mem.mpr
  intro x hx
  rcases hs.toHost x hx with h | h
  · exact (hs.quiet hauthorized).1 ⟨x, hx, h⟩
  · exact hreply ⟨x, hx, h⟩

theorem Sound.toHost_append (hs : t.Sound) (hm : m = .loginRequest ∨ m = .testDelayReply) :
    ∀ x ∈ t.toHost.frames ++ [(m, wire)], x.1 = .loginRequest ∨ x.1 = .testDelayReply := by
  intro x hx
  rcases List.mem_append.mp hx with hx | hx
  · exact hs.toHost x hx
  · rw [List.mem_singleton.mp hx]
    exact hm

theorem Sound.noPeerInfo_append (hs : t.Sound) (hauthorized : t.host.authorized = false)
    (hm : m ≠ .peerInfo) : ¬ Has .peerInfo (t.toClient.frames ++ [(m, wire)]) := by
  intro h
  rcases has_append.mp h with h | h
  · exact hs.noPeerInfo hauthorized h
  · exact hm (has_single.mp h)

/-- Behind a frame that is no `PeerInfo` there is still one. -/
theorem peerInfo_tail {x : TunnelMessage × Bytes} (hx : x.1 ≠ .peerInfo)
    (h : ∃ before wire, x :: rest = before ++ [(.peerInfo, wire)] ∧ ¬ Has .peerInfo before) :
    ∃ before wire, rest = before ++ [(.peerInfo, wire)] ∧ ¬ Has .peerInfo before := by
  obtain ⟨before, wire, heq, hno⟩ := h
  cases before with
  | nil =>
    obtain ⟨rfl, -⟩ := List.cons.inj heq
    exact absurd rfl hx
  | cons y before =>
    obtain ⟨rfl, hrest⟩ := List.cons.inj heq
    exact ⟨before, wire, hrest, fun h => hno (has_cons.mpr (.inr h))⟩

end

/-! ## One step -/

section

variable {f} {t : Tunnel}

theorem sound_start (hash : Bytes) : (start hash).Sound where
  hostRaw := fun h => by cases h
  clientRaw := fun h => by cases h
  clientFramed := fun _ => ⟨rfl, rfl⟩
  hostFramed := fun _ => rfl
  toHost := fun x hx => by cases hx
  peerInfo := fun h => by cases h
  noPeerInfo := fun _ h => by simp [start, has_single] at h
  pending := rfl
  quiet := fun h => by cases h
  upstream := rfl
  downstream := rfl

/-- A flag is not both down and up. -/
theorem down_up {b : Bool} {P : Prop} (hdown : b = false) (hup : b = true) : P :=
  absurd (hdown.symm.trans hup) Bool.false_ne_true

theorem sound_clientLogin (hs : t.Sound) (hraw : t.client.raw = false)
    (hclean : t.host.authorized = false) : (t.clientSend f .loginRequest).Sound := by
  have hframes := (hs.clientFramed hraw).2
  unfold clientSend
  rw [sendFrame_framed hframes]
  exact { hs with
    toHost := hs.toHost_append (.inl rfl)
    pending := by
      show count _ _ + count _ (_ ++ _) = _
      rw [count_append]
      exact hs.pending
    quiet := fun h => down_up hclean h }

section

variable {m : TunnelMessage} {wire : Bytes} {rest : List (TunnelMessage × Bytes)}

theorem Sound.noPeerInfo_rest (hs : t.Sound) (hframes : t.toClient.frames = (m, wire) :: rest)
    (hauthorized : t.host.authorized = false) : ¬ Has .peerInfo rest := by
  intro hrest
  refine hs.noPeerInfo hauthorized ?_
  rw [hframes]
  exact has_cons.mpr (.inr hrest)

theorem Sound.quiet_rest (hs : t.Sound) (hframes : t.toClient.frames = (m, wire) :: rest)
    (hauthorized : t.host.authorized = true) :
    ¬ Has .loginRequest t.toHost.frames ∧ ¬ Has .hash rest := by
  refine ⟨(hs.quiet hauthorized).1, fun hrest => (hs.quiet hauthorized).2 ?_⟩
  rw [hframes]
  exact has_cons.mpr (.inr hrest)

theorem Sound.peerInfo_rest (hs : t.Sound) (hframes : t.toClient.frames = (m, wire) :: rest)
    (hm : m ≠ .peerInfo) (hauthorized : t.host.authorized = true) (hraw : t.client.raw = false) :
    ∃ before wire, rest = before ++ [(.peerInfo, wire)] ∧ ¬ Has .peerInfo before := by
  have hbefore := hs.peerInfo hauthorized hraw
  rw [hframes] at hbefore
  exact peerInfo_tail hm hbefore

/-- Only a `PeerInfo` and a `TestDelay` leave something to do when they are taken off. -/
theorem Sound.taken (hs : t.Sound) (hraw : t.client.raw = false)
    (hframes : t.toClient.frames = (m, wire) :: rest) (hpeer : m ≠ .peerInfo)
    (hdelay : m ≠ .testDelay) :
    Sound { t with toClient := { t.toClient with frames := rest } } := by
  have hpending := hs.pending
  rw [hframes, count_cons, if_neg hdelay, Nat.add_zero] at hpending
  exact { hs with
    clientRaw := fun h => down_up hraw h
    peerInfo := hs.peerInfo_rest hframes hpeer
    noPeerInfo := hs.noPeerInfo_rest hframes
    pending := hpending
    quiet := hs.quiet_rest hframes }

/-- A `TestDelay` was taken off, and its reply is sent. -/
theorem sound_testDelayReply (hs : t.Sound) (hraw : t.client.raw = false)
    (hframes : t.toClient.frames = (.testDelay, wire) :: rest) :
    (clientSend f .testDelayReply
      { t with toClient := { t.toClient with frames := rest } }).Sound := by
  have hpending := hs.pending
  rw [hframes, count_cons, if_pos rfl] at hpending
  unfold clientSend
  dsimp only
  rw [sendFrame_framed (hs.clientFramed hraw).2]
  exact { hs with
    clientRaw := fun h => down_up hraw h
    toHost := hs.toHost_append (.inr rfl)
    peerInfo := hs.peerInfo_rest hframes (by simp)
    noPeerInfo := hs.noPeerInfo_rest hframes
    pending := by
      show count _ _ + count _ (_ ++ _) = _
      rw [count_append, ← hpending]
      show count .testDelay rest + (count .testDelayReply t.toHost.frames + 1) =
        count .testDelay rest + 1 + count .testDelayReply t.toHost.frames
      omega
    quiet := fun h => by
      obtain ⟨hnone, hhash⟩ := hs.quiet_rest hframes h
      refine ⟨fun hlogin => ?_, hhash⟩
      rcases has_append.mp hlogin with hlogin | hlogin
      · exact hnone hlogin
      · cases has_single.mp hlogin }

/-- `PeerInfo` is the last frame, so nothing but raw bytes comes after it. -/
theorem Sound.rest_of_peerInfo (hs : t.Sound) (hraw : t.client.raw = false)
    (hauthorized : t.host.authorized = true)
    (hframes : t.toClient.frames = (.peerInfo, wire) :: rest) : rest = [] := by
  obtain ⟨before, wire', heq, hno⟩ := hs.peerInfo hauthorized hraw
  rw [hframes] at heq
  cases before with
  | nil => exact (List.cons.inj heq).2
  | cons y before =>
    refine absurd (has_cons.mpr (.inl ?_)) hno
    exact (congrArg Prod.fst (List.cons.inj heq).1).symm

theorem sendBuffer (ch : Channel) (buffer : Bytes) :
    (if buffer.isEmpty then ch else ch.sendBytes buffer) = ch.sendBytes buffer := by
  cases buffer with
  | nil => simp [Channel.sendBytes]
  | cons b bs => rfl

/-- `PeerInfo` was taken off, and the client turns to raw bytes. -/
theorem sound_startForward (hs : t.Sound) (hraw : t.client.raw = false)
    (hframes : t.toClient.frames = (.peerInfo, wire) :: rest) :
    (startForward { t with toClient := { t.toClient with frames := rest } }).Sound := by
  have hpending := hs.pending
  rw [hframes, count_cons, if_neg (by simp), Nat.add_zero] at hpending
  cases hauthorized : t.host.authorized with
  | false =>
    refine absurd ?_ (hs.noPeerInfo hauthorized)
    rw [hframes]
    exact has_cons.mpr (.inl rfl)
  | true =>
    have hrest := hs.rest_of_peerInfo hraw hauthorized hframes
    unfold startForward
    dsimp only
    rw [sendBuffer]
    exact { hs with
      clientRaw := fun _ => ⟨hauthorized, rfl, hrest⟩
      clientFramed := fun h => by cases h
      peerInfo := fun _ h => by cases h
      noPeerInfo := hs.noPeerInfo_rest hframes
      pending := hpending
      quiet := hs.quiet_rest hframes
      upstream := by
        have hup := hs.upstream
        show t.target ++ (t.toHost.raw ++ t.client.buffer) ++ [] = _
        rw [List.append_nil, ← List.append_assoc]
        exact hup }

/-- The client answers a frame of the host, if it answers at all. -/
theorem sound_clientReceive (hs : t.Sound) (hraw : t.client.raw = false) (tryAgain : Bool)
    (hframes : t.toClient.frames = (m, wire) :: rest) :
    (clientMessage f tryAgain m
      { t with toClient := { t.toClient with frames := rest } }).Sound := by
  cases m with
  | hash =>
    -- a `Hash` is left only while the host has not authorized
    have hclean : t.host.authorized = false := by
      refine eq_false_of_ne_true fun hauthorized => (hs.quiet hauthorized).2 ?_
      rw [hframes]
      exact has_cons.mpr (.inl rfl)
    exact sound_clientLogin (hs.taken hraw hframes (by simp) (by simp)) hraw hclean
  | testDelay => exact sound_testDelayReply hs hraw hframes
  | peerInfo => exact sound_startForward hs hraw hframes
  | loginError =>
    have hpopped := hs.taken hraw hframes (by simp) (by simp)
    unfold clientMessage
    cases tryAgain with
    | true => exact hpopped
    | false => exact { hpopped with }
  | loginRequest | testDelayReply => exact hs.taken hraw hframes (by simp) (by simp)

end

theorem sound_forwardFromStream (hs : t.Sound) (hraw : t.client.raw = true) {n : Nat}
    (hn : n ≤ maxForwardFrame) : (t.forwardFromStream n).Sound := by
  obtain ⟨hauthorized, hbuffer, hframes⟩ := hs.clientRaw hraw
  have hbytes := bytes_of_raw hframes
  have hpending := hs.pending
  rw [hframes] at hpending
  have hfits : fits (t.toClient.bytes.take n) = true :=
    decide_eq_true ((List.length_take_le n _).trans hn)
  unfold forwardFromStream
  dsimp only
  rw [hfits, if_pos rfl]
  exact { hs with
    clientRaw := fun _ => ⟨hauthorized, hbuffer, rfl⟩
    clientFramed := fun h => by
      rw [show t.client.raw = false from h] at hraw
      cases hraw
    hostFramed := fun h => by
      show t.toClient.bytes.drop n = []
      rw [hbytes, hs.hostFramed h, List.drop_nil]
    peerInfo := fun _ h => by
      rw [show t.client.raw = false from h] at hraw
      cases hraw
    noPeerInfo := fun _ => not_has_nil
    pending := hpending
    quiet := fun h => ⟨(hs.quiet h).1, not_has_nil⟩
    downstream := by
      show t.localWritten ++ t.toClient.bytes.take n ++ t.toClient.bytes.drop n = t.targetRead
      rw [List.append_assoc, List.take_append_drop, hbytes]
      exact hs.downstream }

theorem sound_forwardFromLocal (hs : t.Sound) (hraw : t.client.raw = true) {bytes : Bytes}
    (hfits : fits bytes = true) : (t.forwardFromLocal bytes).Sound := by
  obtain ⟨-, hbuffer, -⟩ := hs.clientRaw hraw
  have hup := hs.upstream
  rw [hbuffer, List.append_nil] at hup
  unfold forwardFromLocal
  rw [hfits, if_pos rfl]
  exact { hs with
    clientFramed := fun h => by
      rw [show t.client.raw = false from h] at hraw
      cases hraw
    upstream := by
      show t.target ++ (t.toHost.raw ++ bytes) ++ t.client.buffer = t.early ++ (t.up ++ bytes)
      rw [hbuffer, List.append_nil, ← List.append_assoc, hup, List.append_assoc] }

theorem sound_bufferLocal (hs : t.Sound) (hraw : t.client.raw = false) (bytes : Bytes) :
    (t.bufferLocal bytes).Sound := by
  obtain ⟨hnone, -⟩ := hs.clientFramed hraw
  have hup := hs.upstream
  rw [hnone, List.append_nil] at hup
  exact { hs with
    clientRaw := fun h => down_up hraw h
    upstream := by
      show t.target ++ t.toHost.raw ++ (t.client.buffer ++ bytes) = t.early ++ bytes ++ t.up
      rw [hnone, List.append_nil, ← List.append_assoc, hup] }

/-- What the host sends before it authorizes, and whether a `TestDelay` is pending then. -/
theorem sound_hostSend (hs : t.Sound) (hraw : t.host.raw = false)
    (hauthorized : t.host.authorized = false) {m : TunnelMessage} (hm : m ≠ .peerInfo)
    {lastTestDelay : Bool}
    (hpending : count .testDelay t.toClient.frames + (if m = .testDelay then 1 else 0) +
      count .testDelayReply t.toHost.frames = if lastTestDelay then 1 else 0) :
    (hostSend f m { t with host := { t.host with lastTestDelay } }).Sound := by
  unfold hostSend
  dsimp only
  rw [sendFrame_framed (hs.hostFramed hraw)]
  exact { hs with
    hostRaw := fun h => down_up hraw h
    clientRaw := fun h => down_up hauthorized (hs.clientRaw h).1
    peerInfo := fun h => down_up hauthorized h
    noPeerInfo := fun _ => hs.noPeerInfo_append hauthorized hm
    pending := by
      show count _ (_ ++ _) + count .testDelayReply t.toHost.frames = _
      rw [count_append, count_cons, show count _ [] = 0 from rfl, Nat.zero_add]
      exact hpending
    quiet := fun h => down_up hauthorized h }

theorem sound_hostTestDelay (hs : t.Sound) (hraw : t.host.raw = false)
    (hauthorized : t.host.authorized = false) (hdelay : t.host.lastTestDelay = false) :
    (t.hostTestDelay f).Sound := by
  have hpending := hs.pending
  rw [hdelay, if_neg (by simp)] at hpending
  refine sound_hostSend hs hraw hauthorized (by simp) ?_
  rw [if_pos rfl, if_pos rfl]
  omega

/-- The `PeerInfo` closes the framed part. -/
theorem sound_logon (hs : t.Sound) (hraw : t.host.raw = false)
    (hauthorized : t.host.authorized = false)
    (hquiet : ¬ Has .loginRequest t.toHost.frames ∧ ¬ Has .hash t.toClient.frames) :
    (t.logon f).Sound := by
  unfold logon hostSend
  dsimp only
  rw [sendFrame_framed (hs.hostFramed hraw)]
  exact { hs with
    hostRaw := fun h => down_up hraw h
    clientRaw := fun h => down_up hauthorized (hs.clientRaw h).1
    peerInfo := fun _ _ => ⟨_, _, rfl, hs.noPeerInfo hauthorized⟩
    noPeerInfo := fun h => by cases h
    pending := by
      show count _ (_ ++ _) + count .testDelayReply t.toHost.frames = _
      rw [count_append]
      exact hs.pending
    quiet := fun _ => by
      refine ⟨hquiet.1, fun h => ?_⟩
      rcases has_append.mp h with h | h
      · exact hquiet.2 h
      · cases has_single.mp h }

theorem sound_hostForward (hs : t.Sound) (hauthorized : t.host.authorized = true)
    (hdelay : t.host.lastTestDelay = false) : t.hostForward.Sound :=
  { hs with
    hostRaw := fun _ => ⟨hauthorized, hdelay⟩
    hostFramed := fun h => by cases h }

theorem sound_hostGuard (hs : t.Sound) : t.hostGuard.Sound := by
  unfold hostGuard
  split
  · next h =>
      simp only [Bool.and_eq_true, Bool.not_eq_true'] at h
      exact sound_hostForward hs h.1.2 h.2
  · exact hs

theorem sound_writeTarget (hs : t.Sound) (hraw : t.host.raw = true) (n : Nat) :
    (t.writeTarget n).Sound := by
  have hframes := hs.no_frames hraw
  have hbytes := bytes_of_raw hframes
  have hpending := hs.pending
  rw [hframes] at hpending
  exact { hs with
    clientFramed := fun h => by
      refine ⟨(hs.clientFramed h).1, ?_⟩
      show t.toHost.bytes.drop n = []
      rw [hbytes, (hs.clientFramed h).2, List.drop_nil]
    toHost := fun x hx => by cases hx
    pending := hpending
    quiet := fun h => ⟨not_has_nil, (hs.quiet h).2⟩
    upstream := by
      show t.target ++ t.toHost.bytes.take n ++ t.toHost.bytes.drop n ++ t.client.buffer = _
      rw [List.append_assoc t.target, List.take_append_drop, hbytes]
      exact hs.upstream }

theorem sound_readTarget (hs : t.Sound) (hraw : t.host.raw = true) (bytes : Bytes) :
    (t.readTarget bytes).Sound :=
  { hs with
    hostFramed := fun h => by
      rw [show t.host.raw = false from h] at hraw
      cases hraw
    downstream := by
      show t.localWritten ++ (t.toClient.raw ++ bytes) = t.targetRead ++ bytes
      rw [← List.append_assoc, hs.downstream] }

/-- A `LoginRequest` that does not authorize leaves nothing but an answer. -/
theorem sound_refuse (hs : t.Sound) (hraw : t.host.raw = false)
    (hauthorized : t.host.authorized = false) : (t.hostSend f .loginError).Sound :=
  sound_hostSend hs hraw hauthorized (by simp) (by simpa using hs.pending)

theorem sound_answerLogin (hs : t.Sound) (hraw : t.host.raw = false)
    (hauthorized : t.host.authorized = false) (verdict : LoginVerdict)
    (hclean : verdict = .accept →
      ¬ Has .loginRequest t.toHost.frames ∧ ¬ Has .hash t.toClient.frames) :
    (t.answerLogin f verdict).Sound := by
  unfold answerLogin
  cases verdict with
  | accept => exact sound_logon hs hraw hauthorized (hclean rfl)
  | refuse => exact sound_refuse hs hraw hauthorized
  | ask => exact hs
  | close => exact { hs with }

theorem sound_hostReceive (hs : t.Sound) (hraw : t.host.raw = false) (verdict : LoginVerdict)
    (hclean : t.Clean (.hostReceive verdict)) {m : TunnelMessage} {wire : Bytes}
    {rest : List (TunnelMessage × Bytes)} (hframes : t.toHost.frames = (m, wire) :: rest) :
    (hostMessage f verdict m { t with toHost := { t.toHost with frames := rest } }).Sound := by
  have hpending := hs.pending
  rw [hframes, count_cons] at hpending
  have hmember : ∀ x ∈ rest, x ∈ t.toHost.frames := by
    intro x hx
    rw [hframes]
    exact List.mem_cons_of_mem _ hx
  have hquiet : t.host.authorized = true →
      ¬ Has .loginRequest rest ∧ ¬ Has .hash t.toClient.frames := by
    intro h
    refine ⟨fun ⟨x, hx, hm⟩ => (hs.quiet h).1 ⟨x, hmember x hx, hm⟩, (hs.quiet h).2⟩
  have hm : m = .loginRequest ∨ m = .testDelayReply := by
    refine hs.toHost (m, wire) ?_
    rw [hframes]
    exact List.mem_cons_self
  rcases hm with rfl | rfl
  · cases hauthorized : t.host.authorized with
    | true =>
      refine absurd ?_ (hs.quiet hauthorized).1
      rw [hframes]
      exact has_cons.mpr (.inl rfl)
    | false =>
      have hasked : Sound { t with
          host := { t.host with requested := true }
          toHost := { t.toHost with frames := rest } } :=
        { hs with
          toHost := fun x hx => hs.toHost x (hmember x hx)
          pending := by simpa using hpending
          quiet := hquiet }
      have hclean' : verdict = .accept →
          ¬ Has .loginRequest rest ∧ ¬ Has .hash t.toClient.frames := by
        intro hv
        rw [hv] at hclean
        have hnone := hclean hauthorized
        rw [hframes] at hnone
        exact hnone
      unfold hostMessage
      dsimp only
      rw [if_neg (by simp [hauthorized])]
      exact sound_answerLogin hasked hraw hauthorized verdict hclean'
  · cases hdelay : t.host.lastTestDelay with
    | false =>
      rw [hdelay] at hpending
      simp at hpending
    | true =>
      rw [hdelay, if_pos rfl, if_pos rfl] at hpending
      exact { hs with
        hostRaw := fun h => down_up hraw h
        toHost := fun x hx => hs.toHost x (hmember x hx)
        pending := by
          show count .testDelay t.toClient.frames + count .testDelayReply rest = 0
          omega
        quiet := hquiet }

theorem sound_step (f : Framing) (t : Tunnel) (e : TunnelEvent) (hs : t.Sound)
    (hclean : Chunked e ∧ t.Clean e) : (t.step f e).Sound := by
  obtain ⟨hchunk, hclean⟩ := hclean
  unfold step
  by_cases hclosed : t.closed = true
  · rw [if_pos hclosed]
    exact hs
  · rw [if_neg hclosed]
    cases e with
    | clientLogin =>
      cases hraw : t.client.raw with
      | true => exact hs
      | false => exact sound_clientLogin hs hraw hclean
    | clientReceive tryAgain =>
      dsimp only
      split
      · next hraw hframes => exact sound_clientReceive hs hraw tryAgain hframes
      · exact hs
    | clientReceiveRaw n =>
      cases hraw : t.client.raw with
      | true => exact sound_forwardFromStream hs hraw hchunk
      | false => exact hs
    | localChunk bytes =>
      cases hraw : t.client.raw with
      | true => exact sound_forwardFromLocal hs hraw hchunk
      | false => exact sound_bufferLocal hs hraw bytes
    | hostTestDelay =>
      dsimp only
      split
      · exact hs
      · next h =>
          simp only [Bool.or_eq_true, not_or, Bool.not_eq_true] at h
          exact sound_hostTestDelay hs h.1.1 h.2 h.1.2
    | hostReceive verdict =>
      dsimp only
      split
      · next hraw hframes =>
          exact sound_hostGuard (sound_hostReceive hs hraw verdict hclean hframes)
      · exact hs
    | hostAuthorize connected =>
      obtain ⟨hdelay, hquiet⟩ := hclean
      dsimp only
      split
      · exact hs
      · next h =>
          simp only [Bool.or_eq_true, not_or, Bool.not_eq_true] at h
          unfold hostAuthorize
          cases hauthorized : t.host.authorized with
          | true => exact sound_hostForward hs hauthorized hdelay
          | false =>
            cases connected with
            | true =>
              exact sound_hostForward (sound_logon hs h.1 hauthorized hquiet) rfl hdelay
            | false => exact { hs with }
    | hostReceiveRaw n =>
      cases hraw : t.host.raw with
      | true => exact sound_writeTarget hs hraw n
      | false => exact hs
    | targetChunk bytes =>
      cases hraw : t.host.raw with
      | true => exact sound_readTarget hs hraw bytes
      | false => exact hs

end

/-! ## What is carried -/

/-- The target has a prefix of the bytes the local socket gave, before and after the login, and the
    local socket a prefix of the target's bytes. -/
structure Carries (t : Tunnel) : Prop where
  upstream : t.target <+: t.early ++ t.up
  downstream : t.localWritten <+: t.targetRead

theorem Sound.carries {t : Tunnel} (hs : t.Sound) : t.Carries where
  upstream := by
    rw [← hs.upstream, List.append_assoc]
    exact List.prefix_append _ _
  downstream := by
    rw [← hs.downstream]
    exact List.prefix_append _ _

/-- However login, `TestDelay`s, authorization and chunks interleave: both directions carry the
    bytes in order, as long as no frame is left for a raw host. -/
theorem tunnel_carries (f : Framing) (hash : Bytes) (events : List TunnelEvent)
    (hchunks : ∀ e ∈ events, Chunked e) (hclean : Along (step f) Clean (start hash) events) :
    Always (step f) Carries (start hash) events :=
  (always_of_along (sound_step f) (sound_start hash)
    ((along_of_mem hchunks).and hclean)).mono fun _ hs => hs.carries

/-! ## Two runs -/

/-- Frames of one byte under their header. -/
def Framing.sample : Framing := ⟨fun _ _ => [4, 0], fun _ _ => [4, 0]⟩

/-- A login while a `TestDelay` is pending, with bytes in both directions. -/
def pendingLogin : List TunnelEvent :=
  [.hostTestDelay, .clientReceive true, .hostReceive .accept, .localChunk [1, 2],
    .clientReceive true, .hostReceive .ask, .clientReceive true, .localChunk [3],
    .hostReceiveRaw 2, .targetChunk [9], .clientReceiveRaw 5]

theorem tunnel_carries_pendingLogin :
    Always (step .sample) Carries (start [4, 0]) pendingLogin :=
  tunnel_carries .sample [4, 0] pendingLogin (by decide)
    ⟨trivial, trivial, by decide, trivial, trivial, trivial, trivial, trivial, trivial, trivial,
      trivial, trivial⟩

/-- The same, but that the user of the host is asked, and accepts while the reply to the
    `TestDelay` is on its way. -/
def pendingAuthorize : List TunnelEvent :=
  [.hostTestDelay, .clientReceive true, .hostReceive .ask, .clientReceive true,
    .hostAuthorize true, .hostReceiveRaw 2]

/-- The reply is written to the target. -/
theorem reply_reaches_target :
    (run (step .sample) (start [4, 0]) pendingAuthorize).target = [4, 0] ∧
      (∀ e ∈ pendingAuthorize, Chunked e) ∧
      ¬ Always (step .sample) Carries (start [4, 0]) pendingAuthorize := by
  have htarget : (run (step .sample) (start [4, 0]) pendingAuthorize).target = [4, 0] := by decide
  refine ⟨htarget, by decide, fun hcarries => ?_⟩
  have hnone := hcarries.last.upstream
  rw [htarget] at hnone
  exact absurd hnone (by decide)

end Tunnel

end LuodaRemote
