/-
  The handshake of a caller with the machine it calls: `secure_connection` of `src/client.rs`
  on one side, `create_tcp_connection` of `src/server.rs` on the other.

  Each side decides by itself whether there is a handshake. The machine does so by an argument
  that the listener fixes which took the call (`listenerSecure`), and by its own key pair; the
  caller by what the rendezvous server told it of the machine's key (`Caller.signPk`). The
  machine speaks first: it signs a box key of its own, and gets a symmetric key sealed for it or
  a message that says that there is none. Then `Connection::start` sends the `Hash`.

  The two sides and the two channels between them are one system here, and a run is any order of
  steps and timeouts (`Handshake.step`). Nothing is lost or changed on the way. `Agreed` is what
  both may expect when both are through: the same key or none, and everything that
  `Connection::start` has sent still to be read. It holds in every run precisely if the machine
  does the handshake whenever the caller waits for it (`handshake_agrees_iff`). The direct access
  port never does.

  Source: besides the two, `Client::connect` for the candidates, `decode_id_pk`, `get_rs_pk` and
  `create_symmetric_key_msg` of `src/common.rs`, `Encrypt::decode` of
  `libs/hbb_common/src/tcp.rs`, and in `src/rendezvous_mediator.rs` the listeners
  (`direct_server`, `handle_punch_hole`, `handle_intranet_`, `udp_nat_listen`,
  `handle_request_relay`). What the connection reads after the handshake is left out.
-/
import LuodaRemote.Lib.PublicKey
import LuodaRemote.Lib.Run
import LuodaRemote.Lib.Utf8
import LuodaRemote.Lib.Wire
import LuodaRemote.Net.Stream

namespace LuodaRemote
open Lib

/-! ## Messages and keys -/

/-- `message::Union` as the handshake tells its members apart. -/
inductive PeerUnion where
  | signedId (id : Bytes)
  | publicKey (asymmetricValue symmetricValue : Bytes)
  | hash (h : Hash)
  | other (encoded : Bytes)
  deriving DecidableEq

/-- The functions of other crates: `sodiumoxide`, `protobuf` and `base64`. -/
structure Crates where
  sign : Signature
  box : PublicBox
  secretbox : SecretBox
  /-- `IdPk`: an id and a key. -/
  idPk : Format (String × Bytes)
  /-- `Message`, by its union. -/
  message : Format (Option PeerUnion)
  decode64 : String → Option Bytes

/-- `config::RS_PUB_KEY`. -/
def rsPubKey : String := "OQnLEvt6xjfPCUc1ozpTUiAxijwnn624zy0GH9IxX90="

/-- `box_::Nonce([0u8; NONCEBYTES])`. -/
def zeroNonce : Bytes := List.replicate 24 0

namespace Crates

variable (cr : Crates)

def getRsPk (strBase64 : String) : Option Key32 := (cr.decode64 strBase64).bind Key32.ofBytes

def decodeIdPk (signed : Bytes) (key : Key32) : Except String (String × Key32) :=
  match cr.sign.verify signed key with
  | none => .error "Signature mismatch"
  | some bytes =>
    match cr.idPk.parse bytes with
    | none => .error "protobuf"
    | some (id, pk) =>
      match Key32.ofBytes pk with
      | some pk => .ok (id, pk)
      | none => .error "Wrong their public length"

/-- `create_symmetric_key_msg`, given the secret key and the symmetric key it draws. -/
def createSymmetricKeyMsg (theirPk : Key32) (ourSk : Bytes) (key : Key32) :
    Bytes × Bytes × Bytes :=
  ((cr.box.publicKey ourSk).val, cr.box.sealBox key.val zeroNonce theirPk ourSk, key.val)

/-- `Encrypt::decode`. -/
def decode (symmetricData theirPk : Bytes) (ourSk : Bytes) : Except String Bytes :=
  match Key32.ofBytes theirPk with
  | none => .error ("Handshake failed: pk length " ++ toString theirPk.length)
  | some theirPk =>
    match cr.box.openBox symmetricData zeroNonce theirPk ourSk with
    | none => .error "Handshake failed: box decryption failure"
    | some key =>
      if key.length ≠ 32 then .error "Handshake failed: invalid secret key length from peer"
      else .ok key

end Crates

/-! ## The two sides -/

/-- The arguments of `secure_connection`, and the keys it will draw. -/
structure Caller where
  peerId : String
  signedIdPk : Bytes
  key : String
  boxSk : Bytes
  symmetricKey : Key32

/-- The configuration of the machine, the key it will draw, and what `Connection::start` sends:
    the `Hash`, or why the call is refused, and then whatever follows. -/
structure Callee where
  id : String
  sk : Bytes
  pk : Bytes
  boxSk : Bytes
  opening : Except Bytes Hash
  following : List Bytes

/-- The key that the caller expects the machine to sign with. -/
def Caller.signPk (cr : Crates) (c : Caller) : Option Key32 :=
  if c.signedIdPk = [] then none
  else
    (cr.getRsPk (if c.key = "" then rsPubKey else c.key)).bind fun rsPk =>
      match cr.decodeIdPk c.signedIdPk rsPk with
      | .ok (id, pk) => if id = c.peerId then some pk else none
      | .error _ => none

/-- The answer of the caller to the first message, if it can be read, and the key it sets. -/
def Caller.reply (cr : Crates) (c : Caller) (signPk : Key32) :
    Option (Option PeerUnion) → Option PeerUnion × Option Bytes
  | some (some (.signedId si)) =>
    match cr.decodeIdPk si signPk with
    | .ok (id, theirPk) =>
      if id = c.peerId then
        let (asymmetric, symmetric, key) :=
          cr.createSymmetricKeyMsg theirPk c.boxSk c.symmetricKey
        (some (.publicKey asymmetric symmetric), some key)
      -- "Handshake failed: sign failure"
      else (none, none)
    -- fall back to non-secure connection in case pk mismatch
    | .error _ => (some (.publicKey [] []), none)
  -- "Handshake failed: invalid message type"
  | some _ => (none, none)
  -- "Handshake failed: invalid message format"
  | none => (none, none)

/-- What the caller makes of what it reads. -/
def Caller.answer (cr : Crates) (c : Caller) (signPk : Key32) :
    Option (Except String Bytes) → Except String (Option PeerUnion × Option Bytes)
  | none => .error "Reset by the peer"
  | some (.error e) => .error e
  | some (.ok bytes) => .ok (c.reply cr signPk (cr.message.parse bytes))

/-- Whether the machine does a handshake. -/
def Callee.secures (t : Callee) (secure : Bool) : Bool :=
  secure && t.pk.length == 32 && t.sk.length == 64

/-- The message the machine starts with. -/
def Callee.signedId (cr : Crates) (t : Callee) : PeerUnion :=
  .signedId (cr.sign.sign (cr.idPk.write (t.id, (cr.box.publicKey t.boxSk).val)) t.sk)

/-- What the machine makes of the answer, if it can be read: the key it sets, and whether its
    own key stays confirmed. -/
def Callee.settle (cr : Crates) (t : Callee) :
    Option (Option PeerUnion) → Except String (Option Bytes × Bool)
  | some (some (.publicKey asymmetric symmetric)) =>
    if asymmetric.length = 32 then
      (cr.decode symmetric asymmetric t.boxSk).map fun key => (some key, true)
    -- "Force to update pk"
    else if asymmetric = [] then .ok (none, false)
    else .error "Handshake failed: invalid public sign key length from peer"
  -- "Handshake failed: invalid message type"
  | some _ => .ok (none, true)
  | none => .error "Handshake failed: invalid message format"

/-- What the machine makes of what it reads. -/
def Callee.accept (cr : Crates) (t : Callee) :
    Option (Except String Bytes) → Except String (Option Bytes × Bool)
  | none => .error "Failed to receive public key"
  | some (.error e) => .error e
  | some (.ok bytes) => t.settle cr (cr.message.parse bytes)

/-- What `Connection::start` sends. -/
def Callee.startMessages (t : Callee) : List (Option PeerUnion) :=
  (match t.opening with
    | .ok hash => some (.hash hash)
    | .error refusal => some (.other refusal)) ::
  t.following.map fun m => some (.other m)

/-! ## How the machine is reached -/

/-- The candidates of `Client::connect`, by the names it gives them. -/
inductive Path where
  | tcp
  | tcpDirect
  | udp
  | ipv6
  | relay
  deriving DecidableEq

/-- The arguments of `Client::connect` that decide on the candidates. -/
structure Candidates where
  peerIsV4 : Bool
  peerDirectPort : Int
  udpSocketNat : Bool
  udpSocketV6 : Bool
  relayServer : String
  isForceRelay : Bool

/-- The paths that may be taken: the first candidate to connect, or else the relay. -/
def Candidates.paths (c : Candidates) : List Path :=
  (if c.isForceRelay then []
    else [Path.tcp] ++ (if c.peerDirectPort > 0 ∧ c.peerIsV4 then [.tcpDirect] else []) ++
      (if c.udpSocketNat then [.udp] else []) ++ (if c.udpSocketV6 then [.ipv6] else [])) ++
  (if c.relayServer = "" then [] else [.relay])

/-- The `secure` that the listener on each path gives to `create_tcp_connection`. A relay is
    asked for with the caller's own. -/
def Path.listenerSecure (c : Caller) : Path → Bool
  | tcp => true
  | tcpDirect => false
  | udp => true
  | ipv6 => true
  | relay => !c.signedIdPk.isEmpty

/-! ## Both sides together -/

/-- `secure_connection`: not begun, at its only read, or back with its result. -/
inductive CallerState where
  | start
  | waiting (signPk : Key32)
  | done (res : Except String (Option Bytes))

/-- `create_tcp_connection`: not begun, at its only read, in `Connection::start` with what is
    still to be sent, or back with an error. -/
inductive CalleeState where
  | start
  | waiting
  | started (unsent : List (Option PeerUnion))
  | failed (e : String)

/-- The two sides, each with the key of its stream, and the frames under way. -/
structure Handshake where
  caller : CallerState := .start
  callerEncrypt : Option Encrypt := none
  callee : CalleeState := .start
  calleeEncrypt : Option Encrypt := none
  keyConfirmed : Bool := true
  toCallee : List Bytes := []
  toCaller : List Bytes := []
  /-- The frames that `Connection::start` has put under way. -/
  startSent : List Bytes := []

/-- Who goes on, or whose `timeout` runs out. -/
inductive Turn where
  | caller
  | callee
  | callerTimeout
  | calleeTimeout
  deriving DecidableEq

namespace Handshake

variable (cr : Crates) (c : Caller) (t : Callee) (path : Path)

/-- A message of the caller. -/
def callerSends (m : Option PeerUnion) (s : Handshake) : Handshake :=
  let (frame, encrypt) := encryptWith cr.secretbox (cr.message.write m) s.callerEncrypt
  { s with toCallee := s.toCallee ++ [frame], callerEncrypt := encrypt }

def calleeSends (m : Option PeerUnion) (s : Handshake) : Handshake :=
  let (frame, encrypt) := encryptWith cr.secretbox (cr.message.write m) s.calleeEncrypt
  { s with toCaller := s.toCaller ++ [frame], calleeEncrypt := encrypt }

def callerReads (signPk : Key32) (frame : Bytes) (s : Handshake) : Handshake :=
  let (bytes, encrypt) := decryptWith cr.secretbox frame s.callerEncrypt
  let s := { s with callerEncrypt := encrypt }
  match c.answer cr signPk (some bytes) with
  | .error e => { s with caller := .done (.error e) }
  | .ok (reply, key) =>
    let s := s.callerSends cr reply
    { s with
      callerEncrypt := (key.map Encrypt.new).orElse fun _ => s.callerEncrypt
      caller := .done (.ok (some signPk.val)) }

def calleeReads (frame : Bytes) (s : Handshake) : Handshake :=
  let (bytes, encrypt) := decryptWith cr.secretbox frame s.calleeEncrypt
  let s := { s with calleeEncrypt := encrypt }
  match t.accept cr (some bytes) with
  | .error e => { s with callee := .failed e }
  | .ok (key, confirmed) =>
    { s with
      calleeEncrypt := (key.map Encrypt.new).orElse fun _ => s.calleeEncrypt
      keyConfirmed := s.keyConfirmed && confirmed
      callee := .started t.startMessages }

def callerStep (s : Handshake) : Handshake :=
  match s.caller with
  | .start =>
    match c.signPk cr with
    -- an empty message, in case the machine is setting up secure and waits for it
    | none => { s.callerSends cr none with caller := .done (.ok none) }
    | some signPk => { s with caller := .waiting signPk }
  | .waiting signPk =>
    match s.toCaller with
    | [] => s
    | frame :: rest => callerReads cr c signPk frame { s with toCaller := rest }
  | .done _ => s

def calleeStep (s : Handshake) : Handshake :=
  match s.callee with
  | .start =>
    if t.secures (path.listenerSecure c) then
      { s.calleeSends cr (some (t.signedId cr)) with callee := .waiting }
    else { s with callee := .started t.startMessages }
  | .waiting =>
    match s.toCallee with
    | [] => s
    | frame :: rest => calleeReads cr t frame { s with toCallee := rest }
  | .started (m :: unsent) =>
    { s.calleeSends cr m with
      callee := .started unsent
      startSent := s.startSent ++
        [(encryptWith cr.secretbox (cr.message.write m) s.calleeEncrypt).1] }
  | .started [] => s
  | .failed _ => s

def step (s : Handshake) : Turn → Handshake
  | .caller => callerStep cr c s
  | .callee => calleeStep cr c t path s
  | .callerTimeout =>
    match s.caller with
    | .waiting _ => { s with caller := .done (.error "deadline has elapsed") }
    | _ => s
  | .calleeTimeout =>
    match s.callee with
    | .waiting => { s with callee := .failed "deadline has elapsed" }
    | _ => s

/-- Once both sides are through, their streams have the same key or none, and all that
    `Connection::start` has sent is still to be read. -/
def Agreed (s : Handshake) : Prop :=
  ∀ optionPk unsent, s.caller = .done (.ok optionPk) → s.callee = .started unsent →
    s.callerEncrypt.map (·.key) = s.calleeEncrypt.map (·.key) ∧ s.startSent <:+ s.toCaller

/-! ## What each side makes of the other's message -/

section Messages

variable {cr : Crates} {c : Caller} {t : Callee}

/-- What the machine signed is what the caller reads, if it takes the signature. -/
theorem decodeIdPk_signedId {key : Key32} {id : String} {pk : Key32}
    (hd : cr.decodeIdPk
      (cr.sign.sign (cr.idPk.write (t.id, (cr.box.publicKey t.boxSk).val)) t.sk) key =
        .ok (id, pk)) : id = t.id ∧ pk = cr.box.publicKey t.boxSk := by
  unfold Crates.decodeIdPk at hd
  split at hd
  · cases hd
  · rename_i bytes hverify
    have hbytes := cr.sign.read_sign _ _ _ _ hverify
    subst hbytes
    rw [cr.idPk.parse_write] at hd
    simp only [Key32.ofBytes_val, Except.ok.injEq, Prod.mk.injEq] at hd
    exact ⟨hd.1.symm, hd.2.symm⟩

/-- A key that is sealed for the machine is opened by it. -/
theorem decode_sealed (sk : Bytes) (key : Key32) :
    cr.decode (cr.box.sealBox key.val zeroNonce (cr.box.publicKey t.boxSk) sk)
      (cr.box.publicKey sk).val t.boxSk = .ok key.val := by
  unfold Crates.decode
  rw [Key32.ofBytes_val]
  dsimp only
  rw [cr.box.openBox_sealBox]
  dsimp only
  rw [if_neg (by rw [key.property]; decide)]

theorem answer_write (signPk : Key32) (m : Option PeerUnion) :
    c.answer cr signPk (some (.ok (cr.message.write m))) = .ok (c.reply cr signPk (some m)) := by
  rw [Caller.answer, cr.message.parse_write]

theorem accept_write (m : Option PeerUnion) :
    t.accept cr (some (.ok (cr.message.write m))) = t.settle cr (some m) := by
  rw [Callee.accept, cr.message.parse_write]

/-- Whatever the caller answers to the machine's first message, the machine goes on, with the
    key that the caller sets. -/
theorem settle_reply (cr : Crates) (c : Caller) (t : Callee) (signPk : Key32) :
    ∃ confirmed, t.settle cr (some (c.reply cr signPk (some (some (t.signedId cr)))).1) =
      .ok ((c.reply cr signPk (some (some (t.signedId cr)))).2, confirmed) := by
  rw [Callee.signedId, Caller.reply]
  cases hd : cr.decodeIdPk
      (cr.sign.sign (cr.idPk.write (t.id, (cr.box.publicKey t.boxSk).val)) t.sk) signPk with
  | error e => exact ⟨false, rfl⟩
  | ok p =>
    obtain ⟨id, theirPk⟩ := p
    obtain ⟨-, rfl⟩ := decodeIdPk_signedId hd
    dsimp only
    split
    · refine ⟨true, ?_⟩
      show (if (cr.box.publicKey c.boxSk).val.length = 32 then _ else _) = _
      rw [if_pos (cr.box.publicKey c.boxSk).property]
      exact congrArg (Except.map fun key => (some key, true)) (decode_sealed _ _)
    · exact ⟨true, rfl⟩

/-- What `Connection::start` sends is taken for a failed handshake, and answered with an empty
    message. -/
theorem reply_start (signPk : Key32) {m : Option PeerUnion} (hm : m ∈ t.startMessages) :
    c.reply cr signPk (some m) = (none, none) := by
  unfold Callee.startMessages at hm
  rcases List.mem_cons.mp hm with rfl | hm
  · cases t.opening <;> rfl
  · obtain ⟨b, -, rfl⟩ := List.mem_map.mp hm
    rfl

end Messages

/-! ## A caller that expects nothing -/

section Runs

variable {cr : Crates} {c : Caller} {t : Callee} {path : Path} {s : Handshake}

/-- The caller reads nothing and says at most an empty message, and nobody has a key. -/
structure Silent (cr : Crates) (s : Handshake) : Prop where
  caller : s.caller = .start ∨ s.caller = .done (.ok none)
  callerPlain : s.callerEncrypt = none
  calleePlain : s.calleeEncrypt = none
  empty : ∀ frame ∈ s.toCallee, frame = cr.message.write none
  fresh : s.callee = .start → s.startSent = []
  unread : s.startSent <:+ s.toCaller

theorem Silent.agreed (hs : Silent cr s) : Agreed s := by
  intro _ _ _ _
  rw [hs.callerPlain, hs.calleePlain]
  exact ⟨rfl, hs.unread⟩

/-- What is sent in the open goes to the end of the channel. -/
theorem calleeSends_plain (hplain : s.calleeEncrypt = none) (m : Option PeerUnion) :
    s.calleeSends cr m = { s with toCaller := s.toCaller ++ [cr.message.write m] } := by
  cases s
  cases hplain
  rfl

theorem callerSends_plain (hplain : s.callerEncrypt = none) (m : Option PeerUnion) :
    s.callerSends cr m = { s with toCallee := s.toCallee ++ [cr.message.write m] } := by
  cases s
  cases hplain
  rfl

/-- The caller reads its first message in the open, and answers it. -/
theorem callerReads_plain (hplain : s.callerEncrypt = none) (signPk : Key32)
    (m : Option PeerUnion) :
    callerReads cr c signPk (cr.message.write m) s =
      { s with
        caller := .done (.ok (some signPk.val))
        callerEncrypt := (c.reply cr signPk (some m)).2.map Encrypt.new
        toCallee := s.toCallee ++ [cr.message.write (c.reply cr signPk (some m)).1] } := by
  cases s
  cases hplain
  unfold callerReads
  dsimp only [decryptWith]
  rw [answer_write]
  dsimp only
  rw [callerSends_plain rfl]
  cases (c.reply cr signPk (some m)).2 <;> rfl

/-- The machine reads the answer in the open, and goes on. -/
theorem calleeReads_plain (hplain : s.calleeEncrypt = none) {m : Option PeerUnion}
    {key : Option Bytes} {confirmed : Bool} (hm : t.settle cr (some m) = .ok (key, confirmed)) :
    calleeReads cr t (cr.message.write m) s =
      { s with
        callee := .started t.startMessages
        calleeEncrypt := key.map Encrypt.new
        keyConfirmed := s.keyConfirmed && confirmed } := by
  cases s
  cases hplain
  unfold calleeReads
  dsimp only [decryptWith]
  rw [accept_write, hm]
  cases key <;> rfl

/-! Each side, step by step. -/

theorem callerStep_start {pk : Key32} (hcaller : s.caller = .start) (hpk : c.signPk cr = some pk) :
    callerStep cr c s = { s with caller := .waiting pk } := by
  unfold callerStep
  rw [hcaller]
  dsimp only
  rw [hpk]

theorem callerStep_idle {pk : Key32} (hcaller : s.caller = .waiting pk) (hto : s.toCaller = []) :
    callerStep cr c s = s := by
  unfold callerStep
  rw [hcaller]
  dsimp only
  rw [hto]

theorem callerStep_reads {pk : Key32} {frame : Bytes} {rest : List Bytes}
    (hcaller : s.caller = .waiting pk) (hto : s.toCaller = frame :: rest) :
    callerStep cr c s = callerReads cr c pk frame { s with toCaller := rest } := by
  unfold callerStep
  rw [hcaller]
  dsimp only
  rw [hto]

theorem callerStep_done {res : Except String (Option Bytes)} (hcaller : s.caller = .done res) :
    callerStep cr c s = s := by
  unfold callerStep
  rw [hcaller]

theorem callee_callerStep : (callerStep cr c s).callee = s.callee := by
  unfold callerStep callerReads
  split
  · split <;> rfl
  · split
    · rfl
    · dsimp only
      split <;> rfl
  · rfl

theorem calleeStep_secures (hcallee : s.callee = .start)
    (hsec : t.secures (path.listenerSecure c) = true) :
    calleeStep cr c t path s =
      { s.calleeSends cr (some (t.signedId cr)) with callee := .waiting } := by
  unfold calleeStep
  rw [hcallee]
  dsimp only
  rw [if_pos hsec]

theorem calleeStep_open (hcallee : s.callee = .start)
    (hsec : t.secures (path.listenerSecure c) = false) :
    calleeStep cr c t path s = { s with callee := .started t.startMessages } := by
  unfold calleeStep
  rw [hcallee]
  dsimp only
  rw [hsec]
  rfl

theorem calleeStep_idle (hcallee : s.callee = .waiting) (hto : s.toCallee = []) :
    calleeStep cr c t path s = s := by
  unfold calleeStep
  rw [hcallee]
  dsimp only
  rw [hto]

theorem calleeStep_reads {frame : Bytes} {rest : List Bytes} (hcallee : s.callee = .waiting)
    (hto : s.toCallee = frame :: rest) :
    calleeStep cr c t path s = calleeReads cr t frame { s with toCallee := rest } := by
  unfold calleeStep
  rw [hcallee]
  dsimp only
  rw [hto]

theorem calleeStep_sends {m : Option PeerUnion} {unsent : List (Option PeerUnion)}
    (hcallee : s.callee = .started (m :: unsent)) :
    calleeStep cr c t path s =
      { s.calleeSends cr m with
        callee := .started unsent
        startSent := s.startSent ++
          [(encryptWith cr.secretbox (cr.message.write m) s.calleeEncrypt).1] } := by
  unfold calleeStep
  rw [hcallee]

theorem calleeStep_sent (hcallee : s.callee = .started []) : calleeStep cr c t path s = s := by
  unfold calleeStep
  rw [hcallee]

theorem calleeStep_failed {e : String} (hcallee : s.callee = .failed e) :
    calleeStep cr c t path s = s := by
  unfold calleeStep
  rw [hcallee]

theorem silent_callerStep (hpk : c.signPk cr = none) (hs : Silent cr s) :
    Silent cr (callerStep cr c s) := by
  unfold callerStep
  rcases hs.caller with hstart | hdone
  · rw [hstart]
    dsimp only
    rw [hpk, callerSends_plain hs.callerPlain]
    refine ⟨Or.inr rfl, hs.callerPlain, hs.calleePlain, ?_, hs.fresh, hs.unread⟩
    intro frame hframe
    rcases List.mem_append.mp hframe with hold | hnew
    · exact hs.empty frame hold
    · exact List.mem_singleton.mp hnew
  · rw [hdone]
    exact hs

theorem silent_calleeReads {frame : Bytes} {rest : List Bytes} (hs : Silent cr s)
    (hto : s.toCallee = frame :: rest) :
    Silent cr (calleeReads cr t frame { s with toCallee := rest }) := by
  have hframe : frame = cr.message.write none := hs.empty frame (by rw [hto]; simp)
  have hrest : ∀ f ∈ rest, f = cr.message.write none := fun f hf =>
    hs.empty f (by rw [hto]; exact List.mem_cons_of_mem _ hf)
  have hempty : t.settle cr (some none) = .ok (none, true) := rfl
  rw [hframe, calleeReads_plain (s := { s with toCallee := rest }) hs.calleePlain hempty]
  exact ⟨hs.caller, hs.callerPlain, rfl, hrest, fun hstart => (nomatch hstart), hs.unread⟩

theorem silent_calleeStep (hs : Silent cr s) : Silent cr (calleeStep cr c t path s) := by
  unfold calleeStep
  split
  · rename_i hstart
    split
    · rw [calleeSends_plain hs.calleePlain]
      refine ⟨hs.caller, hs.callerPlain, hs.calleePlain, hs.empty, fun h => (nomatch h), ?_⟩
      show s.startSent <:+ s.toCaller ++ [_]
      rw [hs.fresh hstart]
      exact List.nil_suffix
    · exact ⟨hs.caller, hs.callerPlain, hs.calleePlain, hs.empty, fun h => (nomatch h), hs.unread⟩
  · split
    · exact hs
    · rename_i frame rest hto
      exact silent_calleeReads hs hto
  · rename_i m unsent _
    rw [calleeSends_plain hs.calleePlain]
    refine ⟨hs.caller, hs.callerPlain, hs.calleePlain, hs.empty, fun h => (nomatch h), ?_⟩
    dsimp only
    rw [hs.calleePlain]
    exact List.suffix_append_self_iff.mpr hs.unread
  · exact hs
  · exact hs

theorem silent_step (hpk : c.signPk cr = none) (turn : Turn) (hs : Silent cr s) :
    Silent cr (step cr c t path s turn) := by
  cases turn with
  | caller => exact silent_callerStep hpk hs
  | callee => exact silent_calleeStep hs
  | callerTimeout =>
    rcases hs.caller with hcaller | hcaller <;>
      · simp only [step, hcaller]
        exact hs
  | calleeTimeout =>
    dsimp only [step]
    split
    · exact ⟨hs.caller, hs.callerPlain, hs.calleePlain, hs.empty, fun h => (nomatch h), hs.unread⟩
    · exact hs

/-! ## A caller and a machine that both do the handshake -/

/-- The caller is not through, or has given up. -/
def NotThrough (s : Handshake) : Prop := ∀ optionPk, s.caller ≠ .done (.ok optionPk)

/-- A message is sent under the key that the stream has. -/
theorem key_encryptWith (box : SecretBox) (msg : Bytes) (encrypt : Option Encrypt) :
    (encryptWith box msg encrypt).2.map (·.key) = encrypt.map (·.key) := by
  cases encrypt <;> rfl

/-- How far the two have come. -/
inductive Phase (cr : Crates) (t : Callee) (s : Handshake) : Prop
  | before (callee : s.callee = .start) (caller : NotThrough s) (toCallee : s.toCallee = [])
      (toCaller : s.toCaller = []) (startSent : s.startSent = [])
      (callerPlain : s.callerEncrypt = none) (calleePlain : s.calleeEncrypt = none)
  | offered (callee : s.callee = .waiting) (caller : NotThrough s) (toCallee : s.toCallee = [])
      (toCaller : s.toCaller = [cr.message.write (some (t.signedId cr))])
      (startSent : s.startSent = []) (callerPlain : s.callerEncrypt = none)
      (calleePlain : s.calleeEncrypt = none)
  | answered {optionPk reply key confirmed} (callee : s.callee = .waiting)
      (caller : s.caller = .done (.ok optionPk)) (toCallee : s.toCallee = [cr.message.write reply])
      (toCaller : s.toCaller = []) (startSent : s.startSent = [])
      (callerKey : s.callerEncrypt = Option.map Encrypt.new key)
      (calleePlain : s.calleeEncrypt = none)
      (settle : t.settle cr (some reply) = .ok (key, confirmed))
  | through {optionPk unsent} (callee : s.callee = .started unsent)
      (caller : s.caller = .done (.ok optionPk))
      (keys : s.callerEncrypt.map (·.key) = s.calleeEncrypt.map (·.key))
      (unread : s.startSent = s.toCaller)
  | failed {e} (callee : s.callee = .failed e)

theorem Phase.agreed (hs : Phase cr t s) : Agreed s := by
  intro optionPk unsent hcaller hcallee
  cases hs with
  | before callee => rw [callee] at hcallee; cases hcallee
  | offered callee => rw [callee] at hcallee; cases hcallee
  | answered callee => rw [callee] at hcallee; cases hcallee
  | through callee caller keys unread => exact ⟨keys, unread ▸ List.suffix_rfl⟩
  | failed callee => rw [callee] at hcallee; cases hcallee

/-- A caller that is not through may go anywhere but through. -/
theorem Phase.caller_moves (hs : Phase cr t s) (hopen : NotThrough s) {caller : CallerState}
    (hcaller : ∀ optionPk, caller ≠ .done (.ok optionPk)) : Phase cr t { s with caller } := by
  cases hs with
  | before callee _ toCallee toCaller startSent callerPlain calleePlain =>
    exact .before callee hcaller toCallee toCaller startSent callerPlain calleePlain
  | offered callee _ toCallee toCaller startSent callerPlain calleePlain =>
    exact .offered callee hcaller toCallee toCaller startSent callerPlain calleePlain
  | answered _ caller => exact absurd caller (hopen _)
  | through _ caller => exact absurd caller (hopen _)
  | failed callee => exact .failed callee

/-- The caller keeps waiting, or answers the machine's offer. -/
theorem phase_callerStep {pk : Key32} (hpk : c.signPk cr = some pk) (hs : Phase cr t s) :
    Phase cr t (callerStep cr c s) := by
  cases hcaller : s.caller with
  | start =>
    rw [callerStep_start hcaller hpk]
    exact hs.caller_moves (fun _ h => nomatch hcaller.symm.trans h) fun _ h => nomatch h
  | waiting signPk =>
    cases hs with
    | before callee caller toCallee toCaller startSent callerPlain calleePlain =>
      rw [callerStep_idle hcaller toCaller]
      exact .before callee caller toCallee toCaller startSent callerPlain calleePlain
    | offered callee _ toCallee toCaller startSent callerPlain calleePlain =>
      obtain ⟨confirmed, hsettle⟩ := settle_reply cr c t signPk
      rw [callerStep_reads hcaller toCaller,
        callerReads_plain (s := { s with toCaller := [] }) callerPlain]
      exact .answered callee rfl (by dsimp only; rw [toCallee]; rfl) rfl startSent rfl
        calleePlain hsettle
    | answered _ caller => rw [caller] at hcaller; cases hcaller
    | through _ caller => rw [caller] at hcaller; cases hcaller
    | failed callee =>
      have hcallee : (callerStep cr c s).callee = s.callee := callee_callerStep
      exact .failed (hcallee.trans callee)
  | done res =>
    rw [callerStep_done hcaller]
    exact hs

/-- The machine makes its offer, keeps waiting, takes the answer, or sends on. -/
theorem phase_calleeStep (hsec : t.secures (path.listenerSecure c) = true) (hs : Phase cr t s) :
    Phase cr t (calleeStep cr c t path s) := by
  cases hs with
  | before callee caller toCallee toCaller startSent callerPlain calleePlain =>
    rw [calleeStep_secures callee hsec, calleeSends_plain calleePlain]
    exact .offered rfl caller toCallee (by dsimp only; rw [toCaller]; rfl) startSent callerPlain
      calleePlain
  | offered callee caller toCallee toCaller startSent callerPlain calleePlain =>
    rw [calleeStep_idle callee toCallee]
    exact .offered callee caller toCallee toCaller startSent callerPlain calleePlain
  | answered callee caller toCallee toCaller startSent callerKey calleePlain settle =>
    rw [calleeStep_reads callee toCallee,
      calleeReads_plain (s := { s with toCallee := [] }) calleePlain settle]
    refine .through rfl caller ?_ (startSent.trans toCaller.symm)
    dsimp only
    rw [callerKey]
  | @through _ unsent callee caller keys unread =>
    cases unsent with
    | nil =>
      rw [calleeStep_sent callee]
      exact .through callee caller keys unread
    | cons m unsent =>
      rw [calleeStep_sends callee]
      refine .through rfl caller ?_ ?_
      · show s.callerEncrypt.map (·.key) =
          (encryptWith cr.secretbox (cr.message.write m) s.calleeEncrypt).2.map (·.key)
        rw [key_encryptWith, keys]
      · show s.startSent ++ [(encryptWith cr.secretbox (cr.message.write m) _).1] =
          s.toCaller ++ [(encryptWith cr.secretbox (cr.message.write m) _).1]
        rw [unread]
  | failed callee =>
    rw [calleeStep_failed callee]
    exact .failed callee

theorem phase_step {pk : Key32} (hpk : c.signPk cr = some pk)
    (hsec : t.secures (path.listenerSecure c) = true) (turn : Turn) (hs : Phase cr t s) :
    Phase cr t (step cr c t path s turn) := by
  cases turn with
  | caller => exact phase_callerStep hpk hs
  | callee => exact phase_calleeStep hsec hs
  | callerTimeout =>
    dsimp only [step]
    split
    · rename_i signPk hcaller
      exact hs.caller_moves (fun _ h => nomatch hcaller.symm.trans h) fun _ h => nomatch h
    · exact hs
  | calleeTimeout =>
    dsimp only [step]
    split
    · exact .failed rfl
    · exact hs

/-! ## A caller that waits for a handshake and a machine that does none -/

/-- The machine starts, sends its first message, and the caller takes it for the handshake. -/
def missedTurns : List Turn := [.callee, .callee, .caller, .caller]

theorem not_agreed_missed {pk : Key32} (hpk : c.signPk cr = some pk)
    (hsec : t.secures (path.listenerSecure c) = false) :
    ¬Agreed (run (step cr c t path) {} missedTurns) := by
  obtain ⟨first, rest, hstart⟩ : ∃ first rest, t.startMessages = first :: rest := ⟨_, _, rfl⟩
  have hreply : c.reply cr pk (some first) = (none, none) :=
    reply_start (t := t) pk (by rw [hstart]; exact List.mem_cons_self)
  have hrun : run (step cr c t path) {} missedTurns =
      { caller := .done (.ok (some pk.val)), callee := .started rest,
        toCallee := [cr.message.write none], startSent := [cr.message.write first] } := by
    have hopen : calleeStep cr c t path {} = { callee := .started (first :: rest) } := by
      rw [calleeStep_open rfl hsec, hstart]
    have hsend : calleeStep cr c t path { callee := .started (first :: rest) } =
        { callee := .started rest, toCaller := [cr.message.write first],
          startSent := [cr.message.write first] } := by
      rw [calleeStep_sends rfl, calleeSends_plain rfl]
      rfl
    have hwait : callerStep cr c
        { callee := .started rest, toCaller := [cr.message.write first],
          startSent := [cr.message.write first] } =
        { caller := .waiting pk, callee := .started rest, toCaller := [cr.message.write first],
          startSent := [cr.message.write first] } := callerStep_start rfl hpk
    show callerStep cr c (callerStep cr c (calleeStep cr c t path (calleeStep cr c t path {}))) = _
    rw [hopen, hsend, hwait, callerStep_reads rfl rfl, callerReads_plain rfl, hreply]
    rfl
  intro hagreed
  rw [hrun] at hagreed
  have hsuffix := (hagreed _ _ rfl rfl).2
  exact absurd (List.suffix_nil.mp hsuffix) (List.cons_ne_nil _ _)

end Runs

/-- A caller that has a key to check against was told one, and then every listener but that of
    the direct access port asks for a handshake. -/
theorem secures_iff {cr : Crates} {c : Caller} (hpk : (c.signPk cr).isSome) (t : Callee)
    (path : Path) : t.secures (path.listenerSecure c) = true ↔
      path ≠ .tcpDirect ∧ t.pk.length = 32 ∧ t.sk.length = 64 := by
  have hsigned : c.signedIdPk ≠ [] := by
    intro hnil
    rw [Caller.signPk, if_pos hnil] at hpk
    cases hpk
  have hlistener : path.listenerSecure c = true ↔ path ≠ .tcpDirect := by
    cases path <;> simp [Path.listenerSecure, hsigned]
  simp [Callee.secures, hlistener, and_assoc]

/-- In every run of the two sides, on whatever path the call comes in, they agree when both are
    through, precisely if the machine does the handshake whenever the caller waits for one: the
    call did not come in by the direct access port, and the key pair is there. -/
theorem handshake_agrees_iff (cr : Crates) (c : Caller) (t : Callee) (path : Path) :
    (∀ turns, Always (step cr c t path) Agreed {} turns) ↔
      ((c.signPk cr).isSome → path ≠ .tcpDirect ∧ t.pk.length = 32 ∧ t.sk.length = 64) := by
  constructor
  · intro hall hpk
    rw [← secures_iff hpk]
    obtain ⟨pk, hpk⟩ := Option.isSome_iff_exists.mp hpk
    by_contra hsec
    exact not_agreed_missed hpk (Bool.eq_false_iff.mpr hsec) (hall missedTurns).last
  · intro hcond turns
    cases hpk : c.signPk cr with
    | none =>
      have hsilent : Silent cr {} :=
        ⟨Or.inl rfl, rfl, rfl, fun _ h => (nomatch h), fun _ => rfl, List.suffix_rfl⟩
      exact (always_of_step (fun _ turn hs => silent_step hpk turn hs) hsilent turns).mono
        fun _ hs => hs.agreed
    | some pk =>
      have hsome : (c.signPk cr).isSome = true := by rw [hpk]; rfl
      have hsec : t.secures (path.listenerSecure c) = true :=
        (secures_iff hsome t path).mpr (hcond hsome)
      have hbefore : Phase cr t {} := .before rfl (fun _ h => (nomatch h)) rfl rfl rfl rfl rfl
      exact (always_of_step (fun _ turn hs => phase_step hpk hsec turn hs) hbefore turns).mono
        fun _ hs => hs.agreed

end Handshake

/-! ## A call to the direct access port -/

/-- The Ed25519 public key of a rendezvous server, whose secret key is the bytes 0 to 31. -/
def sampleRsPk : Bytes :=
  [3, 161, 7, 191, 243, 206, 16, 190, 29, 112, 221, 24, 231, 75, 192, 153, 103, 228, 214, 48,
    155, 165, 13, 95, 29, 220, 134, 100, 18, 85, 49, 184]

/-- The public key of a machine, whose secret key is the bytes 32 to 63. -/
def sampleHostPk : Bytes :=
  [41, 172, 186, 225, 65, 188, 202, 240, 178, 46, 26, 148, 211, 77, 11, 199, 54, 30, 82, 109,
    11, 254, 18, 200, 151, 148, 188, 147, 34, 150, 109, 215]

/-- `IdPk` of that machine: the id 445566778 and the public key. -/
def sampleIdPk : Bytes :=
  [10, 9, 52, 52, 53, 53, 54, 54, 55, 55, 56, 18, 32] ++ sampleHostPk

/-- The server's Ed25519 signature of it. -/
def sampleSig : Bytes :=
  [225, 177, 217, 131, 180, 120, 122, 108, 247, 65, 240, 196, 162, 149, 102, 212, 146, 137, 204,
    150, 155, 106, 170, 224, 157, 223, 179, 167, 132, 41, 105, 59, 40, 123, 145, 8, 4, 234, 114,
    105, 99, 102, 158, 147, 62, 116, 205, 171, 102, 193, 188, 32, 81, 203, 177, 252, 46, 33, 27,
    58, 220, 218, 169, 6]

/-- The one signature that is made below, and a mark of 64 bytes in place of any other. -/
def sampleTag (pk : Key32) (message : Bytes) : Bytes :=
  if pk.val = sampleRsPk ∧ message = sampleIdPk then sampleSig
  else pk.val ++ List.replicate 32 0

theorem length_sampleTag (pk : Key32) (message : Bytes) : (sampleTag pk message).length = 64 := by
  rw [sampleTag]
  split
  · rfl
  · rw [List.length_append, pk.property, List.length_replicate]

/-- As in `crypto_sign`, the secret key ends in the public one and the signature comes before
    the message. -/
def sampleSign : Signature where
  publicKey sk := ⟨(sk.drop 32 ++ List.replicate 32 0).take 32, by simp⟩
  sign message sk :=
    sampleTag ⟨(sk.drop 32 ++ List.replicate 32 0).take 32, by simp⟩ message ++ message
  verify signed pk :=
    if signed.take 64 = sampleTag pk (signed.drop 64) then some (signed.drop 64) else none
  verify_sign message sk := by
    rw [List.take_left' (length_sampleTag _ _), List.drop_left' (length_sampleTag _ _), if_pos rfl]
  read_sign message sk pk res hres := by
    rw [List.drop_left' (length_sampleTag _ _)] at hres
    split at hres
    · exact (Option.some.inj hres).symm
    · cases hres

/-- Boxes with a key that both sides can work out. -/
def sampleBox : PublicBox where
  publicKey sk := ⟨(sk ++ List.replicate 32 0).take 32, by simp⟩
  sealBox message nonce pk sk := SecretBox.xsalsa20Poly1305.sealBox message nonce
    (List.zipWith (· ^^^ ·) pk.val ((sk ++ List.replicate 32 0).take 32))
  openBox boxed nonce pk sk := SecretBox.xsalsa20Poly1305.openBox boxed nonce
    (List.zipWith (· ^^^ ·) pk.val ((sk ++ List.replicate 32 0).take 32))
  openBox_sealBox message nonce sk sk' := by
    dsimp only
    rw [List.zipWith_comm_of_comm UInt8.xor_comm, SecretBox.openBox_sealBox]

theorem fromUTF8_asBytes (s : String) : String.fromUTF8? ⟨(asBytes s).toArray⟩ = some s :=
  fromUTF8_utf8 s

/-- The protocol buffers of an id and a key. -/
def idPkFormat : Format (String × Bytes) where
  write p := putPair (asBytes p.1) p.2
  parse src := (getPair src).bind fun p => (String.fromUTF8? ⟨p.1.toArray⟩).map (·, p.2)
  parse_write p := by
    rw [getPair_putPair, Option.bind_some, fromUTF8_asBytes]
    rfl

def messageWrite : Option PeerUnion → Bytes
  | none => []
  | some (.signedId id) => putBytes 0x1A (putPair id [])
  | some (.publicKey asymmetric symmetric) => putBytes 0x22 (putPair asymmetric symmetric)
  | some (.hash h) => putBytes 0x4A (putPair (asBytes h.salt) (asBytes h.challenge))
  | some (.other encoded) => putBytes 0x42 encoded

def messageParse (src : Bytes) : Option (Option PeerUnion) :=
  match src.head? with
  | none => some none
  | some tag =>
    (getField tag src).bind fun p =>
      if tag = 0x1A then (getPair p.1).map fun q => some (.signedId q.1)
      else if tag = 0x22 then (getPair p.1).map fun q => some (.publicKey q.1 q.2)
      else if tag = 0x4A then
        (getPair p.1).bind fun q =>
          (String.fromUTF8? ⟨q.1.toArray⟩).bind fun salt =>
            (String.fromUTF8? ⟨q.2.toArray⟩).map fun challenge => some (.hash ⟨salt, challenge⟩)
      else some (some (.other p.1))

/-- The protocol buffers of the messages of a handshake; the other one is a `LoginResponse`. -/
def messageFormat : Format (Option PeerUnion) where
  write := messageWrite
  parse := messageParse
  parse_write m := by
    cases m with
    | none => rfl
    | some u =>
      cases u with
      | signedId id =>
        rw [messageWrite, messageParse, head_putBytes]
        simp [getField_putBytes_nil, getPair_putPair]
      | publicKey asymmetric symmetric =>
        rw [messageWrite, messageParse, head_putBytes]
        simp [getField_putBytes_nil, getPair_putPair]
      | hash h =>
        rw [messageWrite, messageParse, head_putBytes]
        simp [getField_putBytes_nil, getPair_putPair, fromUTF8_asBytes]
      | other encoded =>
        rw [messageWrite, messageParse, head_putBytes]
        simp [getField_putBytes_nil]

def Crates.sample : Crates where
  sign := sampleSign
  box := sampleBox
  secretbox := .xsalsa20Poly1305
  idPk := idPkFormat
  message := messageFormat
  decode64 s := if s = "A6EHv/POEL4dcN0Y50vAmWfk1jCbpQ1fHdyGZBJVMbg=" then some sampleRsPk else none

/-- A caller that was told the machine's key by the rendezvous server. -/
def Caller.sample : Caller where
  peerId := "445566778"
  signedIdPk := sampleSig ++ sampleIdPk
  key := "A6EHv/POEL4dcN0Y50vAmWfk1jCbpQ1fHdyGZBJVMbg="
  boxSk := List.replicate 32 1
  symmetricKey := ⟨List.replicate 32 7, rfl⟩

def Callee.sample : Callee where
  id := "445566778"
  sk := (List.range 32).map (fun i => UInt8.ofNat (i + 32)) ++ sampleHostPk
  pk := sampleHostPk
  boxSk := List.replicate 32 2
  opening := .ok ⟨"k3f8wz", "p9x2mt"⟩
  following := []

/-- The machine listens on its direct access port and has said so. -/
def Candidates.sample : Candidates where
  peerIsV4 := true
  peerDirectPort := 21118
  udpSocketNat := false
  udpSocketV6 := false
  relayServer := ""
  isForceRelay := false

/-- The machine has its key pair and the caller the right key, and still the caller takes the
    `Hash` for a handshake that failed. -/
theorem hash_consumed :
    Path.tcpDirect ∈ Candidates.sample.paths ∧
    Caller.sample.signPk .sample = some ⟨sampleHostPk, rfl⟩ ∧
    Callee.sample.pk.length = 32 ∧ Callee.sample.sk.length = 64 ∧
    ¬∀ turns,
      Always (Handshake.step .sample .sample .sample .tcpDirect) Handshake.Agreed {} turns := by
  have hpk : Caller.sample.signPk .sample = some ⟨sampleHostPk, rfl⟩ := by decide +kernel
  refine ⟨by decide, hpk, rfl, rfl, fun hall => ?_⟩
  exact Handshake.not_agreed_missed hpk rfl (hall Handshake.missedTurns).last

end LuodaRemote
