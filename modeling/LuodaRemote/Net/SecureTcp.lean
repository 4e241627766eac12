/-
  The key exchange with the rendezvous server, and the two places that send it a token:
  `secure_tcp` of `src/common.rs`, `request_relay` and `hc_connection_` of `src/client.rs`.

  Whoever is on the path decides what arrives on a connection (`Line`): in which order frames,
  read errors and the end come, and whether anything comes in time. `secure_tcp` reads one of
  them. A key exchange must be right, or it is an error. Anything else is no key exchange, and
  then it goes on without one, with a warning (`Fallback`).

  `tokens_sealed_or_fallback`: on a connection that is no WebSocket, a token is sealed with a key
  that was sealed for a box key with the server's signature, or the first thing that came was
  no key exchange, or there was no key to ask for one with.

  Not modelled: failures to send, and what `hc_connection_` does after the token is sent (it
  answers heartbeats).
-/
import LuodaRemote.Net.Handshake

namespace LuodaRemote
open Lib

/-! ## Connections to the rendezvous server -/

/-- What one read finds. -/
inductive Arrival where
  | late
  | closed
  | failed (e : String)
  | frame (bytes : Bytes)
  deriving DecidableEq

def Arrival.read (box : SecretBox) (encrypt : Option Encrypt) :
    Arrival → Option (Option (Except String Bytes)) × Option Encrypt
  | late => (none, encrypt)
  | closed => (some none, encrypt)
  | failed e => (some (some (.error e)), encrypt)
  | frame bytes =>
    (some (some (decryptWith box bytes encrypt).1), (decryptWith box bytes encrypt).2)

/-- A connection as the path makes it: what the reads find, one after the other. Nothing more
    arrives in time after the last. -/
structure Line where
  websocket : Bool
  arrivals : List Arrival

/-- `RequestRelay`, as far as `request_relay` sets it. -/
structure RequestRelay where
  id : String
  token : String
  uuid : String
  relayServer : String
  secure : Bool
  deriving DecidableEq

/-- `rendezvous_message::Union`. Of a `RelayResponse` the refusal counts. -/
inductive RendezvousUnion where
  | keyExchange (keys : List Bytes)
  | requestRelay (rr : RequestRelay)
  | relayResponse (refuseReason : String)
  | hc (token : String)
  | other (encoded : Bytes)
  deriving DecidableEq

/-- `write_to_bytes` and `parse_from_bytes` of `RendezvousMessage`. -/
structure RendezvousCodec where
  write : RendezvousUnion → Bytes
  parse : Bytes → Option (Option RendezvousUnion)

/-- A message that was sent, the key it was sealed with, if any, and its frame. -/
structure Sent where
  message : RendezvousUnion
  key : Option Bytes
  frame : Bytes

/-- The token in a message. -/
def Sent.token (m : Sent) : String :=
  match m.message with
  | .requestRelay rr => rr.token
  | .hc token => token
  | _ => ""

/-- A stream over a line. -/
structure RsStream where
  line : Line
  reads : Nat := 0
  encrypt : Option Encrypt := none
  sent : List Sent := []

namespace RsStream

/-- `timeout(.., conn.next())`: nothing in time, the end, an error or a frame. -/
def next (box : SecretBox) (s : RsStream) : Option (Option (Except String Bytes)) × RsStream :=
  let (read, encrypt) := ((s.line.arrivals[s.reads]?).getD .late).read box s.encrypt
  (read, { s with reads := s.reads + 1, encrypt := encrypt })

def send (box : SecretBox) (codec : RendezvousCodec) (m : RendezvousUnion) (s : RsStream) :
    RsStream :=
  { s with
    encrypt := (encryptWith box (codec.write m) s.encrypt).2
    sent := s.sent ++
      [⟨m, s.encrypt.map (·.key), (encryptWith box (codec.write m) s.encrypt).1⟩] }

def setKey (key : Bytes) (s : RsStream) : RsStream := { s with encrypt := some (.new key) }

end RsStream

/-! ## `secure_tcp` -/

/-- The keys that `create_symmetric_key_msg` draws. -/
structure KeyDraw where
  boxSk : Bytes
  symmetricKey : Key32

/-- The branch of `secure_tcp` for a `KeyExchange`. -/
def exchangeKeys (cr : Crates) (codec : RendezvousCodec) (rsPk : Key32) (draw : KeyDraw)
    (keys : List Bytes) (conn : RsStream) : Except String Unit × RsStream :=
  match keys with
  | [signed] =>
    match cr.sign.verify signed rsPk with
    | none => (.error "Signature mismatch in key exchange", conn)
    | some theirPk =>
      match Key32.ofBytes theirPk with
      | none => (.error "Wrong their public length in key exchange", conn)
      | some theirPk =>
        let (asymmetric, symmetric, key) :=
          cr.createSymmetricKeyMsg theirPk draw.boxSk draw.symmetricKey
        (.ok (),
          (conn.send cr.secretbox codec (.keyExchange [asymmetric, symmetric])).setKey key)
  | _ => (.error "Handshake failed: invalid key exchange message", conn)

/-- What `secure_tcp` makes of its read. -/
def afterFirstRead (cr : Crates) (codec : RendezvousCodec) (rsPk : Key32) (draw : KeyDraw)
    (conn : RsStream) : Option (Option (Except String Bytes)) → Except String Unit × RsStream
  | none => (.error "deadline has elapsed", conn)
  | some (some (.ok bytes)) =>
    match codec.parse bytes with
    | some (some (.keyExchange keys)) => exchangeKeys cr codec rsPk draw keys conn
    -- "first message from server is not KeyExchange; proceeding without transport
    -- encryption", and so for the rest
    | some _ => (.ok (), conn)
    | none => (.ok (), conn)
  | some (some (.error _)) => (.ok (), conn)
  | some none => (.ok (), conn)

def secureTcp (cr : Crates) (codec : RendezvousCodec) (key : String) (draw : KeyDraw)
    (conn : RsStream) : Except String Unit × RsStream :=
  if conn.line.websocket then (.ok (), conn)
  else
    match cr.getRsPk key with
    | none => (.error "Handshake failed: invalid public key from rendezvous server", conn)
    | some rsPk =>
      afterFirstRead cr codec rsPk draw (conn.next cr.secretbox).2 (conn.next cr.secretbox).1

/-! ## Its callers -/

/-- `get_next_nonkeyexchange_msg`, for the given number of reads. -/
def getNextNonkeyexchangeMsg (cr : Crates) (codec : RendezvousCodec) :
    Nat → RsStream → Option (Option RendezvousUnion) × RsStream
  | 0, conn => (none, conn)
  | n + 1, conn =>
    let (read, conn) := conn.next cr.secretbox
    match read with
    | some (some (.ok bytes)) =>
      match codec.parse bytes with
      | some (some (.keyExchange _)) => getNextNonkeyexchangeMsg cr codec n conn
      | some msg => (some msg, conn)
      | none => (none, conn)
    | _ => (none, conn)

/-- The arguments of `request_relay`. -/
structure RelayQuery where
  peer : String
  relayServer : String
  secure : Bool
  key : String
  token : String

/-- One connection of `request_relay`, and what is drawn for it. -/
structure RelayAttempt where
  line : Except String Line
  uuid : String
  draw : KeyDraw

/-- The request on a connection that is ready for it: whether the relay was granted. -/
def RelayQuery.ask (cr : Crates) (codec : RendezvousCodec) (q : RelayQuery) (uuid : String)
    (socket : RsStream) : Except String Bool × RsStream :=
  let socket := socket.send cr.secretbox codec
    (.requestRelay ⟨q.peer, q.token, uuid, q.relayServer, q.secure⟩)
  let (msg, socket) := getNextNonkeyexchangeMsg cr codec 2 socket
  match msg with
  | some (some (.relayResponse refuseReason)) =>
    if refuseReason ≠ "" then (.error refuseReason, socket) else (.ok true, socket)
  | _ => (.ok false, socket)

/-- One turn of its loop. -/
def RelayQuery.attempt (cr : Crates) (codec : RendezvousCodec) (q : RelayQuery) (a : RelayAttempt) :
    Except String Bool × Option RsStream :=
  match a.line with
  | .error _ => (.error "Failed to connect to rendezvous server", none)
  | .ok line =>
    let (secured, socket) :=
      -- mainly for the security of token
      if q.key ≠ "" ∧ q.token ≠ "" then secureTcp cr codec q.key a.draw { line := line }
      else (.ok (), { line := line })
    match secured with
    | .error e => (.error e, some socket)
    | .ok () => ((q.ask cr codec a.uuid socket).1, some (q.ask cr codec a.uuid socket).2)

/-- The loop of `request_relay`, and every connection it used. -/
def RelayQuery.attempts (cr : Crates) (codec : RendezvousCodec) (q : RelayQuery) :
    List RelayAttempt → Except String Unit × List RsStream
  | [] => (.error "Timeout", [])
  | a :: rest =>
    let (granted, socket) := q.attempt cr codec a
    match granted with
    | .error e => (.error e, socket.toList)
    | .ok true => (.ok (), socket.toList)
    | .ok false =>
      let (res, sockets) := attempts cr codec q rest
      (res, socket.toList ++ sockets)

/-- `request_relay` up to the connection to the relay: three attempts. -/
def requestRelay (cr : Crates) (codec : RendezvousCodec) (q : RelayQuery) (as : List RelayAttempt) :
    Except String Unit × List RsStream := q.attempts cr codec (as.take 3)

/-- `hc_connection_` up to its loop. -/
def hcConnection (cr : Crates) (codec : RendezvousCodec) (key token : String) (draw : KeyDraw)
    (line : Line) : Except String Unit × RsStream :=
  let (secured, conn) := secureTcp cr codec key draw { line := line }
  match secured with
  | .error e => (.error e, conn)
  | .ok () => (.ok (), conn.send cr.secretbox codec (.hc token))

/-! ## What may happen to a token -/

/-- What comes is no key exchange: the end, an error, or another message. -/
def Arrival.NoKeyExchange (codec : RendezvousCodec) : Arrival → Prop
  | late => False
  | closed => True
  | failed _ => True
  | frame bytes => ∀ keys, codec.parse bytes ≠ some (some (.keyExchange keys))

/-- The first thing that comes is no key exchange. -/
def Fallback (codec : RendezvousCodec) (line : Line) : Prop :=
  (line.arrivals.head?.getD .late).NoKeyExchange codec

/-- The key was sent, sealed for a box key that has the server's signature. -/
def SealedFor (cr : Crates) (rsPk : Key32) (key : Bytes) (conn : RsStream) : Prop :=
  ∃ signed theirPk ourSk, cr.sign.verify signed rsPk = some theirPk.val ∧
    ∃ m ∈ conn.sent, m.message = .keyExchange
      [(cr.box.publicKey ourSk).val, cr.box.sealBox key zeroNonce theirPk ourSk]

/-- Every token on the stream was sealed with such a key. -/
def TokensSealed (cr : Crates) (key : String) (conn : RsStream) : Prop :=
  ∀ m ∈ conn.sent, m.token ≠ "" →
    ∃ rsPk k, cr.getRsPk key = some rsPk ∧ m.key = some k ∧ SealedFor cr rsPk k conn

/-- The stream has a key, sealed for a box key with the server's signature. -/
def Secured (cr : Crates) (key : String) (conn : RsStream) : Prop :=
  ∃ rsPk k, cr.getRsPk key = some rsPk ∧ conn.encrypt.map (·.key) = some k ∧
    SealedFor cr rsPk k conn

/-- On a connection that is no WebSocket every token is sealed, unless no key exchange came. -/
def Guarded (cr : Crates) (codec : RendezvousCodec) (key : String) (conn : RsStream) : Prop :=
  conn.line.websocket = true ∨ Fallback codec conn.line ∨ TokensSealed cr key conn

/-! ## One connection -/

section Connection

variable {cr : Crates} {codec : RendezvousCodec} {draw : KeyDraw} {line : Line} {key : String}

/-- A stream of this line that has sent no token. -/
def Tokenless (line : Line) (conn : RsStream) : Prop :=
  conn.line = line ∧ ∀ m ∈ conn.sent, m.token = ""

theorem exchangeKeys_tokenless {rsPk : Key32} {keys : List Bytes} {conn : RsStream}
    (hc : Tokenless line conn) :
    Tokenless line (exchangeKeys cr codec rsPk draw keys conn).2 := by
  unfold exchangeKeys
  split
  · split
    · exact hc
    · split
      · exact hc
      · refine ⟨hc.1, fun m hm => ?_⟩
        rcases List.mem_append.mp hm with hold | hnew
        · exact hc.2 m hold
        · rw [List.mem_singleton.mp hnew]
          rfl
  · exact hc

/-- `secure_tcp` sends no token, whatever becomes of it. -/
theorem secureTcp_tokenless (cr : Crates) (codec : RendezvousCodec) (key : String) (draw : KeyDraw)
    (line : Line) : Tokenless line (secureTcp cr codec key draw { line := line }).2 := by
  have hnew : ∀ reads encrypt, Tokenless line { line := line, reads, encrypt } :=
    fun _ _ => ⟨rfl, fun _ hm => (nomatch hm)⟩
  unfold secureTcp
  split
  · exact hnew 0 none
  · split
    · exact hnew 0 none
    · unfold afterFirstRead
      split
      · exact hnew _ _
      · split
        · exact exchangeKeys_tokenless (hnew _ _)
        · exact hnew _ _
        · exact hnew _ _
      · exact hnew _ _
      · exact hnew _ _

/-- A key exchange that goes well sets the key that it sends. -/
theorem exchangeKeys_secured {rsPk : Key32} (hrs : cr.getRsPk key = some rsPk) {keys : List Bytes}
    {conn : RsStream} (hok : (exchangeKeys cr codec rsPk draw keys conn).1 = .ok ()) :
    Secured cr key (exchangeKeys cr codec rsPk draw keys conn).2 := by
  unfold exchangeKeys at hok ⊢
  split at hok
  · rename_i signed
    cases hverify : cr.sign.verify signed rsPk with
    | none =>
      rw [hverify] at hok
      cases hok
    | some theirBytes =>
      rw [hverify] at hok
      dsimp only at hok ⊢
      cases hpk : Key32.ofBytes theirBytes with
      | none =>
        rw [hpk] at hok
        cases hok
      | some theirPk =>
        refine ⟨rsPk, draw.symmetricKey.val, hrs, rfl, signed, theirPk, draw.boxSk, ?_, ?_⟩
        · rw [hverify, Key32.val_of_ofBytes hpk]
        · exact ⟨_, List.mem_append_right _ (List.mem_singleton.mpr rfl), rfl⟩
  · cases hok

/-- Whatever is no key exchange changes nothing. -/
theorem afterFirstRead_other {rsPk : Key32} {conn : RsStream} {bytes : Bytes}
    (hother : (Arrival.frame bytes).NoKeyExchange codec) :
    afterFirstRead cr codec rsPk draw conn (some (some (.ok bytes))) = (.ok (), conn) := by
  unfold afterFirstRead
  dsimp only
  split
  · rename_i keys hparse
    exact absurd hparse (hother keys)
  · rfl
  · rfl

theorem afterFirstRead_ok {rsPk : Key32} (hrs : cr.getRsPk key = some rsPk) {conn : RsStream}
    (hplain : conn.encrypt = none) (arrival : Arrival)
    (hok : (afterFirstRead cr codec rsPk draw conn (arrival.read cr.secretbox none).1).1 =
      .ok ()) :
    let after := (afterFirstRead cr codec rsPk draw conn (arrival.read cr.secretbox none).1).2
    Secured cr key after ∨ arrival.NoKeyExchange codec ∧ after.encrypt = none := by
  cases arrival with
  | late => cases hok
  | closed => exact Or.inr ⟨trivial, hplain⟩
  | failed e => exact Or.inr ⟨trivial, hplain⟩
  | frame bytes =>
    dsimp only [Arrival.read, decryptWith] at hok ⊢
    by_cases hkeys : ∃ keys, codec.parse bytes = some (some (.keyExchange keys))
    · obtain ⟨keys, hparse⟩ := hkeys
      rw [afterFirstRead, hparse] at hok ⊢
      exact Or.inl (exchangeKeys_secured hrs hok)
    · have hother : (Arrival.frame bytes).NoKeyExchange codec := not_exists.mp hkeys
      rw [afterFirstRead_other hother]
      exact Or.inr ⟨hother, hplain⟩

/-- `secure_tcp` on a new connection that is no WebSocket, with a valid key of the server. -/
theorem secureTcp_first (hws : line.websocket = false) {rsPk : Key32}
    (hrs : cr.getRsPk key = some rsPk) :
    secureTcp cr codec key draw { line := line } =
      afterFirstRead cr codec rsPk draw { line := line, reads := 1 }
        ((line.arrivals.head?.getD .late).read cr.secretbox none).1 := by
  have hplain : ∀ arrival : Arrival, (arrival.read cr.secretbox none).2 = none := by
    intro arrival
    cases arrival <;> rfl
  rw [secureTcp, hws, hrs, RsStream.next, List.head?_eq_getElem?]
  dsimp only
  rw [hplain]
  rfl

/-- When it returns, there is a key, or no key exchange came. -/
theorem secureTcp_ok (hws : line.websocket = false)
    (hok : (secureTcp cr codec key draw { line := line }).1 = .ok ()) :
    Secured cr key (secureTcp cr codec key draw { line := line }).2 ∨
      Fallback codec line ∧ (secureTcp cr codec key draw { line := line }).2.encrypt = none := by
  cases hrs : cr.getRsPk key with
  | none =>
    rw [secureTcp, hws, hrs] at hok
    cases hok
  | some rsPk =>
    rw [secureTcp_first hws hrs] at hok ⊢
    exact afterFirstRead_ok hrs rfl _ hok

/-- It goes on without a key precisely if no key exchange came, the server's key being valid. -/
theorem secureTcp_plain_iff (hws : line.websocket = false) :
    (secureTcp cr codec key draw { line := line }).1 = .ok () ∧
        (secureTcp cr codec key draw { line := line }).2.encrypt = none ↔
      (cr.getRsPk key).isSome ∧ Fallback codec line := by
  constructor
  · rintro ⟨hok, hnone⟩
    refine ⟨?_, ?_⟩
    · cases hrs : cr.getRsPk key with
      | none =>
        rw [secureTcp, hws, hrs] at hok
        cases hok
      | some rsPk => rfl
    · rcases secureTcp_ok hws hok with ⟨rsPk, k, -, hkey, -⟩ | ⟨hfallback, -⟩
      · rw [hnone] at hkey
        cases hkey
      · exact hfallback
  · rintro ⟨hsome, hfallback⟩
    obtain ⟨rsPk, hrs⟩ := Option.isSome_iff_exists.mp hsome
    rw [secureTcp_first hws hrs]
    unfold Fallback at hfallback
    cases hfirst : line.arrivals.head?.getD .late with
    | late =>
      rw [hfirst] at hfallback
      exact hfallback.elim
    | closed => exact ⟨rfl, rfl⟩
    | failed e => exact ⟨rfl, rfl⟩
    | frame bytes =>
      rw [hfirst] at hfallback
      dsimp only [Arrival.read, decryptWith]
      rw [afterFirstRead_other hfallback]
      exact ⟨rfl, rfl⟩

/-- What a stream sends after `secure_tcp` returned is guarded. -/
theorem guarded_send (hok : (secureTcp cr codec key draw { line := line }).1 = .ok ())
    (m : RendezvousUnion) :
    Guarded cr codec key
      ((secureTcp cr codec key draw { line := line }).2.send cr.secretbox codec m) := by
  obtain ⟨hline, htokens⟩ := secureTcp_tokenless cr codec key draw line
  cases hws : line.websocket with
  | true => exact Or.inl ((congrArg Line.websocket hline).trans hws)
  | false =>
    rcases secureTcp_ok hws hok with hsecured | ⟨hfallback, -⟩
    · obtain ⟨rsPk, k, hrs, hkey, signed, theirPk, ourSk, hverify, offer, hoffer, hmessage⟩ :=
        hsecured
      refine Or.inr (Or.inr fun sent hsent htoken => ?_)
      rcases List.mem_append.mp hsent with hold | hnew
      · exact absurd (htokens sent hold) htoken
      · rw [List.mem_singleton] at hnew
        subst hnew
        exact ⟨rsPk, k, hrs, hkey, signed, theirPk, ourSk, hverify, offer,
          List.mem_append_left _ hoffer, hmessage⟩
    · refine Or.inr (Or.inl ?_)
      show Fallback codec (secureTcp cr codec key draw { line := line }).2.line
      rw [hline]
      exact hfallback

/-! ## The callers -/

/-- Reading leaves what was sent. -/
theorem getNextNonkeyexchangeMsg_sent (cr : Crates) (codec : RendezvousCodec) (n : Nat)
    (conn : RsStream) :
    (getNextNonkeyexchangeMsg cr codec n conn).2.sent = conn.sent ∧
      (getNextNonkeyexchangeMsg cr codec n conn).2.line = conn.line := by
  induction n generalizing conn with
  | zero => exact ⟨rfl, rfl⟩
  | succ n ih =>
    unfold getNextNonkeyexchangeMsg
    dsimp only
    split
    · split
      · exact ih (conn.next cr.secretbox).2
      · exact ⟨rfl, rfl⟩
      · exact ⟨rfl, rfl⟩
    · exact ⟨rfl, rfl⟩

theorem guarded_getNext {n : Nat} {conn : RsStream} (hc : Guarded cr codec key conn) :
    Guarded cr codec key (getNextNonkeyexchangeMsg cr codec n conn).2 := by
  obtain ⟨hsent, hline⟩ := getNextNonkeyexchangeMsg_sent cr codec n conn
  unfold Guarded TokensSealed SealedFor
  rw [hsent, hline]
  exact hc

/-- A stream without a token is guarded. -/
theorem Tokenless.guarded {conn : RsStream} (hc : Tokenless line conn) :
    Guarded cr codec key conn :=
  Or.inr (Or.inr fun m hm htoken => absurd (hc.2 m hm) htoken)

theorem guarded_ask (q : RelayQuery) (uuid : String) {conn : RsStream}
    (hc : Guarded cr codec q.key (conn.send cr.secretbox codec
      (.requestRelay ⟨q.peer, q.token, uuid, q.relayServer, q.secure⟩))) :
    Guarded cr codec q.key (q.ask cr codec uuid conn).2 := by
  unfold RelayQuery.ask
  dsimp only
  split
  · split <;> exact guarded_getNext hc
  · exact guarded_getNext hc

/-- One attempt, whatever comes of it. -/
theorem guarded_attempt {q : RelayQuery} (hkey : q.key ≠ "") (a : RelayAttempt) :
    ∀ conn ∈ (q.attempt cr codec a).2, Guarded cr codec q.key conn := by
  intro conn hconn
  unfold RelayQuery.attempt at hconn
  cases hline : a.line with
  | error e =>
    rw [hline] at hconn
    cases hconn
  | ok line =>
    rw [hline] at hconn
    dsimp only at hconn
    by_cases hask : q.key ≠ "" ∧ q.token ≠ ""
    · rw [if_pos hask] at hconn
      cases hsecured : (secureTcp cr codec q.key a.draw { line := line }).1 with
      | error e =>
        rw [hsecured] at hconn
        cases hconn
        exact (secureTcp_tokenless cr codec q.key a.draw line).guarded
      | ok u =>
        rw [hsecured] at hconn
        cases hconn
        exact guarded_ask q a.uuid (guarded_send hsecured _)
    · rw [if_neg hask] at hconn
      cases hconn
      -- there is no token to be sent
      have htoken : q.token = "" := by
        by_contra htoken
        exact hask ⟨hkey, htoken⟩
      have hnone : Tokenless line (RsStream.send cr.secretbox codec
          (.requestRelay ⟨q.peer, q.token, a.uuid, q.relayServer, q.secure⟩)
          { line := line }) := by
        refine ⟨rfl, fun m hm => ?_⟩
        rw [RsStream.send, List.nil_append, List.mem_singleton] at hm
        rw [hm]
        exact htoken
      exact guarded_ask q a.uuid hnone.guarded

theorem guarded_attempts {q : RelayQuery} (hkey : q.key ≠ "") (as : List RelayAttempt) :
    ∀ conn ∈ (q.attempts cr codec as).2, Guarded cr codec q.key conn := by
  induction as with
  | nil => intro conn hconn; cases hconn
  | cons a as ih =>
    have hone : ∀ conn ∈ (q.attempt cr codec a).2.toList, Guarded cr codec q.key conn :=
      fun conn hconn => guarded_attempt hkey a conn (Option.mem_toList.mp hconn)
    intro conn hconn
    unfold RelayQuery.attempts at hconn
    dsimp only at hconn
    split at hconn
    · exact hone conn hconn
    · exact hone conn hconn
    · rcases List.mem_append.mp hconn with hfirst | hlater
      · exact hone conn hfirst
      · exact ih conn hlater

theorem guarded_hcConnection (token : String) :
    Guarded cr codec key (hcConnection cr codec key token draw line).2 := by
  unfold hcConnection
  dsimp only
  cases hsecured : (secureTcp cr codec key draw { line := line }).1 with
  | error e => exact (secureTcp_tokenless cr codec key draw line).guarded
  | ok u => exact guarded_send hsecured _

end Connection

/-- Whatever comes on the connections: when `secure_tcp` returns on one that is no WebSocket, it
    has a key that was sealed for a box key with the server's signature, or it has none, and this
    precisely if the first thing that came was no key exchange. So on every connection of
    `request_relay` and of `hc_connection_` the tokens are sealed with such a key, but for these
    and, in `request_relay`, for an empty `key`. -/
theorem tokens_sealed_or_fallback (cr : Crates) (codec : RendezvousCodec) :
    (∀ key draw line, line.websocket = false →
      ((secureTcp cr codec key draw { line := line }).1 = .ok () →
        Secured cr key (secureTcp cr codec key draw { line := line }).2 ∨
          (secureTcp cr codec key draw { line := line }).2.encrypt = none) ∧
      ((secureTcp cr codec key draw { line := line }).1 = .ok () ∧
          (secureTcp cr codec key draw { line := line }).2.encrypt = none ↔
        (cr.getRsPk key).isSome ∧ Fallback codec line)) ∧
    (∀ q as, q.key ≠ "" →
      ∀ conn ∈ (requestRelay cr codec q as).2, Guarded cr codec q.key conn) ∧
    (∀ key token draw line,
      Guarded cr codec key (hcConnection cr codec key token draw line).2) := by
  refine ⟨fun key draw line hws => ⟨fun hok => ?_, secureTcp_plain_iff hws⟩,
    fun q as hkey => guarded_attempts hkey (as.take 3),
    fun key token draw line => guarded_hcConnection token⟩
  rcases secureTcp_ok hws hok with hsecured | ⟨-, hnone⟩
  · exact Or.inl hsecured
  · exact Or.inr hnone

/-! ## A relay is asked for -/

/-- A message of the union with this tag. -/
def putMessage (tag : Bytes) (message : Bytes) : Bytes :=
  tag ++ putVarint message.length ++ message

/-- The protocol buffers of what is sent to the server; of what comes only the message without
    a union is read. -/
def RendezvousCodec.sample : RendezvousCodec where
  write
    | .keyExchange keys => putMessage [0xCA, 0x01] (keys.flatMap (putBytes 0x0A))
    | .requestRelay rr => putMessage [0x92, 0x01]
        (putField 0x0A (asBytes rr.id) ++ putField 0x12 (asBytes rr.uuid) ++
          putField 0x22 (asBytes rr.relayServer) ++ (if rr.secure then [0x28, 1] else []) ++
          putField 0x42 (asBytes rr.token))
    | .relayResponse refuseReason =>
      putMessage [0x9A, 0x01] (putField 0x32 (asBytes refuseReason))
    | .hc token => putMessage [0xD2, 0x01] (putField 0x0A (asBytes token))
    | .other encoded => encoded
  parse bytes := if bytes = [] then some none else none

def KeyDraw.sample : KeyDraw :=
  ⟨List.replicate 32 (UInt8.ofNat 1), ⟨List.replicate 32 (UInt8.ofNat 7), rfl⟩⟩

/-- Somebody on the path sends an empty frame, and then nothing. -/
def emptyFrameFirst : Line := ⟨false, [.frame []]⟩

/-- A relay to the machine of the examples, by a server with a key. -/
def RelayQuery.sample : RelayQuery where
  peer := "445566778"
  relayServer := "relay.example"
  secure := true
  key := "A6EHv/POEL4dcN0Y50vAmWfk1jCbpQ1fHdyGZBJVMbg="
  token := "5cf1a0"

/-- `secure_tcp` returns without a key, and the token goes out in the open. -/
theorem token_in_the_open :
    emptyFrameFirst.websocket = false ∧
    (secureTcp .sample .sample RelayQuery.sample.key .sample { line := emptyFrameFirst }).1 =
      .ok () ∧
    ¬Secured .sample RelayQuery.sample.key
      (secureTcp .sample .sample RelayQuery.sample.key .sample { line := emptyFrameFirst }).2 ∧
    ∃ conn ∈ (requestRelay .sample .sample .sample
        [⟨.ok emptyFrameFirst, "b7c1", .sample⟩]).2,
      ∃ m ∈ conn.sent, m.token = "5cf1a0" ∧ m.key = none := by
  refine ⟨rfl, by decide +kernel, ?_, ?_⟩
  · rintro ⟨rsPk, k, -, hkey, -⟩
    have hnone : (secureTcp .sample .sample RelayQuery.sample.key .sample
        { line := emptyFrameFirst }).2.encrypt = none := by decide +kernel
    rw [hnone] at hkey
    cases hkey
  · have hany : ((requestRelay .sample .sample .sample
        [⟨.ok emptyFrameFirst, "b7c1", .sample⟩]).2.any fun conn =>
          conn.sent.any fun m => decide (m.token = "5cf1a0" ∧ m.key = none)) = true := by
      decide +kernel
    simpa only [List.any_eq_true, decide_eq_true_eq] using hany

end LuodaRemote
