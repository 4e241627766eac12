/-
  What a stream with a key gives to its caller.

  `authentic_iff`: over every sequence of frames, everything longer than one byte that `next`
  returns is the opened content of a frame, under the key and the next number, precisely if no
  text message longer than one byte arrives on a WebSocket. `WsFramedStream::next` decrypts
  binary messages and hands out text messages as they are.

  `next_sends`: on TCP the two numbers stay equal, since a sealed message is never as short
  as the frames that `dec` passes over, and so everything that is sent arrives, however the
  stream is cut into reads.
-/
import LuodaRemote.Net.Stream

namespace LuodaRemote
open Lib

/-! ## Frames and what is made of them -/

namespace WsFramedStream

/-- The content of the next message that `next` does not pass over. -/
def frame (s : WsFramedStream) : Option Bytes :=
  match s.incoming.find? (fun msg => !(msg matches .ok .control)) with
  | some (.ok (.binary data)) => some data
  | some (.ok (.text text)) => some (asBytes text)
  | _ => none

end WsFramedStream

namespace Stream

/-- The content of the frame the next call of `next` takes. -/
def frame : Stream → Option Bytes
  | webSocket s => s.frame
  | tcp s =>
    match s.nextFrame.1 with
    | some (.ok bytes) => some bytes
    | _ => none

/-- `n` calls of `next`. -/
def after (box : SecretBox) (n : Nat) (s : Stream) : Stream := (fun s => (s.next box).2)^[n] s

/-- The next call returns at most one byte, or what the frame it takes opens to under the key
    and the next number, which is counted. -/
def Authentic (box : SecretBox) (key : Bytes) (s : Stream) : Prop :=
  ∀ bytes, (s.next box).1 = some (.ok bytes) → 1 < bytes.length →
    ∃ e c, s.encrypt = some e ∧ e.key = key ∧ s.frame = some c ∧
      box.openBox c (getNonce (e.received + 1)) key = some bytes ∧
      (s.next box).2.encrypt = some { e with received := e.received + 1 }

/-- No text message longer than one byte is on its way. -/
def NoText : Stream → Prop
  | webSocket s => ∀ text, .ok (.text text) ∈ s.incoming → (asBytes text).length ≤ 1
  | tcp _ => True

/-- The stream has the key. -/
def Keyed (key : Bytes) (s : Stream) : Prop := ∃ e, s.encrypt = some e ∧ e.key = key

end Stream

section Authenticity

variable (box : SecretBox) {key : Bytes}

theorem decryptWith_keyed {bytes : Bytes} {encrypt : Option Encrypt}
    (hk : ∃ e, encrypt = some e ∧ e.key = key) :
    ∃ e, (decryptWith box bytes encrypt).2 = some e ∧ e.key = key := by
  obtain ⟨e, rfl, rfl⟩ := hk
  refine ⟨_, rfl, ?_⟩
  unfold Encrypt.dec
  split
  · rfl
  · dsimp only
    split <;> rfl

/-- What is longer than one byte has been opened. -/
theorem decryptWith_long {bytes res : Bytes} {e : Encrypt}
    (hd : (decryptWith box bytes (some e)).1 = .ok res) (hlen : 1 < res.length) :
    box.openBox bytes (getNonce (e.received + 1)) e.key = some res ∧
      (decryptWith box bytes (some e)).2 = some { e with received := e.received + 1 } := by
  unfold decryptWith Encrypt.dec at hd ⊢
  dsimp only at hd ⊢
  split at hd
  · cases hd
    omega
  · rename_i hlong
    rw [if_neg hlong]
    split at hd
    · rename_i res' hopen
      cases hd
      exact ⟨hopen, rfl⟩
    · cases hd

/-! ### WebSocket -/

theorem nextLoop_keyed {encrypt : Option Encrypt} (hk : ∃ e, encrypt = some e ∧ e.key = key)
    (msgs : List (Except String WsMessage)) :
    ∃ e, (WsFramedStream.nextLoop box encrypt msgs).2.encrypt = some e ∧ e.key = key := by
  induction msgs with
  | nil => exact hk
  | cons msg rest ih =>
    match msg with
    | .error e => exact hk
    | .ok (.binary data) => exact decryptWith_keyed box hk
    | .ok (.text text) => exact hk
    | .ok .close => exact hk
    | .ok .control => exact ih

theorem nextLoop_suffix (encrypt : Option Encrypt) (msgs : List (Except String WsMessage)) :
    (WsFramedStream.nextLoop box encrypt msgs).2.incoming <:+ msgs := by
  induction msgs with
  | nil => exact List.suffix_rfl
  | cons msg rest ih =>
    match msg with
    | .error e => exact List.suffix_cons _ rest
    | .ok (.binary data) => exact List.suffix_cons _ rest
    | .ok (.text text) => exact List.suffix_cons _ rest
    | .ok .close => exact List.suffix_cons _ rest
    | .ok .control => exact ih.trans (List.suffix_cons _ rest)

/-- Without text messages, what comes out of the loop is at most one byte or opened. -/
theorem nextLoop_authentic {e : Encrypt} {msgs : List (Except String WsMessage)}
    (htext : ∀ text, .ok (.text text) ∈ msgs → (asBytes text).length ≤ 1) {bytes : Bytes}
    (hn : (WsFramedStream.nextLoop box (some e) msgs).1 = some (.ok bytes))
    (hlen : 1 < bytes.length) :
    ∃ c, WsFramedStream.frame ⟨msgs, some e⟩ = some c ∧
      box.openBox c (getNonce (e.received + 1)) e.key = some bytes ∧
      (WsFramedStream.nextLoop box (some e) msgs).2.encrypt =
        some { e with received := e.received + 1 } := by
  induction msgs with
  | nil => cases hn
  | cons msg rest ih =>
    match msg with
    | .error err => cases hn
    | .ok (.binary data) =>
      obtain ⟨hopen, hcount⟩ := decryptWith_long box (Option.some.inj hn) hlen
      exact ⟨data, rfl, hopen, hcount⟩
    | .ok (.text text) =>
      have hshort := htext text List.mem_cons_self
      have heq : asBytes text = bytes := by simpa [WsFramedStream.nextLoop] using hn
      rw [heq] at hshort
      omega
    | .ok .close => cases hn
    | .ok .control => exact ih (fun text hmem => htext text (List.mem_cons_of_mem _ hmem)) hn

/-- A text message on its way is returned as it is by this call, or still on its way after
    it. -/
theorem nextLoop_text (encrypt : Option Encrypt) {msgs : List (Except String WsMessage)}
    {text : String} (hmem : .ok (.text text) ∈ msgs) :
    ((WsFramedStream.nextLoop box encrypt msgs).1 = some (.ok (asBytes text)) ∧
      (WsFramedStream.nextLoop box encrypt msgs).2.encrypt = encrypt) ∨
    (.ok (.text text) ∈ (WsFramedStream.nextLoop box encrypt msgs).2.incoming ∧
      (WsFramedStream.nextLoop box encrypt msgs).2.incoming.length < msgs.length) := by
  induction msgs with
  | nil => cases hmem
  | cons msg rest ih =>
    rcases List.mem_cons.mp hmem with rfl | hrest
    · exact .inl ⟨rfl, rfl⟩
    · match msg with
      | .error e => exact .inr ⟨hrest, Nat.lt_succ_self _⟩
      | .ok (.binary data) => exact .inr ⟨hrest, Nat.lt_succ_self _⟩
      | .ok (.text t) => exact .inr ⟨hrest, Nat.lt_succ_self _⟩
      | .ok .close => exact .inr ⟨hrest, Nat.lt_succ_self _⟩
      | .ok .control =>
        rcases ih hrest with hnow | ⟨hlater, hlt⟩
        · exact .inl hnow
        · exact .inr ⟨hlater, Nat.lt_succ_of_lt hlt⟩

/-! ### TCP -/

theorem nextFrame_encrypt (s : FramedStream) : s.nextFrame.2.encrypt = s.encrypt := by
  unfold FramedStream.nextFrame
  split <;> rfl

theorem tcp_next_keyed {s : FramedStream} (hk : Stream.Keyed key (.tcp s)) :
    Stream.Keyed key (.tcp (s.next box).2) := by
  have hsame := nextFrame_encrypt s
  unfold FramedStream.next
  split
  · rename_i bytes s' hframe
    rw [hframe] at hsame
    refine decryptWith_keyed box ?_
    rw [hsame]
    exact hk
  · rename_i res s' _ hframe
    rw [hframe] at hsame
    obtain ⟨e, he, hkey⟩ := hk
    exact ⟨e, hsame.trans he, hkey⟩

theorem tcp_authentic {s : FramedStream} (hk : Stream.Keyed key (.tcp s)) :
    Stream.Authentic box key (.tcp s) := by
  obtain ⟨e, he, rfl⟩ := hk
  have he : s.encrypt = some e := he
  have hsame := nextFrame_encrypt s
  intro bytes hn hlen
  have hn : (s.next box).1 = some (.ok bytes) := hn
  unfold Stream.frame Stream.next
  dsimp only
  unfold FramedStream.next at hn ⊢
  split at hn
  · rename_i c s' hframe
    rw [hframe] at hsame
    rw [hsame, he] at hn
    obtain ⟨hopen, hcount⟩ := decryptWith_long box (Option.some.inj hn) hlen
    refine ⟨e, c, he, rfl, by rw [hframe], hopen, ?_⟩
    show (decryptWith box c s'.encrypt).2 = _
    rw [hsame, he, hcount]
  · rename_i res s' hno hframe
    exact absurd hn (hno bytes)

/-! ### Both -/

theorem next_keyed {s : Stream} (hk : s.Keyed key) : (s.next box).2.Keyed key := by
  cases s with
  | webSocket s => exact nextLoop_keyed box hk s.incoming
  | tcp s => exact tcp_next_keyed box hk

theorem next_noText {s : Stream} (hs : s.NoText) : (s.next box).2.NoText := by
  cases s with
  | webSocket s =>
    exact fun text hmem => hs text ((nextLoop_suffix box s.encrypt s.incoming).mem hmem)
  | tcp s => trivial

theorem authentic_of_noText {s : Stream} (hk : s.Keyed key) (hs : s.NoText) :
    s.Authentic box key := by
  cases s with
  | webSocket s =>
    obtain ⟨e, he, rfl⟩ := hk
    obtain ⟨incoming, encrypt⟩ := s
    have he : encrypt = some e := he
    subst he
    intro bytes hn hlen
    obtain ⟨c, hc, hopen, hcount⟩ := nextLoop_authentic box hs hn hlen
    exact ⟨e, c, rfl, rfl, hc, hopen, hcount⟩
  | tcp s => exact tcp_authentic box hk

/-- A long text message is returned undecrypted by some call. -/
theorem not_authentic_of_text (n : Nat) {s : WsFramedStream} (hn : s.incoming.length ≤ n)
    (hk : Stream.Keyed key (.webSocket s)) {text : String} (hmem : .ok (.text text) ∈ s.incoming)
    (hlen : 1 < (asBytes text).length) :
    ∃ i, ¬ (Stream.after box i (.webSocket s)).Authentic box key := by
  induction n generalizing s with
  | zero =>
    have hnil : s.incoming = [] := List.eq_nil_of_length_eq_zero (Nat.le_zero.mp hn)
    rw [hnil] at hmem
    cases hmem
  | succ n ih =>
    rcases nextLoop_text box s.encrypt hmem with ⟨hnow, hsame⟩ | ⟨hlater, hlt⟩
    · refine ⟨0, fun hauth => ?_⟩
      obtain ⟨e, c, he, _, _, _, hcount⟩ := hauth _ hnow hlen
      have hstep : s.encrypt = some { e with received := e.received + 1 } :=
        hsame.symm.trans hcount
      have he : s.encrypt = some e := he
      rw [he] at hstep
      have hnum : e.received = e.received + 1 :=
        congrArg Encrypt.received (Option.some.inj hstep)
      exact absurd hnum (by simp)
    · obtain ⟨i, hi⟩ := ih (s := (s.next box).2) (Nat.le_of_lt_succ (hlt.trans_le hn))
        (next_keyed box (s := .webSocket s) hk) hlater
      exact ⟨i + 1, hi⟩

/-- On a stream with a key, whatever arrives: everything longer than one byte that any call of
    `next` returns is the content of a frame, opened under the key and the next number,
    precisely if no text message longer than one byte arrives. -/
theorem authentic_iff (box : SecretBox) (key : Bytes) (s : Stream) :
    (∀ n, ((s.setKey key).after box n).Authentic box key) ↔ s.NoText := by
  have hkeyed : (s.setKey key).Keyed key := by
    cases s with
    | webSocket s => exact ⟨.new key, rfl, rfl⟩
    | tcp s => exact ⟨.new key, rfl, rfl⟩
  constructor
  · intro hauth
    cases s with
    | tcp s => trivial
    | webSocket s =>
      intro text hmem
      by_contra hlen
      obtain ⟨i, hi⟩ := not_authentic_of_text box _ le_rfl hkeyed hmem (by omega)
      exact hi (hauth i)
  · intro hs n
    have hno : (s.setKey key).NoText := by
      cases s with
      | webSocket s => exact hs
      | tcp s => trivial
    have hinv : ((s.setKey key).after box n).Keyed key ∧ ((s.setKey key).after box n).NoText := by
      induction n with
      | zero => exact ⟨hkeyed, hno⟩
      | succ n ih =>
        unfold Stream.after at ih ⊢
        rw [Function.iterate_succ_apply']
        exact ⟨next_keyed box ih.1, next_noText box ih.2⟩
    exact authentic_of_noText box hinv.1 hinv.2

/-- The text message `hi` reaches the caller of a stream that has a key. -/
theorem text_not_authentic :
    let s := (Stream.webSocket { incoming := [.ok (.text "hi")] }).setKey (List.replicate 32 0)
    (s.next .xsalsa20Poly1305).1 = some (.ok [104, 105]) ∧
      ¬ ∀ n, (s.after .xsalsa20Poly1305 n).Authentic .xsalsa20Poly1305 (List.replicate 32 0) := by
  refine ⟨by decide +kernel, fun hauth => ?_⟩
  obtain ⟨i, hi⟩ := not_authentic_of_text .xsalsa20Poly1305
    (s := { incoming := [.ok (.text "hi")], encrypt := some (.new (List.replicate 32 0)) })
    1 le_rfl ⟨_, rfl, rfl⟩ List.mem_cons_self (by decide +kernel)
  exact hi (hauth i)

end Authenticity

/-! ## Everything that is sent arrives -/

/-- The two ways to send on a stream. -/
inductive Send where
  | raw (msg : Bytes)
  | bytes (frame : Bytes)

/-- What the other side should get of it. -/
def Send.payload : Send → Bytes
  | raw msg => msg
  | bytes frame => frame

namespace FramedStream

def send (box : SecretBox) (m : Send) (s : FramedStream) : Except String Bytes × FramedStream :=
  match m with
  | .raw msg => s.sendRaw box msg
  | .bytes frame => (s.sendBytes frame, s)

/-- What several messages put on the wire, if all of them can be sent. -/
def sendAll (box : SecretBox) : List Send → FramedStream → Except String Bytes
  | [], _ => .ok []
  | m :: ms, s =>
    match s.send box m with
    | (.error e, _) => .error e
    | (.ok wire, s) => (sendAll box ms s).map (wire ++ ·)

/-- `n` calls of `next`. -/
def receive (box : SecretBox) : Nat → FramedStream →
    List (Option (Except String Bytes)) × FramedStream
  | 0, s => ([], s)
  | n + 1, s => ((s.next box).1 :: (receive box n (s.next box).2).1,
      (receive box n (s.next box).2).2)

variable (box : SecretBox) {s : FramedStream}

/-- The frame of some content. -/
def IsFrame (data frame : Bytes) : Prop :=
  ∃ head, frame = head ++ data ∧ BytesCodec.IsHeader data.length head

/-- A stream at the start of `rest`, with the number of messages received. -/
structure At (key : Bytes) (received : UInt64) (rest : Bytes) (s : FramedStream) : Prop where
  codec : s.codec = .new
  rest : s.buffer ++ s.reads.flatten = rest
  encrypt : ∃ e, s.encrypt = some e ∧ e.key = key ∧ e.received = received

theorem sendBytes_eq (data : Bytes) (hraw : s.codec.raw = false)
    (hlen : data.length ≤ 64 * 1024 * 1024) :
    ∃ frame, s.sendBytes data = .ok frame ∧ IsFrame data frame := by
  obtain ⟨head, hh, henc⟩ := BytesCodec.encode_eq s.codec data hraw (by omega)
  exact ⟨head ++ data, henc [], head, rfl, hh⟩

/-- A frame in front of the stream is the next one. -/
theorem nextFrame_eq {key data frame rest : Bytes} {n : UInt64} (hs : s.At key n (frame ++ rest))
    (hf : IsFrame data frame) (hlen : data.length ≤ 64 * 1024 * 1024) :
    ∃ s', s.nextFrame = (some (.ok data), s') ∧ s'.At key n rest := by
  have hcodec := hs.codec
  have hdec : BytesCodec.decoder.decode s.codec (s.buffer ++ s.reads.flatten) =
      (.ok (some data), s.codec, rest) := by
    rw [hs.rest, hcodec]
    have hmax : data.length ≤ BytesCodec.new.maxPacketLength := hlen
    exact BytesCodec.decode_encode rfl rfl hmax hf rest
  obtain ⟨buffer, reads, hpull, hrest⟩ :=
    Decoder.pull_item BytesCodec.resumable (by rw [hcodec]; rfl) s.reads hdec
  refine ⟨{ s with buffer, reads }, ?_, hcodec, hrest, hs.encrypt⟩
  unfold nextFrame
  rw [hpull]

/-- A sealed message is opened under its own number. -/
theorem next_sealed {key msg frame rest : Bytes} {n : UInt64} (hs : s.At key n (frame ++ rest))
    (hf : IsFrame (box.sealBox msg (getNonce (n + 1)) key) frame)
    (hlen : msg.length + 16 ≤ 64 * 1024 * 1024) :
    (s.next box).1 = some (.ok msg) ∧ (s.next box).2.At key (n + 1) rest := by
  have hbox := box.length_sealBox msg (getNonce (n + 1)) key
  obtain ⟨s', hframe, hs'⟩ := nextFrame_eq hs hf (by omega)
  obtain ⟨e, he, rfl, rfl⟩ := hs'.encrypt
  have hdec : decryptWith box (box.sealBox msg (getNonce (e.received + 1)) e.key) (some e) =
      (.ok msg, some { e with received := e.received + 1 }) := by
    unfold decryptWith Encrypt.dec
    dsimp only
    rw [if_neg (by omega), box.openBox_sealBox]
  unfold next
  rw [hframe]
  dsimp only
  rw [he, hdec]
  exact ⟨rfl, hs'.codec, hs'.rest, _, rfl, rfl, rfl⟩

/-- A frame of at most one byte is passed on and not counted. -/
theorem next_short {key data frame rest : Bytes} {n : UInt64} (hs : s.At key n (frame ++ rest))
    (hf : IsFrame data frame) (hlen : data.length ≤ 1) :
    (s.next box).1 = some (.ok data) ∧ (s.next box).2.At key n rest := by
  obtain ⟨s', hframe, hs'⟩ := nextFrame_eq hs hf (by omega)
  obtain ⟨e, he, rfl, rfl⟩ := hs'.encrypt
  have hdec : decryptWith box data (some e) = (.ok data, some e) := by
    unfold decryptWith Encrypt.dec
    dsimp only
    rw [if_pos hlen]
  unfold next
  rw [hframe]
  dsimp only
  rw [he, hdec]
  exact ⟨rfl, hs'.codec, hs'.rest, e, rfl, rfl, rfl⟩

/-- With nothing left, the stream is over. -/
theorem next_end {key : Bytes} {n : UInt64} (hs : s.At key n []) : (s.next box).1 = none := by
  obtain ⟨hbuf, hreads⟩ := List.append_eq_nil_iff.mp hs.rest
  have hpull : ∀ reads : List Bytes, reads.flatten = [] →
      BytesCodec.decoder.pull .new [] reads = (.ok none, .new, [], []) := by
    intro reads
    induction reads with
    | nil => exact fun _ => rfl
    | cons chunk reads ih =>
      intro hnil
      rw [List.flatten_cons, List.append_eq_nil_iff] at hnil
      rw [hnil.1]
      exact ih hnil.2
  unfold next nextFrame
  rw [hs.codec, hbuf, hpull s.reads hreads]
  rfl

/-- The sender's number of messages sent is the receiver's number of messages received, before
    and after each message. -/
theorem receive_sends (box : SecretBox) (key : Bytes) (sends : List Send)
    (hshort : ∀ frame, .bytes frame ∈ sends → frame.length ≤ 1)
    (hlimit : ∀ msg, .raw msg ∈ sends → msg.length + 16 ≤ 64 * 1024 * 1024)
    (sender : FramedStream) (hraw : sender.codec.raw = false) {e : Encrypt}
    (he : sender.encrypt = some e) (hkey : e.key = key) :
    ∃ wire, sendAll box sends sender = .ok wire ∧
      ∀ receiver : FramedStream, receiver.At key e.sent wire →
        (receive box sends.length receiver).1 = sends.map (fun m => some (.ok m.payload)) ∧
        ∃ n, (receive box sends.length receiver).2.At key n [] := by
  induction sends generalizing sender e with
  | nil => exact ⟨[], rfl, fun receiver hr => ⟨rfl, e.sent, hr⟩⟩
  | cons m ms ih =>
    have hshort' : ∀ frame, .bytes frame ∈ ms → frame.length ≤ 1 :=
      fun frame hmem => hshort frame (List.mem_cons_of_mem m hmem)
    have hlimit' : ∀ msg, .raw msg ∈ ms → msg.length + 16 ≤ 64 * 1024 * 1024 :=
      fun msg hmem => hlimit msg (List.mem_cons_of_mem m hmem)
    cases m with
    | raw msg =>
      have hlen := hlimit msg List.mem_cons_self
      have hbox := box.length_sealBox msg (getNonce (e.sent + 1)) key
      obtain ⟨frame, hframe, hf⟩ := sendBytes_eq (s := sender)
        (box.sealBox msg (getNonce (e.sent + 1)) key) hraw (by omega)
      have hsend : sender.send box (.raw msg) =
          (.ok frame, { sender with encrypt := some { e with sent := e.sent + 1 } }) := by
        unfold send sendRaw encryptWith
        rw [he, ← hframe, ← hkey]
        rfl
      obtain ⟨wire, hwire, hrecv⟩ := ih hshort' hlimit'
        { sender with encrypt := some { e with sent := e.sent + 1 } } hraw rfl hkey
      refine ⟨frame ++ wire, by simp only [sendAll, hsend, hwire]; rfl, fun receiver hr => ?_⟩
      obtain ⟨hnow, hnext⟩ := next_sealed box hr hf hlen
      obtain ⟨hlater, hend⟩ := hrecv _ hnext
      exact ⟨congrArg₂ List.cons hnow hlater, hend⟩
    | bytes data =>
      have hlen := hshort data List.mem_cons_self
      obtain ⟨frame, hframe, hf⟩ := sendBytes_eq (s := sender) data hraw (by omega)
      have hsend : sender.send box (.bytes data) = (.ok frame, sender) := by
        unfold send
        dsimp only
        rw [hframe]
      obtain ⟨wire, hwire, hrecv⟩ := ih hshort' hlimit' sender hraw he hkey
      refine ⟨frame ++ wire, by simp only [sendAll, hsend, hwire]; rfl, fun receiver hr => ?_⟩
      obtain ⟨hnow, hnext⟩ := next_short box hr hf hlen
      obtain ⟨hlater, hend⟩ := hrecv _ hnext
      exact ⟨congrArg₂ List.cons hnow hlater, hend⟩

/-- On a TCP stream with a key: whatever is sent, sealed or in frames of at most one byte, and
    however it is cut into reads, the other side gets exactly that, in order, and then the end
    of the stream. -/
theorem next_sends (box : SecretBox) (key : Bytes) (sends : List Send)
    (hshort : ∀ frame, .bytes frame ∈ sends → frame.length ≤ 1)
    (hlimit : ∀ msg, .raw msg ∈ sends → msg.length + 16 ≤ 64 * 1024 * 1024)
    (sender : FramedStream) (hsender : sender.codec.raw = false) :
    ∃ wire, sendAll box sends (sender.setKey key) = .ok wire ∧
      ∀ receiver : FramedStream, receiver.codec = .new →
        receiver.buffer ++ receiver.reads.flatten = wire →
        (receive box sends.length (receiver.setKey key)).1 =
          sends.map (fun m => some (.ok m.payload)) ∧
        ((receive box sends.length (receiver.setKey key)).2.next box).1 = none := by
  obtain ⟨wire, hwire, hrecv⟩ := receive_sends box key sends hshort hlimit (sender.setKey key)
    hsender (e := .new key) rfl rfl
  refine ⟨wire, hwire, fun receiver hcodec hrest => ?_⟩
  obtain ⟨hall, n, hend⟩ := hrecv (receiver.setKey key) ⟨hcodec, hrest, .new key, rfl, rfl, rfl⟩
  exact ⟨hall, next_end box hend⟩

/-- An empty message, a keep-alive and another message, sealed with XSalsa20-Poly1305. -/
theorem next_sends_three :
    ∃ wire, sendAll .xsalsa20Poly1305 [.raw [], .bytes [0], .raw [1, 2]]
        (setKey (List.replicate 32 7) {}) = .ok wire ∧
      ∀ receiver : FramedStream, receiver.codec = .new →
        receiver.buffer ++ receiver.reads.flatten = wire →
        (receive .xsalsa20Poly1305 3 (receiver.setKey (List.replicate 32 7))).1 =
          [some (.ok []), some (.ok [0]), some (.ok [1, 2])] ∧
        ((receive .xsalsa20Poly1305 3 (receiver.setKey (List.replicate 32 7))).2.next
          .xsalsa20Poly1305).1 = none :=
  next_sends .xsalsa20Poly1305 (List.replicate 32 7) [.raw [], .bytes [0], .raw [1, 2]]
    (by simp) (by simp) {} rfl

end FramedStream

end LuodaRemote
