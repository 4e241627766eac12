/-
  Encrypted streams: `Encrypt` and `FramedStream` of `libs/hbb_common/src/tcp.rs`,
  `WsFramedStream` of `websocket.rs` and the `Stream` over both (`stream.rs`).

  `secretbox` is a parameter with its two laws (`Lib.SecretBox`). What arrives is part of a
  stream here: the reads of a socket, none of them empty, and the messages of a WebSocket.
  Timeouts and the failure of a socket to send are left out, as is the WebRTC stream, which
  is only built on request and takes no key.
-/
import LuodaRemote.Lib.SecretBox
import LuodaRemote.Net.Codec

namespace LuodaRemote
open Lib

/-! ## Encryption -/

/-- `Encrypt`: the key and the numbers of the messages sent and received. -/
structure Encrypt where
  key : Bytes
  sent : UInt64 := 0
  received : UInt64 := 0
  deriving DecidableEq

/-- `seqnum.to_le_bytes()`. -/
def toLeBytes (seqnum : UInt64) : Bytes :=
  (List.range 8).map fun i => UInt8.ofNat (seqnum.toNat / 256 ^ i)

/-- `get_nonce`: 24 bytes that start with the number. -/
def getNonce (seqnum : UInt64) : Bytes := toLeBytes seqnum ++ List.replicate 16 0

namespace Encrypt

def new (key : Bytes) : Encrypt := { key }

/-- `dec`. The number is counted before the box is opened. -/
def dec (box : SecretBox) (bytes : Bytes) (e : Encrypt) : Except String Bytes × Encrypt :=
  if bytes.length ≤ 1 then (.ok bytes, e)
  else
    let e := { e with received := e.received + 1 }
    match box.openBox bytes (getNonce e.received) e.key with
    | some res => (.ok res, e)
    | none => (.error "decryption error", e)

def enc (box : SecretBox) (data : Bytes) (e : Encrypt) : Bytes × Encrypt :=
  let e := { e with sent := e.sent + 1 }
  (box.sealBox data (getNonce e.sent) e.key, e)

end Encrypt

/-- The step both transports have between a frame and the caller. -/
def decryptWith (box : SecretBox) (bytes : Bytes) (encrypt : Option Encrypt) :
    Except String Bytes × Option Encrypt :=
  match encrypt with
  | some e => ((e.dec box bytes).1, some (e.dec box bytes).2)
  | none => (.ok bytes, none)

/-- The step both transports have between `send_raw` and `send_bytes`. -/
def encryptWith (box : SecretBox) (msg : Bytes) (encrypt : Option Encrypt) :
    Bytes × Option Encrypt :=
  match encrypt with
  | some e => ((e.enc box msg).1, some (e.enc box msg).2)
  | none => (msg, none)

/-! ## TCP -/

/-- `FramedStream`, with the buffer that `Framed` reads into and the reads to come. -/
structure FramedStream where
  codec : BytesCodec := .new
  buffer : Bytes := []
  reads : List Bytes := []
  encrypt : Option Encrypt := none

namespace FramedStream

def setKey (key : Bytes) (s : FramedStream) : FramedStream := { s with encrypt := some (.new key) }

def setRaw (s : FramedStream) : FramedStream :=
  { s with codec := s.codec.setRaw, encrypt := none }

/-- `send_bytes`: what is put on the wire. -/
def sendBytes (bytes : Bytes) (s : FramedStream) : Except String Bytes := s.codec.encode bytes []

/-- `send_raw`. The message counts as sent even if it is too long to be framed. -/
def sendRaw (box : SecretBox) (msg : Bytes) (s : FramedStream) :
    Except String Bytes × FramedStream :=
  let (msg, encrypt) := encryptWith box msg s.encrypt
  (s.sendBytes msg, { s with encrypt })

/-- `Framed::next`: the next frame. -/
def nextFrame (s : FramedStream) : Option (Except String Bytes) × FramedStream :=
  match BytesCodec.decoder.pull s.codec s.buffer s.reads with
  | (.ok (some bytes), codec, buffer, reads) =>
    (some (.ok bytes), { s with codec, buffer, reads })
  | (.error e, codec, buffer, reads) => (some (.error e), { s with codec, buffer, reads })
  | (.ok none, codec, buffer, reads) =>
    (if buffer.isEmpty then none else some (.error "bytes remaining on stream"),
      { s with codec, buffer, reads })

def next (box : SecretBox) (s : FramedStream) : Option (Except String Bytes) × FramedStream :=
  match s.nextFrame with
  | (some (.ok bytes), s) =>
    (some (decryptWith box bytes s.encrypt).1,
      { s with encrypt := (decryptWith box bytes s.encrypt).2 })
  | (res, s) => (res, s)

end FramedStream

/-! ## WebSocket -/

/-- `tungstenite::Message`; pings, pongs and raw frames are one. -/
inductive WsMessage where
  | binary (data : Bytes)
  | text (text : String)
  | control
  | close
  deriving DecidableEq

/-- `WsFramedStream`, with the messages to come. -/
structure WsFramedStream where
  incoming : List (Except String WsMessage) := []
  encrypt : Option Encrypt := none

namespace WsFramedStream

def setKey (key : Bytes) (s : WsFramedStream) : WsFramedStream :=
  { s with encrypt := some (.new key) }

/-- The loop of `next` over what arrives. -/
def nextLoop (box : SecretBox) (encrypt : Option Encrypt) :
    List (Except String WsMessage) → Option (Except String Bytes) × WsFramedStream
  | [] => (none, ⟨[], encrypt⟩)
  | .error e :: rest => (some (.error ("WebSocket protocol error: " ++ e)), ⟨rest, encrypt⟩)
  | .ok (.binary data) :: rest =>
    (some (decryptWith box data encrypt).1, ⟨rest, (decryptWith box data encrypt).2⟩)
  | .ok (.text text) :: rest => (some (.ok (asBytes text)), ⟨rest, encrypt⟩)
  | .ok .close :: rest => (none, ⟨rest, encrypt⟩)
  | .ok .control :: rest => nextLoop box encrypt rest

def next (box : SecretBox) (s : WsFramedStream) : Option (Except String Bytes) × WsFramedStream :=
  nextLoop box s.encrypt s.incoming

end WsFramedStream

/-! ## Both -/

inductive Stream where
  | webSocket (s : WsFramedStream)
  | tcp (s : FramedStream)

namespace Stream

def setKey (key : Bytes) : Stream → Stream
  | webSocket s => webSocket (s.setKey key)
  | tcp s => tcp (s.setKey key)

def next (box : SecretBox) : Stream → Option (Except String Bytes) × Stream
  | webSocket s => ((s.next box).1, webSocket (s.next box).2)
  | tcp s => ((s.next box).1, tcp (s.next box).2)

def encrypt : Stream → Option Encrypt
  | webSocket s => s.encrypt
  | tcp s => s.encrypt

end Stream

end LuodaRemote
