/-
  Addresses as the rendezvous messages carry them (`try_into_v4` and `AddrMangle` of
  `libs/hbb_common/src/lib.rs`).

  The address and the port of IPv4 are hidden by adding the clock to both; the clock goes along
  between the two, so that they can be read again (`mangle_round_trip`). What is read was not
  always written by `encode`: then the clock may be more than what it is taken from
  (`decode_safe_iff`).

  Numbers of 128 bits are natural numbers; what is shifted out of them is cut off.
-/
import LuodaRemote.Lib.IpAddr
import LuodaRemote.Lib.Wire

namespace LuodaRemote
open Lib

namespace AddrMangle

/-! ## Addresses -/

inductive SocketAddr where
  | v4 (ip : Lib.Ipv4Addr) (port : UInt16)
  | v6 (ip : Lib.Ipv6Addr) (port : UInt16) (flowinfo scopeId : UInt32)
deriving DecidableEq

def tryIntoV4 (addr : SocketAddr) : SocketAddr :=
  match addr with
  | .v6 ip port _ _ =>
    if ip.isLoopback then addr
    else match ip.toIpv4 with
      | some v4 => .v4 v4 port
      | none => addr
  | _ => addr

/-- `Ipv4Addr::octets`. -/
def octets (ip : Lib.Ipv4Addr) : List UInt8 := [ip.a, ip.b, ip.c, ip.d]

/-- `Ipv6Addr::octets`. -/
def octets6 (ip : Lib.Ipv6Addr) : List UInt8 :=
  ip.segments.flatMap fun s : UInt16 => [(s >>> 8).toUInt8, s.toUInt8]

def segments : List UInt8 → List UInt16
  | x :: y :: rest => (x.toUInt16 <<< 8 ||| y.toUInt16) :: segments rest
  | _ => []

/-- The address of sixteen bytes; others are taken for zeros. -/
def ofOctets6 (bytes : List UInt8) : Lib.Ipv6Addr :=
  if h : (segments bytes).length = 8 then ⟨segments bytes, h⟩ else ⟨List.replicate 8 0, rfl⟩

/-- `Config::get_any_listen_addr(false)`. -/
def anyListenAddr : SocketAddr := .v6 ⟨List.replicate 8 0, rfl⟩ 0 0 0

/-! ## The functions -/

/-- The number that an IPv4 address and its port make with the clock. -/
def mangled (ip tm port : Nat) : Nat :=
  (((ip + tm) <<< 49) % 2 ^ 128) ||| ((tm <<< 17) % 2 ^ 128) ||| (port + (tm &&& 0xFFFF))

/-- Without the zeros at the end. -/
def stripped (bytes : List UInt8) : List UInt8 :=
  bytes.take (bytes.length - (bytes.reverse.takeWhile (· == 0)).length)

/-- At a time in microseconds. -/
def encode (micros : Nat) (addr : SocketAddr) : List UInt8 :=
  match tryIntoV4 addr with
  | .v4 ip port =>
    stripped (putLe 16 (mangled (getLe (octets ip)) (micros % 2 ^ 32) port.toNat))
  | .v6 ip port _ _ => octets6 ip ++ putLe 2 port.toNat

inductive Panic where
  | underflow
  | outOfRange
deriving DecidableEq

def sub (a b : Nat) : Except Panic Nat := if b ≤ a then .ok (a - b) else .error .underflow

/-- `&bytes[n..]`. -/
def bytesFrom (n : Nat) (bytes : List UInt8) : Except Panic (List UInt8) :=
  if n ≤ bytes.length then .ok (bytes.drop n) else .error .outOfRange

/-- `&bytes[..n]`. -/
def bytesTo (n : Nat) (bytes : List UInt8) : Except Panic (List UInt8) :=
  if n ≤ bytes.length then .ok (bytes.take n) else .error .outOfRange

/-- The bytes at the front of `n` zeros. -/
def padTo (n : Nat) (bytes : List UInt8) : Except Panic (List UInt8) :=
  if bytes.length ≤ n then .ok (bytes ++ List.replicate (n - bytes.length) 0)
  else .error .outOfRange

def decode (bytes : List UInt8) : Except Panic SocketAddr :=
  if 16 < bytes.length then
    if bytes.length ≠ 18 then .ok anyListenAddr
    else do
      let port ← bytesFrom 16 bytes
      let ip ← bytesTo 16 bytes
      return .v6 (ofOctets6 ip) (UInt16.ofNat (getLe port)) 0 0
  else do
    let padded ← padTo 16 bytes
    let number := getLe padded
    let tm := (number >>> 17) &&& (2 ^ 32 - 1)
    let ip ← sub (number >>> 49) tm
    let port ← sub (number &&& 0xFFFFFF) (tm &&& 0xFFFF)
    let ip := putLe 4 ip
    return .v4 ⟨ip.getD 0 0, ip.getD 1 0, ip.getD 2 0, ip.getD 3 0⟩ (UInt16.ofNat port)

/-! ## Bytes -/

theorem two_bytes (s : UInt16) :
    (s >>> 8).toUInt8.toUInt16 <<< 8 ||| s.toUInt8.toUInt16 = s := by
  have hs := s.toNat_lt
  have hor : (s.toNat / 256) <<< 8 ||| s.toNat % 256 = (s.toNat / 256) <<< 8 + s.toNat % 256 :=
    (Nat.shiftLeft_add_eq_or_of_lt (i := 8) (by omega) _).symm
  have hhigh : s.toNat / 256 % 256 = s.toNat / 256 := by omega
  have hlt : (s.toNat / 256) <<< 8 < 65536 := by
    rw [Nat.shiftLeft_eq]
    omega
  apply UInt16.toNat_inj.mp
  simp only [UInt16.toNat_or, UInt16.toNat_shiftLeft, UInt8.toNat_toUInt16, UInt16.toNat_toUInt8,
    UInt16.toNat_shiftRight, UInt16.reduceToNat, Nat.reduceMod, Nat.shiftRight_eq_div_pow,
    Nat.reducePow]
  rw [hhigh, Nat.mod_eq_of_lt hlt, hor, Nat.shiftLeft_eq]
  omega

theorem segments_octets6 (ip : Lib.Ipv6Addr) : segments (octets6 ip) = ip.segments := by
  have hlist : ∀ l : List UInt16,
      segments (l.flatMap fun s : UInt16 => [(s >>> 8).toUInt8, s.toUInt8]) = l := by
    intro l
    induction l with
    | nil => rfl
    | cons s l ih => rw [List.flatMap_cons, List.cons_append, List.cons_append, List.nil_append,
        segments, ih, two_bytes]
  exact hlist ip.segments

theorem ofOctets6_octets6 (ip : Lib.Ipv6Addr) : ofOctets6 (octets6 ip) = ip := by
  unfold ofOctets6
  rw [dif_pos (by rw [segments_octets6, ip.length_segments])]
  cases ip
  simp only [segments_octets6]

theorem length_octets6 (ip : Lib.Ipv6Addr) : (octets6 ip).length = 16 := by
  unfold octets6
  rw [List.length_flatMap]
  simp [ip.length_segments]

theorem putLe_octets (ip : Lib.Ipv4Addr) : putLe 4 (getLe (octets ip)) = octets ip :=
  putLe_getLe (octets ip)

theorem getLe_append_zeros (bytes : List UInt8) (k : Nat) :
    getLe (bytes ++ List.replicate k (0 : UInt8)) = getLe bytes := by
  induction bytes with
  | nil =>
    induction k with
    | zero => rfl
    | succ k ih =>
      rw [List.nil_append] at ih ⊢
      simp only [List.replicate_succ, getLe, ih, UInt8.toNat_zero, Nat.mul_zero, Nat.add_zero]
  | cons b bytes ih => rw [List.cons_append, getLe, getLe, ih]

theorem stripped_append (bytes : List UInt8) :
    stripped bytes ++ List.replicate (bytes.length - (stripped bytes).length) 0 = bytes := by
  set zeros := bytes.reverse.takeWhile (· == 0) with hzeros
  set front := (bytes.reverse.dropWhile (· == 0)).reverse with hfront
  have hall : zeros = List.replicate zeros.length 0 := by
    apply List.eq_replicate_of_mem
    intro b hb
    have hzero := List.mem_takeWhile_imp (hzeros ▸ hb)
    exact eq_of_beq hzero
  have hsplit : bytes = front ++ List.replicate zeros.length 0 := by
    rw [← List.reverse_replicate, ← hall, hfront, ← List.reverse_append, hzeros,
      List.takeWhile_append_dropWhile, List.reverse_reverse]
  have hsum : bytes.length = front.length + zeros.length := by
    simpa using congrArg List.length hsplit
  have hstripped : stripped bytes = front := by
    have hlength : bytes.length - zeros.length = front.length := by omega
    unfold stripped
    rw [hlength, hsplit, List.take_left]
  have hrest : bytes.length - front.length = zeros.length := by omega
  rw [hstripped, hrest]
  exact hsplit.symm

theorem getLe_stripped (bytes : List UInt8) : getLe (stripped bytes) = getLe bytes := by
  conv_rhs => rw [← stripped_append bytes, getLe_append_zeros]

theorem length_stripped_le (bytes : List UInt8) : (stripped bytes).length ≤ bytes.length := by
  unfold stripped
  exact List.length_take_le' _ _

/-! ## What `decode` reads -/

/-- The clock that a number went along with. -/
def clock (number : Nat) : Nat := number / 2 ^ 17 % 2 ^ 32

/-- The fields of the number are at least what is taken from them. -/
def InOrder (number : Nat) : Prop :=
  clock number ≤ number / 2 ^ 49 ∧ clock number % 2 ^ 16 ≤ number % 2 ^ 24

instance (number : Nat) : Decidable (InOrder number) := inferInstanceAs (Decidable (_ ∧ _))

theorem padTo_of_le {bytes : List UInt8} (h : bytes.length ≤ 16) :
    ∃ padded, padTo 16 bytes = .ok padded ∧ getLe padded = getLe bytes :=
  ⟨_, if_pos h, getLe_append_zeros bytes _⟩

theorem fields (number : Nat) :
    (number >>> 17) &&& (2 ^ 32 - 1) = clock number ∧ number >>> 49 = number / 2 ^ 49 ∧
      number &&& 0xFFFFFF = number % 2 ^ 24 ∧
      clock number &&& 0xFFFF = clock number % 2 ^ 16 := by
  refine ⟨?_, Nat.shiftRight_eq_div_pow _ _, Nat.and_two_pow_sub_one_eq_mod _ 24,
    Nat.and_two_pow_sub_one_eq_mod _ 16⟩
  rw [Nat.and_two_pow_sub_one_eq_mod, Nat.shiftRight_eq_div_pow]
  rfl

theorem sub_of_le {a b : Nat} (h : b ≤ a) : sub a b = .ok (a - b) := if_pos h

theorem sub_of_lt {a b : Nat} (h : a < b) : sub a b = .error .underflow := if_neg (by omega)

/-- The address whose bytes are those of a number. -/
def ipOf (number : Nat) : Lib.Ipv4Addr :=
  let ip := putLe 4 number
  ⟨ip.getD 0 0, ip.getD 1 0, ip.getD 2 0, ip.getD 3 0⟩

theorem decode_of_le {bytes : List UInt8} (h : bytes.length ≤ 16) :
    decode bytes = do
      let ip ← sub (getLe bytes / 2 ^ 49) (clock (getLe bytes))
      let port ← sub (getLe bytes % 2 ^ 24) (clock (getLe bytes) % 2 ^ 16)
      return .v4 (ipOf ip) (UInt16.ofNat port) := by
  obtain ⟨padded, hpadded, hnumber⟩ := padTo_of_le h
  obtain ⟨htm, hip, hlow, hclock⟩ := fields (getLe bytes)
  unfold decode
  rw [if_neg (by omega), hpadded]
  show (do
    let ip ← sub (getLe padded >>> 49) ((getLe padded >>> 17) &&& (2 ^ 32 - 1))
    let port ← sub (getLe padded &&& 0xFFFFFF)
      (((getLe padded >>> 17) &&& (2 ^ 32 - 1)) &&& 0xFFFF)
    return SocketAddr.v4 (ipOf ip) (UInt16.ofNat port)) = _
  rw [hnumber, htm, hip, hlow, hclock]

theorem decode_in_order {bytes : List UInt8} (h : bytes.length ≤ 16)
    (hn : InOrder (getLe bytes)) :
    decode bytes = .ok (.v4 (ipOf (getLe bytes / 2 ^ 49 - clock (getLe bytes)))
      (UInt16.ofNat (getLe bytes % 2 ^ 24 - clock (getLe bytes) % 2 ^ 16))) := by
  rw [decode_of_le h, sub_of_le hn.1, sub_of_le hn.2]
  rfl

theorem decode_out_of_order {bytes : List UInt8} (h : bytes.length ≤ 16)
    (hn : ¬ InOrder (getLe bytes)) : decode bytes = .error .underflow := by
  rw [decode_of_le h]
  rcases Nat.lt_or_ge (getLe bytes / 2 ^ 49) (clock (getLe bytes)) with hip | hip
  · rw [sub_of_lt hip]
    rfl
  · have hport : getLe bytes % 2 ^ 24 < clock (getLe bytes) % 2 ^ 16 := by
      by_contra hport
      exact hn ⟨hip, by omega⟩
    rw [sub_of_le hip, sub_of_lt hport]
    rfl

theorem decode_long {bytes : List UInt8} (h : 16 < bytes.length) (h' : bytes.length ≠ 18) :
    decode bytes = .ok anyListenAddr := by
  unfold decode
  rw [if_pos h, if_pos h']

theorem decode_eighteen {bytes : List UInt8} (h : bytes.length = 18) :
    decode bytes =
      .ok (.v6 (ofOctets6 (bytes.take 16)) (UInt16.ofNat (getLe (bytes.drop 16))) 0 0) := by
  unfold decode bytesFrom bytesTo
  rw [if_pos (by omega), if_neg (by omega), if_pos (by omega), if_pos (by omega)]
  rfl

theorem decode_ok {bytes : List UInt8} (h : 16 < bytes.length ∨ InOrder (getLe bytes)) :
    ∃ addr, decode bytes = .ok addr := by
  by_cases hlong : 16 < bytes.length
  · by_cases heighteen : bytes.length = 18
    · exact ⟨_, decode_eighteen heighteen⟩
    · exact ⟨_, decode_long hlong heighteen⟩
  · exact ⟨_, decode_in_order (by omega) (h.resolve_left hlong)⟩

/-- No slice is out of range, whatever is read. -/
theorem decode_in_range (bytes : List UInt8) : decode bytes ≠ .error .outOfRange := by
  by_cases h : 16 < bytes.length ∨ InOrder (getLe bytes)
  · obtain ⟨addr, haddr⟩ := decode_ok h
    rw [haddr]
    nofun
  · rw [not_or] at h
    rw [decode_out_of_order (by omega) h.2]
    nofun

theorem decode_safe_iff (bytes : List UInt8) :
    (∃ addr, decode bytes = .ok addr) ↔ 16 < bytes.length ∨ InOrder (getLe bytes) := by
  constructor
  · rintro ⟨addr, haddr⟩
    by_contra hbad
    rw [not_or] at hbad
    rw [decode_out_of_order (by omega) hbad.2] at haddr
    cases haddr
  · exact decode_ok

/-- A clock with nothing added to it. -/
theorem clock_alone_underflows : decode [0, 0, 2] = .error .underflow := by decide

/-! ## There and back -/

theorem mangled_eq {ip tm port : Nat} (hip : ip < 2 ^ 32) (htm : tm < 2 ^ 32)
    (hport : port < 2 ^ 16) :
    mangled ip tm port = (ip + tm) * 2 ^ 49 + (tm * 2 ^ 17 + (port + tm % 2 ^ 16)) := by
  have hlow : tm &&& 0xFFFF = tm % 2 ^ 16 := Nat.and_two_pow_sub_one_eq_mod tm 16
  unfold mangled
  -- Nothing is shifted out, and the three parts have no bit in common.
  rw [hlow, Nat.shiftLeft_eq, Nat.shiftLeft_eq, Nat.mod_eq_of_lt (by omega),
    Nat.mod_eq_of_lt (by omega), Nat.or_assoc, ← Nat.shiftLeft_eq tm,
    ← Nat.shiftLeft_add_eq_or_of_lt (by omega), Nat.shiftLeft_eq, ← Nat.shiftLeft_eq,
    ← Nat.shiftLeft_add_eq_or_of_lt (by omega), Nat.shiftLeft_eq]

section

variable {ip tm port : Nat} (hip : ip < 2 ^ 32) (htm : tm < 2 ^ 32) (hport : port < 2 ^ 16)
include hip htm hport

theorem mangled_lt : mangled ip tm port < 2 ^ 128 := by
  rw [mangled_eq hip htm hport]
  omega

theorem clock_mangled : clock (mangled ip tm port) = tm := by
  rw [mangled_eq hip htm hport]
  unfold clock
  have hport' : ((ip + tm) * 2 ^ 49 + (tm * 2 ^ 17 + (port + tm % 2 ^ 16))) / 2 ^ 17 =
      (ip + tm) * 2 ^ 32 + tm := by omega
  omega

theorem ip_of_mangled : mangled ip tm port / 2 ^ 49 - tm = ip := by
  rw [mangled_eq hip htm hport]
  omega

/-- Seven bits of the clock are above the port, where they are cut off. -/
theorem port_of_mangled :
    mangled ip tm port % 2 ^ 24 - tm % 2 ^ 16 = tm % 2 ^ 7 * 2 ^ 17 + port := by
  rw [mangled_eq hip htm hport]
  omega

theorem mangled_in_order : InOrder (mangled ip tm port) := by
  unfold InOrder
  rw [clock_mangled hip htm hport, mangled_eq hip htm hport]
  omega

end

theorem getLe_octets_lt (ip : Lib.Ipv4Addr) : getLe (octets ip) < 2 ^ 32 := by
  have h := getLe_lt (octets ip)
  simpa [octets] using h

theorem ipOf_octets (ip : Lib.Ipv4Addr) : ipOf (getLe (octets ip)) = ip := by
  unfold ipOf
  rw [putLe_octets]
  rfl

theorem ofNat_port (k : Nat) (port : UInt16) :
    UInt16.ofNat (k * 2 ^ 17 + port.toNat) = port := by
  have hport := port.toNat_lt
  apply UInt16.toNat_inj.mp
  rw [UInt16.toNat_ofNat']
  omega

theorem decode_mangled (ip : Lib.Ipv4Addr) (port : UInt16) {tm : Nat} (htm : tm < 2 ^ 32) :
    decode (stripped (putLe 16 (mangled (getLe (octets ip)) tm port.toNat))) =
      .ok (.v4 ip port) := by
  have hip := getLe_octets_lt ip
  have hport := port.toNat_lt
  have hlength : (stripped (putLe 16 (mangled (getLe (octets ip)) tm port.toNat))).length ≤ 16 :=
    (length_stripped_le _).trans_eq (length_putLe _ _)
  have hnumber : getLe (stripped (putLe 16 (mangled (getLe (octets ip)) tm port.toNat))) =
      mangled (getLe (octets ip)) tm port.toNat := by
    rw [getLe_stripped, getLe_putLe]
    exact Nat.mod_eq_of_lt (mangled_lt hip htm hport)
  rw [decode_in_order hlength (by rw [hnumber]; exact mangled_in_order hip htm hport), hnumber,
    clock_mangled hip htm hport, ip_of_mangled hip htm hport, port_of_mangled hip htm hport,
    ipOf_octets, ofNat_port]

theorem decode_octets6 (ip : Lib.Ipv6Addr) (port : UInt16) :
    decode (octets6 ip ++ putLe 2 port.toNat) = .ok (.v6 ip port 0 0) := by
  have hip := length_octets6 ip
  have hport := port.toNat_lt
  have hlength : (octets6 ip ++ putLe 2 port.toNat).length = 18 := by
    rw [List.length_append, hip, length_putLe]
  have hnumber : getLe (putLe 2 port.toNat) = port.toNat := by
    rw [getLe_putLe]
    omega
  rw [decode_eighteen hlength, List.take_left' hip, List.drop_left' hip, ofOctets6_octets6,
    hnumber, UInt16.ofNat_toNat]

/-- IPv6 has nothing else than the address and the port. -/
def SocketAddr.Plain : SocketAddr → Prop
  | .v4 _ _ => True
  | .v6 _ _ flowinfo scopeId => flowinfo = 0 ∧ scopeId = 0

theorem plain_tryIntoV4 {addr : SocketAddr} (h : addr.Plain) : (tryIntoV4 addr).Plain := by
  unfold tryIntoV4
  split
  · split
    · exact h
    · split
      · trivial
      · exact h
  · exact h

/-- The length of what `encode` makes of an address that `tryIntoV4` gave. -/
def SocketAddr.Fits (length : Nat) : SocketAddr → Prop
  | .v4 _ _ => length ≤ 16
  | .v6 _ _ _ _ => length = 18

theorem mangle_round_trip {addr : SocketAddr} (h : addr.Plain) (micros : Nat) :
    decode (encode micros addr) = .ok (tryIntoV4 addr) ∧
      (tryIntoV4 addr).Fits (encode micros addr).length := by
  have hplain := plain_tryIntoV4 h
  unfold encode
  cases haddr : tryIntoV4 addr with
  | v4 ip port =>
    refine ⟨decode_mangled ip port (Nat.mod_lt _ (by decide)), ?_⟩
    exact (length_stripped_le _).trans_eq (length_putLe _ _)
  | v6 ip port flowinfo scopeId =>
    rw [haddr] at hplain
    obtain ⟨rfl, rfl⟩ := hplain
    refine ⟨decode_octets6 ip port, ?_⟩
    show (octets6 ip ++ putLe 2 port.toNat).length = 18
    rw [List.length_append, length_octets6, length_putLe]

/-- `[::ffff:127.0.0.1]:8080`. -/
def mapped : SocketAddr := .v6 ⟨[0, 0, 0, 0, 0, 0xffff, 0x7f00, 1], rfl⟩ 8080 0 0

theorem mapped_round_trip :
    decode (encode 1700000000000000 mapped) = .ok (.v4 ⟨127, 0, 0, 1⟩ 8080) ∧
      (encode 1700000000000000 mapped).length ≤ 16 :=
  @mangle_round_trip mapped ⟨rfl, rfl⟩ 1700000000000000

end AddrMangle
end LuodaRemote
