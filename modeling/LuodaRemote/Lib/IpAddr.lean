/-
  IP addresses: their text, and the ranges that have a meaning of their own.

  The text of an address is read as the standard library of Rust reads it: four numbers with dots,
  or groups of hex digits with colons, of which `::` may leave some out and the last two may be
  written with dots. `parseIpAddr_map_toLower`: the case of the digits does not matter.
-/
import LuodaRemote.Lib.Lowercase
import LuodaRemote.Lib.Text

namespace LuodaRemote.Lib

@[ext]
structure Ipv4Addr where
  a : UInt8
  b : UInt8
  c : UInt8
  d : UInt8
  deriving DecidableEq

namespace Ipv4Addr

/-- 10/8, 172.16/12 and 192.168/16. -/
def isPrivate (ip : Ipv4Addr) : Bool :=
  ip.a == 10 || ip.a == 172 && 16 ≤ ip.b.toNat && ip.b.toNat ≤ 31 || ip.a == 192 && ip.b == 168

/-- 127/8. -/
def isLoopback (ip : Ipv4Addr) : Bool := ip.a == 127

def isUnspecified (ip : Ipv4Addr) : Bool := ip == ⟨0, 0, 0, 0⟩

/-- 169.254/16. -/
def isLinkLocal (ip : Ipv4Addr) : Bool := ip.a == 169 && ip.b == 254

/-- 192.0.2/24, 198.51.100/24 and 203.0.113/24. -/
def isDocumentation (ip : Ipv4Addr) : Bool :=
  ip.a == 192 && ip.b == 0 && ip.c == 2 || ip.a == 198 && ip.b == 51 && ip.c == 100 ||
    ip.a == 203 && ip.b == 0 && ip.c == 113

end Ipv4Addr

structure Ipv6Addr where
  segments : List UInt16
  length_segments : segments.length = 8
  deriving DecidableEq

namespace Ipv6Addr

/-- `::1`. -/
def isLoopback (ip : Ipv6Addr) : Bool := ip.segments == [0, 0, 0, 0, 0, 0, 0, 1]

/-- `::`. -/
def isUnspecified (ip : Ipv6Addr) : Bool := ip.segments == [0, 0, 0, 0, 0, 0, 0, 0]

/-- `fe80::/10`. -/
def isLinkLocal (ip : Ipv6Addr) : Bool := ip.segments.headD 0 &&& 0xffc0 == 0xfe80

/-- The address that is mapped into `::ffff:0:0/96`. -/
def toIpv4Mapped (ip : Ipv6Addr) : Option Ipv4Addr :=
  match ip.segments with
  | [0, 0, 0, 0, 0, 0xffff, x, y] =>
    some ⟨(x >>> 8).toUInt8, x.toUInt8, (y >>> 8).toUInt8, y.toUInt8⟩
  | _ => none

/-- The address that is mapped into `::ffff:0:0/96` or compatible with `::/96`. -/
def toIpv4 (ip : Ipv6Addr) : Option Ipv4Addr :=
  match ip.segments with
  | [0, 0, 0, 0, 0, s, x, y] =>
    if s = 0 ∨ s = 0xffff then
      some ⟨(x >>> 8).toUInt8, x.toUInt8, (y >>> 8).toUInt8, y.toUInt8⟩
    else none
  | _ => none

end Ipv6Addr

inductive IpAddr where
  | v4 (ip : Ipv4Addr)
  | v6 (ip : Ipv6Addr)
  deriving DecidableEq

/-! ## Text -/

/-- One of the four numbers: no more than three digits, and no zero before others. -/
def parseOctet (x : List Char) : Option UInt8 :=
  if x = [] ∨ 3 < x.length ∨ x.all Char.isDigit = false ∨ (x.head? = some '0' ∧ x ≠ ['0']) then none
  else
    let n := Nat.ofDigitChars 10 x 0
    if n ≤ 255 then some (UInt8.ofNat n) else none

def parseOctets : List (List Char) → Option Ipv4Addr
  | [a, b, c, d] => do
      let a ← parseOctet a
      let b ← parseOctet b
      let c ← parseOctet c
      let d ← parseOctet d
      return ⟨a, b, c, d⟩
  | _ => none

def parseIpv4 (t : List Char) : Option Ipv4Addr := parseOctets (t.splitOn '.')

/-- The value of a hex digit. -/
def hexValue (c : Char) : Option Nat :=
  if c.isDigit then some (c.toNat - 48)
  else if 'a' ≤ c.toLower ∧ c.toLower ≤ 'f' then some (c.toLower.toNat - 87)
  else none

def hexNumber (x : List Char) : Option Nat :=
  x.foldl (fun n c => n.bind fun n => (hexValue c).map (16 * n + ·)) (some 0)

/-- Up to four hex digits. -/
def parseGroup (x : List Char) : Option UInt16 :=
  if x = [] ∨ 4 < x.length then none else (hexNumber x).map UInt16.ofNat

/-- Two groups that are written with dots. -/
def dottedGroups (x : List Char) : Option (List UInt16) :=
  (parseIpv4 x).map fun ip =>
    [UInt16.ofNat (256 * ip.a.toNat + ip.b.toNat), UInt16.ofNat (256 * ip.c.toNat + ip.d.toNat)]

/-- The groups up to the end of an address. -/
def parseGroups : List (List Char) → Option (List UInt16)
  | [] => some []
  | [x] => if '.' ∈ x then dottedGroups x else (parseGroup x).map fun g => [g]
  | x :: xs => do
      let g ← parseGroup x
      let gs ← parseGroups xs
      return g :: gs

/-- The text on one side of `::`. -/
def side (x : List Char) : List (List Char) := if x = [] then [] else x.splitOn ':'

def toIpv6 (segments : List UInt16) : Option Ipv6Addr :=
  if h : segments.length = 8 then some ⟨segments, h⟩ else none

/-- What stands on the sides of `::`, or all of the text. -/
def parseSides : List (List Char) → Option Ipv6Addr
  | [all] => (parseGroups (all.splitOn ':')).bind toIpv6
  | [left, right] => do
      let left ← (side left).mapM parseGroup
      let right ← parseGroups (side right)
      -- `::` is one group at least.
      if left.length + right.length ≤ 7 then
        toIpv6 (left ++ List.replicate (8 - left.length - right.length) 0 ++ right)
      else none
  | _ => none

def parseIpv6 (t : List Char) : Option Ipv6Addr := parseSides (splitSeq [':', ':'] t)

/-- `IpAddr::from_str`. -/
def parseIpAddr (t : List Char) : Option IpAddr :=
  match parseIpv4 t with
  | some ip => some (.v4 ip)
  | none => (parseIpv6 t).map .v6

/-- A port as it stands in the text of an address. -/
def isPort (p : List Char) : Bool :=
  p != [] && p.all Char.isDigit && Nat.ofDigitChars 10 p 0 ≤ 65535

/-- The number of a scope. -/
def isScope (s : List Char) : Bool :=
  s != [] && s.all Char.isDigit && Nat.ofDigitChars 10 s 0 < 2 ^ 32

/-- The address, the scope and the port of a text, behind the first bracket. -/
def parseSocketAddrV6 (t : List Char) : Option Ipv6Addr :=
  match t.splitOn ']' with
  | [host, port] =>
    if port.head? = some ':' ∧ isPort port.tail = true then
      match host.splitOn '%' with
      | [host] => parseIpv6 host
      | [host, scope] => if isScope scope then parseIpv6 host else none
      | _ => none
    else none
  | _ => none

def parseSocketAddrV4 (t : List Char) : Option Ipv4Addr :=
  match t.splitOn ':' with
  | [host, port] => if isPort port then parseIpv4 host else none
  | _ => none

/-- `SocketAddr::from_str`, the address of it. -/
def parseSocketAddr (t : List Char) : Option IpAddr :=
  if t.head? = some '[' then (parseSocketAddrV6 t.tail).map .v6
  else (parseSocketAddrV4 t).map .v4

def Ipv4Addr.text (ip : Ipv4Addr) : List Char :=
  ['.'].intercalate ([ip.a, ip.b, ip.c, ip.d].map fun n => Nat.toDigits 10 n.toNat)

/-- The first of the longest runs of zeros: where it begins, and how long it is. -/
def longestZeros (segments : List UInt16) : Nat × Nat :=
  (segments.zipIdx.foldl (fun (longest, current) (segment, i) =>
    if segment = 0 then
      let current := if current.2 = 0 then (i, 1) else (current.1, current.2 + 1)
      (if longest.2 < current.2 then current else longest, current)
    else (longest, (0, 0))) (((0, 0), (0, 0)) : (Nat × Nat) × (Nat × Nat))).1

def hexGroups (segments : List UInt16) : List Char :=
  [':'].intercalate (segments.map fun g => Nat.toDigits 16 g.toNat)

def Ipv6Addr.text (ip : Ipv6Addr) : List Char :=
  match ip.toIpv4Mapped with
  | some ip4 => "::ffff:".toList ++ ip4.text
  | none =>
    let (start, len) := longestZeros ip.segments
    if 1 < len then
      hexGroups (ip.segments.take start) ++ "::".toList ++
        hexGroups (ip.segments.drop (start + len))
    else hexGroups ip.segments

def IpAddr.text : IpAddr → List Char
  | .v4 ip => ip.text
  | .v6 ip => ip.text

example : (Ipv6Addr.mk [0x2001, 0xdb8, 0, 0, 1, 0, 0, 1] rfl).text =
    "2001:db8::1:0:0:1".toList := by decide

theorem parseSocketAddr_bracket (rest : List Char) :
    parseSocketAddr ('[' :: rest) = (parseSocketAddrV6 rest).map .v6 := if_pos rfl

/-! ## The case of the digits -/

section ToLower

theorem parseOctet_map (x : List Char) : parseOctet (x.map Char.toLower) = parseOctet x := by
  cases hall : x.all Char.isDigit with
  | true => rw [map_toLower_of_digits hall]
  | false =>
    unfold parseOctet
    rw [if_pos (.inr (.inr (.inl (all_isDigit_map.trans hall)))), if_pos (.inr (.inr (.inl hall)))]

theorem parseIpv4_map (t : List Char) : parseIpv4 (t.map Char.toLower) = parseIpv4 t := by
  have hpieces (ps : List (List Char)) :
      parseOctets (ps.map (List.map Char.toLower)) = parseOctets ps := by
    match ps with
    | [a, b, c, d] => simp only [List.map_cons, List.map_nil, parseOctets, parseOctet_map]
    | [] | [_] | [_, _] | [_, _, _] | _ :: _ :: _ :: _ :: _ :: _ => rfl
  have hdot (c : Char) : c.toLower = '.' ↔ c = '.' := toLower_eq_iff (by decide) (by decide)
  unfold parseIpv4
  rw [splitOn_map hdot, hpieces]

theorem hexValue_toLower (c : Char) : hexValue c.toLower = hexValue c := by
  unfold hexValue
  rw [isDigit_toLower, toLower_toLower]
  split
  · next hc => rw [toLower_of_isDigit hc]
  · rfl

theorem hexNumber_map (x : List Char) : hexNumber (x.map Char.toLower) = hexNumber x := by
  unfold hexNumber
  rw [List.foldl_map]
  simp only [hexValue_toLower]

theorem parseGroup_map (x : List Char) : parseGroup (x.map Char.toLower) = parseGroup x := by
  unfold parseGroup
  simp only [List.map_eq_nil_iff, List.length_map, hexNumber_map]

theorem parseGroups_map (xs : List (List Char)) :
    parseGroups (xs.map (List.map Char.toLower)) = parseGroups xs := by
  have hdot (c : Char) : c.toLower = '.' ↔ c = '.' := toLower_eq_iff (by decide) (by decide)
  induction xs with
  | nil => rfl
  | cons x xs ih =>
    cases xs with
    | nil =>
      have hmem : '.' ∈ x.map Char.toLower ↔ '.' ∈ x := by
        rw [List.mem_map]
        exact ⟨fun ⟨c, hc, heq⟩ => (hdot c).mp heq ▸ hc, fun h => ⟨'.', h, rfl⟩⟩
      simp only [List.map_cons, List.map_nil, parseGroups, hmem, dottedGroups, parseIpv4_map,
        parseGroup_map]
    | cons y ys =>
      rw [List.map_cons] at ih
      simp only [List.map_cons, parseGroups, parseGroup_map, ih]

theorem mapM_parseGroup_map (xs : List (List Char)) :
    (xs.map (List.map Char.toLower)).mapM parseGroup = xs.mapM parseGroup := by
  induction xs with
  | nil => rfl
  | cons x xs ih => rw [List.map_cons, List.mapM_cons, List.mapM_cons, parseGroup_map, ih]

theorem splitColon_map (x : List Char) :
    (x.map Char.toLower).splitOn ':' = (x.splitOn ':').map (List.map Char.toLower) :=
  splitOn_map (fun _ => toLower_eq_iff (by decide) (by decide)) x

theorem side_map (x : List Char) :
    side (x.map Char.toLower) = (side x).map (List.map Char.toLower) := by
  unfold side
  simp only [List.map_eq_nil_iff]
  split
  · rfl
  · exact splitColon_map x

theorem parseIpv6_map (t : List Char) : parseIpv6 (t.map Char.toLower) = parseIpv6 t := by
  have hpieces (ps : List (List Char)) :
      parseSides (ps.map (List.map Char.toLower)) = parseSides ps := by
    match ps with
    | [all] => simp only [List.map_cons, List.map_nil, parseSides, splitColon_map, parseGroups_map]
    | [left, right] =>
      simp only [List.map_cons, List.map_nil, parseSides, side_map, mapM_parseGroup_map,
        parseGroups_map]
    | [] | _ :: _ :: _ :: _ => rfl
  have hcolon : ∀ x ∈ [':', ':'], ∀ c : Char, c.toLower = x ↔ c = x := by
    intro x hx c
    have hx : x = ':' := by simpa using hx
    rw [hx]
    exact toLower_eq_iff (by decide) (by decide)
  unfold parseIpv6
  rw [splitSeq_map hcolon, hpieces]

theorem parseIpAddr_map_toLower (t : List Char) :
    parseIpAddr (t.map Char.toLower) = parseIpAddr t := by
  unfold parseIpAddr
  rw [parseIpv4_map, parseIpv6_map]

end ToLower

/-! ## What an address is made of -/

def ipChars : List Char := "0123456789abcdefABCDEF.:".toList

theorem isDigit_ipChars {c : Char} (hc : c.isDigit = true) : c ∈ ipChars := by
  have h0 : '0'.toNat = 48 := rfl
  have h9 : '9'.toNat = 57 := rfl
  have hall : ∀ n : Fin 10, Char.ofNat (48 + n) ∈ ipChars := by decide
  obtain ⟨hlo, hhi⟩ := Char.isDigit_iff_toNat.mp hc
  have hmem := hall ⟨c.toNat - 48, by omega⟩
  rwa [show 48 + (c.toNat - 48) = c.toNat by omega, Char.ofNat_toNat] at hmem

theorem hexValue_ipChars {c : Char} (hc : (hexValue c).isSome) : c ∈ ipChars := by
  have hall : ∀ n : Fin 128, (hexValue (Char.ofNat n)).isSome → Char.ofNat n ∈ ipChars := by
    decide +kernel
  have hlt : c.toNat < 128 := by
    have h9 : '9'.toNat = 57 := rfl
    have hf : 'f'.toNat = 102 := rfl
    unfold hexValue at hc
    split at hc
    · next hdigit =>
        have := (Char.isDigit_iff_toNat.mp hdigit).2
        omega
    · split at hc
      · next hletter =>
          have hle : c.toLower.toNat ≤ 'f'.toNat := hletter.2
          rw [toNat_toLower] at hle
          split at hle <;> omega
      · cases hc
  have hmem := hall ⟨c.toNat, hlt⟩
  rw [Char.ofNat_toNat] at hmem
  exact hmem hc

theorem mem_of_parseOctet {x : List Char} {n : UInt8} (h : parseOctet x = some n) :
    x ≠ [] ∧ ∀ c ∈ x, c.isDigit = true := by
  unfold parseOctet at h
  split at h
  · cases h
  · next hno =>
      simp only [not_or, Bool.not_eq_false] at hno
      exact ⟨hno.1, List.all_eq_true.mp hno.2.2.1⟩

theorem mem_of_parseIpv4 {t : List Char} {ip : Ipv4Addr} (h : parseIpv4 t = some ip) :
    ∀ c ∈ t, c.isDigit = true ∨ c = '.' := by
  have hpieces : ∀ ps, parseOctets ps = some ip → ∀ p ∈ ps, ∀ c ∈ p, c.isDigit = true := by
    intro ps hps
    match ps with
    | [a, b, c, d] =>
      simp only [parseOctets, Option.bind_eq_bind, Option.bind_eq_some_iff] at hps
      obtain ⟨_, ha, _, hb, _, hc, _, hd, -⟩ := hps
      intro p hp
      simp only [List.mem_cons, List.not_mem_nil, or_false] at hp
      rcases hp with rfl | rfl | rfl | rfl
      · exact (mem_of_parseOctet ha).2
      · exact (mem_of_parseOctet hb).2
      · exact (mem_of_parseOctet hc).2
      · exact (mem_of_parseOctet hd).2
    | [] | [_] | [_, _] | [_, _, _] | _ :: _ :: _ :: _ :: _ :: _ => cases hps
  intro c hc
  have htext : ['.'].intercalate (t.splitOn '.') = t := List.intercalate_splitOn '.'
  rw [← htext] at hc
  rcases mem_of_mem_intercalate hc with hsep | ⟨p, hp, hc⟩
  · exact .inr (List.mem_singleton.mp hsep)
  · exact .inl (hpieces _ h p hp c hc)

theorem ipChars_of_parseIpv4 {t : List Char} {ip : Ipv4Addr} (h : parseIpv4 t = some ip) :
    ∀ c ∈ t, c ∈ ipChars := by
  intro c hc
  rcases mem_of_parseIpv4 h c hc with hdigit | rfl
  · exact isDigit_ipChars hdigit
  · decide

theorem mem_of_hexNumber {x : List Char} {n : Option Nat}
    (h : (x.foldl (fun n c => n.bind fun n => (hexValue c).map (16 * n + ·)) n).isSome) :
    ∀ c ∈ x, (hexValue c).isSome := by
  induction x generalizing n with
  | nil => exact nofun
  | cons c x ih =>
    rw [List.foldl_cons] at h
    refine List.forall_mem_cons.mpr ⟨?_, ih h⟩
    cases hc : hexValue c with
    | some _ => rfl
    | none =>
      have hnone : ∀ ys : List Char, ys.foldl (fun n c => n.bind fun n =>
          (hexValue c).map (16 * n + ·)) none = none := by
        intro ys
        induction ys with
        | nil => rfl
        | cons y ys ih => exact ih
      have hbind : (n.bind fun n => (hexValue c).map (16 * n + ·)) = none := by
        rw [hc]
        cases n <;> rfl
      rw [hbind, hnone] at h
      cases h

theorem mem_of_parseGroup {x : List Char} {g : UInt16} (h : parseGroup x = some g) :
    ∀ c ∈ x, c ∈ ipChars := by
  unfold parseGroup at h
  split at h
  · cases h
  · obtain ⟨n, hn, -⟩ := Option.map_eq_some_iff.mp h
    have hsome : (hexNumber x).isSome := by
      rw [hn]
      rfl
    exact fun c hc => hexValue_ipChars (mem_of_hexNumber hsome c hc)

/-- Groups are of the characters of an address, and no more than one is two. -/
theorem mem_of_parseGroups {xs : List (List Char)} {gs : List UInt16}
    (h : parseGroups xs = some gs) :
    (∀ x ∈ xs, ∀ c ∈ x, c ∈ ipChars) ∧ gs.length ≤ xs.length + 1 := by
  induction xs generalizing gs with
  | nil =>
    cases h
    exact ⟨nofun, Nat.zero_le _⟩
  | cons x xs ih =>
    cases xs with
    | nil =>
      rw [parseGroups] at h
      rw [List.forall_mem_singleton]
      split at h
      · obtain ⟨ip, hip, rfl⟩ := Option.map_eq_some_iff.mp h
        exact ⟨ipChars_of_parseIpv4 hip, le_refl _⟩
      · obtain ⟨g, hg, rfl⟩ := Option.map_eq_some_iff.mp h
        exact ⟨mem_of_parseGroup hg, Nat.le_succ _⟩
    | cons y ys =>
      simp only [parseGroups, Option.bind_eq_bind, Option.bind_eq_some_iff] at h
      obtain ⟨g, hg, gs', hgs, heq⟩ := h
      cases heq
      obtain ⟨hmem, hlen⟩ := ih hgs
      exact ⟨List.forall_mem_cons.mpr ⟨mem_of_parseGroup hg, hmem⟩, Nat.succ_le_succ hlen⟩

theorem mem_of_mapM_parseGroup {xs : List (List Char)} {gs : List UInt16}
    (h : xs.mapM parseGroup = some gs) : ∀ x ∈ xs, ∀ c ∈ x, c ∈ ipChars := by
  induction xs generalizing gs with
  | nil => exact nofun
  | cons x xs ih =>
    simp only [List.mapM_cons, Option.bind_eq_bind, Option.bind_eq_some_iff] at h
    obtain ⟨g, hg, gs', hgs, -⟩ := h
    exact List.forall_mem_cons.mpr ⟨mem_of_parseGroup hg, ih hgs⟩

theorem mem_splitColon {t : List Char} (h : ∀ x ∈ t.splitOn ':', ∀ c ∈ x, c ∈ ipChars) :
    ∀ c ∈ t, c ∈ ipChars := by
  intro c hc
  have htext : [':'].intercalate (t.splitOn ':') = t := List.intercalate_splitOn ':'
  rw [← htext] at hc
  rcases mem_of_mem_intercalate hc with hsep | ⟨x, hx, hc⟩
  · rw [List.mem_singleton.mp hsep]
    decide
  · exact h x hx c hc

theorem mem_side {t : List Char} (h : ∀ x ∈ side t, ∀ c ∈ x, c ∈ ipChars) :
    ∀ c ∈ t, c ∈ ipChars := by
  unfold side at h
  split at h
  · next hnil =>
      rw [hnil]
      exact nofun
  · exact mem_splitColon h

theorem toIpv6_some {segments : List UInt16} {ip : Ipv6Addr} (h : toIpv6 segments = some ip) :
    segments.length = 8 := by
  unfold toIpv6 at h
  split at h
  · next hlen => exact hlen
  · cases h

/-- The text of an IPv6 address has two colons, and only characters of addresses. -/
theorem mem_of_parseIpv6 {t : List Char} {ip : Ipv6Addr} (h : parseIpv6 t = some ip) :
    2 ≤ t.count ':' ∧ ∀ c ∈ t, c ∈ ipChars := by
  have ht : [':', ':'].intercalate (splitSeq [':', ':'] t) = t :=
    intercalate_splitSeq (List.cons_ne_nil _ _)
  unfold parseIpv6 at h
  match hpieces : splitSeq [':', ':'] t with
  | [] =>
    rw [hpieces] at h
    cases h
  | [all] =>
    rw [hpieces] at h ht
    rw [List.intercalate_singleton] at ht
    obtain ⟨gs, hgs, hip⟩ := Option.bind_eq_some_iff.mp h
    obtain ⟨hmem, hlen⟩ := mem_of_parseGroups hgs
    have height := toIpv6_some hip
    have hcount : (all.splitOn ':').length ≤
        ([':'].intercalate (all.splitOn ':')).count ':' + 1 := length_le_count_intercalate
    rw [List.intercalate_splitOn] at hcount
    rw [← ht]
    exact ⟨by omega, mem_splitColon hmem⟩
  | [left, right] =>
    rw [hpieces] at h ht
    rw [List.intercalate_cons_cons, List.intercalate_singleton] at ht
    simp only [parseSides, Option.bind_eq_bind, Option.bind_eq_some_iff] at h
    obtain ⟨_, hleft, _, hright, -⟩ := h
    rw [← ht]
    constructor
    · rw [List.count_append, List.count_append]
      have htwo : [':', ':'].count ':' = 2 := by decide
      omega
    · refine List.forall_mem_append.mpr ⟨List.forall_mem_append.mpr ⟨?_, ?_⟩, ?_⟩
      · exact mem_side (mem_of_mapM_parseGroup hleft)
      · exact forall_mem_of_all (by decide)
      · exact mem_side (mem_of_parseGroups hright).1
  | _ :: _ :: _ :: _ =>
    rw [hpieces] at h
    cases h

theorem mem_of_parseIpAddr {t : List Char} {ip : IpAddr} (h : parseIpAddr t = some ip) :
    ∀ c ∈ t, c ∈ ipChars := by
  unfold parseIpAddr at h
  split at h
  · next h4 => exact ipChars_of_parseIpv4 h4
  · obtain ⟨ip6, h6, -⟩ := Option.map_eq_some_iff.mp h
    exact (mem_of_parseIpv6 h6).2

end LuodaRemote.Lib
