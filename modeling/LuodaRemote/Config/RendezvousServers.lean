/-
  The rendezvous servers (`Config::get_rendezvous_server`, `Config::get_rendezvous_servers` and
  `is_loopback_or_test_server` of `libs/hbb_common/src/config.rs`).

  Both selectors drop what names the machine itself or an address for tests. The check knows these
  addresses in their usual spellings, but for IPv6 addresses that are link-local or stand for an
  IPv4 address, and for IPv6 addresses with a port and no brackets: `not_caught_iff`. So the
  selectors are as safe as the values that they come to: `no_local_server_iff`. They do not always
  come to the same one: `selectors_agree_iff`.

  Texts are lists of characters.
-/
import LuodaRemote.Lib.IpAddr
import LuodaRemote.Lib.Lowercase

namespace LuodaRemote
open Lib

namespace RendezvousServers

/-! ## The functions -/

def rendezvousServers : List (List Char) := ["rev.dicad.cn".toList]

def rendezvousPort : Nat := 21116

def serial : Int := 3

/-- `u16::from_str` works. -/
def isU16 : List Char → Bool
  | '+' :: p => isPort p
  | p => isPort p

/-- The host in brackets. -/
def bracketed : List Char → Option (List Char)
  | '[' :: value => (splitOnce ']' value).map Prod.fst
  | _ => none

/-- The host before a port. -/
def beforePort (endpoint : List Char) : Option (List Char) :=
  ((rsplitOnce ':' endpoint).filter fun (host, port) => ':' ∉ host && isU16 port).map Prod.fst

def hostOf (endpoint : List Char) : List Char :=
  match bracketed endpoint with
  | some host => host
  | none => (beforePort endpoint).getD endpoint

/-- The addresses that the check knows. -/
def isLocalIp : Lib.IpAddr → Bool
  | .v4 v4 =>
    v4.isLoopback || v4.isUnspecified || v4.a == 169 && v4.b == 254 ||
      v4.a == 192 && v4.b == 0 && v4.c == 2 || v4.a == 198 && v4.b == 51 && v4.c == 100 ||
      v4.a == 203 && v4.b == 0 && v4.c == 113
  | .v6 v6 => v6.isLoopback || v6.isUnspecified

/-- `parsed_ip`. -/
def parsedIp (endpoint : List Char) : Option Lib.IpAddr :=
  (parseIpAddr endpoint).or (parseSocketAddr endpoint)

variable (final : List Char → List Char → Bool)

/-- The check of what is left after trimming. -/
def isLocalEndpoint (endpoint : List Char) : Bool :=
  let host := toLowercase final (hostOf endpoint)
  if host = "localhost".toList ∨ host = "0.0.0.0".toList then true
  else
    match (parsedIp endpoint).or (parseIpAddr host) with
    | none => false
    | some ip => isLocalIp ip

def isLoopbackOrTestServer (s : List Char) : Bool :=
  let endpoint := trim s
  if endpoint = [] then false else isLocalEndpoint final endpoint

/-- What the selectors read. -/
structure Sources where
  /-- `EXE_RENDEZVOUS_SERVER`. -/
  exe : List Char
  /-- The option `custom-rendezvous-server`. -/
  custom : List Char
  /-- `PROD_RENDEZVOUS_SERVER`. -/
  prod : List Char
  /-- `CONFIG2.rendezvous_server`. -/
  config2 : List Char
  /-- `CONFIG2.serial`. -/
  serial : Int
  /-- The option `rendezvous-servers`. -/
  servers : List Char

/-- The first of the three sources that has something to say. -/
def firstServer (s : Sources) : Option (List Char) :=
  [s.exe, s.custom, s.prod].find? fun server =>
    server ≠ [] && !isLoopbackOrTestServer final server

/-- The servers of the option. -/
def optionServers (s : Sources) : List (List Char) :=
  ((s.servers.splitOn ',').map trim).filter fun x => '.' ∈ x && !isLoopbackOrTestServer final x

def getRendezvousServers (s : Sources) : List (List Char) :=
  match firstServer final s with
  | some server => [server]
  | none =>
    if s.serial > serial ∧ optionServers final s ≠ [] then optionServers final s
    else rendezvousServers

def withPort (server : List Char) : List Char :=
  if ':' ∉ server then server ++ ':' :: (toString rendezvousPort).toList else server

def getRendezvousServer (s : Sources) : List Char :=
  let server := if s.exe = [] then s.custom else s.exe
  let server := if isLoopbackOrTestServer final server then [] else server
  let server := if server = [] then s.prod else server
  let server := if server = [] then s.config2 else server
  let server := if isLoopbackOrTestServer final server then [] else server
  let server := if server = [] then (getRendezvousServers final s).headD [] else server
  withPort server

/-! ## What an endpoint names -/

/-- The spellings of an endpoint with this host. -/
inductive Endpoint (host : List Char) : List Char → Prop where
  | bare : Endpoint host host
  | bracketed : Endpoint host ('[' :: (host ++ [']']))
  | port {p : List Char} (hp : isPort p = true) : Endpoint host (host ++ ':' :: p)
  | bracketedPort {p : List Char} (hp : isPort p = true) :
      Endpoint host ('[' :: (host ++ ']' :: ':' :: p))

def BadIpv4 (ip : Ipv4Addr) : Prop :=
  (ip.isLoopback || ip.isUnspecified || ip.isLinkLocal || ip.isDocumentation) = true

/-- Loopback, unspecified, link-local, or an IPv4 address that should not be. -/
def BadIpv6 (ip : Ipv6Addr) : Prop :=
  ip.isLoopback = true ∨ ip.isUnspecified = true ∨ ip.isLinkLocal = true ∨
    ∃ v4 ∈ ip.toIpv4Mapped, BadIpv4 v4

def BadIp : Lib.IpAddr → Prop
  | .v4 ip => BadIpv4 ip
  | .v6 ip => BadIpv6 ip

def Localhost (host : List Char) : Prop := host.map Char.toLower = "localhost".toList

/-- An endpoint that names the machine itself or an address for tests. -/
def Bad (s : List Char) : Prop :=
  ∃ host, Endpoint host (trim s) ∧
    (Localhost host ∨ ∃ ip, parseIpAddr host = some ip ∧ BadIp ip)

/-- An IPv6 address that the check does not know. -/
def Unknown (ip : Ipv6Addr) : Prop := ip.isLoopback = false ∧ ip.isUnspecified = false

/-- What the check lets through: IPv6 addresses that are link-local or stand for an IPv4 address,
    and any with a port and no brackets, unless all of the text is an address that it knows. -/
def Missed (s : List Char) : Prop :=
  ∃ host ip, parseIpv6 host = some ip ∧ BadIpv6 ip ∧
    (Unknown ip ∧ (trim s = host ∨ trim s = '[' :: (host ++ [']']) ∨
        ∃ p, isPort p = true ∧ trim s = '[' :: (host ++ ']' :: ':' :: p)) ∨
      (∃ p, isPort p = true ∧ trim s = host ++ ':' :: p) ∧
        ∀ whole, parseIpv6 (trim s) = some whole → Unknown whole)

/-! ## Hosts -/

section Hosts

variable {final} {host p t : List Char}

theorem not_mem_of_ipChars {c : Char} (hc : c ∉ ipChars) (hhost : ∀ c ∈ host, c ∈ ipChars) :
    c ∉ host := fun hmem => hc (hhost c hmem)

theorem ascii_ipChars (hhost : ∀ c ∈ host, c ∈ ipChars) : ∀ c ∈ host, c.toNat < 128 := by
  have hall : ∀ c ∈ ipChars, c.toNat < 128 := forall_mem_of_all (by decide)
  exact fun c hc => hall c (hhost c hc)

theorem port_digits (hp : isPort p = true) : ∀ c ∈ p, c.isDigit = true := by
  unfold isPort at hp
  simp only [Bool.and_eq_true] at hp
  exact List.all_eq_true.mp hp.1.2

theorem not_mem_port {c : Char} (hc : c.isDigit = false) (hp : isPort p = true) : c ∉ p := by
  intro hmem
  rw [port_digits hp c hmem] at hc
  cases hc

theorem isU16_port (hp : isPort p = true) : isU16 p = true := by
  have hplus : '+' ∉ p := not_mem_port (by decide) hp
  unfold isU16
  split
  · exact absurd List.mem_cons_self hplus
  · exact hp

theorem bracketed_append {rest : List Char} (h : ']' ∉ host) :
    bracketed ('[' :: (host ++ ']' :: rest)) = some host := by
  show (splitOnce ']' (host ++ ']' :: rest)).map Prod.fst = some host
  rw [splitOnce_append h]
  rfl

theorem bracketed_eq_none (h : t.head? ≠ some '[') : bracketed t = none := by
  unfold bracketed
  split
  · exact absurd rfl h
  · rfl

theorem beforePort_eq {before after : List Char} (h : rsplitOnce ':' t = some (before, after)) :
    beforePort t = if ':' ∉ before ∧ isU16 after = true then some before else none := by
  unfold beforePort
  rw [h, Option.filter_some]
  simp only [Bool.and_eq_true, decide_eq_true_eq]
  split <;> rfl

theorem hostOf_bare (hbracket : host.head? ≠ some '[') (hcolon : ':' ∉ host) :
    hostOf host = host := by
  unfold hostOf beforePort
  rw [bracketed_eq_none hbracket, rsplitOnce_eq_none hcolon]
  rfl

theorem hostOf_bracketed {rest : List Char} (h : ']' ∉ host) :
    hostOf ('[' :: (host ++ ']' :: rest)) = host := by
  unfold hostOf
  rw [bracketed_append h]

theorem head_append_colon (hbracket : host.head? ≠ some '[') :
    (host ++ ':' :: p).head? ≠ some '[' := by
  cases host with
  | nil => exact fun h => absurd (Option.some.inj h) (by decide)
  | cons c cs => exact hbracket

theorem hostOf_port (hbracket : host.head? ≠ some '[') (hcolon : ':' ∉ host)
    (hp : isPort p = true) : hostOf (host ++ ':' :: p) = host := by
  have hsplit : rsplitOnce ':' (host ++ ':' :: p) = some (host, p) :=
    rsplitOnce_append (not_mem_port (by decide) hp)
  unfold hostOf
  rw [bracketed_eq_none (head_append_colon hbracket), beforePort_eq hsplit,
    if_pos ⟨hcolon, isU16_port hp⟩]
  rfl

/-- A host with colons is not told from a port. -/
theorem hostOf_colons (hbracket : host.head? ≠ some '[') (hcolon : ':' ∈ host)
    (hp : isPort p = true) : hostOf (host ++ ':' :: p) = host ++ ':' :: p := by
  have hsplit : rsplitOnce ':' (host ++ ':' :: p) = some (host, p) :=
    rsplitOnce_append (not_mem_port (by decide) hp)
  unfold hostOf
  rw [bracketed_eq_none (head_append_colon hbracket), beforePort_eq hsplit,
    if_neg fun h => h.1 hcolon]
  rfl

theorem hostOf_ipv6 {ip : Ipv6Addr} (h : parseIpv6 host = some ip) : hostOf host = host := by
  obtain ⟨hcount, hmem⟩ := mem_of_parseIpv6 h
  have hbracket : host.head? ≠ some '[' := fun hhead =>
    not_mem_of_ipChars (by decide) hmem (List.mem_of_head? hhead)
  unfold hostOf
  rw [bracketed_eq_none hbracket]
  cases hsplit : rsplitOnce ':' host with
  | none =>
    unfold beforePort
    rw [hsplit]
    rfl
  | some parts =>
    obtain ⟨before, after⟩ := parts
    obtain ⟨rfl, hafter⟩ := rsplitOnce_some hsplit
    rw [List.count_append, List.count_cons_self, List.count_eq_zero_of_not_mem hafter] at hcount
    have hbefore : ':' ∈ before := List.count_pos_iff.mp (by omega)
    rw [beforePort_eq hsplit, if_neg fun h => h.1 hbefore]
    rfl

end Hosts

/-! ## Which address is found -/

section Resolved

variable {host p t : List Char} {ip : Lib.IpAddr}

/-- The address that the check looks at. -/
def resolved (t : List Char) : Option Lib.IpAddr :=
  (parsedIp t).or (parseIpAddr (toLowercase final (hostOf t)))

variable {final}

theorem parseIpAddr_lower (hhost : ∀ c ∈ host, c.toNat < 128) :
    parseIpAddr (toLowercase final host) = parseIpAddr host := by
  rw [toLowercase_of_ascii hhost, parseIpAddr_map_toLower]

theorem isLocalEndpoint_of_resolved (h : resolved final t = some ip)
    (hlocal : isLocalIp ip = true) : isLocalEndpoint final t = true := by
  unfold isLocalEndpoint
  dsimp only
  split
  · rfl
  · unfold resolved at h
    rw [h]
    exact hlocal

theorem isLocalEndpoint_of_localhost (h : Localhost (hostOf t)) :
    isLocalEndpoint final t = true := by
  have hascii : ∀ c ∈ hostOf t, c.toNat < 128 := by
    intro c hc
    have hlower : c.toLower ∈ "localhost".toList := h ▸ List.mem_map_of_mem hc
    have hall : ∀ d ∈ "localhost".toList, d.toNat < 128 := forall_mem_of_all (by decide)
    have hlt := hall _ hlower
    rw [toNat_toLower] at hlt
    split at hlt <;> omega
  unfold isLocalEndpoint
  dsimp only
  rw [toLowercase_of_ascii hascii, if_pos (.inl h)]

/-- Text with a colon is no special name, so the address decides. -/
theorem isLocalEndpoint_eq (hascii : ∀ c ∈ hostOf t, c.toNat < 128) (hcolon : ':' ∈ hostOf t) :
    isLocalEndpoint final t = (resolved final t).any isLocalIp := by
  have hmem : ':' ∈ (hostOf t).map Char.toLower := List.mem_map.mpr ⟨':', hcolon, by decide⟩
  have hno : ∀ name : List Char, ':' ∉ name → (hostOf t).map Char.toLower ≠ name := by
    rintro name hname rfl
    exact hname hmem
  unfold isLocalEndpoint resolved
  dsimp only
  rw [toLowercase_of_ascii hascii, if_neg (not_or.mpr ⟨hno _ (by decide), hno _ (by decide)⟩)]
  split
  · next h => rw [h]; rfl
  · next ip h => rw [h]; rfl

theorem parseIpAddr_eq_none (h : ∃ c ∈ t, c ∉ ipChars) : parseIpAddr t = none := by
  obtain ⟨c, hc, hno⟩ := h
  cases hparse : parseIpAddr t with
  | none => rfl
  | some ip => exact absurd (mem_of_parseIpAddr hparse c hc) hno

theorem resolved_bare (h : parseIpAddr host = some ip) : resolved final host = some ip := by
  unfold resolved parsedIp
  rw [h]
  rfl

theorem resolved_bracketed (h : parseIpAddr host = some ip) :
    resolved final ('[' :: (host ++ [']'])) = some ip := by
  have hmem := mem_of_parseIpAddr h
  have hclose : ']' ∉ host := not_mem_of_ipChars (by decide) hmem
  have hip : parseIpAddr ('[' :: (host ++ [']'])) = none :=
    parseIpAddr_eq_none ⟨'[', List.mem_cons_self, by decide⟩
  have hsocket : parseSocketAddr ('[' :: (host ++ [']'])) = none := by
    rw [parseSocketAddr_bracket]
    unfold parseSocketAddrV6
    rw [List.splitOn_append_cons_self_of_not_mem hclose]
    rfl
  unfold resolved parsedIp
  rw [hip, hsocket, hostOf_bracketed hclose, parseIpAddr_lower (ascii_ipChars hmem), h]
  rfl

/-- The text of an IPv4 address is none of an IPv6 address. -/
theorem parseIpv6_of_no_colon (h : ':' ∉ t) : parseIpv6 t = none := by
  cases hparse : parseIpv6 t with
  | none => rfl
  | some ip =>
    have hcount := (mem_of_parseIpv6 hparse).1
    rw [List.count_eq_zero_of_not_mem h] at hcount
    cases hcount

theorem colon_not_mem_ipv4 {v4 : Ipv4Addr} (h : parseIpv4 host = some v4) : ':' ∉ host := by
  intro hmem
  have hchar := mem_of_parseIpv4 h ':' hmem
  revert hchar
  decide

theorem parseIpAddr_v4 {v4 : Ipv4Addr} (h : parseIpAddr host = some (.v4 v4)) :
    parseIpv4 host = some v4 := by
  unfold parseIpAddr at h
  split at h
  · next h4 =>
      cases h
      exact h4
  · obtain ⟨_, -, heq⟩ := Option.map_eq_some_iff.mp h
    cases heq

theorem parseIpAddr_v6 {v6 : Ipv6Addr} :
    parseIpAddr host = some (.v6 v6) ↔ parseIpv6 host = some v6 := by
  unfold parseIpAddr
  split
  · next v4 h4 =>
      rw [parseIpv6_of_no_colon (colon_not_mem_ipv4 h4)]
      exact ⟨nofun, nofun⟩
  · cases parseIpv6 host with
    | none => exact ⟨nofun, nofun⟩
    | some ip =>
      rw [Option.map_some, Option.some.injEq, Option.some.injEq]
      exact Lib.IpAddr.v6.injEq ip v6 ▸ Iff.rfl

theorem resolved_bracketedPort (h : parseIpAddr host = some ip) (hp : isPort p = true) :
    resolved final ('[' :: (host ++ ']' :: ':' :: p)) = some ip := by
  have hmem := mem_of_parseIpAddr h
  have hclose : ']' ∉ host := not_mem_of_ipChars (by decide) hmem
  have hpercent : '%' ∉ host := not_mem_of_ipChars (by decide) hmem
  have hport : ']' ∉ ':' :: p := by
    refine fun hmem => (List.mem_cons.mp hmem).elim nofun ?_
    exact not_mem_port (by decide) hp
  have hip : parseIpAddr ('[' :: (host ++ ']' :: ':' :: p)) = none :=
    parseIpAddr_eq_none ⟨'[', List.mem_cons_self, by decide⟩
  have hsocket : parseSocketAddr ('[' :: (host ++ ']' :: ':' :: p)) = (parseIpv6 host).map .v6 := by
    rw [parseSocketAddr_bracket]
    unfold parseSocketAddrV6
    rw [List.splitOn_append_cons_self_of_not_mem hclose, List.splitOn_eq_singleton hport]
    dsimp only
    rw [if_pos ⟨rfl, hp⟩, List.splitOn_eq_singleton hpercent]
  unfold resolved parsedIp
  rw [hip, hsocket, hostOf_bracketed hclose, parseIpAddr_lower (ascii_ipChars hmem), h]
  cases ip with
  | v4 v4 =>
    rw [parseIpv6_of_no_colon (colon_not_mem_ipv4 (parseIpAddr_v4 h))]
    rfl
  | v6 v6 =>
    rw [parseIpAddr_v6.mp h]
    rfl

theorem resolved_ipv4Port {v4 : Ipv4Addr} (h : parseIpv4 host = some v4) (hp : isPort p = true) :
    resolved final (host ++ ':' :: p) = some (.v4 v4) := by
  have hcolon := colon_not_mem_ipv4 h
  have hpcolon : ':' ∉ p := not_mem_port (by decide) hp
  have hhead : (host ++ ':' :: p).head? ≠ some '[' := head_append_colon fun hhead =>
    not_mem_of_ipChars (by decide) (ipChars_of_parseIpv4 h) (List.mem_of_head? hhead)
  have hip : parseIpAddr (host ++ ':' :: p) = none := by
    unfold parseIpAddr
    split
    · next h4 =>
        exact absurd (List.mem_append_right _ List.mem_cons_self) (colon_not_mem_ipv4 h4)
    · cases hparse : parseIpv6 (host ++ ':' :: p) with
      | none => rfl
      | some v6 =>
        have hcount := (mem_of_parseIpv6 hparse).1
        rw [List.count_append, List.count_cons_self, List.count_eq_zero_of_not_mem hcolon,
          List.count_eq_zero_of_not_mem hpcolon] at hcount
        omega
  unfold resolved parsedIp
  unfold parseSocketAddr parseSocketAddrV4
  rw [hip, if_neg hhead, List.splitOn_append_cons_self_of_not_mem hcolon,
    List.splitOn_eq_singleton hpcolon]
  dsimp only
  rw [if_pos hp, h]
  rfl

/-- An address with a port behind it has no bracket in front, and is plain. -/
theorem shape_ipv6Port {v6 : Ipv6Addr} (h : parseIpv6 host = some v6) (hp : isPort p = true) :
    2 ≤ host.count ':' ∧ host.head? ≠ some '[' ∧ ∀ c ∈ host ++ ':' :: p, c.toNat < 128 := by
  obtain ⟨hcount, hmem⟩ := mem_of_parseIpv6 h
  refine ⟨hcount, fun hhead => ?_, ascii_ipChars ?_⟩
  · exact not_mem_of_ipChars (by decide) hmem (List.mem_of_head? hhead)
  · refine List.forall_mem_append.mpr ⟨hmem, List.forall_mem_cons.mpr ⟨by decide, fun c hc => ?_⟩⟩
    exact isDigit_ipChars (port_digits hp c hc)

/-- With a port and no brackets only the whole text may be an address. -/
theorem resolved_ipv6Port {v6 : Ipv6Addr} (h : parseIpv6 host = some v6) (hp : isPort p = true) :
    resolved final (host ++ ':' :: p) = (parseIpv6 (host ++ ':' :: p)).map .v6 := by
  obtain ⟨hcount, hbracket, hascii⟩ := shape_ipv6Port h hp
  have hcolon : ':' ∈ host := List.count_pos_iff.mp (by omega)
  have hip : parseIpAddr (host ++ ':' :: p) = (parseIpv6 (host ++ ':' :: p)).map .v6 := by
    unfold parseIpAddr
    split
    · next h4 =>
        exact absurd (List.mem_append_right _ List.mem_cons_self) (colon_not_mem_ipv4 h4)
    · rfl
  have hsocket : parseSocketAddr (host ++ ':' :: p) = none := by
    unfold parseSocketAddr parseSocketAddrV4
    rw [if_neg (head_append_colon hbracket)]
    split
    · next a b hpieces =>
        -- Two pieces are one colon.
        have htext : [':'].intercalate ((host ++ ':' :: p).splitOn ':') = host ++ ':' :: p :=
          List.intercalate_splitOn ':'
        have ha : ':' ∉ a := not_mem_of_mem_splitOn (hpieces ▸ List.mem_cons_self)
        have hb : ':' ∉ b :=
          not_mem_of_mem_splitOn (hpieces ▸ List.mem_cons_of_mem _ List.mem_cons_self)
        rw [hpieces, List.intercalate_cons_cons, List.intercalate_singleton] at htext
        have hcounts := congrArg (List.count ':') htext
        simp only [List.count_append, List.count_cons_self, List.count_eq_zero_of_not_mem ha,
          List.count_eq_zero_of_not_mem hb, List.count_nil] at hcounts
        omega
    · rfl
  unfold resolved parsedIp
  rw [hip, hsocket, hostOf_colons hbracket hcolon hp, parseIpAddr_lower hascii, hip, Option.or_none,
    Option.or_self]

end Resolved

/-! ## What the check lets through -/

section Caught

variable {final} {host p t : List Char}

theorem isLocalIp_of_bad {v4 : Ipv4Addr} (h : BadIpv4 v4) : isLocalIp (.v4 v4) = true := by
  unfold BadIpv4 Ipv4Addr.isLinkLocal Ipv4Addr.isDocumentation at h
  unfold isLocalIp
  simp only [Bool.or_assoc] at h ⊢
  exact h

theorem isLocalIp_unknown {v6 : Ipv6Addr} : isLocalIp (.v6 v6) = false ↔ Unknown v6 :=
  Bool.or_eq_false_iff

theorem localhost_mem (h : Localhost host) : ∀ c ∈ host, 65 ≤ c.toNat ∧ c.toNat < 128 := by
  intro c hc
  have hlower : c.toLower ∈ "localhost".toList := h ▸ List.mem_map_of_mem hc
  have hall : ∀ d ∈ "localhost".toList, 97 ≤ d.toNat ∧ d.toNat < 123 :=
    forall_mem_of_all (by decide)
  have hrange := hall _ hlower
  rw [toNat_toLower] at hrange
  split at hrange <;> omega

theorem localhost_not_mem (h : Localhost host) {c : Char} (hc : c.toLower ∉ "localhost".toList) :
    c ∉ host := by
  intro hmem
  have hlower : c.toLower ∈ host.map Char.toLower := List.mem_map_of_mem hmem
  rw [h] at hlower
  exact hc hlower

/-- All spellings of `localhost` are caught. -/
theorem hostOf_localhost (h : Localhost host) (ht : Endpoint host t) : hostOf t = host := by
  have hcolon : ':' ∉ host := localhost_not_mem h (by decide)
  have hclose : ']' ∉ host := localhost_not_mem h (by decide)
  have hhead : host.head? ≠ some '[' := fun hhead =>
    localhost_not_mem h (by decide) (List.mem_of_head? hhead)
  cases ht with
  | bare => exact hostOf_bare hhead hcolon
  | bracketed => exact hostOf_bracketed hclose
  | port hp => exact hostOf_port hhead hcolon hp
  | bracketedPort hp => exact hostOf_bracketed hclose

/-- So is every spelling of an IPv4 address. -/
theorem resolved_ipv4 {v4 : Ipv4Addr} (h : parseIpAddr host = some (.v4 v4))
    (ht : Endpoint host t) : resolved final t = some (.v4 v4) := by
  cases ht with
  | bare => exact resolved_bare h
  | bracketed => exact resolved_bracketed h
  | port hp => exact resolved_ipv4Port (parseIpAddr_v4 h) hp
  | bracketedPort hp => exact resolved_bracketedPort h hp

/-- An IPv6 address by itself, or in brackets with or without a port. -/
theorem isLocalEndpoint_ipv6 {v6 : Ipv6Addr} (h : parseIpv6 host = some v6)
    (ht : t = host ∨ t = '[' :: (host ++ [']']) ∨
      ∃ p, isPort p = true ∧ t = '[' :: (host ++ ']' :: ':' :: p)) :
    isLocalEndpoint final t = isLocalIp (.v6 v6) := by
  obtain ⟨hcount, hmem⟩ := mem_of_parseIpv6 h
  have hcolon : ':' ∈ host := List.count_pos_iff.mp (by omega)
  have hclose : ']' ∉ host := not_mem_of_ipChars (by decide) hmem
  have hip := parseIpAddr_v6.mpr h
  have hfound : hostOf t = host ∧ resolved final t = some (.v6 v6) := by
    rcases ht with rfl | rfl | ⟨p, hp, rfl⟩
    · exact ⟨hostOf_ipv6 h, resolved_bare hip⟩
    · exact ⟨hostOf_bracketed hclose, resolved_bracketed hip⟩
    · exact ⟨hostOf_bracketed hclose, resolved_bracketedPort hip hp⟩
  rw [isLocalEndpoint_eq (hfound.1.symm ▸ ascii_ipChars hmem) (hfound.1.symm ▸ hcolon), hfound.2]
  rfl

theorem isLocalEndpoint_ipv6Port {v6 : Ipv6Addr} (h : parseIpv6 host = some v6)
    (hp : isPort p = true) : isLocalEndpoint final (host ++ ':' :: p) = false ↔
      ∀ whole, parseIpv6 (host ++ ':' :: p) = some whole → Unknown whole := by
  obtain ⟨hcount, hhead, hascii⟩ := shape_ipv6Port h hp
  have hcolon : ':' ∈ host := List.count_pos_iff.mp (by omega)
  have hhost := hostOf_colons hhead hcolon hp
  rw [isLocalEndpoint_eq (hhost.symm ▸ hascii)
    (hhost.symm ▸ List.mem_append_right _ List.mem_cons_self), resolved_ipv6Port h hp]
  cases hwhole : parseIpv6 (host ++ ':' :: p) with
  | none => exact ⟨fun _ => nofun, fun _ => rfl⟩
  | some whole =>
    rw [Option.map_some, Option.any_some, isLocalIp_unknown]
    exact ⟨fun hunknown _ heq => Option.some.inj heq ▸ hunknown, fun hall => hall whole rfl⟩

theorem endpoint_ne_nil (ht : Endpoint host t) (hne : host ≠ []) : t ≠ [] := by
  cases ht with
  | bare => exact hne
  | bracketed => exact List.cons_ne_nil _ _
  | port hp => exact List.append_ne_nil_of_left_ne_nil hne _
  | bracketedPort hp => exact List.cons_ne_nil _ _

theorem parseIpAddr_ne_nil {ip : Lib.IpAddr} (h : parseIpAddr host = some ip) : host ≠ [] := by
  rintro rfl
  revert h
  have hnil : parseIpAddr [] = none := by decide
  rw [hnil]
  exact nofun

theorem isLoopbackOrTestServer_eq {s : List Char} (hne : trim s ≠ []) :
    isLoopbackOrTestServer final s = isLocalEndpoint final (trim s) := if_neg hne

variable (final) in
/-- The check lets through precisely these. -/
theorem not_caught_iff {s : List Char} :
    Bad s ∧ isLoopbackOrTestServer final s = false ↔ Missed s := by
  constructor
  · rintro ⟨⟨host, ht, hbad⟩, hpass⟩
    have hne : host ≠ [] := by
      rcases hbad with hlocal | ⟨ip, hip, -⟩
      · rintro rfl
        exact absurd (congrArg List.length hlocal) (by decide)
      · exact parseIpAddr_ne_nil hip
    rw [isLoopbackOrTestServer_eq (endpoint_ne_nil ht hne)] at hpass
    rcases hbad with hlocal | ⟨ip, hip, hbad⟩
    · have hcaught : isLocalEndpoint final (trim s) = true :=
        isLocalEndpoint_of_localhost ((hostOf_localhost hlocal ht).symm ▸ hlocal)
      rw [hcaught] at hpass
      cases hpass
    · cases ip with
      | v4 v4 =>
        have hcaught : isLocalEndpoint final (trim s) = true :=
          isLocalEndpoint_of_resolved (resolved_ipv4 hip ht) (isLocalIp_of_bad hbad)
        rw [hcaught] at hpass
        cases hpass
      | v6 v6 =>
        have h6 := parseIpAddr_v6.mp hip
        refine ⟨host, v6, h6, hbad, ?_⟩
        have hown (ht : trim s = host ∨ trim s = '[' :: (host ++ [']']) ∨
            ∃ p, isPort p = true ∧ trim s = '[' :: (host ++ ']' :: ':' :: p)) : Unknown v6 := by
          rw [isLocalEndpoint_ipv6 h6 ht] at hpass
          exact isLocalIp_unknown.mp hpass
        generalize trim s = t at *
        cases ht with
        | bare => exact .inl ⟨hown (.inl rfl), .inl rfl⟩
        | bracketed => exact .inl ⟨hown (.inr (.inl rfl)), .inr (.inl rfl)⟩
        | @port p hp =>
          exact .inr ⟨⟨p, hp, rfl⟩, (isLocalEndpoint_ipv6Port h6 hp).mp hpass⟩
        | @bracketedPort p hp =>
          exact .inl ⟨hown (.inr (.inr ⟨p, hp, rfl⟩)), .inr (.inr ⟨p, hp, rfl⟩)⟩
  · rintro ⟨host, v6, h6, hbad, hspelled⟩
    have hip := parseIpAddr_v6.mpr h6
    have hne := parseIpAddr_ne_nil hip
    rcases hspelled with ⟨hunknown, ht⟩ | ⟨⟨p, hp, ht⟩, hwhole⟩
    · have hpoint : Endpoint host (trim s) := by
        rcases ht with ht | ht | ⟨p, hp, ht⟩
        · exact ht ▸ .bare
        · exact ht ▸ .bracketed
        · exact ht ▸ .bracketedPort hp
      refine ⟨⟨host, hpoint, .inr ⟨_, hip, hbad⟩⟩, ?_⟩
      rw [isLoopbackOrTestServer_eq (endpoint_ne_nil hpoint hne), isLocalEndpoint_ipv6 h6 ht,
        isLocalIp_unknown]
      exact hunknown
    · have hpoint : Endpoint host (trim s) := ht ▸ .port hp
      refine ⟨⟨host, hpoint, .inr ⟨_, hip, hbad⟩⟩, ?_⟩
      rw [isLoopbackOrTestServer_eq (endpoint_ne_nil hpoint hne), ht,
        isLocalEndpoint_ipv6Port h6 hp, ← ht]
      exact hwhole

end Caught

/-! ## The port that is added -/

section Port

variable {final} {host v : List Char}

theorem not_isWhite {c : Char} (hlo : 33 ≤ c.toNat) (hhi : c.toNat < 128) : isWhite c = false := by
  unfold isWhite
  simp
  omega

theorem portText_eq : (toString rendezvousPort).toList = "21116".toList := by decide

theorem withPort_eq (hcolon : ':' ∉ v) : withPort v = v ++ ':' :: "21116".toList := by
  unfold withPort
  rw [if_pos hcolon, portText_eq]

theorem trim_append_port :
    trim (v ++ ':' :: "21116".toList) = v.dropWhile isWhite ++ ':' :: "21116".toList := by
  have hwhite : isWhite ':' = false := by decide
  have hleft : (v ++ ':' :: "21116".toList).dropWhile isWhite =
      v.dropWhile isWhite ++ ':' :: "21116".toList := by
    rw [List.dropWhile_append]
    split
    · next hnil =>
        rw [List.isEmpty_iff.mp hnil, List.dropWhile_cons_of_neg (by rw [hwhite]; decide)]
        rfl
    · rfl
  unfold trim
  rw [hleft]
  refine rdropWhile_white fun c hc => ?_
  rw [List.getLast?_append] at hc
  cases hc
  decide

/-- A host has no white space. -/
theorem host_not_white (h : Localhost host ∨ ∃ ip, parseIpAddr host = some ip ∧ BadIp ip) :
    ∀ c ∈ host, isWhite c = false := by
  intro c hc
  rcases h with hlocal | ⟨ip, hip, -⟩
  · have hrange := localhost_mem hlocal c hc
    exact not_isWhite (by omega) hrange.2
  · have hall : ∀ c ∈ ipChars, isWhite c = false := forall_mem_of_all (by decide)
    exact hall c (mem_of_parseIpAddr hip c hc)

/-- A host with a colon is an IPv6 address, which has two. -/
theorem count_host (h : Localhost host ∨ ∃ ip, parseIpAddr host = some ip ∧ BadIp ip) :
    host.count ':' ≠ 1 := by
  rcases h with hlocal | ⟨ip, hip, -⟩
  · rw [List.count_eq_zero_of_not_mem (localhost_not_mem hlocal (by decide))]
    decide
  · cases ip with
    | v4 v4 =>
      rw [List.count_eq_zero_of_not_mem (colon_not_mem_ipv4 (parseIpAddr_v4 hip))]
      decide
    | v6 v6 =>
      have hcount := (mem_of_parseIpv6 (parseIpAddr_v6.mp hip)).1
      omega

theorem trim_of_dropWhile {w : List Char} (h : v.dropWhile isWhite = w)
    (hlast : ∀ c ∈ w.getLast?, isWhite c = false) : trim v = w := by
  unfold trim
  rw [h]
  exact rdropWhile_white hlast

/-- The port that is added does not make a bad endpoint of one that is not. -/
theorem bad_of_withPort (hcolon : ':' ∉ v) (h : Bad (withPort v)) : Bad v := by
  obtain ⟨host, ht, hbad⟩ := h
  rw [withPort_eq hcolon, trim_append_port] at ht
  have hstart : ':' ∉ v.dropWhile isWhite :=
    fun hmem => hcolon ((List.dropWhile_suffix _).subset hmem)
  have hport : ':' ∉ "21116".toList := by decide
  have hwhite := host_not_white hbad
  generalize heq : v.dropWhile isWhite ++ ':' :: "21116".toList = t at ht
  cases ht with
  | bare =>
    refine absurd ?_ (count_host hbad)
    rw [← heq, List.count_append, List.count_cons_self, List.count_eq_zero_of_not_mem hstart,
      List.count_eq_zero_of_not_mem hport]
  | bracketed =>
    have hlast := congrArg List.getLast? heq
    rw [List.getLast?_append, ← List.cons_append, List.getLast?_append] at hlast
    have hlast : some '6' = some ']' := hlast
    exact absurd hlast (by decide)
  | port hp =>
    obtain ⟨hhost, -, -⟩ := (List.append_cons_inj_of_notMem hstart hport).mp heq
    have htrim := trim_of_dropWhile hhost fun c hc => hwhite c (List.mem_of_getLast? hc)
    exact ⟨host, htrim ▸ .bare, hbad⟩
  | @bracketedPort p hp =>
    have heq : v.dropWhile isWhite ++ ':' :: "21116".toList =
        ('[' :: (host ++ [']'])) ++ ':' :: p := by
      rw [heq]
      simp
    obtain ⟨hhost, -, -⟩ := (List.append_cons_inj_of_notMem hstart hport).mp heq
    have htrim : trim v = '[' :: (host ++ [']']) := by
      refine trim_of_dropWhile hhost fun c hc => ?_
      rw [← List.cons_append, List.getLast?_append] at hc
      cases hc
      decide
    exact ⟨host, htrim ▸ .bracketed, hbad⟩

theorem colon_mem_of_missed (h : Missed v) : ':' ∈ v := by
  obtain ⟨host, ip, hip, -, hspelled⟩ := h
  have hcolon : ':' ∈ host := List.count_pos_iff.mp (by have := (mem_of_parseIpv6 hip).1; omega)
  have hmem : ':' ∈ trim v := by
    rcases hspelled with ⟨-, ht | ht | ⟨p, -, ht⟩⟩ | ⟨⟨p, -, ht⟩, -⟩
    · exact ht ▸ hcolon
    · exact ht ▸ List.mem_cons_of_mem _ (List.mem_append_left _ hcolon)
    · exact ht ▸ List.mem_cons_of_mem _ (List.mem_append_left _ hcolon)
    · exact ht ▸ List.mem_append_left _ hcolon
  have hdrop := (List.rdropWhile_prefix isWhite (v.dropWhile isWhite)).subset hmem
  exact (List.dropWhile_suffix _).subset hdrop

theorem bad_withPort_iff (hpass : isLoopbackOrTestServer final v = false) :
    Bad (withPort v) ↔ Missed v := by
  by_cases hcolon : ':' ∈ v
  · have hsame : withPort v = v := if_neg (fun h => h hcolon)
    rw [hsame]
    exact ⟨fun hbad => (not_caught_iff final).mp ⟨hbad, hpass⟩, fun hmissed =>
      (not_caught_iff final).mpr hmissed |>.1⟩
  · refine ⟨fun hbad => ?_, fun hmissed => absurd (colon_mem_of_missed hmissed) hcolon⟩
    exact (not_caught_iff final).mp ⟨bad_of_withPort hcolon hbad, hpass⟩

theorem bad_iff (hpass : isLoopbackOrTestServer final v = false) : Bad v ↔ Missed v :=
  ⟨fun hbad => (not_caught_iff final).mp ⟨hbad, hpass⟩, fun hmissed =>
    ((not_caught_iff final).mpr hmissed).1⟩

end Port

/-! ## The selectors -/

section Selectors

variable (s : Sources)

/-- A value that the selectors pass over. -/
def Skipped (v : List Char) : Prop := v = [] ∨ isLoopbackOrTestServer final v = true

/-- No server of the option is missed. -/
def CleanOption : Prop :=
  s.serial > serial → ∀ v ∈ s.servers.splitOn ',', '.' ∈ trim v → ¬ Missed (trim v)

/-- No value is missed that the selectors come to. -/
structure Clean : Prop where
  exe : ¬ Missed s.exe
  custom : Skipped final s.exe → ¬ Missed s.custom
  prod : Skipped final s.exe → Skipped final s.custom → ¬ Missed s.prod
  servers : Skipped final s.exe → Skipped final s.custom → Skipped final s.prod → CleanOption s
  /-- Where the single server comes from the other two sources. -/
  single : Skipped final (if s.exe = [] then s.custom else s.exe) →
    ¬ Missed (if s.prod = [] then s.config2 else s.prod)

variable {final s} {v : List Char}

theorem not_skipped : ¬ Skipped final v ↔ v ≠ [] ∧ isLoopbackOrTestServer final v = false := by
  unfold Skipped
  rw [not_or, Bool.not_eq_true]

theorem not_missed_of_skipped (h : Skipped final v) : ¬ Missed v := by
  intro hmissed
  rcases h with rfl | hcaught
  · exact absurd (colon_mem_of_missed hmissed) List.not_mem_nil
  · rw [((not_caught_iff final).mpr hmissed).2] at hcaught
    cases hcaught

/-- The servers that are built in. -/
theorem builtin_not_bad {r : List Char} (hr : r ∈ rendezvousServers) :
    ¬ Bad r ∧ ¬ Bad (withPort r) := by
  rw [List.mem_singleton.mp hr]
  have hpass : isLoopbackOrTestServer (fun _ _ => false) "rev.dicad.cn".toList = false := by
    decide +kernel
  have hcolon : ':' ∉ "rev.dicad.cn".toList := by decide
  have hmissed : ¬ Missed "rev.dicad.cn".toList := fun h => hcolon (colon_mem_of_missed h)
  exact ⟨(bad_iff hpass).not.mpr hmissed, (bad_withPort_iff hpass).not.mpr hmissed⟩

theorem keep_iff : (decide (v ≠ []) && !isLoopbackOrTestServer final v) = true ↔
    ¬ Skipped final v := by
  rw [not_skipped, Bool.and_eq_true, decide_eq_true_eq, Bool.not_eq_true']

theorem find_kept {rest : List (List Char)} (h : ¬ Skipped final v) :
    (v :: rest).find? (fun server => server ≠ [] && !isLoopbackOrTestServer final server) =
      some v := List.find?_cons_of_pos (keep_iff.mpr h)

theorem find_skipped {rest : List (List Char)} (h : Skipped final v) :
    (v :: rest).find? (fun server => server ≠ [] && !isLoopbackOrTestServer final server) =
      rest.find? fun server => server ≠ [] && !isLoopbackOrTestServer final server :=
  List.find?_cons_of_neg (keep_iff.not.mpr (not_not.mpr h))

theorem servers_exe (h : ¬ Skipped final s.exe) : getRendezvousServers final s = [s.exe] := by
  have hfirst : firstServer final s = some s.exe := find_kept h
  unfold getRendezvousServers
  rw [hfirst]

theorem servers_custom (hexe : Skipped final s.exe) (h : ¬ Skipped final s.custom) :
    getRendezvousServers final s = [s.custom] := by
  have hfirst : firstServer final s = some s.custom := by
    unfold firstServer
    rw [find_skipped hexe, find_kept h]
  unfold getRendezvousServers
  rw [hfirst]

theorem servers_prod (hexe : Skipped final s.exe) (hcustom : Skipped final s.custom)
    (h : ¬ Skipped final s.prod) : getRendezvousServers final s = [s.prod] := by
  have hfirst : firstServer final s = some s.prod := by
    unfold firstServer
    rw [find_skipped hexe, find_skipped hcustom, find_kept h]
  unfold getRendezvousServers
  rw [hfirst]

theorem servers_rest (hexe : Skipped final s.exe) (hcustom : Skipped final s.custom)
    (hprod : Skipped final s.prod) : getRendezvousServers final s =
      if s.serial > serial ∧ optionServers final s ≠ [] then optionServers final s
      else rendezvousServers := by
  have hfirst : firstServer final s = none := by
    unfold firstServer
    rw [find_skipped hexe, find_skipped hcustom, find_skipped hprod]
    rfl
  unfold getRendezvousServers
  rw [hfirst]

theorem mem_optionServers : v ∈ optionServers final s ↔
    (∃ x ∈ s.servers.splitOn ',', trim x = v) ∧ '.' ∈ v ∧
      isLoopbackOrTestServer final v = false := by
  unfold optionServers
  rw [List.mem_filter, List.mem_map, Bool.and_eq_true, decide_eq_true_eq, Bool.not_eq_true']

variable (final s) in
/-- Where the servers come from: a value that is not passed over, or the built-in list. -/
theorem servers_cases :
    (∃ v, ¬ Skipped final v ∧ getRendezvousServers final s = [v]) ∨
      getRendezvousServers final s = optionServers final s ∧ optionServers final s ≠ [] ∨
      getRendezvousServers final s = rendezvousServers := by
  by_cases hexe : Skipped final s.exe
  · by_cases hcustom : Skipped final s.custom
    · by_cases hprod : Skipped final s.prod
      · rw [servers_rest hexe hcustom hprod]
        split
        · next h => exact .inr (.inl ⟨rfl, h.2⟩)
        · exact .inr (.inr rfl)
      · exact .inl ⟨_, hprod, servers_prod hexe hcustom hprod⟩
    · exact .inl ⟨_, hcustom, servers_custom hexe hcustom⟩
  · exact .inl ⟨_, hexe, servers_exe hexe⟩

variable (final s) in
theorem servers_ne_nil : getRendezvousServers final s ≠ [] := by
  rcases servers_cases final s with ⟨v, -, heq⟩ | ⟨heq, hne⟩ | heq
  · exact heq ▸ List.cons_ne_nil _ _
  · exact heq ▸ hne
  · exact heq ▸ List.cons_ne_nil _ _

/-- With the port a server of the list is as it was. -/
theorem bad_withPort_of_mem {r : List Char} (hr : r ∈ getRendezvousServers final s) :
    Bad (withPort r) ↔ Bad r := by
  have hkept (hpass : isLoopbackOrTestServer final r = false) : Bad (withPort r) ↔ Bad r :=
    (bad_withPort_iff hpass).trans (bad_iff hpass).symm
  rcases servers_cases final s with ⟨v, hv, heq⟩ | ⟨heq, -⟩ | heq
  · rw [heq, List.mem_singleton] at hr
    exact hkept (hr ▸ (not_skipped.mp hv).2)
  · exact hkept (mem_optionServers.mp (heq ▸ hr)).2.2
  · have hnot := builtin_not_bad (heq ▸ hr)
    exact iff_of_false hnot.2 hnot.1

theorem not_bad_singleton (h : ¬ Skipped final v) :
    (∀ r ∈ [v], ¬ Bad r) ↔ ¬ Missed v := by
  rw [List.forall_mem_singleton, bad_iff (not_skipped.mp h).2]

variable (final) in
theorem optionServers_clean :
    (∀ r ∈ optionServers final s, ¬ Bad r) ↔
      ∀ v ∈ s.servers.splitOn ',', '.' ∈ trim v → ¬ Missed (trim v) := by
  constructor
  · intro hall v hv hdot hmissed
    obtain ⟨hbad, hpass⟩ := (not_caught_iff final).mpr hmissed
    exact hall _ (mem_optionServers.mpr ⟨⟨v, hv, rfl⟩, hdot, hpass⟩) hbad
  · intro hclean r hr hbad
    obtain ⟨⟨v, hv, rfl⟩, hdot, hpass⟩ := mem_optionServers.mp hr
    exact hclean v hv hdot ((not_caught_iff final).mp ⟨hbad, hpass⟩)

theorem servers_rest_clean (hexe : Skipped final s.exe) (hcustom : Skipped final s.custom)
    (hprod : Skipped final s.prod) :
    (∀ r ∈ getRendezvousServers final s, ¬ Bad r) ↔ CleanOption s := by
  rw [servers_rest hexe hcustom hprod]
  unfold CleanOption
  split
  · next h => rw [optionServers_clean final, forall_prop_of_true h.1]
  · next h =>
      refine iff_of_true (fun r hr => (builtin_not_bad hr).1) fun hserial => ?_
      have hnil : optionServers final s = [] := by
        by_contra hne
        exact h ⟨hserial, hne⟩
      refine (optionServers_clean final).mp ?_
      rw [hnil]
      exact fun _ => nofun

theorem servers_clean : (∀ r ∈ getRendezvousServers final s, ¬ Bad r) ↔
    ¬ Missed s.exe ∧ (Skipped final s.exe → ¬ Missed s.custom) ∧
      (Skipped final s.exe → Skipped final s.custom → ¬ Missed s.prod) ∧
      (Skipped final s.exe → Skipped final s.custom → Skipped final s.prod → CleanOption s) := by
  by_cases hexe : Skipped final s.exe
  · by_cases hcustom : Skipped final s.custom
    · by_cases hprod : Skipped final s.prod
      · rw [servers_rest_clean hexe hcustom hprod]
        exact ⟨fun h => ⟨not_missed_of_skipped hexe, fun _ => not_missed_of_skipped hcustom,
          fun _ _ => not_missed_of_skipped hprod, fun _ _ _ => h⟩,
          fun h => h.2.2.2 hexe hcustom hprod⟩
      · rw [servers_prod hexe hcustom hprod, not_bad_singleton hprod]
        exact ⟨fun h => ⟨not_missed_of_skipped hexe, fun _ => not_missed_of_skipped hcustom,
          fun _ _ => h, fun _ _ h => absurd h hprod⟩, fun h => h.2.2.1 hexe hcustom⟩
    · rw [servers_custom hexe hcustom, not_bad_singleton hcustom]
      exact ⟨fun h => ⟨not_missed_of_skipped hexe, fun _ => h, fun _ h => absurd h hcustom,
        fun _ h => absurd h hcustom⟩, fun h => h.2.1 hexe⟩
  · rw [servers_exe hexe, not_bad_singleton hexe]
    exact ⟨fun h => ⟨h, fun h => absurd h hexe, fun h => absurd h hexe, fun h => absurd h hexe⟩,
      And.left⟩

/-- The value that the single server starts from. -/
theorem server_of_kept (h : ¬ Skipped final (if s.exe = [] then s.custom else s.exe)) :
    getRendezvousServer final s = withPort (if s.exe = [] then s.custom else s.exe) := by
  obtain ⟨hne, hpass⟩ := not_skipped.mp h
  unfold getRendezvousServer
  generalize (if s.exe = [] then s.custom else s.exe) = first at *
  simp only [hpass, hne, Bool.false_eq_true, ↓reduceIte]

theorem server_of_skipped (h : Skipped final (if s.exe = [] then s.custom else s.exe)) :
    getRendezvousServer final s =
      withPort (let server := if s.prod = [] then s.config2 else s.prod
        let server := if isLoopbackOrTestServer final server then [] else server
        if server = [] then (getRendezvousServers final s).headD [] else server) := by
  unfold getRendezvousServer
  generalize (if s.exe = [] then s.custom else s.exe) = first at *
  have hnil : (if isLoopbackOrTestServer final first = true then [] else first) = [] := by
    rcases h with hnil | hcaught
    · rw [hnil, ite_self]
    · exact if_pos hcaught
  dsimp only
  rw [hnil, if_pos rfl]

/-- What the single server is taken from behind the first value. -/
def Sources.second (s : Sources) : List Char := if s.prod = [] then s.config2 else s.prod

theorem server_of_second_skipped
    (hfirst : Skipped final (if s.exe = [] then s.custom else s.exe))
    (hsecond : Skipped final s.second) : getRendezvousServer final s =
      withPort ((getRendezvousServers final s).head (servers_ne_nil final s)) := by
  have hnil : (if isLoopbackOrTestServer final s.second = true then [] else s.second) = [] := by
    rcases hsecond with hnil | hcaught
    · rw [hnil, ite_self]
    · exact if_pos hcaught
  rw [server_of_skipped hfirst, ← Sources.second, List.headD_eq_head?_getD,
    List.head?_eq_some_head (servers_ne_nil final s), Option.getD_some]
  dsimp only
  rw [hnil, if_pos rfl]

theorem server_of_second
    (hfirst : Skipped final (if s.exe = [] then s.custom else s.exe))
    (hsecond : ¬ Skipped final s.second) : getRendezvousServer final s = withPort s.second := by
  obtain ⟨hne, hpass⟩ := not_skipped.mp hsecond
  rw [server_of_skipped hfirst, ← Sources.second]
  simp only [hpass, hne, Bool.false_eq_true, ↓reduceIte]

theorem server_clean (hservers : ∀ r ∈ getRendezvousServers final s, ¬ Bad r)
    (hexe : ¬ Missed s.exe) (hcustom : Skipped final s.exe → ¬ Missed s.custom) :
    ¬ Bad (getRendezvousServer final s) ↔
      (Skipped final (if s.exe = [] then s.custom else s.exe) →
        ¬ Missed (if s.prod = [] then s.config2 else s.prod)) := by
  by_cases hfirst : Skipped final (if s.exe = [] then s.custom else s.exe)
  · rw [forall_prop_of_true hfirst, ← Sources.second]
    by_cases hsecond : Skipped final s.second
    · refine iff_of_true ?_ (not_missed_of_skipped hsecond)
      have hr := List.head_mem (servers_ne_nil final s)
      rw [server_of_second_skipped hfirst hsecond, bad_withPort_of_mem hr]
      exact hservers _ hr
    · rw [server_of_second hfirst hsecond, bad_withPort_iff (not_skipped.mp hsecond).2]
  · rw [server_of_kept hfirst, bad_withPort_iff (not_skipped.mp hfirst).2]
    refine iff_of_true ?_ fun h => absurd h hfirst
    split
    · next hnil => exact hcustom (.inl hnil)
    · exact hexe

end Selectors

/-- Neither selector gives what names the machine itself or an address for tests, precisely when
    the check misses none of the values that they come to. -/
theorem no_local_server_iff (s : Sources) :
    (¬ Bad (getRendezvousServer final s) ∧ ∀ r ∈ getRendezvousServers final s, ¬ Bad r) ↔
      Clean final s := by
  constructor
  · rintro ⟨hserver, hservers⟩
    obtain ⟨hexe, hcustom, hprod, hoption⟩ := servers_clean.mp hservers
    exact ⟨hexe, hcustom, hprod, hoption, (server_clean hservers hexe hcustom).mp hserver⟩
  · rintro ⟨hexe, hcustom, hprod, hoption, hsingle⟩
    have hservers := servers_clean.mpr ⟨hexe, hcustom, hprod, hoption⟩
    exact ⟨(server_clean hservers hexe hcustom).mpr hsingle, hservers⟩

/-- A custom server that is the machine itself. -/
def mappedLoopback : Sources where
  exe := []
  custom := "[::ffff:127.0.0.1]:21116".toList
  prod := []
  config2 := []
  serial := 0
  servers := []

/-- Both selectors give it. -/
theorem local_server_given :
    getRendezvousServer (fun _ _ => false) mappedLoopback = mappedLoopback.custom ∧
      getRendezvousServers (fun _ _ => false) mappedLoopback = [mappedLoopback.custom] ∧
      Bad mappedLoopback.custom := by
  refine ⟨by decide +kernel, by decide +kernel, "::ffff:127.0.0.1".toList, ?_, .inr ?_⟩
  · exact Endpoint.bracketedPort (p := "21116".toList) (by decide +kernel)
  · refine ⟨.v6 ⟨[0, 0, 0, 0, 0, 0xffff, 0x7f00, 1], rfl⟩, by decide +kernel, ?_⟩
    have hbad : BadIpv4 ⟨127, 0, 0, 1⟩ := by
      unfold BadIpv4
      decide
    exact .inr (.inr (.inr ⟨⟨127, 0, 0, 1⟩, rfl, hbad⟩))

/-! ## The selectors side by side -/

section Agreement

variable {final}

/-- With a value among the first three that is not passed over, the single server is the first of
    the list, precisely unless the single selector stops at a bad first value where the list goes
    on to the second, and comes to something else. -/
theorem selectors_agree_iff (s : Sources)
    (hkept : ¬ Skipped final s.exe ∨ ¬ Skipped final s.custom ∨ ¬ Skipped final s.prod) :
    getRendezvousServer final s =
        withPort ((getRendezvousServers final s).head (servers_ne_nil final s)) ↔
      s.exe = [] ∨ isLoopbackOrTestServer final s.exe = false ∨ Skipped final s.custom ∨
        Skipped final s.second ∨ withPort s.second = withPort s.custom := by
  by_cases hexe : Skipped final s.exe
  · by_cases hcustom : Skipped final s.custom
    · have hprod : ¬ Skipped final s.prod :=
        (hkept.resolve_left (not_not.mpr hexe)).resolve_left (not_not.mpr hcustom)
      have hsecond : s.second = s.prod := if_neg (not_skipped.mp hprod).1
      refine iff_of_true ?_ (Or.inr (Or.inr (Or.inl hcustom)))
      have hfirst : Skipped final (if s.exe = [] then s.custom else s.exe) := by
        split
        · exact hcustom
        · exact hexe
      rw [server_of_second hfirst (hsecond ▸ hprod), hsecond]
      simp only [servers_prod hexe hcustom hprod, List.head_cons]
    · by_cases hnil : s.exe = []
      · refine iff_of_true ?_ (Or.inl hnil)
        have hfirst : ¬ Skipped final (if s.exe = [] then s.custom else s.exe) := by
          rwa [if_pos hnil]
        rw [server_of_kept hfirst, if_pos hnil]
        simp only [servers_custom hexe hcustom, List.head_cons]
      · have hcaught : isLoopbackOrTestServer final s.exe = true := hexe.resolve_left hnil
        have hfirst : Skipped final (if s.exe = [] then s.custom else s.exe) := by
          rwa [if_neg hnil]
        by_cases hsecond : Skipped final s.second
        · exact iff_of_true (server_of_second_skipped hfirst hsecond)
            (Or.inr (Or.inr (Or.inr (Or.inl hsecond))))
        · rw [server_of_second hfirst hsecond, hcaught]
          simp only [servers_custom hexe hcustom, List.head_cons, hnil, hcustom, hsecond, false_or,
            Bool.true_eq_false]
  · obtain ⟨hne, hpass⟩ := not_skipped.mp hexe
    refine iff_of_true ?_ (Or.inr (Or.inl hpass))
    have hfirst : ¬ Skipped final (if s.exe = [] then s.custom else s.exe) := by
      rwa [if_neg hne]
    rw [server_of_kept hfirst, if_neg hne]
    simp only [servers_exe hexe, List.head_cons]

end Agreement

/-- An executable that names the machine itself, and a custom server. -/
def placeholderExe : Sources where
  exe := "127.0.0.1:23456".toList
  custom := "id.example.org".toList
  prod := []
  config2 := "old.example.org".toList
  serial := 0
  servers := []

theorem placeholderExe_kept :
    ¬ Skipped (fun _ _ => false) placeholderExe.custom := by
  rw [not_skipped]
  exact ⟨by decide, by decide +kernel⟩

/-- With no server for the executable the custom one is taken by both. -/
theorem selectors_agree_custom :
    getRendezvousServer (fun _ _ => false) { placeholderExe with exe := [] } =
      withPort ((getRendezvousServers (fun _ _ => false) { placeholderExe with exe := [] }).head
        (servers_ne_nil _ _)) :=
  (selectors_agree_iff { placeholderExe with exe := [] }
    (Or.inr (Or.inl placeholderExe_kept))).mpr (Or.inl rfl)

/-- The list goes on to the custom server, and the single selector to an old one. -/
theorem selectors_differ :
    ¬ ∀ (final : List Char → List Char → Bool) (s : Sources),
      (¬ Skipped final s.exe ∨ ¬ Skipped final s.custom ∨ ¬ Skipped final s.prod) →
      getRendezvousServer final s =
        withPort ((getRendezvousServers final s).head (servers_ne_nil final s)) := by
  intro hall
  have hagree := hall (fun _ _ => false) placeholderExe (Or.inr (Or.inl placeholderExe_kept))
  have hserver : getRendezvousServer (fun _ _ => false) placeholderExe =
      "old.example.org:21116".toList := by decide +kernel
  have hlist : getRendezvousServers (fun _ _ => false) placeholderExe =
      ["id.example.org".toList] := by decide +kernel
  rw [hserver] at hagree
  simp only [hlist, List.head_cons] at hagree
  revert hagree
  decide

end RendezvousServers

end LuodaRemote
