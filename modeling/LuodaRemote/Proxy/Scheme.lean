/-
  Proxies that a setting names (`libs/hbb_common/src/proxy.rs`).

  The setting is a URL, or an address without a scheme that is then taken for a SOCKS5 proxy.
  Reading a URL is the `url` library's and finding an address the resolver's. A proxy for HTTP keeps
  the host of its URL as a text, which is split at the first colon whenever it is used.
-/
import LuodaRemote.Lib.Base64
import LuodaRemote.Lib.Decimal
import LuodaRemote.Lib.IpAddr

namespace LuodaRemote
open Lib

namespace Proxy

/-- `url::ParseError`. -/
inductive ParseError where
  | emptyHost
  | idnaError
  | invalidPort
  | invalidIpv4Address
  | invalidIpv6Address
  | invalidDomainCharacter
  | relativeUrlWithoutBase
  | relativeUrlWithCannotBeABaseBase
  | setHostOnCannotBeABaseUrl
  | overflow
  deriving DecidableEq

/-- The errors that are met before there is a connection. -/
inductive ProxyError where
  | ioError
  | urlBadScheme (text : List Char)
  | urlParseScheme (e : ParseError)
  | addressResolutionFailed (host : List Char)
  deriving DecidableEq

structure SocketAddr where
  ip : Lib.IpAddr
  port : UInt16
  deriving DecidableEq

def SocketAddr.text (addr : SocketAddr) : List Char :=
  let ip := match addr.ip with
    | .v4 ip => ip.text
    | .v6 ip => '[' :: (ip.text ++ [']'])
  ip ++ ':' :: Nat.toDigits 10 addr.port.toNat

/-! ## URLs and addresses -/

/-- The host of a URL, as it is written there. -/
inductive UrlHost where
  | domain (d : List Char)
  | ipv4 (t : List Char) (ip : Ipv4Addr) (parse : parseIpv4 t = some ip)
  | ipv6 (t : List Char) (ip : Ipv6Addr) (parse : parseIpv6 t = some ip)

def UrlHost.text : UrlHost → List Char
  | .domain d => d
  | .ipv4 t _ _ => t
  | .ipv6 t _ _ => '[' :: (t ++ [']'])

/-- What is used of a `Url`. -/
structure Url where
  scheme : List Char
  username : List Char
  password : Option (List Char)
  host : Option UrlHost
  port : Option UInt16
  text : List Char

/-- Addresses of a name and a port, or an error. -/
abbrev Resolver := List Char → UInt16 → Option (List SocketAddr)

/-- `to_socket_addrs`: no one is asked for an address that is one already. -/
def toSocketAddrs (dns : Resolver) (host : List Char) (port : UInt16) : Option (List SocketAddr) :=
  match parseIpAddr host with
  | some ip => some [⟨ip, port⟩]
  | none => dns host port

namespace Url

/-- `url[Position::BeforeHost..Position::AfterPort]`. -/
def hostAndPort (url : Url) : List Char :=
  let host := match url.host with
    | some host => host.text
    | none => []
  match url.port with
  | some port => host ++ ':' :: Nat.toDigits 10 port.toNat
  | none => host

def portOrKnownDefault (url : Url) : Option UInt16 :=
  url.port.or <|
    if url.scheme ∈ ["http".toList, "ws".toList] then some 80
    else if url.scheme ∈ ["https".toList, "wss".toList] then some 443
    else if url.scheme = "ftp".toList then some 21
    else none

def socketAddrs (dns : Resolver) (default : Option UInt16) (url : Url) : Option (List SocketAddr) :=
  match url.host, url.portOrKnownDefault.or default with
  | some (.domain d), some port => toSocketAddrs dns d port
  | some (.ipv4 _ ip _), some port => some [⟨.v4 ip, port⟩]
  | some (.ipv6 _ ip _), some port => some [⟨.v6 ip, port⟩]
  | _, _ => none

end Url

/-! ## Proxies -/

structure Auth where
  userName : List Char
  password : List Char
  deriving DecidableEq

def Auth.getBasicAuthorization (auth : Auth) : List Char :=
  Base64.encode (String.ofList (auth.userName ++ ':' :: auth.password)).toUTF8.toList

inductive ProxyScheme where
  | http (auth : Option Auth) (host : List Char)
  | https (auth : Option Auth) (host : List Char)
  | socks5 (addr : SocketAddr) (auth : Option Auth) (remoteDns : Bool)
  deriving DecidableEq

namespace ProxyScheme

def maybeAuth : ProxyScheme → Option Auth
  | .http auth _ => auth
  | .https auth _ => auth
  | .socks5 _ auth _ => auth

def setBasicAuth (username password : List Char) : ProxyScheme → ProxyScheme
  | .http _ host => .http (some ⟨username, password⟩) host
  | .https _ host => .https (some ⟨username, password⟩) host
  | .socks5 addr _ remoteDns => .socks5 addr (some ⟨username, password⟩) remoteDns

/-- The address of a URL. -/
def toAddr (dns : Resolver) (url : Url) : Except ProxyError SocketAddr :=
  match url.socketAddrs dns (if url.scheme = "socks5".toList then some 1080 else none) with
  | none => .error .ioError
  | some [] => .error (.urlParseScheme .emptyHost)
  | some (addr :: _) => .ok addr

/-- The `match` on the scheme. -/
def ofScheme (dns : Resolver) (url : Url) : Except ProxyError ProxyScheme :=
  if url.scheme = "http".toList then .ok (.http none url.hostAndPort)
  else if url.scheme = "https".toList then .ok (.https none url.hostAndPort)
  else if url.scheme = "socks5".toList then
    (toAddr dns url).map fun addr => .socks5 addr none false
  else .error (.urlBadScheme url.scheme)

def withAuth (url : Url) (scheme : ProxyScheme) : ProxyScheme :=
  match url.password with
  | some pwd => scheme.setBasicAuth url.username pwd
  | none => scheme

def parse (dns : Resolver) (url : Url) : Except ProxyError ProxyScheme :=
  (ofScheme dns url).map (withAuth url)

/-- What cannot be read as a port is no port. -/
def splitPort (host : List Char) : List Char × Option UInt16 :=
  match splitOnce ':' host with
  | some (h, p) => (h, (parseUnsigned 16 p).map UInt16.ofNat)
  | none => (host, none)

def resolveHost (dns : Resolver) (host : List Char) (defaultPort : UInt16) :
    Except ProxyError SocketAddr :=
  let (hostStr, port) := splitPort host
  match toSocketAddrs dns hostStr (port.getD defaultPort) with
  | none => .error .ioError
  | some [] => .error (.addressResolutionFailed host)
  | some (addr :: _) => .ok addr

def socketAddrs (dns : Resolver) : ProxyScheme → Except ProxyError SocketAddr
  | .http _ host => resolveHost dns host 80
  | .https _ host => resolveHost dns host 443
  | .socks5 addr _ _ => .ok addr

def getDomain : ProxyScheme → Except ProxyError (List Char)
  | .http _ host | .https _ host =>
    match (host.splitOn ':').head? with
    | some domain => .ok domain
    | none => .error (.addressResolutionFailed host)
  | .socks5 addr _ _ => .ok addr.ip.text

def appendDefaultPort (host : List Char) (defaultPort : UInt16) : List Char :=
  if ':' ∈ host then host else host ++ ':' :: Nat.toDigits 10 defaultPort.toNat

def getHostAndPort : ProxyScheme → Except ProxyError (List Char)
  | .http _ host => .ok (appendDefaultPort host 80)
  | .https _ host => .ok (appendDefaultPort host 443)
  | .socks5 addr _ _ => .ok addr.text

end ProxyScheme

/-- `Url::parse`. -/
abbrev UrlParser := List Char → Except ParseError Url

def intoUrl (parse : UrlParser) (s : List Char) : Except ProxyError Url :=
  match parse s with
  | .error e => .error (.urlParseScheme e)
  | .ok url => if url.host.isSome then .ok url else .error (.urlBadScheme url.text)

/-- Only what is no URL at all is tried with a scheme in front. -/
def intoProxyScheme (parse : UrlParser) (dns : Resolver) (s : List Char) :
    Except ProxyError ProxyScheme :=
  match intoUrl parse s with
  | .ok url => ProxyScheme.parse dns url
  | .error (.urlParseScheme _) =>
    (intoUrl parse ("socks5://".toList ++ s)).bind (ProxyScheme.parse dns)
  | .error e => .error e

end Proxy

end LuodaRemote
