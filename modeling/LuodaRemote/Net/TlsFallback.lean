/-
  Which servers may show an invalid certificate (`libs/hbb_common/src/tls.rs`, and `connect` and
  `try_connect` of `WsFramedStream` in `libs/hbb_common/src/websocket.rs`).

  Unless the option is on, only the official servers get a second attempt that accepts any
  certificate. Whether a URL leads to one is read off its text, where the user information is taken
  to end at the last `@`. That may be one in the path or the query: then what follows it stands for
  the server (`insecure_fallback_iff`).

  Texts are lists of characters.
-/
import LuodaRemote.Lib.Slice
import LuodaRemote.Lib.Text

namespace LuodaRemote
open Lib

namespace TlsFallback

/-! ## The functions -/

def isPlain (url : List Char) : Bool :=
  "ws://".toList.isPrefixOf url || "http://".toList.isPrefixOf url

def afterScheme (url : List Char) : List Char :=
  match before "://".toList url with
  | some scheme => url.drop (scheme.length + 3)
  | none => url

def afterAt (url : List Char) : List Char :=
  match rsplitOnce '@' url with
  | some (_, after) => after
  | none => url

def upToPath (url : List Char) : List Char := url.takeWhile fun c => c ≠ '/' && c ≠ '?'

def getDomainAndPortFromUrl (url : List Char) : List Char := upToPath (afterAt (afterScheme url))

def isOfficial (host : List Char) : Bool :=
  ".dicad.cn".toList.isSuffixOf host || host = "dicad.cn".toList

/-- The host of a domain with or without a port. -/
def domainHost (domainPort : List Char) : List Char := (domainPort.splitOn ':').headD []

/-- `cache` is `URL_TLS_DANGER_ACCEPT_INVALID_CERTS`. -/
def getCachedTlsAcceptInvalidCert (allowInsecureTlsFallback : Bool)
    (cache : List Char → Option Bool) (url : List Char) : Option Bool :=
  if !allowInsecureTlsFallback then
    if isOfficial (domainHost (getDomainAndPortFromUrl url)) then none else some false
  else if isPlain url then some false
  else cache (getDomainAndPortFromUrl url)

/-- What each attempt accepts; `connects` says whether an attempt that accepts as much succeeds. -/
def tryConnect (connects : Bool → Bool) (danger original : Option Bool) : List Bool :=
  if connects (danger.getD false) then [danger.getD false]
  else if danger = none ∨ danger = some false ∧ original = none then
    danger.getD false :: tryConnect connects (some true) original
  else [danger.getD false]
termination_by if danger = some true then 0 else 1
decreasing_by
  rename_i h
  rcases h with rfl | ⟨rfl, -⟩ <;> decide

/-- `WsFramedStream::connect`. -/
def connect (connects : Bool → Bool) (allowInsecureTlsFallback : Bool)
    (cache : List Char → Option Bool) (url : List Char) : List Bool :=
  if "ws://".toList.isPrefixOf url then tryConnect connects (some false) (some false)
  else
    let danger := getCachedTlsAcceptInvalidCert allowInsecureTlsFallback cache url
    tryConnect connects danger danger

/-! ## URLs -/

/-- `scheme://[userinfo@]host[:port][/path][?query]`. -/
structure AbsoluteUrl where
  scheme : List Char
  userinfo : Option (List Char)
  host : List Char
  port : Option (List Char)
  path : List Char
  query : Option (List Char)
  scheme_colon : ':' ∉ scheme
  userinfo_at : ∀ user ∈ userinfo, '@' ∉ user
  host_plain : ∀ c ∈ host, c ≠ '@' ∧ c ≠ '/' ∧ c ≠ '?'
  /-- Only an IPv6 address has colons. -/
  host_colon : ':' ∈ host → ∃ a, host = '[' :: (a ++ [']']) ∧
    ∀ c ∈ a, c ∈ "0123456789abcdefABCDEF:.".toList
  port_digits : ∀ p ∈ port, ∀ c ∈ p, c.isDigit = true
  path_slash : ∀ c ∈ path.head?, c = '/'

namespace AbsoluteUrl

def portText (u : AbsoluteUrl) : List Char := (u.port.map (':' :: ·)).getD []

def hostPort (u : AbsoluteUrl) : List Char := u.host ++ u.portText

/-- The path and the query. -/
def tail (u : AbsoluteUrl) : List Char := u.path ++ (u.query.map ('?' :: ·)).getD []

def text (u : AbsoluteUrl) : List Char :=
  u.scheme ++ ("://".toList ++
    ((u.userinfo.map (· ++ ['@'])).getD [] ++ (u.hostPort ++ u.tail)))

/-! ## What is read off a URL -/

variable (u : AbsoluteUrl)

theorem afterScheme_text : afterScheme u.text =
    (u.userinfo.map (· ++ ['@'])).getD [] ++ (u.hostPort ++ u.tail) := by
  have hfound : before "://".toList u.text = some u.scheme := by
    rw [text, before, beforeFirst_append, beforeFirst_of_pos, Option.map_some, List.append_nil]
    · exact decide_eq_true (List.prefix_append _ _)
    · intro a b hscheme hne
      obtain ⟨c, b, rfl⟩ := List.exists_cons_of_ne_nil hne
      have hc : c ≠ ':' := by
        rintro rfl
        apply u.scheme_colon
        rw [hscheme]
        exact List.mem_append_right _ List.mem_cons_self
      have hslashes : "://".toList = ':' :: "//".toList := by decide
      rw [decide_eq_false_iff_not, hslashes, List.cons_append, List.cons_prefix_cons]
      exact fun h => hc h.1.symm
  have hlen : (u.scheme ++ "://".toList).length = u.scheme.length + 3 := by
    rw [List.length_append]
    rfl
  rw [afterScheme, hfound]
  dsimp only
  rw [text, ← List.append_assoc, ← hlen, List.drop_left]

theorem hostPort_plain : ∀ c ∈ u.hostPort, c ≠ '@' ∧ c ≠ '/' ∧ c ≠ '?' := by
  intro c hc
  rcases List.mem_append.mp hc with hc | hc
  · exact u.host_plain c hc
  · rw [portText] at hc
    cases hport : u.port with
    | none =>
      rw [hport] at hc
      cases hc
    | some p =>
      rw [hport] at hc
      rcases List.mem_cons.mp hc with rfl | hc
      · decide
      · have hdigit := u.port_digits p hport c hc
        refine ⟨?_, ?_, ?_⟩
        · rintro rfl
          cases hdigit
        · rintro rfl
          cases hdigit
        · rintro rfl
          cases hdigit

theorem head_tail : ∀ c ∈ u.tail.head?, c = '/' ∨ c = '?' := by
  intro c hc
  rw [tail, List.head?_append] at hc
  cases hpath : u.path.head? with
  | some d =>
    rw [hpath, Option.some_or, Option.mem_some_iff] at hc
    exact Or.inl (hc ▸ u.path_slash d hpath)
  | none =>
    rw [hpath, Option.none_or] at hc
    cases hquery : u.query with
    | none =>
      rw [hquery] at hc
      cases hc
    | some q =>
      rw [hquery] at hc
      exact Or.inr (Option.some.inj hc).symm

theorem upToPath_hostPort : upToPath (u.hostPort ++ u.tail) = u.hostPort := by
  have hall : ∀ c ∈ u.hostPort, (c ≠ '/' && c ≠ '?') = true := by
    intro c hc
    have hplain := u.hostPort_plain c hc
    simp [hplain.2.1, hplain.2.2]
  have hnone : u.tail.takeWhile (fun c => c ≠ '/' && c ≠ '?') = [] := by
    have hhead := u.head_tail
    generalize u.tail = t at hhead ⊢
    match t with
    | [] => rfl
    | c :: t =>
      rw [List.takeWhile_cons_of_neg]
      rcases hhead c rfl with rfl | rfl <;> decide
  rw [upToPath, List.takeWhile_append_of_pos hall, hnone, List.append_nil]

/-- The server is found if no `@` comes behind it. -/
theorem domain_of_not_mem (h : '@' ∉ u.tail) : getDomainAndPortFromUrl u.text = u.hostPort := by
  have hrest : '@' ∉ u.hostPort ++ u.tail := by
    rw [List.mem_append, not_or]
    exact ⟨fun hat => (u.hostPort_plain _ hat).1 rfl, h⟩
  have hafter : afterAt ((u.userinfo.map (· ++ ['@'])).getD [] ++ (u.hostPort ++ u.tail)) =
      u.hostPort ++ u.tail := by
    cases u.userinfo with
    | none =>
      show afterAt (u.hostPort ++ u.tail) = _
      rw [afterAt, rsplitOnce_eq_none hrest]
    | some user =>
      show afterAt ((user ++ ['@']) ++ (u.hostPort ++ u.tail)) = _
      rw [List.append_assoc, List.singleton_append, afterAt, rsplitOnce_append hrest]
  rw [getDomainAndPortFromUrl, afterScheme_text, hafter, upToPath_hostPort]

/-- Otherwise what follows the last one is taken for the server. -/
theorem domain_of_mem (h : '@' ∈ u.tail) :
    getDomainAndPortFromUrl u.text = upToPath (afterAt u.tail) := by
  obtain ⟨rev, front, heq, hrev⟩ :=
    List.eq_append_cons_of_mem (List.mem_reverse.mpr h)
  have htail : u.tail = front.reverse ++ '@' :: rev.reverse := by
    rw [← List.reverse_reverse u.tail, heq]
    simp
  have hat : '@' ∉ rev.reverse := fun hmem => hrev (List.mem_reverse.mp hmem)
  have hend (before : List Char) : afterAt (before ++ u.tail) = rev.reverse := by
    rw [htail, ← List.append_assoc, afterAt, rsplitOnce_append hat]
  have hwhole : afterAt (afterScheme u.text) = rev.reverse := by
    rw [afterScheme_text, ← List.append_assoc]
    exact hend _
  rw [getDomainAndPortFromUrl, hwhole]
  exact congrArg upToPath (hend []).symm

theorem getLast?_of_isOfficial {host : List Char} (h : isOfficial host = true) :
    host.getLast? = some 'n' := by
  rw [isOfficial, Bool.or_eq_true, List.isSuffixOf_iff_suffix, decide_eq_true_iff] at h
  rcases h with ⟨front, rfl⟩ | rfl
  · rw [List.getLast?_append]
    rfl
  · decide

/-- An address is no official host, nor is what stands before its first colon. -/
theorem isOfficial_hostPort : isOfficial (domainHost u.hostPort) = isOfficial u.host := by
  by_cases hcolon : ':' ∈ u.host
  · obtain ⟨a, hhost, ha⟩ := u.host_colon hcolon
    have hmem : ':' ∈ a := by
      rw [hhost] at hcolon
      simpa using hcolon
    obtain ⟨front, back, rfl, hfront⟩ := List.eq_append_cons_of_mem hmem
    have hpiece : domainHost u.hostPort = '[' :: front := by
      have hsplit : u.hostPort = ('[' :: front) ++ ':' :: (back ++ ']' :: u.portText) := by
        rw [hostPort, hhost]
        simp
      have hno : ':' ∉ '[' :: front := fun h => (List.mem_cons.mp h).elim (by decide) hfront
      rw [domainHost, hsplit, List.splitOn_append_cons_self_of_not_mem hno]
      rfl
    have hleft : isOfficial ('[' :: front) = false := by
      by_contra h
      have hlast := getLast?_of_isOfficial (Bool.not_eq_false _ ▸ h)
      rw [List.getLast?_cons] at hlast
      cases hend : front.getLast? with
      | none =>
        rw [hend] at hlast
        cases hlast
      | some c =>
        rw [hend] at hlast
        have hc := ha c (List.mem_append_left _ (List.mem_of_getLast? hend))
        rw [Option.getD_some, Option.some.injEq] at hlast
        rw [hlast] at hc
        revert hc
        decide
    have hright : isOfficial u.host = false := by
      by_contra h
      have hlast := getLast?_of_isOfficial (Bool.not_eq_false _ ▸ h)
      rw [hhost, ← List.cons_append, List.getLast?_concat] at hlast
      cases hlast
    rw [hpiece, hleft, hright]
  · have hpiece : domainHost u.hostPort = u.host := by
      rw [domainHost, hostPort, portText]
      cases u.port with
      | none =>
        show ((u.host ++ []).splitOn ':').headD [] = u.host
        rw [List.append_nil, List.splitOn_eq_singleton hcolon]
        rfl
      | some p =>
        show ((u.host ++ ':' :: p).splitOn ':').headD [] = u.host
        rw [List.splitOn_append_cons_self_of_not_mem hcolon]
        rfl
    rw [hpiece]

end AbsoluteUrl

/-! ## Who gets a second attempt -/

/-- Any certificate is accepted in some attempt unless the cache says no. -/
theorem mem_tryConnect_iff (danger : Option Bool) :
    (∃ connects, true ∈ tryConnect connects danger danger) ↔ danger ≠ some false := by
  match danger with
  | none =>
    refine iff_of_true ⟨fun _ => false, ?_⟩ nofun
    rw [tryConnect, tryConnect]
    decide
  | some true =>
    refine iff_of_true ⟨fun _ => true, ?_⟩ nofun
    rw [tryConnect]
    decide
  | some false =>
    refine iff_of_false ?_ fun h => h rfl
    rintro ⟨connects, h⟩
    rw [tryConnect] at h
    simp at h

theorem insecure_attempt_iff (allow : Bool) (cache : List Char → Option Bool) (url : List Char) :
    (∃ connects, true ∈ connect connects allow cache url) ↔
      "ws://".toList.isPrefixOf url = false ∧
        getCachedTlsAcceptInvalidCert allow cache url ≠ some false := by
  have hsafe := mem_tryConnect_iff (some false)
  have hcached := mem_tryConnect_iff (getCachedTlsAcceptInvalidCert allow cache url)
  unfold connect
  cases "ws://".toList.isPrefixOf url with
  | true => exact iff_of_false (fun h => hsafe.mp h rfl) (fun h => nomatch h.1)
  | false => exact hcached.trans (and_iff_right rfl).symm

theorem getCached_eq_none_iff (cache : List Char → Option Bool) (url : List Char) :
    getCachedTlsAcceptInvalidCert false cache url = none ↔
      isOfficial (domainHost (getDomainAndPortFromUrl url)) = true := by
  rw [getCachedTlsAcceptInvalidCert]
  simp

/-- With the option off only official servers get a second attempt, precisely unless an `@` in the
    path or the query is followed by the name of an official server; and the server is what is read
    off the URL, precisely unless such an `@` is followed by something else. -/
theorem insecure_fallback_iff (u : AbsoluteUrl) (cache : List Char → Option Bool) :
    ((getCachedTlsAcceptInvalidCert false cache u.text = none → isOfficial u.host = true) ↔
      ('@' ∈ u.tail → isOfficial (domainHost (upToPath (afterAt u.tail))) = true →
        isOfficial u.host = true)) ∧
    (getDomainAndPortFromUrl u.text = u.hostPort ↔
      ('@' ∈ u.tail → upToPath (afterAt u.tail) = u.hostPort)) := by
  rw [getCached_eq_none_iff]
  by_cases hat : '@' ∈ u.tail
  · rw [u.domain_of_mem hat, forall_prop_of_true hat, forall_prop_of_true hat]
    exact ⟨Iff.rfl, Iff.rfl⟩
  · rw [u.domain_of_not_mem hat, u.isOfficial_hostPort]
    exact ⟨iff_of_true id fun h => absurd h hat, iff_of_true rfl fun h => absurd h hat⟩

/-- A server whose path ends with the name of another one. -/
def disguised : AbsoluteUrl where
  scheme := "wss".toList
  userinfo := none
  host := "example.com".toList
  port := none
  path := "/@rev.dicad.cn".toList
  query := none
  scheme_colon := by decide
  userinfo_at := nofun
  host_plain := forall_mem_of_all (by decide)
  host_colon := fun h => absurd h (by decide)
  port_digits := nofun
  path_slash := fun c h => by
    cases h
    rfl

theorem disguised_accepted :
    ¬ ∀ (u : AbsoluteUrl) (cache : List Char → Option Bool),
      (getCachedTlsAcceptInvalidCert false cache u.text = none → isOfficial u.host = true) ∧
        getDomainAndPortFromUrl u.text = u.hostPort := by
  intro hall
  have hnone : getCachedTlsAcceptInvalidCert false (fun _ => none) disguised.text = none := by
    decide
  have hofficial := (hall disguised fun _ => none).1 hnone
  revert hofficial
  decide

end TlsFallback
end LuodaRemote
