/-
  `LOGIN_FAILURES`: the two tables of failed logins (index 0 for passwords, 1 for 2FA
  codes) with `check_failure`, `check_failure_ipv6_prefix` and `update_failure` of
  `src/server/connection.rs`.

  A table maps an address, or a /64, /56 or /48 prefix of an IPv6 address, to the triple
  `(minute of the last failure, failures in that minute, failures in total)`. The source
  keys it with the text of the address and of the prefix (`"2001:db8::/64"`); the text
  forms are one to one, so the keys here are the addresses themselves.

  `update_failure` treats the two kinds of keys differently. The prefixes are counted up
  from what the table holds at that moment, the address from the triple that
  `check_failure` had read before the password was looked at.
-/
import LuodaRemote.Message
import Mathlib.Tactic

namespace LuodaRemote

/-- One entry of the table: `.0`, `.1` and `.2` of the triple. -/
structure Failure where
  minute : Int := 0
  inMinute : Int := 0
  total : Int := 0
  deriving DecidableEq

inductive FailureKey where
  | addr (ip : IpAddr)
  | prefixOf (len : Nat) (a : BitVec 128)
  deriving DecidableEq

abbrev FailureMap := FailureKey → Option Failure

/-- `get(..).copied().unwrap_or((0, 0, 0))`. -/
def FailureMap.read (m : FailureMap) (k : FailureKey) : Failure := (m k).getD {}

/-- `(get_time() / 60_000) as i32`. -/
def clockMinute (getTime : Int) : Int := Int.bmod (getTime.tdiv 60000) (2 ^ 32)

def ipv6Prefix (a : BitVec 128) (len : Nat) : FailureKey :=
  .prefixOf len (a &&& (BitVec.allOnes 128 <<< (128 - len)))

/-- `get_ipv6_prefixes`, with the bit count and the limit `check_failure` uses for each. -/
def ipv6Prefixes : IpAddr → List (FailureKey × Nat × Int)
  | .v4 _ => []
  | .v6 a => [(ipv6Prefix a 64, 64, 60), (ipv6Prefix a 56, 56, 80), (ipv6Prefix a 48, 48, 100)]

def bump (cur : Failure) (time : Int) : Failure :=
  if cur.minute = time then ⟨cur.minute, cur.inMinute + 1, cur.total + 1⟩
  else ⟨time, 1, cur.total + 1⟩

/-- What `check_failure` returns: the entry it read, the minute, and the error it sent if
    the attempt is refused. -/
structure CheckResult where
  failure : Failure
  time : Int
  error : Option String
  deriving DecidableEq

def checkFailureIpv6Prefix (m : FailureMap) (p : FailureKey × Nat × Int) : Option String :=
  if (m.read p.1).total > p.2.2 then
    some ("Too many wrong attempts for IPv6 prefix /" ++ toString p.2.1)
  else none

def checkFailure (m : FailureMap) (ip : IpAddr) (getTime : Int) : CheckResult :=
  let time := clockMinute getTime
  match (ipv6Prefixes ip).find? fun p => (checkFailureIpv6Prefix m p).isSome with
  | some p => ⟨m.read p.1, time, checkFailureIpv6Prefix m p⟩
  | none =>
    let failure := m.read (.addr ip)
    if failure.total > 30 then ⟨failure, time, some "Too many wrong attempts"⟩
    else if time = failure.minute ∧ failure.inMinute > 6 then
      ⟨failure, time, some "Please try 1 minute later"⟩
    else ⟨failure, time, none⟩

/-- `update_failure`: `remove` after a success, else count a failure. -/
def updateFailure (m : FailureMap) (ip : IpAddr) (failure : Failure) (time : Int)
    (remove : Bool) : FailureMap :=
  if remove then
    if failure.minute ≠ 0 then
      Function.update ((ipv6Prefixes ip).foldl (fun m p => Function.update m p.1 none) m)
        (.addr ip) none
    else m
  else
    -- The prefixes count up from the stored value, the address from the value passed in.
    Function.update
      ((ipv6Prefixes ip).foldl
        (fun (m : FailureMap) p => Function.update m p.1 (some (bump (m.read p.1) time))) m)
      (.addr ip) (some (bump failure time))

/-! ## What they do to the entry of an address -/

theorem total_bump (cur : Failure) (time : Int) : (bump cur time).total = cur.total + 1 := by
  unfold bump
  split <;> rfl

theorem addr_notMem_ipv6Prefixes (ip ip' : IpAddr) :
    ∀ p ∈ ipv6Prefixes ip', p.1 ≠ .addr ip := by
  cases ip' with
  | v4 a => simp [ipv6Prefixes]
  | v6 a => simp [ipv6Prefixes, ipv6Prefix]

/-- Writing to the prefixes leaves every address entry alone. -/
theorem foldl_prefix_apply_addr (g : FailureMap → FailureKey × Nat × Int → Option Failure)
    (ip : IpAddr) (ps : List (FailureKey × Nat × Int)) (hps : ∀ p ∈ ps, p.1 ≠ .addr ip)
    (m : FailureMap) :
    ps.foldl (fun m p => Function.update m p.1 (g m p)) m (.addr ip) = m (.addr ip) := by
  induction ps generalizing m with
  | nil => rfl
  | cons p ps ih =>
    rw [List.foldl_cons, ih (fun q hq => hps q (List.mem_cons_of_mem _ hq))]
    exact Function.update_of_ne (hps p List.mem_cons_self).symm _ _

theorem updateFailure_failed (m : FailureMap) (ip : IpAddr) (failure : Failure) (time : Int) :
    (updateFailure m ip failure time false).read (.addr ip) = bump failure time := by
  simp [updateFailure, FailureMap.read]

theorem updateFailure_succeeded (m : FailureMap) (ip : IpAddr) (failure : Failure)
    (time : Int) (h : failure.minute ≠ 0 ∨ m.read (.addr ip) = {}) :
    (updateFailure m ip failure time true).read (.addr ip) = {} := by
  unfold updateFailure
  by_cases h0 : failure.minute ≠ 0
  · simp [h0, FailureMap.read]
  · rw [if_pos rfl, if_neg h0]
    exact h.resolve_left h0

theorem updateFailure_other (m : FailureMap) {ip ip' : IpAddr} (hne : ip ≠ ip')
    (failure : Failure) (time : Int) (remove : Bool) :
    (updateFailure m ip' failure time remove).read (.addr ip) = m.read (.addr ip) := by
  have hk : FailureKey.addr ip ≠ .addr ip' := fun h => hne (FailureKey.addr.inj h)
  have hps := addr_notMem_ipv6Prefixes ip ip'
  suffices h : updateFailure m ip' failure time remove (.addr ip) = m (.addr ip) by
    rw [FailureMap.read, h, FailureMap.read]
  unfold updateFailure
  cases remove with
  | true =>
    rw [if_pos rfl]
    split
    · rw [Function.update_of_ne hk, foldl_prefix_apply_addr (fun _ _ => none) ip _ hps]
    · rfl
  | false =>
    rw [if_neg (by simp), Function.update_of_ne hk,
      foldl_prefix_apply_addr (fun m p => some (bump (m.read p.1) time)) ip _ hps]

/-- An attempt that is let through read the address entry, which is below both limits. -/
theorem checkFailure_passed {m : FailureMap} {ip : IpAddr} {getTime : Int}
    (h : (checkFailure m ip getTime).error = none) :
    (checkFailure m ip getTime).failure = m.read (.addr ip) ∧
      (checkFailure m ip getTime).time = clockMinute getTime ∧
      (m.read (.addr ip)).total ≤ 30 ∧
      (clockMinute getTime = (m.read (.addr ip)).minute → (m.read (.addr ip)).inMinute ≤ 6) := by
  unfold checkFailure at h ⊢
  dsimp only at h ⊢
  split at h
  · rename_i p hp
    have hsome := List.find?_some hp
    change checkFailureIpv6Prefix m p = none at h
    rw [h] at hsome
    cases hsome
  · split_ifs at h ⊢ with h1 h2
    refine ⟨rfl, rfl, by omega, ?_⟩
    intro ht
    by_contra hc
    exact h2 ⟨ht, by omega⟩

end LuodaRemote
