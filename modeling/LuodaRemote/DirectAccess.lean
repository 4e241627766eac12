/-
  The LAN address that a machine gives out (src/direct_access.rs).

  Among the private addresses the one with the highest score is chosen, and the last of several.
  The score is a sum of bonuses and penalties. The bonus for 192.168/16 is ten times the penalty for
  a virtual adapter: `real_adapter_iff` says that a real adapter is chosen unless a virtual one in
  that range meets real ones that are neither there nor have the default route.
-/
import Mathlib.Data.List.MinMax
import LuodaRemote.Lib.IpAddr

namespace LuodaRemote
open Lib

structure LanAddressCandidate where
  address : Ipv4Addr
  name : String
  isDefault : Bool
  hasGateway : Bool
  isPhysical : Bool
  deriving DecidableEq

namespace LanAddressCandidate

def virtualMarkers : List String :=
  ["virtual", "vethernet", "vmware", "virtualbox", "vbox", "hyper-v", "wsl", "docker", "tailscale",
    "wireguard", "vpn", "tunnel", "loopback", "bluetooth", "bt", "pseudo", "tun", "tap", "ppp",
    "isatap", "teredo", "6to4"]

/-- The name has one of the markers, in any case of its ASCII letters. -/
def isVirtual (c : LanAddressCandidate) : Bool :=
  virtualMarkers.any fun marker => decide (marker.toList <:+: c.name.toList.map Char.toLower)

def rangeBonus (ip : Ipv4Addr) : Int :=
  if ip.a = 192 ∧ ip.b = 168 then 5000
  else if ip.a = 10 then 200
  else if ip.a = 172 ∧ 16 ≤ ip.b.toNat ∧ ip.b.toNat ≤ 31 then 100
  else 0

/-- `lan_candidate_score`. -/
def score (c : LanAddressCandidate) : Int :=
  (if c.isVirtual then -500 else 0) + (if c.isPhysical then 50 else 0) +
    (if c.hasGateway then 50 else 0) + (if c.isDefault && !c.isVirtual then 10000 else 0) +
    rangeBonus c.address

/-- A private address on an adapter that is not virtual. -/
def Real (c : LanAddressCandidate) : Prop := c.address.isPrivate = true ∧ c.isVirtual = false

/-- 192.168/16. -/
def HomeRange (c : LanAddressCandidate) : Prop := c.address.a = 192 ∧ c.address.b = 168

instance : DecidablePred Real := fun _ => inferInstanceAs (Decidable (_ ∧ _))

instance : DecidablePred HomeRange := fun _ => inferInstanceAs (Decidable (_ ∧ _))

end LanAddressCandidate

open LanAddressCandidate

/-- The candidate that `choose_lan_ipv4` takes: of several with the highest score the last. -/
def chosenCandidate (candidates : List LanAddressCandidate) : Option LanAddressCandidate :=
  @List.argmax _ Int Int.instLinearOrder.toPreorder inferInstance score
    (candidates.filter fun c => c.address.isPrivate).reverse

def chooseLanIpv4 (candidates : List LanAddressCandidate) : Option Ipv4Addr :=
  (chosenCandidate candidates).map fun c => c.address

/-! ## Scores -/

section Scores

variable {c : LanAddressCandidate}

theorem rangeBonus_home (h : c.HomeRange) : rangeBonus c.address = 5000 := if_pos h

/-- A private address outside 192.168/16 has a small bonus. -/
theorem rangeBonus_other (hprivate : c.address.isPrivate = true) (h : ¬ c.HomeRange) :
    rangeBonus c.address = 200 ∨ rangeBonus c.address = 100 := by
  have hrange : c.address.a = 10 ∨
      c.address.a = 172 ∧ 16 ≤ c.address.b.toNat ∧ c.address.b.toNat ≤ 31 := by
    unfold HomeRange at h
    simp only [Ipv4Addr.isPrivate, Bool.or_eq_true, Bool.and_eq_true, beq_iff_eq,
      decide_eq_true_eq] at hprivate
    tauto
  have hbonus : rangeBonus c.address = if c.address.a = 10 then 200
      else if c.address.a = 172 ∧ 16 ≤ c.address.b.toNat ∧ c.address.b.toNat ≤ 31 then 100
      else 0 := if_neg h
  rw [hbonus]
  split
  · exact .inl rfl
  · next hten =>
      rw [if_pos (hrange.resolve_left hten)]
      exact .inr rfl

theorem rangeBonus_bounds (hprivate : c.address.isPrivate = true) :
    100 ≤ rangeBonus c.address ∧ rangeBonus c.address ≤ 5000 := by
  by_cases h : c.HomeRange
  · rw [rangeBonus_home h]
    decide
  · rcases rangeBonus_other hprivate h with h | h
    · rw [h]
      decide
    · rw [h]
      decide

/-- Up to 100 come from the adapter itself. -/
theorem score_real (h : c.isVirtual = false) :
    rangeBonus c.address + (if c.isDefault then 10000 else 0) ≤ c.score ∧
      c.score ≤ rangeBonus c.address + (if c.isDefault then 10000 else 0) + 100 := by
  unfold score
  rw [h]
  cases c.isPhysical <;> cases c.hasGateway <;> cases c.isDefault <;>
    simp <;> omega

theorem score_virtual (h : c.isVirtual = true) :
    rangeBonus c.address - 500 ≤ c.score ∧ c.score ≤ rangeBonus c.address - 400 := by
  unfold score
  rw [h]
  cases c.isPhysical <;> cases c.hasGateway <;> simp <;> omega

end Scores

/-! ## The choice -/

section Choice

variable {candidates : List LanAddressCandidate} {c d : LanAddressCandidate}

theorem mem_filtered :
    c ∈ (candidates.filter fun c => c.address.isPrivate).reverse ↔
      c ∈ candidates ∧ c.address.isPrivate = true := by
  rw [List.mem_reverse, List.mem_filter]

theorem chosen_mem (hc : chosenCandidate candidates = some c) :
    c ∈ candidates ∧ c.address.isPrivate = true := mem_filtered.mp (List.argmax_mem hc)

theorem score_le_chosen (hc : chosenCandidate candidates = some c) (hd : d ∈ candidates)
    (hprivate : d.address.isPrivate = true) : d.score ≤ c.score :=
  List.le_of_mem_argmax (mem_filtered.mpr ⟨hd, hprivate⟩) hc

theorem chosen_of_private (hd : d ∈ candidates) (hprivate : d.address.isPrivate = true) :
    ∃ c, chosenCandidate candidates = some c := by
  cases hchosen : chosenCandidate candidates with
  | some c => exact ⟨c, rfl⟩
  | none =>
    have hmem := mem_filtered.mpr ⟨hd, hprivate⟩
    rw [List.argmax_eq_none.mp hchosen] at hmem
    cases hmem

/-- No virtual adapter reaches a real one with the default route, whatever its range. -/
theorem score_lt_default (hc : c.isVirtual = true ∨ c.isDefault = false)
    (hprivate : c.address.isPrivate = true) (hd : d.Real) (hdefault : d.isDefault = true) :
    c.score < d.score := by
  have hbonus := (rangeBonus_bounds hprivate).2
  have hother := (rangeBonus_bounds hd.1).1
  have hlow := (score_real hd.2).1
  rw [hdefault, if_pos rfl] at hlow
  cases hvirtual : c.isVirtual with
  | true =>
    have hhigh := (score_virtual hvirtual).2
    omega
  | false =>
    have hplain : c.isDefault = false := hc.resolve_left (by rw [hvirtual]; simp)
    have hhigh := (score_real hvirtual).2
    rw [hplain, if_neg (by simp)] at hhigh
    omega

/-- Between a virtual adapter and a real one that is not preferred for its route the range decides
    first. -/
theorem score_lt_real (hc : c.isVirtual = true) (hprivate : c.address.isPrivate = true)
    (hd : d.Real) (hrange : d.HomeRange ∨ ¬ c.HomeRange) : c.score < d.score := by
  have hhigh := (score_virtual hc).2
  have hlow := (score_real hd.2).1
  have hroute : (0 : Int) ≤ if d.isDefault then 10000 else 0 := by split <;> decide
  have hbonus := (rangeBonus_bounds hprivate).2
  have hother := (rangeBonus_bounds hd.1).1
  rcases hrange with hhome | hnot
  · rw [rangeBonus_home hhome] at hlow
    omega
  · rcases rangeBonus_other hprivate hnot with h | h
    · omega
    · omega

/-- A real adapter with neither the default route nor an address in 192.168/16 is below any
    virtual one that has such an address. -/
theorem score_lt_virtual (hc : c.Real) (hdefault : c.isDefault = false) (hrange : ¬ c.HomeRange)
    (hd : d.isVirtual = true) (hhome : d.HomeRange) : c.score < d.score := by
  have hhigh := (score_real hc.2).2
  have hlow := (score_virtual hd).1
  rw [hdefault, if_neg (by simp)] at hhigh
  rw [rangeBonus_home hhome] at hlow
  rcases rangeBonus_other hc.1 hrange with h | h
  · omega
  · omega

theorem chosen_perm {others : List LanAddressCandidate} (hperm : others.Perm candidates)
    (hc : chosenCandidate candidates = some c) :
    ∃ d, chosenCandidate others = some d ∧ c.score = d.score := by
  obtain ⟨hmem, hprivate⟩ := chosen_mem hc
  obtain ⟨d, hd⟩ := chosen_of_private (hperm.mem_iff.mpr hmem) hprivate
  obtain ⟨hdmem, hdprivate⟩ := chosen_mem hd
  refine ⟨d, hd, le_antisymm ?_ ?_⟩
  · exact score_le_chosen hd (hperm.mem_iff.mpr hmem) hprivate
  · exact score_le_chosen hc (hperm.mem_iff.mp hdmem) hdprivate

theorem home_private (h : c.HomeRange) : c.address.isPrivate = true := by
  obtain ⟨ha, hb⟩ := h
  unfold Ipv4Addr.isPrivate
  rw [ha, hb]
  rfl

theorem home_of_address (h : c.address = d.address) (hc : c.HomeRange) : d.HomeRange := by
  unfold HomeRange at hc ⊢
  rw [← h]
  exact hc

end Choice

/-! ## Real adapters -/

/-- What the score is for. -/
structure RealWins (candidates : List LanAddressCandidate) : Prop where
  real : ∃ c ∈ candidates, c.Real ∧ chooseLanIpv4 candidates = some c.address
  default : (∃ c ∈ candidates, c.Real ∧ c.isDefault = true) →
    ∃ c ∈ candidates, c.Real ∧ c.isDefault = true ∧ chooseLanIpv4 candidates = some c.address
  order : ∀ others, others.Perm candidates → ∃ c d, chosenCandidate candidates = some c ∧
    chosenCandidate others = some d ∧ c.score = d.score

/-- With a real adapter among them, one is chosen, the default route first and whatever the order,
    precisely if one has the default route or an address in 192.168/16, or no virtual adapter has
    such an address. -/
theorem real_adapter_iff {candidates : List LanAddressCandidate}
    (hreal : ∃ c ∈ candidates, c.Real) :
    RealWins candidates ↔
      (∃ c ∈ candidates, c.Real ∧ (c.isDefault = true ∨ c.HomeRange)) ∨
        ¬ ∃ c ∈ candidates, c.isVirtual = true ∧ c.HomeRange := by
  obtain ⟨r, hr, hrreal⟩ := hreal
  obtain ⟨c, hc⟩ := chosen_of_private hr hrreal.1
  obtain ⟨hmem, hprivate⟩ := chosen_mem hc
  have haddress : chooseLanIpv4 candidates = some c.address := congrArg (Option.map _) hc
  constructor
  · intro hwins
    by_contra hnot
    obtain ⟨hnone, v, hv, hvirtual, hhome⟩ := by simpa only [not_or, not_not] using hnot
    have hle := score_le_chosen hc hv (home_private hhome)
    cases hcv : c.isVirtual with
    | false =>
      have hplain : c.isDefault = false := eq_false_of_ne_true fun h =>
        hnone ⟨c, hmem, ⟨hprivate, hcv⟩, .inl h⟩
      have hlt := score_lt_virtual ⟨hprivate, hcv⟩ hplain
        (fun h => hnone ⟨c, hmem, ⟨hprivate, hcv⟩, .inr h⟩) hvirtual hhome
      omega
    | true =>
      -- its address is not one of a real adapter either
      obtain ⟨d, hd, hdreal, hsame⟩ := hwins.real
      rw [haddress] at hsame
      have hrange : c.HomeRange := by
        by_contra hrange
        have hhigh := (score_virtual hcv).2
        have hlow := (score_virtual hvirtual).1
        rw [rangeBonus_home hhome] at hlow
        rcases rangeBonus_other hprivate hrange with h | h
        · omega
        · omega
      exact hnone ⟨d, hd, hdreal, .inr (home_of_address (Option.some.inj hsame) hrange)⟩
  · intro hcondition
    have hcv : c.isVirtual = false := by
      by_contra hcv
      have hcv : c.isVirtual = true := by simpa using hcv
      have hbeats : ∃ d ∈ candidates, d.Real ∧ c.score < d.score := by
        rcases hcondition with ⟨d, hd, hdreal, hdefault | hhome⟩ | hnone
        · exact ⟨d, hd, hdreal, score_lt_default (.inl hcv) hprivate hdreal hdefault⟩
        · exact ⟨d, hd, hdreal, score_lt_real hcv hprivate hdreal (.inl hhome)⟩
        · refine ⟨r, hr, hrreal, score_lt_real hcv hprivate hrreal (.inr fun h => ?_)⟩
          exact hnone ⟨c, hmem, hcv, h⟩
      obtain ⟨d, hd, hdreal, hlt⟩ := hbeats
      have hle := score_le_chosen hc hd hdreal.1
      omega
    refine ⟨⟨c, hmem, ⟨hprivate, hcv⟩, haddress⟩, ?_, ?_⟩
    · rintro ⟨d, hd, hdreal, hdefault⟩
      refine ⟨c, hmem, ⟨hprivate, hcv⟩, ?_, haddress⟩
      by_contra hplain
      have hlt := score_lt_default (.inr (by simpa using hplain)) hprivate hdreal hdefault
      have hle := score_le_chosen hc hd hdreal.1
      omega
    · intro others hperm
      obtain ⟨d, hd, hscore⟩ := chosen_perm hperm hc
      exact ⟨c, d, hc, hd, hscore⟩

/-- An Ethernet adapter of a company network. -/
def ethernet : LanAddressCandidate := ⟨⟨10, 0, 0, 5⟩, "Ethernet", false, true, true⟩

/-- A switch of the machine's own for virtual machines. -/
def vEthernet : LanAddressCandidate := ⟨⟨192, 168, 56, 1⟩, "vEthernet (WSL)", false, false, false⟩

theorem real_adapter_iff_default : RealWins [{ ethernet with isDefault := true }, vEthernet] :=
  (real_adapter_iff ⟨_, List.mem_cons_self, by decide +kernel⟩).mpr
    (.inl ⟨_, List.mem_cons_self, by decide +kernel, .inl rfl⟩)

theorem virtual_adapter_wins :
    (∃ c ∈ [ethernet, vEthernet], c.Real) ∧
      chooseLanIpv4 [ethernet, vEthernet] = some vEthernet.address ∧
      ¬ RealWins [ethernet, vEthernet] := by
  have hchosen : chooseLanIpv4 [ethernet, vEthernet] = some vEthernet.address := by
    decide +kernel
  refine ⟨by decide +kernel, hchosen, fun hwins => ?_⟩
  obtain ⟨c, hc, hreal, hsame⟩ := hwins.real
  rw [hchosen] at hsame
  revert hc hreal hsame
  simp only [List.mem_cons, List.not_mem_nil, or_false]
  rintro (rfl | rfl)
  · decide +kernel
  · decide +kernel

end LuodaRemote
