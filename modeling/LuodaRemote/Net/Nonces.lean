/-
  The nonces of a session.

  Both ends of a connection have the same key, each counts the messages it sends from one, and
  the number is all that goes into the nonce. `used_nodup_iff` says when no pair of key and
  nonce is used twice, over every interleaving: when one of the ends sends nothing, and no end
  sends more than 2^64 messages. The first message of each end has the nonce of the other's.
-/
import LuodaRemote.Lib.Run
import LuodaRemote.Net.Stream

namespace LuodaRemote
open Lib

/-! ## Nonces are injective -/

theorem ofDigits_toLeBytes (n : UInt64) :
    Nat.ofDigits 256 ((toLeBytes n).map UInt8.toNat) = n.toNat := by
  have hlt := n.toNat_lt
  simp only [toLeBytes, List.range_succ, List.range_zero, List.nil_append,
    List.map_cons, List.map_nil, List.cons_append, UInt8.toNat_ofNat',
    Nat.ofDigits_cons, Nat.ofDigits_nil]
  norm_num
  omega

theorem toLeBytes_injective : Function.Injective toLeBytes := by
  intro m n heq
  have hnat : m.toNat = n.toNat := by rw [← ofDigits_toLeBytes m, heq, ofDigits_toLeBytes n]
  exact UInt64.toNat_inj.mp hnat

theorem getNonce_injective : Function.Injective getNonce := by
  intro m n heq
  exact toLeBytes_injective (List.append_cancel_right heq)

/-! ## One end -/

namespace Encrypt

/-- The key and the nonce that the next message is sealed with. -/
def pair (e : Encrypt) : Bytes × Bytes := (e.key, getNonce (e.sent + 1))

end Encrypt

/-- The pairs of `n` messages from number `c + 1` on. -/
def pairsFrom (key : Bytes) (c : UInt64) (n : Nat) : List (Bytes × Bytes) :=
  (List.range n).map fun i => (key, getNonce (c + UInt64.ofNat i + 1))

theorem pairsFrom_succ (key : Bytes) (c : UInt64) (n : Nat) :
    pairsFrom key c (n + 1) = (key, getNonce (c + 1)) :: pairsFrom key (c + 1) n := by
  unfold pairsFrom
  rw [List.range_succ_eq_map, List.map_cons, List.map_map]
  refine congrArg₂ List.cons ?_ (List.map_congr_left fun i _ => ?_)
  · rw [show UInt64.ofNat 0 = 0 from rfl, UInt64.add_zero]
  · have hnum : c + UInt64.ofNat (i + 1) + 1 = c + 1 + UInt64.ofNat i + 1 := by
      rw [UInt64.ofNat_add, UInt64.add_assoc c 1, UInt64.add_comm 1]
      rfl
    rw [Function.comp_apply, Nat.succ_eq_add_one, hnum]

/-- The numbers of one end repeat after 2^64 messages. -/
theorem pairsFrom_nodup_iff (key : Bytes) (n : Nat) :
    (pairsFrom key 0 n).Nodup ↔ n ≤ 2 ^ 64 := by
  have hnonce : ∀ i j : Nat, ((key, getNonce (0 + UInt64.ofNat i + 1)) =
      (key, getNonce (0 + UInt64.ofNat j + 1))) ↔ i % 2 ^ 64 = j % 2 ^ 64 := by
    intro i j
    rw [Prod.mk.injEq, and_iff_right rfl, getNonce_injective.eq_iff, UInt64.add_left_inj,
      UInt64.add_right_inj, ← UInt64.toNat_inj, UInt64.toNat_ofNat', UInt64.toNat_ofNat']
  unfold pairsFrom
  constructor
  · intro hnodup
    by_contra hn
    have hzero : 0 ∈ List.range n := List.mem_range.mpr (by omega)
    have hbig : 2 ^ 64 ∈ List.range n := List.mem_range.mpr (by omega)
    have heq := List.inj_on_of_nodup_map hnodup hzero hbig ((hnonce _ _).mpr (by norm_num))
    norm_num at heq
  · intro hn
    refine List.Nodup.map_on (fun i hi j hj heq => ?_) List.nodup_range
    have hi := List.mem_range.mp hi
    have hj := List.mem_range.mp hj
    have hmod := (hnonce i j).mp heq
    rw [Nat.mod_eq_of_lt (by omega), Nat.mod_eq_of_lt (by omega)] at hmod
    exact hmod

/-! ## Two ends -/

inductive Side where
  | left
  | right
  deriving DecidableEq

/-- The two ends of a connection. -/
structure Endpoints where
  left : FramedStream
  right : FramedStream

namespace Endpoints

def side (p : Side) (s : Endpoints) : FramedStream :=
  match p with
  | .left => s.left
  | .right => s.right

/-- One end sends a message with `send_raw`. -/
def step (box : SecretBox) (s : Endpoints) (m : Side × Bytes) : Endpoints :=
  match m.1 with
  | .left => { s with left := (s.left.sendRaw box m.2).2 }
  | .right => { s with right := (s.right.sendRaw box m.2).2 }

/-- The pair the message is sealed with, on a stream that has a key. -/
def sealedWith (s : Endpoints) (m : Side × Bytes) : Option (Bytes × Bytes) :=
  (s.side m.1).encrypt.map Encrypt.pair

/-- The pairs of a run, in order. -/
def used (box : SecretBox) (s : Endpoints) (ms : List (Side × Bytes)) : List (Bytes × Bytes) :=
  collect (step box) sealedWith s ms

/-- How many messages an end sends. -/
def sends (p : Side) (ms : List (Side × Bytes)) : Nat := ms.countP fun m => m.1 = p

/-- An end that has the key and has sent so many messages. -/
def SentBy (key : Bytes) (c : UInt64) (s : FramedStream) : Prop :=
  ∃ e, s.encrypt = some e ∧ e.key = key ∧ e.sent = c

theorem sendRaw_sentBy (box : SecretBox) {key : Bytes} {c : UInt64} {s : FramedStream} (msg : Bytes)
    (hs : SentBy key c s) : SentBy key (c + 1) (s.sendRaw box msg).2 := by
  obtain ⟨e, he, hkey, rfl⟩ := hs
  unfold FramedStream.sendRaw
  rw [he]
  exact ⟨{ e with sent := e.sent + 1 }, rfl, hkey, rfl⟩

theorem sealedWith_eq {key : Bytes} {c : UInt64} {s : Endpoints} {m : Side × Bytes}
    (hs : SentBy key c (s.side m.1)) : s.sealedWith m = some (key, getNonce (c + 1)) := by
  obtain ⟨e, he, rfl, rfl⟩ := hs
  unfold sealedWith
  rw [he]
  rfl

/-- In whatever order the ends send, each uses its own numbers one after the other. -/
theorem used_perm (box : SecretBox) {key : Bytes} (ms : List (Side × Bytes)) {a b : UInt64}
    {s : Endpoints} (hl : SentBy key a s.left) (hr : SentBy key b s.right) :
    (used box s ms).Perm
      (pairsFrom key a (sends .left ms) ++ pairsFrom key b (sends .right ms)) := by
  induction ms generalizing s a b with
  | nil => exact List.Perm.refl _
  | cons m ms ih =>
    obtain ⟨p, msg⟩ := m
    cases p with
    | left =>
      have hpair : s.sealedWith (.left, msg) = some (key, getNonce (a + 1)) := sealedWith_eq hl
      have hrest := ih (s := step box s (.left, msg)) (sendRaw_sentBy box msg hl) hr
      have hleft : sends .left ((Side.left, msg) :: ms) = sends .left ms + 1 := by simp [sends]
      have hright : sends .right ((Side.left, msg) :: ms) = sends .right ms := by simp [sends]
      unfold used collect
      rw [hpair, hleft, hright, pairsFrom_succ, List.cons_append]
      exact hrest.cons _
    | right =>
      have hpair : s.sealedWith (.right, msg) = some (key, getNonce (b + 1)) := sealedWith_eq hr
      have hrest := ih (s := step box s (.right, msg)) hl (sendRaw_sentBy box msg hr)
      have hleft : sends .left ((Side.right, msg) :: ms) = sends .left ms := by simp [sends]
      have hright : sends .right ((Side.right, msg) :: ms) = sends .right ms + 1 := by
        simp [sends]
      unfold used collect
      rw [hpair, hleft, hright, pairsFrom_succ]
      exact (hrest.cons _).trans List.perm_middle.symm

theorem disjoint_pairsFrom_iff (key : Bytes) (m n : Nat) :
    (pairsFrom key 0 m).Disjoint (pairsFrom key 0 n) ↔ m = 0 ∨ n = 0 := by
  constructor
  · intro hdis
    by_contra hno
    obtain ⟨m, rfl⟩ : ∃ k, m = k + 1 := ⟨m - 1, by omega⟩
    obtain ⟨n, rfl⟩ : ∃ k, n = k + 1 := ⟨n - 1, by omega⟩
    rw [pairsFrom_succ, pairsFrom_succ] at hdis
    exact hdis List.mem_cons_self List.mem_cons_self
  · rintro (rfl | rfl)
    · exact List.disjoint_nil_left _
    · exact List.disjoint_nil_right _

/-- After both ends were given the same key, and in whatever order they send: no pair of key
    and nonce is used twice precisely if one end sends nothing and the other at most 2^64
    messages. -/
theorem used_nodup_iff (box : SecretBox) (key : Bytes) (left right : FramedStream)
    (ms : List (Side × Bytes)) :
    (used box ⟨left.setKey key, right.setKey key⟩ ms).Nodup ↔
      (sends .left ms = 0 ∨ sends .right ms = 0) ∧
        sends .left ms ≤ 2 ^ 64 ∧ sends .right ms ≤ 2 ^ 64 := by
  have hnew : ∀ s : FramedStream, SentBy key 0 (s.setKey key) :=
    fun s => ⟨.new key, rfl, rfl, rfl⟩
  rw [(used_perm box ms (hnew left) (hnew right)).nodup_iff, List.nodup_append',
    pairsFrom_nodup_iff, pairsFrom_nodup_iff, disjoint_pairsFrom_iff]
  tauto

/-- Each end sends one message. -/
theorem both_send_not_nodup :
    ¬ (used .xsalsa20Poly1305 ⟨FramedStream.setKey (List.replicate 32 7) {},
      FramedStream.setKey (List.replicate 32 7) {}⟩ [(.left, [1]), (.right, [2])]).Nodup := by
  decide +kernel

end Endpoints

end LuodaRemote
