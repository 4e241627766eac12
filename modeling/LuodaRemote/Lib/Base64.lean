/-
  Base64 with the usual alphabet and padding.

  Three bytes are four characters. `decode` takes nothing but what `encode` gives: the padding must
  be there, and the bits it stands for must be zero (`decode_encode`). `encodeUrl` is what stands in
  URLs and names of files, where two characters are others and there is no padding.
-/
import Mathlib.Tactic

namespace LuodaRemote.Lib.Base64

/-- The character for six bits. -/
def char (n : Nat) : Char :=
  if n < 26 then Char.ofNat ('A'.toNat + n)
  else if n < 52 then Char.ofNat ('a'.toNat + (n - 26))
  else if n < 62 then Char.ofNat ('0'.toNat + (n - 52))
  else if n = 62 then '+'
  else '/'

def value (c : Char) : Option Nat :=
  if 'A' ≤ c ∧ c ≤ 'Z' then some (c.toNat - 'A'.toNat)
  else if 'a' ≤ c ∧ c ≤ 'z' then some (c.toNat - 'a'.toNat + 26)
  else if '0' ≤ c ∧ c ≤ '9' then some (c.toNat - '0'.toNat + 52)
  else if c = '+' then some 62
  else if c = '/' then some 63
  else none

def encode : List UInt8 → List Char
  | [] => []
  | [a] => [char (a.toNat / 4), char (a.toNat % 4 * 16), '=', '=']
  | [a, b] =>
    [char (a.toNat / 4), char (a.toNat % 4 * 16 + b.toNat / 16), char (b.toNat % 16 * 4), '=']
  | a :: b :: c :: rest =>
    char (a.toNat / 4) :: char (a.toNat % 4 * 16 + b.toNat / 16) ::
      char (b.toNat % 16 * 4 + c.toNat / 64) :: char (c.toNat % 64) :: encode rest

/-- The last four characters, with or without padding. -/
def decodeLast (w x y z : Char) : Option (List UInt8) :=
  if y = '=' ∧ z = '=' then
    match value w, value x with
    | some w, some x => if x % 16 = 0 then some [UInt8.ofNat (w * 4 + x / 16)] else none
    | _, _ => none
  else if z = '=' then
    match value w, value x, value y with
    | some w, some x, some y =>
      if y % 4 = 0 then some [UInt8.ofNat (w * 4 + x / 16), UInt8.ofNat (x % 16 * 16 + y / 4)]
      else none
    | _, _, _ => none
  else
    match value w, value x, value y, value z with
    | some w, some x, some y, some z =>
      some [UInt8.ofNat (w * 4 + x / 16), UInt8.ofNat (x % 16 * 16 + y / 4),
        UInt8.ofNat (y % 4 * 64 + z)]
    | _, _, _, _ => none

def decode : List Char → Option (List UInt8)
  | [] => some []
  | [w, x, y, z] => decodeLast w x y z
  | w :: x :: y :: z :: rest =>
    match value w, value x, value y, value z with
    | some w, some x, some y, some z =>
      (decode rest).map fun bs =>
        UInt8.ofNat (w * 4 + x / 16) :: UInt8.ofNat (x % 16 * 16 + y / 4) ::
          UInt8.ofNat (y % 4 * 64 + z) :: bs
    | _, _, _, _ => none
  | _ => none

theorem value_char {n : Nat} (hn : n < 64) : value (char n) = some n := by
  have htable : ∀ n : Fin 64, value (char n.val) = some n.val := by decide
  exact htable ⟨n, hn⟩

theorem char_ne_pad {n : Nat} (hn : n < 64) : char n ≠ '=' := by
  have htable : ∀ n : Fin 64, char n.val ≠ '=' := by decide
  exact htable ⟨n, hn⟩

theorem ofNat_toNat_of_eq {a : UInt8} {n : Nat} (h : n = a.toNat) : UInt8.ofNat n = a := by
  rw [h, UInt8.ofNat_toNat]

/-- Four full characters in front of the rest. -/
theorem decode_group {w x y z : Nat} (hw : w < 64) (hx : x < 64) (hy : y < 64) (hz : z < 64)
    (rest : List Char) :
    decode (char w :: char x :: char y :: char z :: rest) = (decode rest).map fun bs =>
      UInt8.ofNat (w * 4 + x / 16) :: UInt8.ofNat (x % 16 * 16 + y / 4) ::
        UInt8.ofNat (y % 4 * 64 + z) :: bs := by
  cases rest with
  | nil =>
    show decodeLast _ _ _ _ = _
    rw [decodeLast, if_neg fun h => char_ne_pad hy h.1, if_neg (char_ne_pad hz),
      value_char hw, value_char hx, value_char hy, value_char hz]
    rfl
  | cons c rest =>
    rw [decode, value_char hw, value_char hx, value_char hy, value_char hz]
    exact fun h => absurd h (List.cons_ne_nil _ _)

/-- What was encoded is decoded again. -/
theorem decode_encode (bytes : List UInt8) : decode (encode bytes) = some bytes := by
  induction bytes using encode.induct with
  | case1 => rfl
  | case2 a =>
    have ha := a.toNat_lt
    rw [encode, decode, decodeLast, if_pos ⟨rfl, rfl⟩, value_char (by omega), value_char (by omega)]
    dsimp only
    rw [if_pos (by omega), ofNat_toNat_of_eq (a := a) (by omega)]
  | case3 a b =>
    have ha := a.toNat_lt
    have hb := b.toNat_lt
    rw [encode, decode, decodeLast, if_neg fun h => char_ne_pad (by omega) h.1, if_pos rfl,
      value_char (by omega), value_char (by omega), value_char (by omega)]
    dsimp only
    rw [if_pos (by omega), ofNat_toNat_of_eq (a := a) (by omega),
      ofNat_toNat_of_eq (a := b) (by omega)]
  | case4 a b c rest ih =>
    have ha := a.toNat_lt
    have hb := b.toNat_lt
    have hc := c.toNat_lt
    rw [encode, decode_group (by omega) (by omega) (by omega) (by omega), ih, Option.map_some,
      ofNat_toNat_of_eq (a := a) (by omega), ofNat_toNat_of_eq (a := b) (by omega),
      ofNat_toNat_of_eq (a := c) (by omega)]

theorem encode_ne_nil {bytes : List UInt8} (hne : bytes ≠ []) : encode bytes ≠ [] := by
  intro hnil
  have hback := decode_encode bytes
  rw [hnil] at hback
  exact hne (Option.some.inj hback).symm

theorem mem_encode {bs : List UInt8} {x : Char} (h : x ∈ encode bs) :
    x = '=' ∨ ∃ n < 64, x = char n := by
  induction bs using encode.induct with
  | case1 => cases h
  | case2 a =>
    have ha := a.toNat_lt
    simp only [encode, List.mem_cons, List.not_mem_nil, or_false] at h
    rcases h with rfl | rfl | rfl | rfl
    · exact .inr ⟨_, by omega, rfl⟩
    · exact .inr ⟨_, by omega, rfl⟩
    · exact .inl rfl
    · exact .inl rfl
  | case3 a b =>
    have ha := a.toNat_lt
    have hb := b.toNat_lt
    simp only [encode, List.mem_cons, List.not_mem_nil, or_false] at h
    rcases h with rfl | rfl | rfl | rfl
    · exact .inr ⟨_, by omega, rfl⟩
    · exact .inr ⟨_, by omega, rfl⟩
    · exact .inr ⟨_, by omega, rfl⟩
    · exact .inl rfl
  | case4 a b c rest ih =>
    have ha := a.toNat_lt
    have hb := b.toNat_lt
    have hc := c.toNat_lt
    simp only [encode, List.mem_cons] at h
    rcases h with rfl | rfl | rfl | rfl | h
    · exact .inr ⟨_, by omega, rfl⟩
    · exact .inr ⟨_, by omega, rfl⟩
    · exact .inr ⟨_, by omega, rfl⟩
    · exact .inr ⟨_, by omega, rfl⟩
    · exact ih h

theorem length_encode (bs : List UInt8) : (encode bs).length % 4 = 0 := by
  induction bs using encode.induct with
  | case1 => rfl
  | case2 a => simp only [encode, List.length_cons, List.length_nil]
  | case3 a b => simp only [encode, List.length_cons, List.length_nil]
  | case4 a b c rest ih =>
    simp only [encode, List.length_cons]
    omega

theorem length_decodeLast {w x y z : Char} {bs : List UInt8} (h : decodeLast w x y z = some bs) :
    bs.length ≤ 3 := by
  unfold decodeLast at h
  split at h
  · split at h
    · split at h
      · cases h
        exact Nat.le_add_left 1 2
      · cases h
    · cases h
  · split at h
    · split at h
      · split at h
        · cases h
          exact Nat.le_succ 2
        · cases h
      · cases h
    · split at h
      · cases h
        exact Nat.le_refl 3
      · cases h

/-- What can be decoded is groups of four, and gives no more bytes than it has characters. -/
theorem length_of_decode : ∀ {s : List Char} {bs : List UInt8}, decode s = some bs →
    s.length % 4 = 0 ∧ bs.length ≤ s.length
  | [], _, h => by
      cases h
      exact ⟨rfl, Nat.le_refl _⟩
  | [_], _, h | [_, _], _, h | [_, _, _], _, h => by cases h
  | [w, x, y, z], bs, h => by
      have hlen : bs.length ≤ 3 := length_decodeLast h
      exact ⟨Nat.mod_self 4, Nat.le_succ_of_le hlen⟩
  | w :: x :: y :: z :: c :: rest, bs, h => by
      rw [decode] at h
      · split at h
        · obtain ⟨ds, hds, rfl⟩ := Option.map_eq_some_iff.mp h
          have hlen := length_of_decode hds
          simp only [List.length_cons] at hlen ⊢
          omega
        · cases h
      · exact List.cons_ne_nil c rest

theorem eq_of_char_eq_slash {n : Nat} (hn : n < 64) (h : char n = '/') : n = 63 := by
  have htable : ∀ n : Fin 64, char n.val = '/' → n.val = 63 := by decide
  exact htable ⟨n, hn⟩ h

/-- Only a byte of ones gives two slashes at the end. -/
theorem mem_of_two_slashes {bs : List UInt8} {s : List Char} (h : encode bs = s ++ ['/', '/']) :
    255 ∈ bs := by
  induction bs using encode.induct generalizing s with
  | case1 =>
    exact absurd h.symm (List.append_ne_nil_of_right_ne_nil s (List.cons_ne_nil _ _))
  | case2 a =>
    have hlast := congrArg List.getLast? h
    rw [List.getLast?_append] at hlast
    cases hlast
  | case3 a b =>
    have hlast := congrArg List.getLast? h
    rw [List.getLast?_append] at hlast
    cases hlast
  | case4 a b c rest ih =>
    have hb := b.toNat_lt
    have hc := c.toNat_lt
    rcases rest with _ | ⟨d, rest⟩
    · have hsame : [char (a.toNat / 4), char (a.toNat % 4 * 16 + b.toNat / 16)] ++
          [char (b.toNat % 16 * 4 + c.toNat / 64), char (c.toNat % 64)] = s ++ ['/', '/'] := h
      obtain ⟨-, hend⟩ := List.append_inj' hsame rfl
      obtain ⟨hthird, hfourth⟩ := List.cons_eq_cons.mp hend
      have hthree := eq_of_char_eq_slash (by omega) hthird
      have hfour := eq_of_char_eq_slash (by omega) (List.head_eq_of_cons_eq hfourth)
      have hone : c = 255 := UInt8.toNat_inj.mp (by simp only [UInt8.reduceToNat]; omega)
      rw [hone]
      exact List.mem_cons_of_mem _ (List.mem_cons_of_mem _ List.mem_cons_self)
    · have hlen := length_encode (d :: rest)
      have hne := encode_ne_nil (List.cons_ne_nil d rest)
      have hpos := List.length_pos_of_ne_nil hne
      have hsplit : [char (a.toNat / 4), char (a.toNat % 4 * 16 + b.toNat / 16),
          char (b.toNat % 16 * 4 + c.toNat / 64), char (c.toNat % 64)] ++ encode (d :: rest) =
          s ++ ['/', '/'] := h
      rcases List.append_eq_append_iff.mp hsplit with ⟨s', -, hs'⟩ | ⟨s', -, hs'⟩
      · have hmem := ih hs'
        exact List.mem_cons_of_mem _ (List.mem_cons_of_mem _ (List.mem_cons_of_mem _ hmem))
      · have hshort := congrArg List.length hs'
        rw [List.length_append] at hshort
        simp only [List.length_cons, List.length_nil] at hshort
        omega

example : String.ofList (encode [77, 97, 110, 33]) = "TWFuIQ==" := by decide

/-! ## In URLs -/

/-- The character for six bits in a URL. -/
def urlChar (n : Nat) : Char := if n = 62 then '-' else if n = 63 then '_' else char n

/-- Without padding, with the alphabet of URLs. -/
def encodeUrl : List UInt8 → List Char
  | [] => []
  | [a] => [urlChar (a.toNat / 4), urlChar (a.toNat % 4 * 16)]
  | [a, b] =>
    [urlChar (a.toNat / 4), urlChar (a.toNat % 4 * 16 + b.toNat / 16), urlChar (b.toNat % 16 * 4)]
  | a :: b :: c :: rest =>
    urlChar (a.toNat / 4) :: urlChar (a.toNat % 4 * 16 + b.toNat / 16) ::
      urlChar (b.toNat % 16 * 4 + c.toNat / 64) :: urlChar (c.toNat % 64) :: encodeUrl rest

theorem mem_encodeUrl {bs : List UInt8} {x : Char} (h : x ∈ encodeUrl bs) :
    ∃ n < 64, x = urlChar n := by
  induction bs using encodeUrl.induct with
  | case1 => cases h
  | case2 a =>
    have ha := a.toNat_lt
    simp only [encodeUrl, List.mem_cons, List.not_mem_nil, or_false] at h
    rcases h with rfl | rfl <;> exact ⟨_, by omega, rfl⟩
  | case3 a b =>
    have ha := a.toNat_lt
    have hb := b.toNat_lt
    simp only [encodeUrl, List.mem_cons, List.not_mem_nil, or_false] at h
    rcases h with rfl | rfl | rfl <;> exact ⟨_, by omega, rfl⟩
  | case4 a b c rest ih =>
    have ha := a.toNat_lt
    have hb := b.toNat_lt
    have hc := c.toNat_lt
    simp only [encodeUrl, List.mem_cons] at h
    rcases h with rfl | rfl | rfl | rfl | h
    · exact ⟨_, by omega, rfl⟩
    · exact ⟨_, by omega, rfl⟩
    · exact ⟨_, by omega, rfl⟩
    · exact ⟨_, by omega, rfl⟩
    · exact ih h

theorem encodeUrl_ne_nil {bs : List UInt8} (h : bs ≠ []) : encodeUrl bs ≠ [] := by
  match bs with
  | [] => exact absurd rfl h
  | [_] | [_, _] | _ :: _ :: _ :: _ => exact List.cons_ne_nil _ _

/-- An opening brace is always this character. -/
theorem head?_encodeUrl {bs : List UInt8} (h : bs.head? = some 0x7B) :
    (encodeUrl bs).head? = some 'e' := by
  match bs with
  | [_] | [_, _] | _ :: _ :: _ :: _ =>
    cases h
    rfl

/-- A closing brace at the end is one of these, by its place. -/
theorem getLast?_encodeUrl {bs : List UInt8} (h : bs.getLast? = some 0x7D) :
    (encodeUrl bs).getLast? ∈ [some '9', some 'Q', some '0'] := by
  induction bs using encodeUrl.induct with
  | case1 => cases h
  | case2 a =>
    cases h
    decide
  | case3 a b =>
    cases h
    exact List.mem_cons_of_mem _ (List.mem_cons_of_mem _ List.mem_cons_self)
  | case4 a b c rest ih =>
    cases rest with
    | nil =>
      cases h
      exact List.mem_cons_self
    | cons d rest =>
      have hne := encodeUrl_ne_nil (List.cons_ne_nil d rest)
      rw [List.getLast?_cons_cons, List.getLast?_cons_cons, List.getLast?_cons_cons] at h
      have hlast := ih h
      rw [encodeUrl]
      obtain ⟨x, xs, hx⟩ := List.exists_cons_of_ne_nil hne
      rw [hx] at hlast ⊢
      rw [List.getLast?_cons_cons, List.getLast?_cons_cons, List.getLast?_cons_cons,
        List.getLast?_cons_cons]
      exact hlast

end LuodaRemote.Lib.Base64
