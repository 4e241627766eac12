/-
  Hosts and ports in one text (`check_port`, `increase_port` and `split_host_port` of
  `libs/hbb_common/src/socket_client.rs`, with `is_ipv6_str` of `libs/hbb_common/src/lib.rs`).

  The functions tell an IPv6 address by a regular expression, which knows neither an address that
  begins or ends with `::` nor one with a dotted part, and takes a name and a port for one if both
  are short and the name is all hex digits. `helpers_agree_iff`: in all other cases the functions
  agree.

  Texts are lists of characters. The digits that `\d` stands for in a regular expression are left
  open, but for those of ASCII.
-/
import LuodaRemote.Lib.Decimal
import LuodaRemote.Lib.Regex
import LuodaRemote.Lib.Text

namespace LuodaRemote
open Lib

namespace HostPort

/-! ## The functions -/

def hexDigits : List Char := "abcdefABCDEF0123456789".toList

/-- `[a-fA-F0-9]{1,4}`. -/
def groupRegex : RegularExpression Char := Regex.between 1 4 (Regex.oneOf hexDigits)

/-- `:{1,2}`. -/
def colonRegex : RegularExpression Char := Regex.between 1 2 (Regex.oneOf [':'])

/-- `([a-fA-F0-9]{1,4}:{1,2})+[a-fA-F0-9]{1,4}`. -/
def groupsRegex : RegularExpression Char :=
  Regex.repeated (groupRegex * colonRegex) * groupRegex

/-- The groups by themselves, or in `\[` and `\]:\d+`. -/
def ipv6Regex (digits : List Char) : RegularExpression Char :=
  groupsRegex + RegularExpression.char '[' * (groupsRegex * (RegularExpression.char ']' *
    (RegularExpression.char ':' * Regex.repeated (Regex.oneOf digits))))

variable (digits : List Char)

def isIpv6Str (id : List Char) : Bool := (ipv6Regex digits).rmatch id

def portText (port : Int) : List Char := (toString port).toList

def checkPort (host : List Char) (port : Int) : List Char :=
  if isIpv6Str digits host then
    if host.head? = some '[' then host
    else '[' :: (host ++ (']' :: ':' :: portText port))
  else if ':' ∉ host then host ++ ':' :: portText port
  else host

/-- Two pieces, the second one a port. -/
def hostAndPort : List (List Char) → Option (List Char × Int)
  | [host, port] =>
    let port := (parseSigned 32 port).getD 0
    if 0 < port then some (host, port) else none
  | _ => none

def increasePort (host : List Char) (offset : Int) : List Char :=
  if isIpv6Str digits host then
    if host.head? = some '[' then
      match hostAndPort (splitSeq [']', ':'] host) with
      | some (host, port) => host ++ (']' :: ':' :: portText (port + offset))
      | none => host
    else host
  else if ':' ∈ host then
    match hostAndPort (host.splitOn ':') with
    | some (host, port) => host ++ ':' :: portText (port + offset)
    | none => host
  else host

def splitHostPort (host : List Char) : Option (List Char × Int) :=
  if isIpv6Str digits host then
    if host.head? = some '[' then
      (hostAndPort (splitSeq [']', ':'] host)).map fun (host, port) => (host ++ [']'], port)
    else none
  else if ':' ∈ host then hostAndPort (host.splitOn ':')
  else none

/-! ## Hosts -/

/-- One group of an address. -/
def Group (g : List Char) : Prop := (1 ≤ g.length ∧ g.length ≤ 4) ∧ ∀ c ∈ g, c ∈ hexDigits

/-- An address in the dotted form. -/
def Dotted (d : List Char) : Prop :=
  ∃ octets : List Nat, octets.length = 4 ∧ (∀ n ∈ octets, n ≤ 255) ∧
    d = ['.'].intercalate (octets.map (Nat.toDigits 10))

/-- An IPv6 address as text. -/
structure Ipv6Text where
  /-- The groups, or those before `::`. -/
  left : List (List Char)
  /-- The groups after `::`, if it occurs. -/
  right : Option (List (List Char))
  /-- The last two groups, if they are written with dots. -/
  dotted : Option (List Char)
  /-- Eight groups, or less if `::` stands for the others. -/
  count : match right with
    | none => left.length + 2 * dotted.toList.length = 8
    | some gs => left.length + gs.length + 2 * dotted.toList.length ≤ 7
  left_group : ∀ g ∈ left, Group g
  right_group : ∀ gs ∈ right, ∀ g ∈ gs, Group g
  dotted_dotted : ∀ d ∈ dotted, Dotted d

def Ipv6Text.text (a : Ipv6Text) : List Char :=
  match a.right with
  | none => [':'].intercalate (a.left ++ a.dotted.toList)
  | some gs => [':'].intercalate a.left ++ (':' :: ':' :: [':'].intercalate (gs ++ a.dotted.toList))

/-- An IPv6 address, or a name, a dotted address or whatever has no colon. -/
def WellFormed (h : List Char) : Prop := h ≠ [] ∧ ':' ∉ h ∨ ∃ a : Ipv6Text, h = a.text

/-- The host as it stands before a port. -/
def hostPart (h : List Char) : List Char := if ':' ∈ h then '[' :: (h ++ [']']) else h

/-- The functions agree on a host with a port, and on the port that is `k` higher. -/
structure Agree (h : List Char) (p k : Int) : Prop where
  split : splitHostPort digits (checkPort digits h p) = some (hostPart h, p)
  idempotent : checkPort digits (checkPort digits h p) p = checkPort digits h p
  increase : increasePort digits (checkPort digits h p) k = checkPort digits h (p + k)

/-! ## What the expression matches -/

variable {digits}

/-- Groups with one or two colons between them. -/
inductive Grouped : List Char → Prop where
  | last {g : List Char} (hg : Group g) : Grouped g
  | more {g s w : List Char} (hg : Group g) (hs : s = [] ∨ s = [':']) (hw : Grouped w) :
      Grouped (g ++ ':' :: (s ++ w))

theorem mem_groupRegex {g : List Char} : g ∈ groupRegex.matches' ↔ Group g :=
  Regex.mem_between_oneOf (by decide)

theorem mem_colonRegex {s : List Char} :
    s ∈ colonRegex.matches' ↔ s = [':'] ∨ s = [':', ':'] := by
  rw [colonRegex, Regex.mem_between_oneOf (by decide)]
  constructor
  · rintro ⟨⟨hlo, hhi⟩, hall⟩
    match s, hall with
    | [], _ => cases hlo
    | [a], hall =>
      simp only [List.mem_singleton, forall_eq] at hall
      exact .inl (by rw [hall])
    | [a, b], hall =>
      simp only [List.mem_cons, List.not_mem_nil, or_false, forall_eq_or_imp, forall_eq] at hall
      exact .inr (by rw [hall.1, hall.2])
    | _ :: _ :: _ :: _, _ => exact absurd hhi (by simp)
  · rintro (rfl | rfl) <;> simp

/-- A group and the colons behind it. -/
theorem mem_groupColon {w : List Char} : w ∈ (groupRegex * colonRegex).matches' ↔
    ∃ g s, Group g ∧ (s = [] ∨ s = [':']) ∧ w = g ++ ':' :: s := by
  rw [RegularExpression.matches'_mul, Language.mem_mul]
  constructor
  · rintro ⟨g, hg, s, hs, rfl⟩
    rcases mem_colonRegex.mp hs with rfl | rfl
    · exact ⟨g, [], mem_groupRegex.mp hg, .inl rfl, rfl⟩
    · exact ⟨g, [':'], mem_groupRegex.mp hg, .inr rfl, rfl⟩
  · rintro ⟨g, s, hg, rfl | rfl, rfl⟩
    · exact ⟨g, mem_groupRegex.mpr hg, [':'], mem_colonRegex.mpr (.inl rfl), rfl⟩
    · exact ⟨g, mem_groupRegex.mpr hg, [':', ':'], mem_colonRegex.mpr (.inr rfl), rfl⟩

theorem grouped_of_star {parts : List (List Char)}
    (hparts : ∀ y ∈ parts, y ∈ (groupRegex * colonRegex).matches') {g : List Char} (hg : Group g) :
    Grouped (parts.flatten ++ g) := by
  induction parts with
  | nil => exact .last hg
  | cons part parts ih =>
    obtain ⟨hpart, hrest⟩ := List.forall_mem_cons.mp hparts
    obtain ⟨x, s, hx, hs, rfl⟩ := mem_groupColon.mp hpart
    rw [List.flatten_cons, List.append_assoc, List.append_assoc, List.cons_append]
    exact .more hx hs (ih hrest)

theorem star_of_grouped {w : List Char} (hw : Grouped w) :
    ∃ (parts : List (List Char)) (g : List Char),
      (∀ y ∈ parts, y ∈ (groupRegex * colonRegex).matches') ∧ Group g ∧ w = parts.flatten ++ g := by
  induction hw with
  | last hg => exact ⟨[], _, nofun, hg, rfl⟩
  | @more x s w hx hs hw ih =>
    obtain ⟨parts, g, hparts, hg, rfl⟩ := ih
    refine ⟨(x ++ ':' :: s) :: parts, g, ?_, hg, by simp⟩
    exact List.forall_mem_cons.mpr ⟨mem_groupColon.mpr ⟨x, s, hx, hs, rfl⟩, hparts⟩

/-- Two groups at least. -/
def Ipv6Like (w : List Char) : Prop :=
  ∃ g s w', Group g ∧ (s = [] ∨ s = [':']) ∧ Grouped w' ∧ w = g ++ ':' :: (s ++ w')

theorem mem_groupsRegex {w : List Char} : w ∈ groupsRegex.matches' ↔ Ipv6Like w := by
  rw [groupsRegex, Regex.repeated, RegularExpression.matches'_mul, Language.mem_mul]
  constructor
  · rintro ⟨a, ha, b, hb, rfl⟩
    rw [RegularExpression.matches'_mul, Language.mem_mul] at ha
    obtain ⟨x, hx, y, hy, rfl⟩ := ha
    obtain ⟨g, s, hg, hs, rfl⟩ := mem_groupColon.mp hx
    obtain ⟨parts, rfl, hparts⟩ := hy
    exact ⟨g, s, _, hg, hs, grouped_of_star hparts (mem_groupRegex.mp hb), by simp⟩
  · rintro ⟨g, s, w', hg, hs, hw', rfl⟩
    obtain ⟨parts, last, hparts, hlast, rfl⟩ := star_of_grouped hw'
    refine ⟨(g ++ ':' :: s) ++ parts.flatten, ?_, last, mem_groupRegex.mpr hlast, by simp⟩
    rw [RegularExpression.matches'_mul, Language.mem_mul]
    exact ⟨_, mem_groupColon.mpr ⟨g, s, hg, hs, rfl⟩, _, ⟨parts, rfl, hparts⟩, rfl⟩

theorem isIpv6Str_iff {id : List Char} : isIpv6Str digits id = true ↔
    Ipv6Like id ∨ ∃ w ds, Ipv6Like w ∧ ds ∈ (Regex.repeated (Regex.oneOf digits)).matches' ∧
      id = '[' :: (w ++ (']' :: ':' :: ds)) := by
  have hone (c : Char) (x : List Char) :
      x ∈ (RegularExpression.char c).matches' ↔ x = [c] := Iff.rfl
  unfold isIpv6Str
  rw [RegularExpression.rmatch_iff_matches', ipv6Regex, RegularExpression.matches'_add,
    Language.mem_add, mem_groupsRegex]
  refine or_congr_right ?_
  simp only [RegularExpression.matches'_mul, Language.mem_mul, hone, exists_eq_left,
    mem_groupsRegex]
  constructor
  · rintro ⟨_, ⟨w, hw, _, ⟨_, ⟨ds, hds, rfl⟩, rfl⟩, rfl⟩, rfl⟩
    exact ⟨w, ds, hw, hds, rfl⟩
  · rintro ⟨w, ds, hw, hds, rfl⟩
    exact ⟨_, ⟨w, hw, _, ⟨_, ⟨ds, hds, rfl⟩, rfl⟩, rfl⟩, rfl⟩

/-- Without a bracket only the groups by themselves match. -/
theorem isIpv6Str_iff_of_not_mem {id : List Char} (h : '[' ∉ id) :
    isIpv6Str digits id = true ↔ Ipv6Like id := by
  rw [isIpv6Str_iff]
  refine or_iff_left ?_
  rintro ⟨w, ds, -, -, rfl⟩
  exact h List.mem_cons_self

theorem colon_not_hex : ':' ∉ hexDigits := by decide

theorem Group.exists_cons {g : List Char} (hg : Group g) : ∃ c cs, g = c :: cs ∧ c ∈ hexDigits := by
  obtain ⟨c, cs, rfl⟩ := List.exists_cons_of_length_pos hg.1.1
  exact ⟨c, cs, rfl, hg.2 c List.mem_cons_self⟩

theorem Grouped.head {w : List Char} (hw : Grouped w) : ∃ c ∈ hexDigits, w.head? = some c := by
  cases hw with
  | last hg =>
    obtain ⟨c, cs, rfl, hc⟩ := hg.exists_cons
    exact ⟨c, hc, rfl⟩
  | more hg _ _ =>
    obtain ⟨c, cs, rfl, hc⟩ := hg.exists_cons
    exact ⟨c, hc, rfl⟩

theorem Grouped.getLast {w : List Char} (hw : Grouped w) :
    ∃ c ∈ hexDigits, w.getLast? = some c := by
  induction hw with
  | @last g hg =>
    have hne : g ≠ [] := List.ne_nil_of_length_pos hg.1.1
    exact ⟨g.getLast hne, hg.2 _ (List.getLast_mem hne), List.getLast?_eq_some_getLast hne⟩
  | @more g s w hg hs hw ih =>
    obtain ⟨c, hc, hlast⟩ := ih
    refine ⟨c, hc, ?_⟩
    rw [← List.singleton_append, List.getLast?_append, List.getLast?_append, List.getLast?_append,
      hlast]
    rfl

theorem Grouped.mem {w : List Char} (hw : Grouped w) : ∀ c ∈ w, c ∈ hexDigits ∨ c = ':' := by
  induction hw with
  | last hg => exact fun c hc => .inl (hg.2 c hc)
  | more hg hs _ ih =>
    intro c hc
    rcases List.mem_append.mp hc with hc | hc
    · exact .inl (hg.2 c hc)
    · rcases List.mem_cons.mp hc with rfl | hc
      · exact .inr rfl
      · rcases List.mem_append.mp hc with hc | hc
        · rcases hs with rfl | rfl
          · cases hc
          · exact .inr (List.mem_singleton.mp hc)
        · exact ih c hc

theorem Grouped.group {w : List Char} (hw : Grouped w) (hcolon : ':' ∉ w) : Group w := by
  cases hw with
  | last hg => exact hg
  | more _ _ _ => exact absurd (List.mem_append_right _ List.mem_cons_self) hcolon

theorem Ipv6Like.grouped {w : List Char} (hw : Ipv6Like w) : Grouped w := by
  obtain ⟨g, s, w', hg, hs, hw', rfl⟩ := hw
  exact .more hg hs hw'

theorem Ipv6Like.colon_mem {w : List Char} (hw : Ipv6Like w) : ':' ∈ w := by
  obtain ⟨g, s, w', -, -, -, rfl⟩ := hw
  exact List.mem_append_right _ List.mem_cons_self

/-- What is not matched, for one reason or another. -/
theorem not_ipv6Like {w : List Char}
    (h : w.head? = some ':' ∨ w.getLast? = some ':' ∨ '.' ∈ w) : ¬ Ipv6Like w := by
  intro hw
  rcases h with hhead | hlast | hdot
  · obtain ⟨c, hc, hhead'⟩ := hw.grouped.head
    cases hhead.symm.trans hhead'
    exact colon_not_hex hc
  · obtain ⟨c, hc, hlast'⟩ := hw.grouped.getLast
    cases hlast.symm.trans hlast'
    exact colon_not_hex hc
  · have hmem := hw.grouped.mem '.' hdot
    revert hmem
    decide

/-- What holds of one group, and with one more in front of it, holds of all with colons between. -/
theorem intercalate_groups {P : List Char → Prop} (hlast : ∀ g, Group g → P g)
    (hmore : ∀ g w, Group g → P w → P (g ++ ([':'] ++ w))) {gs : List (List Char)} (hne : gs ≠ [])
    (hgs : ∀ g ∈ gs, Group g) : P ([':'].intercalate gs) := by
  induction gs with
  | nil => exact absurd rfl hne
  | cons g gs ih =>
    obtain ⟨hg, hgs⟩ := List.forall_mem_cons.mp hgs
    cases gs with
    | nil =>
      rw [List.intercalate_singleton]
      exact hlast g hg
    | cons g' gs =>
      rw [List.intercalate_cons_cons, List.append_assoc]
      exact hmore g _ hg (ih (List.cons_ne_nil _ _) hgs)

theorem grouped_intercalate {gs : List (List Char)} (hne : gs ≠ []) (hgs : ∀ g ∈ gs, Group g) :
    Grouped ([':'].intercalate gs) := by
  refine intercalate_groups (fun g hg => .last hg) (fun g w hg hw => ?_) hne hgs
  exact .more (s := []) hg (.inl rfl) hw

/-- Groups with `::` and other groups behind them. -/
theorem ipv6Like_append {gs : List (List Char)} {w : List Char} (hne : gs ≠ [])
    (hgs : ∀ g ∈ gs, Group g) (hw : Grouped w) :
    Ipv6Like ([':'].intercalate gs ++ (':' :: ':' :: w)) := by
  refine intercalate_groups (P := fun v => Ipv6Like (v ++ (':' :: ':' :: w)))
    (fun g hg => ⟨g, [':'], w, hg, .inr rfl, hw, rfl⟩) (fun g v hg hv => ?_) hne hgs
  rw [List.append_assoc, List.append_assoc]
  exact ⟨g, [], _, hg, .inl rfl, hv.grouped, rfl⟩

theorem ipv6Like_intercalate {gs : List (List Char)} (hlen : 2 ≤ gs.length)
    (hgs : ∀ g ∈ gs, Group g) : Ipv6Like ([':'].intercalate gs) := by
  match gs, hlen with
  | g :: g' :: gs, _ =>
    obtain ⟨hg, hgs⟩ := List.forall_mem_cons.mp hgs
    rw [List.intercalate_cons_cons, List.append_assoc]
    exact ⟨g, [], _, hg, .inl rfl, grouped_intercalate (List.cons_ne_nil _ _) hgs, rfl⟩

/-! ## Addresses as text -/

theorem isDigit_hex {c : Char} (hc : c.isDigit = true) : c ∈ hexDigits := by
  have hall : ∀ n : Fin 10, Char.ofNat (48 + n) ∈ hexDigits := by decide
  obtain ⟨hlo, hhi⟩ := Char.isDigit_iff_toNat.mp hc
  have h0 : '0'.toNat = 48 := rfl
  have h9 : '9'.toNat = 57 := rfl
  have hmem := hall ⟨c.toNat - 48, by omega⟩
  rwa [show 48 + (c.toNat - 48) = c.toNat by omega, Char.ofNat_toNat] at hmem

theorem dotted_mem {d : List Char} (hd : Dotted d) : ∀ c ∈ d, c ∈ hexDigits ∨ c = '.' := by
  obtain ⟨octets, -, -, rfl⟩ := hd
  intro c hc
  rcases mem_of_mem_intercalate hc with hsep | ⟨piece, hpiece, hc⟩
  · exact .inr (List.mem_singleton.mp hsep)
  · obtain ⟨n, -, rfl⟩ := List.mem_map.mp hpiece
    exact .inl (isDigit_hex (Nat.isDigit_of_mem_toDigits (by decide) (le_refl _) hc))

theorem dot_mem_dotted {d : List Char} (hd : Dotted d) : '.' ∈ d := by
  obtain ⟨octets, hlen, -, rfl⟩ := hd
  refine mem_intercalate_sep ?_ List.mem_cons_self
  rw [List.length_map]
  omega

namespace Ipv6Text

variable (a : Ipv6Text)

/-- The pieces of an address. -/
theorem piece_mem {piece : List Char}
    (hpiece : piece ∈ a.left ++ a.right.getD [] ++ a.dotted.toList) :
    ∀ c ∈ piece, c ∈ hexDigits ∨ c = '.' := by
  rcases List.mem_append.mp hpiece with hgroup | hdotted
  · rcases List.mem_append.mp hgroup with hleft | hright
    · exact fun c hc => .inl ((a.left_group piece hleft).2 c hc)
    · cases hgs : a.right with
      | none =>
        rw [hgs] at hright
        cases hright
      | some gs =>
        rw [hgs] at hright
        exact fun c hc => .inl ((a.right_group gs hgs piece hright).2 c hc)
  · exact dotted_mem (a.dotted_dotted piece (Option.mem_toList.mp hdotted))

theorem text_mem : ∀ c ∈ a.text, c ∈ hexDigits ∨ c = '.' ∨ c = ':' := by
  have hpieces (pieces : List (List Char))
      (hsub : ∀ piece ∈ pieces, piece ∈ a.left ++ a.right.getD [] ++ a.dotted.toList) :
      ∀ c ∈ [':'].intercalate pieces, c ∈ hexDigits ∨ c = '.' ∨ c = ':' := by
    intro c hc
    rcases mem_of_mem_intercalate hc with hsep | ⟨piece, hpiece, hc⟩
    · exact .inr (.inr (List.mem_singleton.mp hsep))
    · exact (a.piece_mem (hsub piece hpiece) c hc).imp_right .inl
  intro c hc
  unfold text at hc
  cases hright : a.right with
  | none =>
    rw [hright] at hc hpieces
    refine hpieces _ (fun piece hpiece => ?_) c hc
    simpa using hpiece
  | some gs =>
    rw [hright] at hc hpieces
    rcases List.mem_append.mp hc with hc | hc
    · exact hpieces _ (fun piece hpiece => by simp [hpiece]) c hc
    · rcases List.mem_cons.mp hc with rfl | hc
      · exact .inr (.inr rfl)
      · rcases List.mem_cons.mp hc with rfl | hc
        · exact .inr (.inr rfl)
        · refine hpieces _ (fun piece hpiece => ?_) c hc
          rw [Option.getD_some, List.append_assoc]
          exact List.mem_append_right _ hpiece

theorem bracket_not_mem : '[' ∉ a.text := by
  intro hmem
  have hchars := a.text_mem '[' hmem
  revert hchars
  decide

theorem colon_mem : ':' ∈ a.text := by
  have hcount := a.count
  unfold text
  cases hright : a.right with
  | some gs => exact List.mem_append_right _ List.mem_cons_self
  | none =>
    rw [hright] at hcount
    refine mem_intercalate_sep ?_ List.mem_cons_self
    rw [List.length_append]
    dsimp only at hcount
    omega

/-- The expression matches the addresses that have groups at both ends. -/
theorem ipv6Like_text (hhead : a.text.head? ≠ some ':') (hlast : a.text.getLast? ≠ some ':')
    (hdot : '.' ∉ a.text) : Ipv6Like a.text := by
  have hcount := a.count
  unfold text at *
  cases hright : a.right with
  | none =>
    rw [hright] at hdot hcount
    dsimp only at hcount hdot ⊢
    cases hdotted : a.dotted with
    | some d =>
      rw [hdotted] at hdot
      have hmem : d ∈ a.left ++ (some d).toList := List.mem_append_right _ List.mem_cons_self
      exact absurd (mem_intercalate hmem (dot_mem_dotted (a.dotted_dotted d hdotted))) hdot
    | none =>
      rw [hdotted, Option.toList_none, List.length_nil] at hcount
      rw [Option.toList_none, List.append_nil]
      exact ipv6Like_intercalate (by omega) a.left_group
  | some gs =>
    rw [hright] at hhead hlast hdot
    dsimp only at hhead hlast hdot ⊢
    cases hdotted : a.dotted with
    | some d =>
      rw [hdotted] at hdot
      have hmem : d ∈ gs ++ (some d).toList := List.mem_append_right _ List.mem_cons_self
      have hin : '.' ∈ [':'].intercalate (gs ++ (some d).toList) :=
        mem_intercalate hmem (dot_mem_dotted (a.dotted_dotted d hdotted))
      exact absurd (List.mem_append_right _ (List.mem_cons_of_mem _
        (List.mem_cons_of_mem _ hin))) hdot
    | none =>
      rw [hdotted, Option.toList_none, List.append_nil] at hlast hhead
      rw [Option.toList_none, List.append_nil]
      have hleft : a.left ≠ [] := by
        intro hnil
        rw [hnil] at hhead
        exact hhead rfl
      have hgs : gs ≠ [] := by
        intro hnil
        rw [hnil] at hlast
        refine hlast ?_
        rw [List.getLast?_append]
        rfl
      exact ipv6Like_append hleft a.left_group
        (grouped_intercalate hgs (a.right_group gs hright))

end Ipv6Text

/-! ## Ports -/

section Port

variable {p : Int}

theorem portText_eq (hp : 0 ≤ p) : portText p = Nat.toDigits 10 p.toNat := by
  unfold portText
  rw [Int.toString_eq_repr, Int.repr_eq_if, if_pos hp, Nat.toList_repr]

theorem not_mem_portText (hp : 0 ≤ p) {c : Char} (hc : c.isDigit = false) : c ∉ portText p := by
  rw [portText_eq hp]
  exact not_mem_toDigits hc _

theorem parse_portText (h1 : 1 ≤ p) (h2 : p ≤ 65535) :
    (parseSigned 32 (portText p)).getD 0 = p := by
  unfold portText
  rw [parseSigned_toString (by omega) (by omega), Option.getD_some]

theorem hostAndPort_portText {host : List Char} (h1 : 1 ≤ p) (h2 : p ≤ 65535) :
    hostAndPort [host, portText p] = some (host, p) := by
  unfold hostAndPort
  dsimp only
  rw [parse_portText h1 h2, if_pos (by omega)]

/-- A port of up to four digits looks like a group. -/
theorem group_portText (hp : 0 ≤ p) : Group (portText p) ↔ p < 10000 := by
  have hlen := Nat.length_toDigits_le_iff (b := 10) (n := p.toNat) (k := 4) (by decide) (by decide)
  have hpos := Nat.length_toDigits_pos (b := 10) (n := p.toNat)
  have hmem : ∀ c ∈ Nat.toDigits 10 p.toNat, c ∈ hexDigits := fun c hc =>
    isDigit_hex (Nat.isDigit_of_mem_toDigits (by decide) (le_refl _) hc)
  rw [portText_eq hp]
  constructor
  · intro hg
    have := hlen.mp hg.1.2
    omega
  · intro hlt
    exact ⟨⟨hpos, hlen.mpr (by omega)⟩, hmem⟩

theorem mem_digits (hdigits : ∀ c : Char, c.isDigit = true → c ∈ digits) (hp : 0 ≤ p) :
    portText p ∈ (Regex.repeated (Regex.oneOf digits)).matches' := by
  rw [portText_eq hp]
  refine Regex.mem_repeated_oneOf Nat.toDigits_ne_nil fun c hc => hdigits c ?_
  exact Nat.isDigit_of_mem_toDigits (by decide) (le_refl _) hc

end Port

/-! ## Names -/

section Name

variable {h : List Char} {p : Int}

theorem not_isIpv6Str_name (hcolon : ':' ∉ h) : isIpv6Str digits h = false := by
  rw [Bool.eq_false_iff, ne_eq, isIpv6Str_iff]
  rintro (hlike | ⟨w, ds, -, -, rfl⟩)
  · exact hcolon hlike.colon_mem
  · exact hcolon (by simp)

theorem checkPort_name (hcolon : ':' ∉ h) : checkPort digits h p = h ++ ':' :: portText p := by
  unfold checkPort
  rw [not_isIpv6Str_name hcolon, if_neg (by decide), if_pos hcolon]

/-- A name and a port are taken for an address if both look like groups. -/
theorem isIpv6Str_namePort (hcolon : ':' ∉ h) (hp : 0 ≤ p) :
    isIpv6Str digits (h ++ ':' :: portText p) = true ↔ Group h ∧ p < 10000 := by
  have hport : ':' ∉ portText p := not_mem_portText hp (by decide)
  rw [isIpv6Str_iff, ← group_portText hp]
  constructor
  · rintro (⟨g, s, w, hg, hs, hw, heq⟩ | ⟨w, ds, hlike, -, heq⟩)
    · obtain ⟨rfl, -, hpw⟩ := (List.append_cons_inj_of_notMem hcolon hport).mp heq
      refine ⟨hg, ?_⟩
      rcases hs with rfl | rfl
      · rw [List.nil_append] at hpw
        rw [hpw]
        exact hw.group (hpw ▸ hport)
      · exact absurd (hpw ▸ List.mem_cons_self) hport
    · -- The brackets would have a colon of their own.
      have heq : h ++ ':' :: portText p = ('[' :: (w ++ [']'])) ++ ':' :: ds := by
        rw [heq]
        simp
      obtain ⟨rfl, -, -⟩ := (List.append_cons_inj_of_notMem hcolon hport).mp heq
      exact absurd (List.mem_cons_of_mem _ (List.mem_append_left _ hlike.colon_mem)) hcolon
  · rintro ⟨hg, hport⟩
    exact .inl ⟨h, [], portText p, hg, .inl rfl, .last hport, rfl⟩

theorem head_namePort (hcolon : ':' ∉ h) (hg : Group h) :
    (h ++ ':' :: portText p).head? ≠ some '[' := by
  obtain ⟨c, cs, rfl, hc⟩ := hg.exists_cons
  rintro ⟨⟩
  revert hc
  decide

variable (digits) in
/-- A name that is no group, or has a high port, is split again. -/
theorem split_namePort (hcolon : ':' ∉ h) (h1 : 1 ≤ p) (h2 : p ≤ 65535)
    (hno : ¬ (Group h ∧ p < 10000)) :
    isIpv6Str digits (h ++ ':' :: portText p) = false ∧
      hostAndPort ((h ++ ':' :: portText p).splitOn ':') = some (h, p) := by
  have hport : ':' ∉ portText p := not_mem_portText (by omega) (by decide)
  constructor
  · rw [Bool.eq_false_iff, ne_eq, isIpv6Str_namePort hcolon (by omega)]
    exact hno
  · rw [List.splitOn_append_cons_self_of_not_mem hcolon, List.splitOn_eq_singleton hport,
      hostAndPort_portText h1 h2]

theorem agree_name_iff {k : Int} (hcolon : ':' ∉ h) (h1 : 1 ≤ p) (h2 : p ≤ 65535) :
    Agree digits h p k ↔ ¬ (Group h ∧ p < 10000) := by
  have hmem : ':' ∈ h ++ ':' :: portText p := List.mem_append_right _ List.mem_cons_self
  constructor
  · rintro ⟨hsplit, -, -⟩ ⟨hg, hlt⟩
    have hlike : isIpv6Str digits (h ++ ':' :: portText p) = true :=
      (isIpv6Str_namePort hcolon (by omega)).mpr ⟨hg, hlt⟩
    unfold splitHostPort at hsplit
    rw [checkPort_name hcolon, hlike, if_pos rfl, if_neg (head_namePort hcolon hg)] at hsplit
    cases hsplit
  · intro hno
    obtain ⟨hlike, hsplit⟩ := split_namePort digits hcolon h1 h2 hno
    constructor
    all_goals rw [checkPort_name hcolon]
    · unfold splitHostPort hostPart
      rw [hlike, if_neg (by decide), if_pos hmem, if_neg hcolon, hsplit]
    · unfold checkPort
      rw [hlike, if_neg (by decide), if_neg (fun hnot => hnot hmem)]
    · unfold increasePort
      rw [hlike, if_neg (by decide), if_pos hmem, hsplit, checkPort_name hcolon]

end Name

/-! ## Addresses -/

section Address

variable {h : List Char} {p : Int}

theorem head_ne_bracket {h : List Char} (hlike : Ipv6Like h) : h.head? ≠ some '[' := by
  obtain ⟨c, hc, hhead⟩ := hlike.grouped.head
  rw [hhead]
  rintro ⟨⟩
  revert hc
  decide

theorem checkPort_like (hlike : Ipv6Like h) :
    checkPort digits h p = '[' :: (h ++ (']' :: ':' :: portText p)) := by
  unfold checkPort
  rw [isIpv6Str_iff.mpr (.inl hlike), if_pos rfl, if_neg (head_ne_bracket hlike)]

theorem bracket_not_mem_like (hlike : Ipv6Like h) : ']' ∉ h := by
  intro hmem
  have hchars := hlike.grouped.mem ']' hmem
  revert hchars
  decide

theorem split_bracketed (hlike : Ipv6Like h) (h1 : 1 ≤ p) (h2 : p ≤ 65535) :
    hostAndPort (splitSeq [']', ':'] ('[' :: (h ++ (']' :: ':' :: portText p)))) =
      some ('[' :: h, p) := by
  have hport : ']' ∉ portText p := not_mem_portText (by omega) (by decide)
  have hbefore : ']' ∉ '[' :: h :=
    fun hmem => (List.mem_cons.mp hmem).elim nofun (bracket_not_mem_like hlike)
  have hafter : ¬ [']', ':'] <:+: portText p :=
    fun hwithin => hport (hwithin.mem List.mem_cons_self)
  have hsplit : splitSeq [']', ':'] ('[' :: h ++ ([']', ':'] ++ portText p)) =
      ('[' :: h) :: splitSeq [']', ':'] (portText p) := splitSeq_append_of_not_mem hbefore
  rw [splitSeq_eq_singleton hafter] at hsplit
  have heq : '[' :: (h ++ (']' :: ':' :: portText p)) =
      '[' :: h ++ ([']', ':'] ++ portText p) := rfl
  rw [heq, hsplit, hostAndPort_portText h1 h2]

theorem agree_like {k : Int} (hdigits : ∀ c : Char, c.isDigit = true → c ∈ digits)
    (hlike : Ipv6Like h) (h1 : 1 ≤ p) (h2 : p ≤ 65535) : Agree digits h p k := by
  have hip : isIpv6Str digits ('[' :: (h ++ (']' :: ':' :: portText p))) = true :=
    isIpv6Str_iff.mpr (.inr ⟨h, _, hlike, mem_digits hdigits (by omega), rfl⟩)
  have hsplit := split_bracketed hlike h1 h2
  have hhead : ('[' :: (h ++ (']' :: ':' :: portText p))).head? = some '[' := rfl
  constructor
  all_goals rw [checkPort_like hlike]
  · unfold splitHostPort hostPart
    rw [hip, if_pos rfl, if_pos hhead, hsplit, if_pos hlike.colon_mem]
    rfl
  · unfold checkPort
    rw [hip, if_pos rfl, if_pos hhead]
  · unfold increasePort
    rw [hip, if_pos rfl, if_pos hhead, hsplit, checkPort_like hlike]
    rfl

/-- An address that the expression does not match gets no port. -/
theorem not_agree_of_not_like {k : Int} (hcolon : ':' ∈ h) (hbracket : '[' ∉ h)
    (hno : ¬ Ipv6Like h) : ¬ Agree digits h p k := by
  intro hagree
  have hip : isIpv6Str digits h = false := by
    rw [Bool.eq_false_iff, ne_eq, isIpv6Str_iff_of_not_mem hbracket]
    exact hno
  have hcheck : checkPort digits h p = h := by
    unfold checkPort
    rw [hip, if_neg (by decide), if_neg (fun hnot => hnot hcolon)]
  have hsplit := hagree.split
  unfold splitHostPort hostPart at hsplit
  rw [hcheck, hip, if_neg (by decide), if_pos hcolon, if_pos hcolon] at hsplit
  -- The host would be a piece of the address, which has no bracket.
  unfold hostAndPort at hsplit
  split at hsplit
  · next host port hpieces =>
      have hhost : host ∈ h.splitOn ':' := by
        rw [hpieces]
        exact List.mem_cons_self
      dsimp only at hsplit
      split at hsplit
      · cases hsplit
        exact hbracket (mem_of_mem_splitOn hhost List.mem_cons_self)
      · cases hsplit
  · cases hsplit

end Address

/-- The functions agree precisely on the addresses with groups at both ends and no dots, and on the
    names and dotted addresses but for short names of hex digits with a port below 10000. -/
theorem helpers_agree_iff (hdigits : ∀ c : Char, c.isDigit = true → c ∈ digits) {h : List Char}
    (hh : WellFormed h) {p k : Int} (h1 : 1 ≤ p) (h2 : p ≤ 65535) (_ : 1 ≤ p + k)
    (_ : p + k ≤ 65535) :
    Agree digits h p k ↔
      ':' ∈ h ∧ h.head? ≠ some ':' ∧ h.getLast? ≠ some ':' ∧ '.' ∉ h ∨
        ':' ∉ h ∧ ¬ (Group h ∧ p < 10000) := by
  rcases hh with ⟨-, hname⟩ | ⟨a, rfl⟩
  · rw [agree_name_iff hname h1 h2]
    exact ⟨fun hno => .inr ⟨hname, hno⟩, fun hcond => hcond.elim (absurd ·.1 hname) And.right⟩
  · have hcolon := a.colon_mem
    constructor
    · intro hagree
      have hlike : Ipv6Like a.text := by
        by_contra hno
        exact not_agree_of_not_like hcolon a.bracket_not_mem hno hagree
      have hends := fun hbad => not_ipv6Like hbad hlike
      exact .inl ⟨hcolon, fun hhead => hends (.inl hhead), fun hlast => hends (.inr (.inl hlast)),
        fun hdot => hends (.inr (.inr hdot))⟩
    · rintro (⟨-, hhead, hlast, hdot⟩ | ⟨hno, -⟩)
      · exact agree_like hdigits (a.ipv6Like_text hhead hlast hdot) h1 h2
      · exact absurd hcolon hno

/-- The digits of ASCII. -/
def asciiDigits : List Char := "0123456789".toList

theorem mem_asciiDigits {c : Char} (hc : c.isDigit = true) : c ∈ asciiDigits := by
  have hall : ∀ n ∈ asciiDigits ++ hexDigits, n.isDigit = true → n ∈ asciiDigits :=
    forall_mem_of_all (by decide)
  exact hall c (List.mem_append_right _ (isDigit_hex hc)) hc

theorem helpers_agree_iff_name :
    Agree asciiDigits "example.com".toList 21116 1 ↔
      ':' ∈ "example.com".toList ∧ "example.com".toList.head? ≠ some ':' ∧
          "example.com".toList.getLast? ≠ some ':' ∧ '.' ∉ "example.com".toList ∨
        ':' ∉ "example.com".toList ∧ ¬ (Group "example.com".toList ∧ (21116 : Int) < 10000) :=
  helpers_agree_iff (fun _ => mem_asciiDigits) (.inl ⟨by decide, by decide⟩) (by decide)
    (by decide) (by decide) (by decide)

/-- `::1`. -/
def loopback : Ipv6Text where
  left := []
  right := some [['1']]
  dotted := none
  count := by decide
  left_group := nofun
  right_group gs hgs g hg := by
    cases hgs
    rw [List.mem_singleton.mp hg]
    exact ⟨by decide, forall_mem_of_all (by decide)⟩
  dotted_dotted := nofun

/-- The loopback address gets no port, and a short name of hex digits loses it again. -/
theorem helpers_disagree :
    WellFormed "::1".toList ∧ ¬ Agree asciiDigits "::1".toList 21116 1 ∧
      checkPort asciiDigits "::1".toList 21116 = "::1".toList ∧
      WellFormed "cafe".toList ∧ ¬ Agree asciiDigits "cafe".toList 2111 1 ∧
      splitHostPort asciiDigits (checkPort asciiDigits "cafe".toList 2111) = none := by
  have hloopback : checkPort asciiDigits "::1".toList 21116 = "::1".toList := by decide +kernel
  have hcafe : splitHostPort asciiDigits (checkPort asciiDigits "cafe".toList 2111) = none := by
    decide +kernel
  refine ⟨.inr ⟨loopback, by decide⟩, fun hagree => ?_, hloopback, .inl ⟨by decide, by decide⟩,
    fun hagree => ?_, hcafe⟩
  · have hsplit := hagree.split
    rw [hloopback] at hsplit
    revert hsplit
    decide +kernel
  · have hsplit := hagree.split
    rw [hcafe] at hsplit
    cases hsplit

end HostPort

end LuodaRemote
