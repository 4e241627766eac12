/-
  Ids that a user has chosen (`is_valid_custom_id` of `libs/hbb_common/src/lib.rs`, `Config::set_id`
  and `Config::get_id`).

  An id is accepted with six to sixteen characters. `get_id` takes an id of more than six bytes for
  an old one: it makes a new id and keeps that. So of the ids that are accepted only those of six
  bytes stay, and one that the machine would give itself (`custom_id_kept_iff`).

  What Unicode counts as a word character is a parameter.
-/
import LuodaRemote.Rendezvous
import LuodaRemote.Lib.Regex
import LuodaRemote.Lib.Slice

namespace LuodaRemote
open Lib

namespace Rendezvous

/-! ## The ids that are accepted -/

def letters : List Char := "abcdefghijklmnopqrstuvwxyzABCDEFGHIJKLMNOPQRSTUVWXYZ".toList

/-- `^[a-zA-Z][\w-]{5,15}$`. -/
def customIdRegex (words : List Char) : RegularExpression Char :=
  Regex.oneOf letters * Regex.between 5 15 (Regex.oneOf (words ++ ['-']))

def isValidCustomId (words : List Char) (id : String) : Bool :=
  (customIdRegex words).rmatch id.toList

theorem isValidCustomId_iff {words : List Char} {id : String} :
    isValidCustomId words id = true ↔ ∃ c w, id.toList = c :: w ∧ c ∈ letters ∧
      (5 ≤ w.length ∧ w.length ≤ 15) ∧ ∀ x ∈ w, x ∈ words ++ ['-'] := by
  rw [isValidCustomId, RegularExpression.rmatch_iff_matches', customIdRegex,
    RegularExpression.matches'_mul, Language.mem_mul]
  constructor
  · rintro ⟨a, ha, w, hw, hid⟩
    obtain ⟨c, hc, rfl⟩ := Regex.mem_oneOf.mp ha
    exact ⟨c, w, hid.symm, hc, (Regex.mem_between_oneOf (by decide)).mp hw⟩
  · rintro ⟨c, w, hid, hc, hw⟩
    exact ⟨[c], Regex.mem_oneOf.mpr ⟨c, hc, rfl⟩, w,
      (Regex.mem_between_oneOf (by decide)).mpr hw, hid.symm⟩

/-! ## The calls that follow -/

/-- The calls that leave the id to itself. -/
inductive ConfigCall where
  | getId (d : Draw)
  | setKeyConfirmed (v : Bool)
  | setHostKeyConfirmed (host : String) (v : Bool)
deriving DecidableEq

namespace Config

def configStep (c : Config) : ConfigCall → Config
  | .getId d => (c.getId d).2
  | .setKeyConfirmed v => c.setKeyConfirmed v
  | .setHostKeyConfirmed host v => c.setHostKeyConfirmed host v

/-- `get_id` gives the id, and changes nothing. -/
def Keeps (id : String) (c : Config) : ConfigCall → Prop
  | .getId d => c.getId d = (id, c)
  | _ => True

/-- The machine would call itself so. -/
def NamedAfterHost (c : Config) (id : String) (d : Draw) : Prop :=
  c.hostnameAsId = true ∧
    ∃ h, d.hostname = some h ∧ (h.map fun ch => if ch = ' ' then '-' else ch) = id

/-! ## What is kept -/

variable {words : List Char} {c : Config} {id : String}

/-- A number that was drawn starts with a digit. -/
theorem autoId_not_valid (n : Fin 900000) (hid : isValidCustomId words id = true) :
    autoId n ≠ id := by
  obtain ⟨ch, w, htext, hch, -⟩ := isValidCustomId_iff.mp hid
  intro heq
  have hdigits : (autoId n).toList = Nat.toDigits 10 (100000 + n.val) := Nat.toList_repr
  have hmem : ch ∈ Nat.toDigits 10 (100000 + n.val) := by
    rw [← hdigits, heq, htext]
    exact List.mem_cons_self
  have hall : letters.all (fun l => !l.isDigit) = true := by decide
  have hletter : ch.isDigit = false := by simpa using List.all_eq_true.mp hall ch hch
  exact not_mem_toDigits hletter _ hmem

theorem genId_eq_iff (d : Draw) (hid : isValidCustomId words id = true) :
    c.genId d = id ↔ c.NamedAfterHost id d := by
  unfold genId NamedAfterHost
  split
  · next has =>
    split
    · next h hh => simp [has, hh]
    · next hh => simp [hh, autoId_not_valid d.auto hid]
  · next has => simp [has, autoId_not_valid d.auto hid]

theorem keeps_getId_iff (d : Draw) (hid : isValidCustomId words id = true) (hc : c.id = id) :
    c.getId d = (id, c) ↔ id.utf8ByteSize = 6 ∨ c.NamedAfterHost id d := by
  have hsix : 6 ≤ id.utf8ByteSize := by
    obtain ⟨ch, w, htext, -, hw, -⟩ := isValidCustomId_iff.mp hid
    have hlen := length_le_utf8ByteSize id
    rw [htext, List.length_cons] at hlen
    omega
  have hempty : id.isEmpty = false := by
    rw [← Bool.not_eq_true, String.isEmpty_iff, ← String.utf8ByteSize_eq_zero_iff]
    omega
  rw [← genId_eq_iff d hid, getId, hc, hempty]
  by_cases hlen : 6 < id.utf8ByteSize
  · rw [if_pos (Or.inr hlen), Prod.mk.injEq]
    constructor
    · exact fun h => Or.inr h.1
    · rintro (h | h)
      · omega
      · refine ⟨h, ?_⟩
        rw [h, ← hc]
        rfl
  · rw [if_neg (by simpa using hlen)]
    exact iff_of_true rfl (Or.inl (by omega))

/-- What `get_id` needs of a call to keep the id. -/
def Settled (c : Config) (id : String) (a : ConfigCall) : Prop :=
  ∀ d, a = .getId d → id.utf8ByteSize = 6 ∨ c.NamedAfterHost id d

theorem keeps_iff_settled {s : Config} (hid : isValidCustomId words id = true)
    (hs : s.id = id ∧ s.hostnameAsId = c.hostnameAsId) (a : ConfigCall) :
    Keeps id s a ↔ c.Settled id a := by
  cases a with
  | getId d =>
    have hsame : s.NamedAfterHost id d ↔ c.NamedAfterHost id d := by
      rw [NamedAfterHost, NamedAfterHost, hs.2]
    have hiff := (keeps_getId_iff d hid hs.1).trans (or_congr_right hsame)
    constructor
    · rintro h _ ⟨⟩
      exact hiff.mp h
    · exact fun h => hiff.mpr (h d rfl)
  | _ => exact iff_of_true trivial nofun

theorem configStep_same {s : Config} (hs : s.id = id ∧ s.hostnameAsId = c.hostnameAsId)
    {a : ConfigCall} (ha : Keeps id s a) :
    (s.configStep a).id = id ∧ (s.configStep a).hostnameAsId = c.hostnameAsId := by
  cases a with
  | getId d =>
    have hstate : (s.getId d).2 = s := congrArg Prod.snd ha
    rw [configStep, hstate]
    exact hs
  | setKeyConfirmed v =>
    obtain ⟨hsid, -, hname⟩ := setKeyConfirmed_same s v
    exact ⟨hsid.trans hs.1, hname.trans hs.2⟩
  | setHostKeyConfirmed host v =>
    obtain ⟨hsid, -, hname, -⟩ := setHostKeyConfirmed_same s host v
    exact ⟨hsid.trans hs.1, hname.trans hs.2⟩

/-- Whatever is called, an accepted id stays precisely if it has six bytes or the machine would
    give it to itself whenever it is asked for. -/
theorem custom_id_kept_iff (c : Config) (calls : List ConfigCall)
    (hid : isValidCustomId words id = true) :
    Along configStep (Keeps id) (c.setId id) calls ↔
      id.utf8ByteSize = 6 ∨ ∀ d, .getId d ∈ calls → c.NamedAfterHost id d := by
  have hsame := @along_iff_along _ _ configStep
    (fun s => s.id = id ∧ s.hostnameAsId = c.hostnameAsId) (fun _ a => c.Settled id a) (Keeps id)
    (fun s a hs => keeps_iff_settled hid hs a)
    (fun s a hs ha => configStep_same hs ((keeps_iff_settled hid hs a).mpr ha))
  rw [hsame (s := c.setId id) ⟨rfl, rfl⟩, along_iff_mem]
  constructor
  · intro h
    by_cases hlen : id.utf8ByteSize = 6
    · exact Or.inl hlen
    · exact Or.inr fun d hd => (h _ hd d rfl).resolve_left hlen
  · rintro (h | h) a ha d rfl
    · exact Or.inl h
    · exact Or.inr (h d ha)

def asciiWords : List Char :=
  "abcdefghijklmnopqrstuvwxyzABCDEFGHIJKLMNOPQRSTUVWXYZ0123456789_".toList

/-- A configuration that was not used yet, on a machine whose name does not count. -/
def untouched : Config := ⟨"", false, fun _ => none, false, [], [], false, 0⟩

theorem valid_of_ascii {id : String} {ch : Char} {w : List Char} (hid : id.toList = ch :: w)
    (hch : letters.contains ch = true) (hw : 5 ≤ w.length ∧ w.length ≤ 15)
    (hall : (w.all fun x => asciiWords.contains x) = true) :
    isValidCustomId asciiWords id = true := by
  refine isValidCustomId_iff.mpr ⟨ch, w, hid, List.contains_iff_mem.mp hch, hw, fun x hx => ?_⟩
  exact List.mem_append_left _ (List.contains_iff_mem.mp (List.all_eq_true.mp hall x hx))

theorem office_valid : isValidCustomId asciiWords "office" = true :=
  @valid_of_ascii _ 'o' "ffice".toList (by decide) (by decide) (by decide) (by decide)

theorem office_kept :
    Along configStep (Keeps "office") (untouched.setId "office") [.getId ⟨none, 0⟩] :=
  (custom_id_kept_iff untouched [.getId ⟨none, 0⟩] office_valid).mpr (Or.inl (by decide))

theorem workstation_valid : isValidCustomId asciiWords "workstation" = true :=
  @valid_of_ascii _ 'w' "orkstation".toList (by decide) (by decide) (by decide) (by decide)

/-- The machine has another id as soon as it is asked for it. -/
theorem workstation_replaced :
    ¬ ∀ (words : List Char) (c : Config) (id : String) (calls : List ConfigCall),
      isValidCustomId words id = true → Along configStep (Keeps id) (c.setId id) calls := by
  intro hall
  have hkept := hall asciiWords untouched "workstation" [.getId ⟨none, 0⟩] workstation_valid
  have hid : ((untouched.setId "workstation").getId ⟨none, 0⟩).1 = "workstation" :=
    congrArg Prod.fst hkept.1
  have hnew : ((untouched.setId "workstation").getId ⟨none, 0⟩).1 = "100000" := by decide
  rw [hnew] at hid
  exact absurd hid (by decide)

end Config
end Rendezvous
end LuodaRemote
