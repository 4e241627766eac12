/-
  Version numbers (`get_version_number` of `libs/hbb_common/src/lib.rs`).

  The components of a version are digits to the base 1000, and the last one counts tenfold to leave
  room for a patch version. The room is there while the last component has two digits:
  `version_order` says that a version is below all later ones precisely then, and that the
  arithmetic stays within an `i64` precisely for the versions whose number fits in one.
-/
import LuodaRemote.Host
import LuodaRemote.Lib.Checked
import LuodaRemote.Lib.Decimal
import LuodaRemote.Lib.Text

namespace LuodaRemote
open Lib

/-- A turn of the loop, which has the last component and the number so far. -/
def versionTurn (s : Int × Int) (x : List Char) : Except Fault (Int × Int) := do
  let last := parseI64 x
  let scaled ← I64.mul s.2 1000
  let n ← I64.add scaled last
  return (last, n)

/-- The number of the first part. -/
def checkedBaseNumber (part : List Char) : Except Fault Int := do
  let (last, n) ← (part.splitOn '.').foldlM versionTurn (0, 0)
  let n ← I64.sub n last
  let tenfold ← I64.mul last 10
  I64.add n tenfold

/-- `getVersionNumber` in the arithmetic of an `i64`. -/
def checkedVersionNumber (v : String) : Except Fault Int := do
  let versions := v.toList.splitOn '-'
  let n ← checkedBaseNumber (versions.getD 0 [])
  match versions[1]? with
  | some p => I64.add n (parseI64 p)
  | none => return n

/-! ## Components -/

/-- The loop of `parseI64` over the digits. -/
theorem parseI64_digits (cs : List Char) (n : Nat) :
    (cs.foldl (fun acc c => acc.bind fun n =>
      if c.isDigit then some (n * 10 + (c.toNat - 48)) else none) (some n)) =
      if cs.all Char.isDigit then some (Nat.ofDigitChars 10 cs n) else none := by
  induction cs generalizing n with
  | nil => rfl
  | cons c cs ih =>
    have hnone : ∀ ds : List Char, ds.foldl (fun acc c => acc.bind fun n =>
        if c.isDigit then some (n * 10 + (c.toNat - 48)) else none) none = none := by
      intro ds
      induction ds with
      | nil => rfl
      | cons d ds ih => exact ih
    rw [List.foldl_cons, Option.bind_some, List.all_cons, Nat.ofDigitChars_cons]
    cases hc : c.isDigit with
    | true =>
      rw [if_pos rfl, ih, Bool.true_and, Nat.mul_comm 10 n]
      rfl
    | false =>
      rw [if_neg (by simp), hnone, Bool.false_and, if_neg (by simp)]

theorem foldl_parseDigits (cs : List Char) :
    (if cs.isEmpty then none
      else cs.foldl (fun acc c => acc.bind fun n =>
        if c.isDigit then some (n * 10 + (c.toNat - 48)) else none) (some 0)) = parseDigits cs := by
  unfold parseDigits
  rw [parseI64_digits]
  cases cs with
  | nil => rfl
  | cons c cs =>
    cases hall : (c :: cs).all Char.isDigit with
    | true => simp
    | false => simp

/-- A number that does not fit is read as zero. -/
theorem fits_or_zero (d : Option Nat) (f : Nat → Int) :
    (match d.map f with
      | some n => if -(2 ^ 63) ≤ n ∧ n < 2 ^ 63 then n else 0
      | none => 0) = (d.bind fun n => fitSigned 64 (f n)).getD 0 := by
  cases d with
  | none => rfl
  | some n =>
    show (if -(2 ^ 63) ≤ f n ∧ f n < 2 ^ 63 then f n else 0) = (fitSigned 64 (f n)).getD 0
    unfold fitSigned
    split
    · rfl
    · rfl

theorem parseI64_eq (s : List Char) : parseI64 s = (parseSigned 64 s).getD 0 := by
  unfold parseSigned
  split
  · next cs =>
      unfold parseI64
      simp only [foldl_parseDigits]
      cases parseDigits cs with
      | none => rfl
      | some n => exact fits_or_zero (some n) fun n => -(n : Int)
  · next cs =>
      unfold parseI64
      simp only [foldl_parseDigits]
      exact fits_or_zero (parseDigits cs) Int.ofNat
  · next hminus hplus =>
      unfold parseI64
      simp only [foldl_parseDigits]
      exact fits_or_zero (parseDigits s) Int.ofNat

/-- Without a minus there is no negative number. -/
theorem parseI64_nonneg {s : List Char} (hs : '-' ∉ s) : 0 ≤ parseI64 s := by
  have hbind : ∀ d : Option Nat, 0 ≤ (d.bind fun n => fitSigned 64 (n : Int)).getD 0 := by
    intro d
    cases d with
    | none => exact Int.le_refl 0
    | some n =>
      rw [Option.bind_some]
      unfold fitSigned
      split
      · exact Int.natCast_nonneg n
      · exact Int.le_refl 0
  rw [parseI64_eq]
  unfold parseSigned
  split
  · exact absurd List.mem_cons_self hs
  · exact hbind _
  · exact hbind _

theorem parseI64_toDigits {n : Nat} (hn : n < 2 ^ 63) : parseI64 (Nat.toDigits 10 n) = n := by
  rw [parseI64_eq, parseSigned_toDigits]
  unfold fitSigned
  rw [if_pos ⟨by omega, by omega⟩]
  rfl

/-- The numbers of the first part, and the one behind the minus. -/
def versionComponents (v : String) : List Nat :=
  (((v.toList.splitOn '-').getD 0 []).splitOn '.').map fun x => (parseI64 x).toNat

def patchVersion (v : String) : Nat :=
  ((v.toList.splitOn '-')[1]?.map fun p => (parseI64 p).toNat).getD 0

/-! ## Overflow -/

section

variable {xs : List (List Char)} {x : List Char} {last n : Int}

theorem versionTurn_eq (hn : 0 ≤ n) (hx : 0 ≤ parseI64 x) :
    versionTurn (last, n) x =
      if n * 1000 + parseI64 x < 2 ^ 63 then .ok (parseI64 x, n * 1000 + parseI64 x)
      else .error .overflow := by
  unfold versionTurn I64.mul I64.add
  rw [I64.fit_nonneg (by omega)]
  by_cases hscaled : n * 1000 < 2 ^ 63
  · rw [if_pos hscaled]
    show (I64.fit (n * 1000 + parseI64 x) >>= fun n => .ok (parseI64 x, n)) = _
    rw [I64.fit_nonneg (by omega)]
    by_cases hsum : n * 1000 + parseI64 x < 2 ^ 63
    · rw [if_pos hsum, if_pos hsum]
      rfl
    · rw [if_neg hsum, if_neg hsum]
      rfl
  · rw [if_neg hscaled, if_neg (by omega)]
    rfl

/-- The loop in whole numbers. -/
theorem le_foldl_components {nums : List Int} (hnums : ∀ x ∈ nums, 0 ≤ x) (hn : 0 ≤ n) :
    n ≤ nums.foldl (fun n x => n * 1000 + x) n := by
  induction nums generalizing n with
  | nil => exact Int.le_refl n
  | cons x nums ih =>
    obtain ⟨hx, hrest⟩ := List.forall_mem_cons.mp hnums
    have hle := ih hrest (n := n * 1000 + x) (by omega)
    rw [List.foldl_cons]
    omega

theorem getLastD_le_foldl {nums : List Int} (hnums : ∀ x ∈ nums, 0 ≤ x) (hn : 0 ≤ n)
    (hlast : last ≤ n) : nums.getLastD last ≤ nums.foldl (fun n x => n * 1000 + x) n := by
  induction nums generalizing n last with
  | nil => exact hlast
  | cons x nums ih =>
    obtain ⟨hx, hrest⟩ := List.forall_mem_cons.mp hnums
    rw [List.getLastD_cons, List.foldl_cons]
    exact ih hrest (by omega) (by omega)

theorem getLastD_nonneg {nums : List Int} (hnums : ∀ x ∈ nums, 0 ≤ x) : 0 ≤ nums.getLastD 0 := by
  cases nums using List.reverseRecOn with
  | nil => exact Int.le_refl 0
  | append_singleton nums x =>
    rw [List.getLastD_concat]
    exact hnums x (List.mem_append_right nums List.mem_cons_self)

theorem foldlM_versionTurn (hxs : ∀ x ∈ xs, 0 ≤ parseI64 x) (hn : 0 ≤ n) (hfits : n < 2 ^ 63) :
    xs.foldlM versionTurn (last, n) =
      if (xs.map parseI64).foldl (fun n x => n * 1000 + x) n < 2 ^ 63 then
        .ok ((xs.map parseI64).getLastD last, (xs.map parseI64).foldl (fun n x => n * 1000 + x) n)
      else .error .overflow := by
  induction xs generalizing last n with
  | nil =>
    rw [List.map_nil, List.foldl_nil, if_pos hfits]
    rfl
  | cons x xs ih =>
    obtain ⟨hx, hrest⟩ := List.forall_mem_cons.mp hxs
    rw [List.foldlM_cons, versionTurn_eq hn hx, List.map_cons, List.foldl_cons, List.getLastD_cons]
    by_cases hsum : n * 1000 + parseI64 x < 2 ^ 63
    · rw [if_pos hsum]
      exact ih hrest (by omega) hsum
    · have hle : n * 1000 + parseI64 x ≤
          (xs.map parseI64).foldl (fun n x => n * 1000 + x) (n * 1000 + parseI64 x) :=
        le_foldl_components (List.forall_mem_map.mpr hrest) (by omega)
      rw [if_neg hsum, if_neg (by omega)]
      rfl

end

/-! ## The number of any text -/

variable {v : String}

theorem parseI64_part_nonneg {part : List Char} (hpart : part ∈ v.toList.splitOn '-') :
    0 ≤ parseI64 part := parseI64_nonneg (not_mem_of_mem_splitOn hpart)

/-- What has no minus has none in its pieces. -/
theorem parseI64_component_nonneg {x : List Char}
    (hx : x ∈ ((v.toList.splitOn '-').getD 0 []).splitOn '.') : 0 ≤ parseI64 x := by
  have hfirst : (v.toList.splitOn '-').getD 0 [] ∈ v.toList.splitOn '-' := by
    cases hparts : v.toList.splitOn '-' with
    | nil => exact absurd hparts (List.splitOn_ne_nil '-' v.toList)
    | cons part parts => exact List.mem_cons_self
  exact parseI64_nonneg fun hminus =>
    not_mem_of_mem_splitOn hfirst (mem_of_mem_splitOn hx hminus)

/-- The last component is part of the number, so that only the sum at the end can be too big. -/
theorem scaleLast_eq {n last : Int} (hlast : 0 ≤ last) (hle : last ≤ n) (hn : n < 2 ^ 63) :
    ((I64.sub n last) >>= fun n => I64.mul last 10 >>= fun tenfold => I64.add n tenfold) =
      I64.fit (n - last + last * 10) := by
  unfold I64.sub I64.mul I64.add
  rw [I64.fit_nonneg (by omega : 0 ≤ n - last), if_pos (by omega)]
  show (I64.fit (last * 10) >>= fun tenfold => I64.fit (n - last + tenfold)) = _
  rw [I64.fit_nonneg (by omega : 0 ≤ last * 10)]
  by_cases hten : last * 10 < 2 ^ 63
  · rw [if_pos hten]
    rfl
  · rw [if_neg hten, I64.fit_nonneg (by omega), if_neg (by omega)]
    rfl

/-- The components as digits, the last one tenfold. -/
def baseNumber (part : List Char) : Int :=
  let nums := (part.splitOn '.').map parseI64
  let n := nums.foldl (fun n x => n * 1000 + x) 0
  n - nums.getLastD 0 + nums.getLastD 0 * 10

theorem baseNumber_nonneg {part : List Char} (hpart : ∀ x ∈ part.splitOn '.', 0 ≤ parseI64 x) :
    0 ≤ baseNumber part := by
  have hnums : ∀ x ∈ (part.splitOn '.').map parseI64, 0 ≤ x := List.forall_mem_map.mpr hpart
  have hlast := getLastD_nonneg hnums
  have hle := getLastD_le_foldl hnums (Int.le_refl 0) (Int.le_refl 0)
  unfold baseNumber
  dsimp only
  omega

theorem checkedBaseNumber_eq {part : List Char} (hpart : ∀ x ∈ part.splitOn '.', 0 ≤ parseI64 x) :
    checkedBaseNumber part =
      if baseNumber part < 2 ^ 63 then .ok (baseNumber part) else .error .overflow := by
  have hnums : ∀ x ∈ (part.splitOn '.').map parseI64, 0 ≤ x := List.forall_mem_map.mpr hpart
  have hlast := getLastD_nonneg hnums
  have hle := getLastD_le_foldl hnums (Int.le_refl 0) (Int.le_refl 0)
  rw [← I64.fit_nonneg (baseNumber_nonneg hpart)]
  unfold checkedBaseNumber
  rw [foldlM_versionTurn hpart (Int.le_refl 0) (by decide)]
  split
  · next hn => exact scaleLast_eq hlast hle hn
  · next hn =>
      unfold baseNumber
      dsimp only
      rw [I64.fit_nonneg (by omega), if_neg (by omega)]
      rfl

theorem getVersionNumber_parts (v : String) :
    getVersionNumber v = match (v.toList.splitOn '-')[1]? with
      | some p => baseNumber ((v.toList.splitOn '-').getD 0 []) + parseI64 p
      | none => baseNumber ((v.toList.splitOn '-').getD 0 []) := rfl

/-- The arithmetic is done in whole numbers, up to a result that does not fit. -/
theorem checkedVersionNumber_eq (v : String) :
    checkedVersionNumber v =
      if getVersionNumber v < 2 ^ 63 then .ok (getVersionNumber v) else .error .overflow := by
  have hcomponents : ∀ x ∈ ((v.toList.splitOn '-').getD 0 []).splitOn '.', 0 ≤ parseI64 x :=
    fun x hx => parseI64_component_nonneg hx
  have hnonneg := baseNumber_nonneg hcomponents
  unfold checkedVersionNumber
  dsimp only
  rw [checkedBaseNumber_eq hcomponents, getVersionNumber_parts]
  generalize baseNumber ((v.toList.splitOn '-').getD 0 []) = base at *
  cases hpatch : (v.toList.splitOn '-')[1]? with
  | none =>
    dsimp only
    by_cases hbase : base < 2 ^ 63
    · rw [if_pos hbase]
      rfl
    · rw [if_neg hbase]
      rfl
  | some p =>
    have hp := parseI64_part_nonneg (List.mem_of_getElem? hpatch)
    have hle : base ≤ base + parseI64 p := Int.le_add_of_nonneg_right hp
    dsimp only
    by_cases hbase : base < 2 ^ 63
    · rw [if_pos hbase, ← I64.fit_nonneg (hnonneg.trans hle)]
      rfl
    · rw [if_neg hbase, if_neg fun hlt => hbase (hle.trans_lt hlt)]
      rfl

/-! ## Versions -/

/-- `a.b.c` or `a.b.c-d`. -/
structure Version where
  a : Nat
  b : Nat
  c : Nat
  d : Option Nat
  deriving DecidableEq

namespace Version

def text (v : Version) : String :=
  toString v.a ++ "." ++ toString v.b ++ "." ++ toString v.c ++
    (v.d.map fun d => "-" ++ toString d).getD ""

/-- What versions are ordered by, an absent patch version being 0. -/
def key (v : Version) : ℕ ×ₗ ℕ ×ₗ ℕ ×ₗ ℕ :=
  toLex (v.a, toLex (v.b, toLex (v.c, v.d.getD 0)))

/-- The place values that the number of a version has. -/
def scaled (v : Version) : Nat := v.a * 1000000 + v.b * 1000 + v.c * 10 + v.d.getD 0

structure Valid (v : Version) : Prop where
  b : v.b < 1000
  c : v.c < 1000
  d : v.d.getD 0 < 10
  fits : v.scaled < 2 ^ 63

variable {v w : Version}

theorem key_lt_iff : v.key < w.key ↔ v.a < w.a ∨ v.a = w.a ∧ (v.b < w.b ∨ v.b = w.b ∧
    (v.c < w.c ∨ v.c = w.c ∧ v.d.getD 0 < w.d.getD 0)) := by
  unfold key
  rw [Prod.Lex.toLex_lt_toLex, Prod.Lex.toLex_lt_toLex, Prod.Lex.toLex_lt_toLex]

/-- The text of the first part. -/
def firstPart (v : Version) : List Char :=
  Nat.toDigits 10 v.a ++ '.' :: (Nat.toDigits 10 v.b ++ '.' :: Nat.toDigits 10 v.c)

theorem splitOn_firstPart (v : Version) :
    v.firstPart.splitOn '.' = [Nat.toDigits 10 v.a, Nat.toDigits 10 v.b, Nat.toDigits 10 v.c] := by
  have hdot : ∀ n, '.' ∉ Nat.toDigits 10 n := not_mem_toDigits (by decide)
  unfold firstPart
  rw [List.splitOn_append_cons_self_of_not_mem (hdot v.a),
    List.splitOn_append_cons_self_of_not_mem (hdot v.b), List.splitOn_eq_singleton (hdot v.c)]

theorem minus_not_mem_firstPart (v : Version) : '-' ∉ v.firstPart := by
  have hminus : ∀ n, '-' ∉ Nat.toDigits 10 n := not_mem_toDigits (by decide)
  simp [firstPart, hminus]

theorem splitOn_text (v : Version) :
    v.text.toList.splitOn '-' = v.firstPart :: (v.d.map (Nat.toDigits 10)).toList := by
  have hminus : ∀ n, '-' ∉ Nat.toDigits 10 n := not_mem_toDigits (by decide)
  have hdot : ".".toList = ['.'] := by decide
  have hfirst : (toString v.a ++ "." ++ toString v.b ++ "." ++ toString v.c).toList =
      v.firstPart := by
    simp [hdot, firstPart, Nat.toString_eq_repr, Nat.toList_repr]
  unfold text
  rw [String.toList_append, hfirst]
  cases v.d with
  | none =>
    show (v.firstPart ++ "".toList).splitOn '-' = _
    rw [String.toList_empty, List.append_nil, List.splitOn_eq_singleton v.minus_not_mem_firstPart]
    rfl
  | some d =>
    have hpatch : ("-" ++ toString d).toList = '-' :: Nat.toDigits 10 d := by
      rw [String.toList_append, Nat.toString_eq_repr, Nat.toList_repr]
      rfl
    show (v.firstPart ++ ("-" ++ toString d).toList).splitOn '-' = _
    rw [hpatch, List.splitOn_append_cons_self_of_not_mem v.minus_not_mem_firstPart,
      List.splitOn_eq_singleton (hminus d)]
    rfl

theorem getVersionNumber_text (hv : v.Valid) : getVersionNumber v.text = v.scaled := by
  have hfits := hv.fits
  unfold scaled at hfits
  have ha := parseI64_toDigits (n := v.a) (by omega)
  have hb := parseI64_toDigits (n := v.b) (by omega)
  have hc := parseI64_toDigits (n := v.c) (by omega)
  have hbase : baseNumber v.firstPart = v.a * 1000000 + v.b * 1000 + v.c * 10 := by
    unfold baseNumber
    rw [splitOn_firstPart]
    simp only [List.map_cons, List.map_nil, List.foldl_cons, List.foldl_nil, List.getLastD_cons,
      List.getLastD_nil, ha, hb, hc]
    omega
  rw [getVersionNumber_parts, splitOn_text]
  unfold scaled
  cases hd : v.d with
  | none =>
    show baseNumber v.firstPart = _
    rw [hbase, Option.getD_none]
    omega
  | some d =>
    rw [hd, Option.getD_some] at hfits
    show baseNumber v.firstPart + parseI64 (Nat.toDigits 10 d) = _
    rw [hbase, parseI64_toDigits (by omega), Option.getD_some]
    omega

theorem checkedVersionNumber_text (hv : v.Valid) :
    checkedVersionNumber v.text = .ok (v.scaled : Int) := by
  have hfits := hv.fits
  rw [checkedVersionNumber_eq, getVersionNumber_text hv, if_pos (by omega)]

/-- The next version that has the place of the last component to itself. -/
def next (v : Version) : Version :=
  if v.b < 999 then ⟨v.a, v.b + 1, 0, none⟩ else ⟨v.a + 1, 0, 0, none⟩

theorem key_lt_next (v : Version) : v.key < v.next.key := by
  rw [key_lt_iff]
  unfold next
  split
  · exact .inr ⟨rfl, .inl (Nat.lt_succ_self v.b)⟩
  · exact .inl (Nat.lt_succ_self v.a)

theorem scaled_next (hv : v.Valid) : v.next.scaled = v.a * 1000000 + v.b * 1000 + 1000 := by
  have hb := hv.b
  unfold next scaled
  split
  · simp only [Option.getD_none]
    omega
  · simp only [Option.getD_none]
    omega

/-- What takes more than two digits is as much as a step of the component before. -/
theorem valid_next (hv : v.Valid) (hc : 100 ≤ v.c) : v.next.Valid := by
  have hfits := hv.fits
  have hnext := scaled_next hv
  unfold scaled at hfits
  refine ⟨?_, ?_, ?_, by omega⟩
  · unfold next
    split
    · next hb => exact Nat.succ_lt_succ hb
    · exact Nat.zero_lt_succ _
  · unfold next
    split <;> exact Nat.zero_lt_succ _
  · unfold next
    split <;> exact Nat.zero_lt_succ _

theorem scaled_lt_of_key_lt (hv : v.Valid) (hw : w.Valid) (hc : v.c < 100) (hlt : v.key < w.key) :
    v.scaled < w.scaled := by
  have hvb := hv.b
  have hvd := hv.d
  have hwb := hw.b
  rw [key_lt_iff] at hlt
  unfold scaled
  omega

end Version

/-- The sum of what the numbers of a text stand for. -/
def placeSum (v : String) : Nat :=
  Nat.ofDigits 1000 (versionComponents v).reverse + 9 * (versionComponents v).getLastD 0 +
    patchVersion v

theorem ofDigits_reverse (nums : List Nat) (n : Nat) :
    nums.foldl (fun n x => n * 1000 + x) n =
      n * 1000 ^ nums.length + Nat.ofDigits 1000 nums.reverse := by
  induction nums generalizing n with
  | nil => simp
  | cons x nums ih =>
    rw [List.foldl_cons, ih, List.reverse_cons, Nat.ofDigits_append, List.length_reverse,
      Nat.ofDigits_singleton, List.length_cons, Nat.pow_succ]
    ring

theorem foldl_natCast (nums : List Nat) (n : Nat) :
    (nums.map (Nat.cast : Nat → Int)).foldl (fun n x => n * 1000 + x) (n : Int) =
      (nums.foldl (fun n x => n * 1000 + x) n : Nat) := by
  induction nums generalizing n with
  | nil => rfl
  | cons x nums ih =>
    rw [List.map_cons, List.foldl_cons, List.foldl_cons, ← ih]
    push_cast
    rfl

theorem getLastD_natCast (nums : List Nat) (d : Nat) :
    (nums.map (Nat.cast : Nat → Int)).getLastD (d : Int) = (nums.getLastD d : Nat) := by
  induction nums generalizing d with
  | nil => rfl
  | cons x nums ih => rw [List.map_cons, List.getLastD_cons, List.getLastD_cons, ih]

theorem getVersionNumber_eq (v : String) : getVersionNumber v = placeSum v := by
  have hcomponents : (((v.toList.splitOn '-').getD 0 []).splitOn '.').map parseI64 =
      (versionComponents v).map (Nat.cast : Nat → Int) := by
    unfold versionComponents
    rw [List.map_map]
    refine List.map_congr_left fun x hx => ?_
    exact (Int.toNat_of_nonneg (parseI64_component_nonneg hx)).symm
  have hfold := foldl_natCast (versionComponents v) 0
  have hlast := getLastD_natCast (versionComponents v) 0
  have hplaces := ofDigits_reverse (versionComponents v) 0
  rw [Nat.zero_mul, Nat.zero_add] at hplaces
  rw [hplaces] at hfold
  unfold placeSum patchVersion
  generalize Nat.ofDigits 1000 (versionComponents v).reverse = sum at hfold ⊢
  have hbase : baseNumber ((v.toList.splitOn '-').getD 0 []) =
      sum + 9 * (versionComponents v).getLastD 0 := by
    unfold baseNumber
    dsimp only
    rw [hcomponents]
    push_cast at hfold hlast
    rw [hfold, hlast]
    omega
  rw [getVersionNumber_parts, hbase]
  cases hpatch : (v.toList.splitOn '-')[1]? with
  | none => simp
  | some p =>
    have hp := parseI64_part_nonneg (List.mem_of_getElem? hpatch)
    simp [Int.toNat_of_nonneg hp]

/-! ## What the numbers are good for -/

/-- The two get numbers in their order. -/
def InOrder (v w : Version) : Prop :=
  ∃ m n, checkedVersionNumber v.text = .ok m ∧ checkedVersionNumber w.text = .ok n ∧ m < n

/-- A version is told from all later ones precisely if its last component has at most two digits,
    and a text gets a number without an overflow precisely if its place values fit in an `i64`. -/
theorem version_order {v : Version} (hv : v.Valid) (s : String) :
    ((∀ w : Version, w.Valid → v.key < w.key → InOrder v w) ↔ v.c < 100) ∧
      ((∃ n, checkedVersionNumber s = .ok n) ↔ placeSum s < 2 ^ 63) := by
  constructor
  · constructor
    · intro hall
      by_contra hc
      have hc : 100 ≤ v.c := Nat.le_of_not_lt hc
      have hnext := v.valid_next hv hc
      obtain ⟨m, n, hm, hn, hlt⟩ := hall v.next hnext v.key_lt_next
      rw [Version.checkedVersionNumber_text hv] at hm
      rw [Version.checkedVersionNumber_text hnext, Version.scaled_next hv] at hn
      cases hm
      cases hn
      unfold Version.scaled at hlt
      omega
    · intro hc w hw hlt
      refine ⟨_, _, Version.checkedVersionNumber_text hv, Version.checkedVersionNumber_text hw, ?_⟩
      exact Int.ofNat_lt.mpr (Version.scaled_lt_of_key_lt hv hw hc hlt)
  · rw [checkedVersionNumber_eq, getVersionNumber_eq]
    constructor
    · rintro ⟨n, hn⟩
      split at hn
      · next hlt => exact_mod_cast hlt
      · cases hn
    · intro hlt
      exact ⟨_, if_pos (by exact_mod_cast hlt)⟩

theorem version_order_plain :
    ((∀ w : Version, w.Valid → (Version.mk 1 1 10 none).key < w.key →
        InOrder (Version.mk 1 1 10 none) w) ↔ 10 < 100) ∧
      ((∃ n, checkedVersionNumber "1.1.10-1" = .ok n) ↔ placeSum "1.1.10-1" < 2 ^ 63) :=
  version_order (v := ⟨1, 1, 10, none⟩) ⟨by decide, by decide, by decide, by decide⟩ "1.1.10-1"

/-- 1.1.100 and 1.2.0 have one number, and the number of 9223372036854775807 does not fit. -/
theorem version_numbers_collide :
    (Version.mk 1 1 100 none).Valid ∧ (Version.mk 1 2 0 none).Valid ∧
      (Version.mk 1 1 100 none).key < (Version.mk 1 2 0 none).key ∧
      ¬ InOrder ⟨1, 1, 100, none⟩ ⟨1, 2, 0, none⟩ ∧
      checkedVersionNumber "9223372036854775807" = .error .overflow := by
  have hv : (Version.mk 1 1 100 none).Valid := ⟨by decide, by decide, by decide, by decide⟩
  have hw : (Version.mk 1 2 0 none).Valid := ⟨by decide, by decide, by decide, by decide⟩
  refine ⟨hv, hw, Version.key_lt_iff.mpr (by decide), ?_, by decide +kernel⟩
  rintro ⟨m, n, hm, hn, hlt⟩
  rw [Version.checkedVersionNumber_text hv] at hm
  rw [Version.checkedVersionNumber_text hw] at hn
  cases hm
  cases hn
  revert hlt
  decide

end LuodaRemote
