/-
  Names with a server of their own.

  The server is JSON in Base64, backwards, behind two dashes or `-licensed-`. Both may also be in
  it, since `-` is in the alphabet, and a dash more in front is taken as the first of it.
  `licensed_names_iff`: where it is whole it is read, whatever follows but `host=`, and only there.
-/
import LuodaRemote.CustomServer.Parse
import LuodaRemote.Lib.Base64
import LuodaRemote.Lib.Decimal

namespace LuodaRemote
open Lib

namespace CustomServer

/-! ## Names -/

inductive Marker where
  | short
  | long
  | dashes
  deriving DecidableEq

def Marker.text : Marker → List Char
  | .short => "-licensed-".toList
  | .long => "-licensed--".toList
  | .dashes => "--".toList

/-- What comes behind the server. -/
inductive Rest where
  | nothing
  /-- The number of a copy, with or without a blank. -/
  | copy (blank : Bool) (n : Nat)
  | more (suffix : List Char)

/-- What stays with the server when dashes are taken as separators. -/
def Rest.number : Rest → List Char
  | .nothing => []
  | .copy blank n => (if blank then [' '] else []) ++ '(' :: (Nat.toDigits 10 n ++ [')'])
  | .more _ => []

def Rest.text : Rest → List Char
  | .more s => '-' :: '-' :: s
  | r => r.number

inductive Ending where
  | once
  | twice

def Ending.text : Ending → List Char
  | .once => ".exe".toList
  | .twice => ".exe.exe".toList

structure LicensedName where
  start : List Char
  marker : Marker
  json : List UInt8
  json_head : json.head? = some 0x7B
  json_last : json.getLast? = some 0x7D

/-- What is decoded of a part until it is a server. -/
def tries (s : List Char) : List (List Char) :=
  trim s :: if '(' ∈ s then (s.splitOn '(').map trim else []

namespace LicensedName

variable (n : LicensedName)

def payload : List Char := (Base64.encodeUrl n.json).reverse

def front : List Char := n.start ++ n.marker.text

def text (rest : Rest) (ending : Ending) : List Char :=
  n.front ++ (n.payload ++ rest.text) ++ ending.text

/-- The parts of what is in front of the server. -/
def parts : List (List Char) := splitSeq "--".toList (replaceLicensed n.front)

/-- Those that are read before it. -/
def before : List (List Char) := n.parts.dropLast

/-- The server is a part by itself: nothing is left in front of it, and it has no separator. -/
structure Whole : Prop where
  marker : n.parts.getLast? = some []
  dashes : ¬ "--".toList <:+: n.payload
  licensed : ¬ "-licensed-".toList <:+: n.payload

/-- Base64 and JSON give the server back, and a parenthesis is not in the alphabet. -/
structure Inverts (lib : Libraries) (c : CustomServer) : Prop where
  decode64 : lib.decode64 (Base64.encodeUrl n.json) = some n.json
  fromSlice : lib.fromSlice n.json = some c
  paren : ∀ t, '(' ∈ t → lib.decode64 t = none

/-- The name is read as the server, whichever it is, if no part in front is one. -/
def Reads (final : List Char → List Char → Bool) (rest : Rest) (ending : Ending) : Prop :=
  ∀ lib c, n.Inverts lib c → (∀ p ∈ n.before, readPiece lib p = none) →
    getCustomServerFromString final lib (n.text rest ending) = .ok c

end LicensedName

/-! ## Replacing -/

section Replace

variable {old new s t : List Char} {x : Char}

/-- The patterns that are replaced. -/
def patterns : List (List Char) :=
  ["-licensed---".toList, "-licensed--".toList, "-licensed-".toList]

theorem mem_patterns : "-licensed---".toList ∈ patterns ∧ "-licensed--".toList ∈ patterns ∧
    "-licensed-".toList ∈ patterns := by decide +kernel

theorem intercalate_pieces {sep last y : List Char} {init ys : List (List Char)} :
    sep.intercalate (init ++ (last ++ y) :: ys) =
      sep.intercalate (init ++ [last]) ++ sep.intercalate (y :: ys) := by
  induction init with
  | nil =>
    rw [List.nil_append, List.nil_append, List.intercalate_singleton]
    cases ys with
    | nil => rw [List.intercalate_singleton, List.intercalate_singleton]
    | cons z ys =>
      rw [List.intercalate_cons_cons, List.intercalate_cons_cons]
      simp only [List.append_assoc]
  | cons i init ih =>
    have hne : (last ++ y) :: ys ≠ [] := List.cons_ne_nil _ _
    have hne' : [last] ≠ [] := List.cons_ne_nil _ _
    rw [List.cons_append, List.cons_append,
      List.intercalate_cons_of_ne_nil (List.append_ne_nil_of_right_ne_nil _ hne),
      List.intercalate_cons_of_ne_nil (List.append_ne_nil_of_right_ne_nil _ hne'), ih]
    simp only [List.append_assoc]

theorem replace_append
    (h : ∀ u v, old = u ++ v → u ≠ [] → v ≠ [] → u <:+ s → ¬ v <+: t) :
    replace old new (s ++ t) = replace old new s ++ replace old new t := by
  obtain ⟨init, last, hs, hboth⟩ := splitSeq_append_pieces h
  unfold replace
  have hne : splitFrom old 0 t ≠ [] := splitFrom_ne_nil
  obtain ⟨y, ys, ht⟩ := List.exists_cons_of_ne_nil hne
  rw [hboth, hs]
  unfold splitSeq
  rw [ht, List.modifyHead_cons, intercalate_pieces]

theorem replace_absent (h : ¬ old <:+: s) : replace old new s = s := by
  unfold replace
  rw [splitSeq_eq_singleton h, List.intercalate_singleton]

theorem replace_cons (h : ¬ old <+: x :: s) :
    replace old new (x :: s) = x :: replace old new s := by
  unfold replace splitSeq
  rw [splitFrom, if_neg h]
  have hne : splitFrom old 0 s ≠ [] := splitFrom_ne_nil
  obtain ⟨y, ys, ht⟩ := List.exists_cons_of_ne_nil hne
  rw [ht, List.modifyHead_cons, List.intercalate_cons_cons_left]

/-- A text that ends like both patterns does so afterwards. -/
theorem getLast?_replace (hold : old.getLast? = some x) (hnew : new.getLast? = some x)
    (hs : s.getLast? = some x) : (replace old new s).getLast? = some x := by
  have hne : old ≠ [] := by
    rintro rfl
    cases hold
  have hparts : old.intercalate (splitSeq old s) = s := intercalate_splitSeq hne
  unfold replace
  obtain ⟨init, p, heq⟩ := (List.eq_nil_or_concat (splitSeq old s)).resolve_left splitFrom_ne_nil
  rw [List.concat_eq_append] at heq
  rw [heq, intercalate_concat] at hparts ⊢
  cases hp : p with
  | cons c p =>
    rw [hp] at hparts
    rw [← hparts, List.getLast?_append_of_ne_nil _ (List.cons_ne_nil _ _)] at hs
    rw [List.getLast?_append_of_ne_nil _ (List.cons_ne_nil _ _), hs]
  | nil =>
    rw [hp] at hparts
    rcases List.eq_nil_or_concat init with rfl | ⟨init, q, rfl⟩
    · rw [← hparts] at hs
      cases hs
    · have hnew' : new ≠ [] := by
        rintro rfl
        cases hnew
      rw [List.concat_eq_append, List.flatMap_append, List.append_nil, List.flatMap_singleton,
        ← List.append_assoc, List.getLast?_append_of_ne_nil _ hnew', hnew]

/-- What begins with a dash does so afterwards. -/
theorem replace_dash (old s : List Char) :
    ∃ t, replace old "--".toList ('-' :: s) = '-' :: t := by
  by_cases hpre : old <+: '-' :: s
  · unfold replace splitSeq
    rw [splitFrom, if_pos hpre, List.intercalate_cons_of_ne_nil splitFrom_ne_nil]
    exact ⟨_, rfl⟩
  · exact ⟨_, replace_cons hpre⟩

theorem replace_dashes {old : List Char} (hold : old ∈ patterns) (s : List Char) :
    ∃ t, replace old "--".toList ('-' :: '-' :: s) = '-' :: '-' :: t := by
  have hno : ¬ old <+: '-' :: '-' :: s := by
    intro hpre
    have hsecond : ∀ p ∈ patterns, p.take 2 = ['-', 'l'] := by decide +kernel
    have htake : ['-', 'l'] <+: ['-', '-'] := hsecond old hold ▸ hpre.take 2
    exact absurd htake (by decide)
  obtain ⟨t, ht⟩ := replace_dash old s
  exact ⟨t, by rw [replace_cons hno, ht]⟩

/-! ### What is left of a pattern -/

section Left

variable {r : List Char}

theorem replace_match (hold : old ≠ []) :
    replace old new (old ++ s) = new ++ replace old new s := by
  have hshort : ¬ old <:+: [] ++ old.dropLast := by
    intro hwithin
    have hlen := hwithin.length_le
    have hpos := List.length_pos_iff.mpr hold
    rw [List.nil_append, List.length_dropLast] at hlen
    omega
  have hsplit : splitSeq old ([] ++ (old ++ s)) = [] :: splitSeq old s :=
    splitSeq_append hold hshort
  have hne : splitSeq old s ≠ [] := splitFrom_ne_nil
  rw [List.nil_append] at hsplit
  unfold replace
  rw [hsplit, List.intercalate_cons_of_ne_nil hne, List.nil_append]

/-- Up to the next `x` nothing has been replaced. -/
theorem prefix_of_replace {q : List Char} (hq : x ∉ q)
    (h : q ++ [x] <+: replace (x :: r) [x, x] s) : q ++ [x] <+: s := by
  induction q generalizing s with
  | nil =>
    cases s with
    | nil => exact absurd (List.prefix_nil.mp h) (List.cons_ne_nil _ _)
    | cons d s =>
      by_cases hpre : x :: r <+: d :: s
      · rw [(List.cons_prefix_cons.mp hpre).1]
        exact List.prefix_append [d] s
      · rw [replace_cons hpre] at h
        rw [(List.cons_prefix_cons.mp h).1]
        exact List.prefix_append [d] s
  | cons c q ih =>
    cases s with
    | nil => exact absurd (List.prefix_nil.mp h) (List.cons_ne_nil _ _)
    | cons d s =>
      by_cases hpre : x :: r <+: d :: s
      · obtain ⟨s', hs'⟩ := hpre
        rw [← hs', replace_match (List.cons_ne_nil _ _)] at h
        exact absurd (List.cons_prefix_cons.mp h).1.symm (List.ne_of_not_mem_cons hq)
      · rw [replace_cons hpre] at h
        obtain ⟨hc, hlater⟩ := List.cons_prefix_cons.mp h
        exact List.cons_prefix_cons.mpr ⟨hc, ih (List.not_mem_of_not_mem_cons hq) hlater⟩

variable {c : Char} {q : List Char}

theorem not_prefix_replace (hc : c ≠ x) (hq : x ∉ c :: q) :
    ¬ x :: (c :: q ++ [x]) <+: replace (x :: (c :: q ++ [x])) [x, x] s := by
  intro h
  cases s with
  | nil => exact absurd (List.prefix_nil.mp h) (List.cons_ne_nil _ _)
  | cons d s =>
    by_cases hpre : x :: (c :: q ++ [x]) <+: d :: s
    · obtain ⟨s', hs'⟩ := hpre
      rw [← hs', replace_match (List.cons_ne_nil _ _)] at h
      exact hc (List.cons_prefix_cons.mp (List.cons_prefix_cons.mp h).2).1
    · rw [replace_cons hpre] at h
      obtain ⟨hd, hlater⟩ := List.cons_prefix_cons.mp h
      exact hpre (List.cons_prefix_cons.mpr ⟨hd, prefix_of_replace hq hlater⟩)

/-- Only where an `x` of a replacement is part of it is the pattern there again. -/
theorem eq_of_infix_replace (hc : c ≠ x) (hq : x ∉ c :: q) {y : Char}
    (h : y :: x :: (c :: q ++ [x]) <:+: replace (x :: (c :: q ++ [x])) [x, x] s) : y = x := by
  induction hlen : s.length using Nat.strong_induction_on generalizing s with
  | _ len ih =>
    cases s with
    | nil => exact absurd (List.infix_nil.mp h) (List.cons_ne_nil _ _)
    | cons d s =>
      by_cases hpre : x :: (c :: q ++ [x]) <+: d :: s
      · obtain ⟨s', hs'⟩ := hpre
        have hshort : s'.length < len := by
          rw [← hlen, ← hs', List.length_append, List.length_cons]
          omega
        rw [← hs', replace_match (List.cons_ne_nil _ _)] at h
        rcases List.infix_cons_iff.mp h with hhere | h
        · exact (List.cons_prefix_cons.mp hhere).1
        · rcases List.infix_cons_iff.mp h with hhere | h
          · exact (List.cons_prefix_cons.mp hhere).1
          · exact ih _ hshort h rfl
      · rw [replace_cons hpre] at h
        rcases List.infix_cons_iff.mp h with hhere | hlater
        · exact absurd (List.cons_prefix_cons.mp hhere).2 (not_prefix_replace hc hq)
        · exact ih _ (by rw [← hlen]; exact Nat.lt_succ_self _) hlater rfl

end Left

end Replace

/-! ## The payload -/

namespace LicensedName

section Payload

variable {n : LicensedName} {old t : List Char} {x y : Char}

theorem payload_last : n.payload.getLast? = some 'e' := by
  unfold payload
  rw [List.getLast?_reverse, Base64.head?_encodeUrl n.json_head]

theorem payload_head : ∃ y ∈ ['9', 'Q', '0'], n.payload.head? = some y := by
  have hlast := Base64.getLast?_encodeUrl n.json_last
  have hhead : n.payload.head? = (Base64.encodeUrl n.json).getLast? := List.head?_reverse
  rw [← hhead] at hlast
  simp only [List.mem_cons, List.not_mem_nil, or_false] at hlast
  rcases hlast with h | h | h
  · exact ⟨'9', by decide, h⟩
  · exact ⟨'Q', by decide, h⟩
  · exact ⟨'0', by decide, h⟩

/-- The payload has only characters of the alphabet. -/
theorem not_mem_payload (hx : ∀ k < 64, x ≠ Base64.urlChar k) : x ∉ n.payload := by
  intro hmem
  obtain ⟨k, hk, rfl⟩ := Base64.mem_encodeUrl (List.mem_reverse.mp hmem)
  exact hx k hk rfl

theorem dot_payload : '.' ∉ n.payload :=
  not_mem_payload fun k hk => by
    have hall : ∀ k : Fin 64, '.' ≠ Base64.urlChar k := by decide
    exact hall ⟨k, hk⟩

/-- Neither a pattern nor the dashes lie across the end of the marker. -/
theorem marker_payload (hold : old = "--".toList ∨ old ∈ patterns)
    (hy : y ∈ ['9', 'Q', '0']) : ¬ ['-', y] <:+: old := by
  have hall : ∀ old ∈ "--".toList :: patterns, ∀ z ∈ [['-', '9'], ['-', 'Q'], ['-', '0']],
      ¬ z <:+: old := by decide +kernel
  refine hall old (List.mem_cons.mpr hold) ['-', y] ?_
  simp only [List.mem_cons, List.not_mem_nil, or_false] at hy
  rcases hy with rfl | rfl | rfl <;> decide

/-- Or across the end of the payload. -/
theorem payload_rest (hold : old = "--".toList ∨ old ∈ patterns) (hy : y ∈ [' ', '(', '-']) :
    ¬ ['e', y] <:+: old := by
  have hall : ∀ old ∈ "--".toList :: patterns, ∀ z ∈ [['e', ' '], ['e', '('], ['e', '-']],
      ¬ z <:+: old := by decide +kernel
  refine hall old (List.mem_cons.mpr hold) ['e', y] ?_
  simp only [List.mem_cons, List.not_mem_nil, or_false] at hy
  rcases hy with rfl | rfl | rfl <;> decide

/-- No pattern is in a payload without the shortest. -/
theorem not_infix_payload (h : ¬ "-licensed-".toList <:+: n.payload) (hold : old ∈ patterns) :
    ¬ old <:+: n.payload := by
  have hshort : ∀ p ∈ patterns, "-licensed-".toList <:+: p := by decide +kernel
  exact fun hin => h ((hshort old hold).trans hin)

theorem replace_payload (h : ¬ "-licensed-".toList <:+: n.payload) (hold : old ∈ patterns)
    (ht : t.head? = some y) (hy : y ∈ [' ', '(', '-']) :
    replace old "--".toList (n.payload ++ t) = n.payload ++ replace old "--".toList t := by
  rw [replace_append (not_across (payload_rest (.inr hold) hy) payload_last ht),
    replace_absent (not_infix_payload h hold)]

theorem dash_number (r : Rest) : '-' ∉ r.number := by
  cases r with
  | nothing => exact List.not_mem_nil
  | more s => exact List.not_mem_nil
  | copy blank k =>
    have hdigits : '-' ∉ Nat.toDigits 10 k := not_mem_toDigits (by decide) k
    unfold Rest.number
    cases blank <;> simp [hdigits]

/-- A number begins with a blank or a parenthesis. -/
theorem head_number (blank : Bool) (k : Nat) :
    ∃ y ∈ [' ', '(', '-'], (Rest.copy blank k).number.head? = some y := by
  cases blank with
  | true => exact ⟨' ', by decide, rfl⟩
  | false => exact ⟨'(', by decide, rfl⟩

theorem replace_number (r : Rest) (hold : old ∈ patterns) :
    replace old "--".toList r.number = r.number := by
  have hdash : ∀ p ∈ patterns, '-' ∈ p := by decide +kernel
  exact replace_absent fun hin => dash_number r (hin.subset (hdash old hold))

theorem replaceLicensed_self (h : ¬ "-licensed-".toList <:+: n.payload) :
    replaceLicensed n.payload = n.payload := by
  have hall : ∀ old ∈ patterns, replace old "--".toList n.payload = n.payload :=
    fun old hold => replace_absent (not_infix_payload h hold)
  unfold replaceLicensed
  dsimp only
  rw [hall _ mem_patterns.1, hall _ mem_patterns.2.1, hall _ mem_patterns.2.2]

/-- Replacing leaves the payload, and a number behind it. -/
theorem replaceLicensed_payload (h : ¬ "-licensed-".toList <:+: n.payload) (r : Rest) :
    ∃ r' : Rest, r'.number = r.number ∧
      replaceLicensed (n.payload ++ r.text) = n.payload ++ r'.text := by
  obtain ⟨h3, h2, h1⟩ := mem_patterns
  unfold replaceLicensed
  cases r with
  | nothing =>
    refine ⟨.nothing, rfl, ?_⟩
    rw [show Rest.nothing.text = [] from rfl, List.append_nil]
    exact replaceLicensed_self h
  | copy blank k =>
    obtain ⟨y, hy, hhead⟩ := head_number blank k
    refine ⟨.copy blank k, rfl, ?_⟩
    simp only [Rest.text, replace_payload h h3 hhead hy, replace_payload h h2 hhead hy,
      replace_payload h h1 hhead hy, replace_number _ h3, replace_number _ h2,
      replace_number _ h1]
  | more s =>
    have hdash : '-' ∈ [' ', '(', '-'] := by decide
    obtain ⟨t3, ht3⟩ := replace_dashes h3 s
    obtain ⟨t2, ht2⟩ := replace_dashes h2 t3
    obtain ⟨t1, ht1⟩ := replace_dashes h1 t2
    refine ⟨.more t1, rfl, ?_⟩
    simp only [Rest.text]
    rw [replace_payload h h3 rfl hdash, ht3, replace_payload h h2 rfl hdash, ht2,
      replace_payload h h1 rfl hdash, ht1]

theorem splitSeq_payload (h : ¬ "--".toList <:+: n.payload) (ht : t.head? = some y)
    (hy : y ∈ [' ', '(', '-']) : splitSeq "--".toList (n.payload ++ t) =
      (splitSeq "--".toList t).modifyHead (n.payload ++ ·) := by
  obtain ⟨init, last, hone, hboth⟩ :=
    splitSeq_append_pieces (not_across (payload_rest (.inl rfl) hy) payload_last ht)
  rw [splitSeq_eq_singleton h] at hone
  have hinit : [] ++ [n.payload] = init ++ [last] := hone
  obtain ⟨rfl, hlast⟩ := List.append_inj' hinit rfl
  cases hlast
  exact hboth

/-- The payload, with a number behind it, is the first part. -/
theorem first_piece (h : ¬ "--".toList <:+: n.payload) (r : Rest) :
    ∃ more, splitSeq "--".toList (n.payload ++ r.text) = (n.payload ++ r.number) :: more := by
  cases r with
  | nothing =>
    refine ⟨[], ?_⟩
    simp only [Rest.text, Rest.number, List.append_nil]
    exact splitSeq_eq_singleton h
  | copy blank k =>
    obtain ⟨y, hy, hhead⟩ := head_number blank k
    have hone : ¬ "--".toList <:+: (Rest.copy blank k).number := fun hin =>
      dash_number (.copy blank k) (hin.subset (by decide))
    refine ⟨[], ?_⟩
    simp only [Rest.text]
    rw [splitSeq_payload h hhead hy, splitSeq_eq_singleton hone]
    rfl
  | more s =>
    have hsplit : splitSeq "--".toList ([] ++ ("--".toList ++ s)) =
        [] :: splitSeq "--".toList s := splitSeq_append (by decide) (by decide)
    refine ⟨splitSeq "--".toList s, ?_⟩
    simp only [Rest.text, Rest.number]
    rw [splitSeq_payload h rfl (by decide)]
    exact congrArg (List.modifyHead (n.payload ++ ·)) hsplit

/-- The patterns do not lie across the end of the marker. -/
theorem replace_front {a b : List Char} (hold : old ∈ patterns) (ha : a.getLast? = some '-')
    (hb : b.head? = some y) (hy : y ∈ ['9', 'Q', '0']) :
    replace old "--".toList (a ++ b) =
        replace old "--".toList a ++ replace old "--".toList b ∧
      (replace old "--".toList a).getLast? = some '-' ∧
      (replace old "--".toList b).head? = some y := by
  have hends : ∀ p ∈ patterns, p.getLast? = some '-' ∧ p.head? = some '-' := by decide +kernel
  have hne : y ≠ '-' := by
    rintro rfl
    exact absurd hy (by decide)
  obtain ⟨b, rfl⟩ := List.head?_eq_some_iff.mp hb
  have hno : ¬ old <+: y :: b := by
    rintro ⟨t, ht⟩
    have hhead := congrArg List.head? ht
    have hold' : old ≠ [] := fun hnil => by
      have hlast := (hends old hold).1
      rw [hnil] at hlast
      cases hlast
    rw [List.head?_append_of_ne_nil _ hold', (hends old hold).2] at hhead
    exact hne (Option.some.inj hhead).symm
  refine ⟨replace_append (not_across (marker_payload (.inr hold) hy) ha hb),
    getLast?_replace (hends old hold).1 rfl ha, ?_⟩
  rw [replace_cons hno]
  rfl

theorem replaceLicensed_front {a b : List Char} (ha : a.getLast? = some '-')
    (hb : b.head? = some y) (hy : y ∈ ['9', 'Q', '0']) :
    replaceLicensed (a ++ b) = replaceLicensed a ++ replaceLicensed b ∧
      (replaceLicensed a).getLast? = some '-' := by
  obtain ⟨h3, h2, h1⟩ := mem_patterns
  obtain ⟨heq3, ha3, hb3⟩ := replace_front h3 ha hb hy
  obtain ⟨heq2, ha2, hb2⟩ := replace_front h2 ha3 hb3 hy
  obtain ⟨heq1, ha1, -⟩ := replace_front h1 ha2 hb2 hy
  unfold replaceLicensed
  dsimp only
  rw [heq3, heq2, heq1]
  exact ⟨rfl, ha1⟩

theorem front_last : n.front.getLast? = some '-' := by
  unfold front
  cases n.marker with
  | short => exact List.getLast?_append_of_ne_nil _ (by decide)
  | long => exact List.getLast?_append_of_ne_nil _ (by decide)
  | dashes => exact List.getLast?_append_of_ne_nil _ (by decide)

/-- The parts of a whole name: those before the payload, and the payload. -/
theorem pieces_eq (h : n.Whole) (r : Rest) :
    ∃ more, splitSeq "--".toList (replaceLicensed (n.front ++ (n.payload ++ r.text))) =
      n.before ++ (n.payload ++ r.number) :: more := by
  obtain ⟨y, hy, hhead⟩ := payload_head (n := n)
  have hhead' (t : List Char) : (n.payload ++ t).head? = some y := by
    rw [List.head?_append, hhead]
    rfl
  obtain ⟨heq, hlast⟩ := replaceLicensed_front front_last (hhead' r.text) hy
  obtain ⟨r', hnumber, hpayload⟩ := replaceLicensed_payload h.licensed r
  obtain ⟨more, hmore⟩ := first_piece h.dashes r'
  obtain ⟨init, last, hfront, hboth⟩ :=
    splitSeq_append_pieces (not_across (marker_payload (.inl rfl) hy) hlast (hhead' r'.text))
  have hmarker := h.marker
  unfold parts at hmarker
  rw [hfront, List.getLast?_concat] at hmarker
  cases hmarker
  have hbefore : n.before = init := by
    unfold before parts
    rw [hfront, List.dropLast_concat]
  refine ⟨more, ?_⟩
  rw [heq, hpayload, hboth, hmore, hbefore, hnumber]
  rfl

end Payload

/-! ## What is tried -/

section Tries

variable {lib : Libraries} {p s : List Char} {n : LicensedName}

theorem readPiece_eq :
    readPiece lib p = (tries p).findSome? (getCustomServerFromConfigString lib) := by
  unfold readPiece tries
  rw [List.findSome?_cons]
  cases getCustomServerFromConfigString lib (trim p) with
  | some c => rfl
  | none =>
    dsimp only
    split
    · rw [List.findSome?_map]
      rfl
    · rfl

theorem infix_of_mem_tries (h : s ∈ tries p) : s <:+: p := by
  unfold tries at h
  rcases List.mem_cons.mp h with rfl | h
  · exact trim_within p
  · split at h
    · obtain ⟨q, hq, rfl⟩ := List.mem_map.mp h
      exact (trim_within q).trans (infix_of_mem_splitOn hq)
    · cases h

theorem white_payload : (∀ c ∈ n.payload.head?, isWhite c = false) ∧
    ∀ c ∈ n.payload.getLast?, isWhite c = false := by
  obtain ⟨y, hy, hhead⟩ := payload_head (n := n)
  have hwhite : ∀ y ∈ ['9', 'Q', '0'], isWhite y = false := forall_mem_of_all (by decide)
  rw [hhead, payload_last]
  constructor
  · rintro c ⟨⟩
    exact hwhite y hy
  · rintro c ⟨⟩
    decide

theorem paren_payload : '(' ∉ n.payload :=
  not_mem_payload fun k hk => by
    have hall : ∀ k : Fin 64, '(' ≠ Base64.urlChar k := by decide
    exact hall ⟨k, hk⟩

theorem trim_payload : trim n.payload = n.payload := trim_eq white_payload.1 white_payload.2

theorem trim_payload_blank : trim (n.payload ++ [' ']) = n.payload := by
  have hdrop : (n.payload ++ [' ']).dropWhile isWhite = n.payload ++ [' '] := by
    obtain ⟨y, -, hhead⟩ := payload_head (n := n)
    have hwhite := (white_payload (n := n)).1
    refine dropWhile_white ?_
    rw [List.head?_append, hhead]
    rw [hhead] at hwhite
    exact hwhite
  unfold trim
  rw [hdrop, List.rdropWhile_concat_pos _ _ _ (by decide), rdropWhile_white white_payload.2]

/-- With a dash in front the payload is not what is tried. -/
theorem trim_dash (a : List Char) : trim (a ++ '-' :: n.payload) ≠ n.payload := by
  obtain ⟨y, -, hhead⟩ := payload_head (n := n)
  have hlast : ∀ c ∈ ('-' :: n.payload).getLast?, isWhite c = false := by
    have hwhite := (white_payload (n := n)).2
    obtain ⟨p, hp⟩ := List.head?_eq_some_iff.mp hhead
    rw [hp] at hwhite ⊢
    rw [List.getLast?_cons_cons]
    exact hwhite
  rw [trim_append (by decide) hlast]
  intro heq
  have hlen := congrArg List.length heq
  rw [List.length_append, List.length_cons] at hlen
  omega

/-- The number of a copy goes when it is not decoded. -/
theorem tries_payload (r : Rest) : ∃ first more, tries (n.payload ++ r.number) = first ++
    n.payload :: more ∧ ∀ s ∈ first, '(' ∈ s := by
  cases r with
  | nothing | more _ =>
    refine ⟨[], if '(' ∈ n.payload then (n.payload.splitOn '(').map trim else [], ?_,
      fun s hs => absurd hs List.not_mem_nil⟩
    unfold Rest.number tries
    rw [List.append_nil, trim_payload]
    rfl
  | copy blank k =>
    have hmem : '(' ∈ n.payload ++ (Rest.copy blank k).number := by
      unfold Rest.number
      simp
    have hsplit : ∃ more, (n.payload ++ (Rest.copy blank k).number).splitOn '(' =
        (n.payload ++ if blank then [' '] else []) :: more := by
      have hfree : '(' ∉ n.payload ++ if blank then [' '] else [] := by
        rw [List.mem_append, not_or]
        refine ⟨paren_payload, ?_⟩
        cases blank <;> decide
      unfold Rest.number
      rw [← List.append_assoc]
      exact ⟨_, List.splitOn_append_cons_self_of_not_mem hfree _⟩
    obtain ⟨more, hsplit⟩ := hsplit
    have htrim : trim (n.payload ++ if blank then [' '] else []) = n.payload := by
      cases blank with
      | true => exact trim_payload_blank
      | false => rw [if_neg Bool.false_ne_true, List.append_nil, trim_payload]
    refine ⟨[trim (n.payload ++ (Rest.copy blank k).number)], more.map trim, ?_, ?_⟩
    · unfold tries
      rw [if_pos hmem, hsplit, List.map_cons, htrim]
      rfl
    · intro s hs
      rw [List.mem_singleton.mp hs]
      exact mem_trim hmem (by decide)

variable {c : CustomServer}

theorem readConfig_payload (h : n.Inverts lib c) :
    getCustomServerFromConfigString lib n.payload = some c := by
  unfold getCustomServerFromConfigString payload
  rw [List.reverse_reverse, h.decode64]
  dsimp only
  rw [h.fromSlice]

theorem readPiece_payload (h : n.Inverts lib c) (r : Rest) :
    readPiece lib (n.payload ++ r.number) = some c := by
  obtain ⟨first, more, heq, hparen⟩ := tries_payload (n := n) r
  have hnone : first.findSome? (getCustomServerFromConfigString lib) = none := by
    rw [List.findSome?_eq_none_iff]
    intro s hs
    unfold getCustomServerFromConfigString
    rw [h.paren _ (List.mem_reverse.mpr (hparen s hs))]
  rw [readPiece_eq, heq, List.findSome?_append, hnone, Option.none_or, List.findSome?_cons,
    readConfig_payload h]

end Tries

/-! ## Reading a name -/

section Names

variable {n : LicensedName} {c : CustomServer}

/-- Only a letter is the lower case of another character. -/
theorem not_mem_toLower {s : List Char} {x : Char} (hx : x.toNat < 97 ∨ 122 < x.toNat)
    (h : x ∉ s) : x ∉ s.map Char.toLower := by
  intro hmem
  obtain ⟨y, hy, rfl⟩ := List.mem_map.mp hmem
  have hlower := toNat_toLower y
  split at hlower
  · omega
  · have hsame : y.toLower = y := Char.toNat_inj.mp hlower
    rw [hsame] at h
    exact h hy

/-- There is no ending behind the payload. -/
theorem not_exe_payload : ¬ ".exe".toList <:+ (n.front ++ n.payload).map Char.toLower := by
  obtain ⟨y, hy, hhead⟩ := payload_head (n := n)
  obtain ⟨p, hp⟩ := List.head?_eq_some_iff.mp hhead
  have hdot := dot_payload (n := n)
  have hlower : ∀ y ∈ ['9', 'Q', '0'], y.toLower ∉ ".exe".toList := forall_mem_of_all (by decide)
  rw [hp] at hdot ⊢
  rw [List.map_append, List.map_cons]
  intro hsuf
  have hin := suffix_of_not_mem (hlower y hy) hsuf
  exact not_mem_toLower (.inl (by decide)) (List.not_mem_of_not_mem_cons hdot)
    (hin.subset (by decide))

/-- Or behind the number of a copy. -/
theorem not_exe_copy (a : List Char) (blank : Bool) (k : Nat) :
    ¬ ".exe".toList <:+ (a ++ (Rest.copy blank k).number).map Char.toLower := by
  unfold Rest.number
  rw [← List.append_assoc, ← List.cons_append, ← List.append_assoc, List.map_append,
    List.map_singleton]
  intro hsuf
  have hnil : ".exe".toList <:+ [] := suffix_of_not_mem (by decide) hsuf
  exact absurd (List.suffix_nil.mp hnil) (by decide)

theorem lower_once : Ending.once.text.map Char.toLower = ".exe".toList := by decide

theorem stem_nothing (ending : Ending) : stem (n.text .nothing ending) = n.front ++ n.payload := by
  unfold text
  rw [show Rest.nothing.text = [] from rfl, List.append_nil]
  cases ending with
  | once => exact stem_whole lower_once not_exe_payload
  | twice => exact stem_double

/-- Of the name without its ending only what is behind the server may be shorter. -/
theorem stem_text (rest : Rest) (ending : Ending) : ∃ r : Rest, r.number = rest.number ∧
    stem (n.text rest ending) = n.front ++ (n.payload ++ r.text) := by
  cases ending with
  | twice => exact ⟨rest, rfl, stem_double⟩
  | once =>
    cases rest with
    | nothing =>
      refine ⟨.nothing, rfl, ?_⟩
      rw [stem_nothing, show Rest.nothing.text = [] from rfl, List.append_nil]
    | copy blank k =>
      refine ⟨.copy blank k, rfl, stem_whole lower_once ?_⟩
      rw [show (Rest.copy blank k).text = (Rest.copy blank k).number from rfl, ← List.append_assoc]
      exact not_exe_copy _ blank k
    | more s =>
      by_cases hexe : ".exe".toList <:+
          (n.front ++ (n.payload ++ (Rest.more s).text)).map Char.toLower
      · -- The suffix has an ending of its own.
        have hbody : n.front ++ (n.payload ++ (Rest.more s).text) =
            (n.front ++ n.payload ++ ['-', '-']) ++ s := by
          unfold Rest.text
          simp
        have hsuffix : ".exe".toList <:+ s.map Char.toLower := by
          have hdash : '-' ∉ ".exe".toList := by decide
          have hlower : ".exe".toList <:+ (n.front ++ n.payload).map Char.toLower ++
              '-' :: ([] ++ '-' :: s.map Char.toLower) := by
            rw [hbody, List.map_append, List.map_append, List.append_assoc] at hexe
            exact hexe
          exact suffix_of_not_mem hdash (suffix_of_not_mem hdash hlower)
        have hlen : 4 ≤ s.length := by
          have hle := hsuffix.length_le
          rw [List.length_map] at hle
          exact hle
        refine ⟨.more (s.take (s.length - 4)), rfl, ?_⟩
        unfold text
        rw [stem_shorter lower_once hexe, hbody, List.length_append,
          Nat.add_sub_assoc hlen, List.take_length_add_append]
        unfold Rest.text
        simp
      · exact ⟨.more s, rfl, stem_whole lower_once hexe⟩

/-- A whole name without `host=` is read. -/
theorem reads_of_whole {final : List Char → List Char → Bool} {rest : Rest} {ending : Ending}
    (h : n.Whole) (hhost : beforeHost (stem (n.text rest ending)) = none) :
    n.Reads final rest ending := by
  intro lib c hlib hbefore
  obtain ⟨r, hnumber, hstem⟩ := stem_text (n := n) rest ending
  obtain ⟨more, hpieces⟩ := pieces_eq h r
  have hnone : n.before.findSome? (readPiece lib) = none :=
    List.findSome?_eq_none_iff.mpr hbefore
  rw [outcome_pieces hhost, hstem]
  unfold readPieces
  rw [hpieces, List.findSome?_append, hnone, Option.none_or, List.findSome?_cons,
    readPiece_payload hlib]

/-! ### Libraries that decode one text -/

variable (n c) in
/-- Nothing else is decoded. -/
def only : Libraries where
  decode64 t := if t = Base64.encodeUrl n.json then some n.json else none
  fromSlice data := if data = n.json then some c else none
  verify _ _ := none

theorem only_inverts : n.Inverts (only n c) c where
  decode64 := if_pos rfl
  fromSlice := if_pos rfl
  paren t ht := if_neg fun heq => by
    rw [heq] at ht
    exact paren_payload (List.mem_reverse.mpr ht)

theorem readConfig_only {s : List Char} (h : s ≠ n.payload) :
    getCustomServerFromConfigString (only n c) s = none := by
  have hno : s.reverse ≠ Base64.encodeUrl n.json := fun heq => h (by
    unfold payload
    rw [← heq, List.reverse_reverse])
  have hdecode : (only n c).decode64 s.reverse = none := if_neg hno
  unfold getCustomServerFromConfigString
  rw [hdecode]

theorem readPiece_only {p : List Char} (h : n.payload ∉ tries p) :
    readPiece (only n c) p = none := by
  rw [readPiece_eq, List.findSome?_eq_none_iff]
  exact fun s hs => readConfig_only fun heq => h (heq ▸ hs)

/-- What is read is somewhere by itself. -/
theorem exists_piece {s : List Char} (h : readPieces (only n c) s ≠ none) :
    ∃ p ∈ splitSeq "--".toList (replaceLicensed s), n.payload ∈ tries p := by
  by_contra hno
  refine h ?_
  unfold readPieces
  rw [List.findSome?_eq_none_iff]
  exact fun p hp => readPiece_only fun hmem => hno ⟨p, hp, hmem⟩

/-- With `host=` the name says its server by fields, whatever the payload is. -/
theorem not_host_of_reads {final : List Char → List Char → Bool} {rest : Rest} {ending : Ending}
    (hparts : ∀ p ∈ n.parts, n.payload ∉ tries p) (h : n.Reads final rest ending) :
    beforeHost (stem (n.text rest ending)) = none := by
  cases hhost : beforeHost (stem (n.text rest ending)) with
  | none => rfl
  | some a =>
    have hbefore (c : CustomServer) : ∀ p ∈ n.before, readPiece (only n c) p = none :=
      fun p hp => readPiece_only (hparts p (List.dropLast_subset _ hp))
    have hone := h (only n {}) {} only_inverts (hbefore _)
    have htwo := h (only n { host := ['h'] }) { host := ['h'] } only_inverts (hbefore _)
    rw [outcome_host hhost] at hone htwo
    rw [hone] at htwo
    exact absurd htwo (by decide)

/-! ### Names that are not whole -/

theorem beforeHost_eq_none {s : List Char} :
    beforeHost s = none ↔ ¬ "host=".toList <:+: s.map Char.toLower := by
  unfold beforeHost beforeAnyCase
  rw [beforeFirst_eq_none]
  constructor
  · rintro h ⟨a, b, hab⟩
    rw [List.append_assoc] at hab
    obtain ⟨a, rest, rfl, -, hrest⟩ := List.map_eq_append_iff.mp hab.symm
    refine absurd (h a rest rfl) ?_
    rw [decide_eq_false_iff_not, not_not, hrest]
    exact List.prefix_append _ _
  · rintro h a b rfl
    rw [decide_eq_false_iff_not]
    intro hpre
    refine h (hpre.isInfix.trans ?_)
    rw [List.map_append]
    exact (List.suffix_append _ _).isInfix

/-- The marker and the payload have no `host=`. -/
theorem not_host_nothing {ending : Ending} (hhost : beforeHost n.start = none) :
    beforeHost (stem (n.text .nothing ending)) = none := by
  have heq : '=' ∉ n.marker.text ++ n.payload := by
    rw [List.mem_append, not_or]
    constructor
    · cases n.marker <;> decide
    · refine not_mem_payload fun k hk => ?_
      have hall : ∀ k : Fin 64, '=' ≠ Base64.urlChar k := by decide
      exact hall ⟨k, hk⟩
  have hlower := not_mem_toLower (.inl (by decide)) heq
  rw [stem_nothing, beforeHost_eq_none]
  unfold front
  rw [List.append_assoc, List.map_append]
  intro hin
  have hstart : "host".toList ++ ['='] <:+: n.start.map Char.toLower :=
    infix_of_not_mem hlower hin
  exact beforeHost_eq_none.mp hhost hstart

/-- The payload is a part of its own only if it has no separator. -/
theorem not_dashes {s p : List Char} (hp : p ∈ splitSeq "--".toList s)
    (htries : n.payload ∈ tries p) : ¬ "--".toList <:+: n.payload := fun hdashes =>
  not_infix_of_mem_splitSeq (by decide) hp (hdashes.trans (infix_of_mem_tries htries))

theorem not_licensed {s p : List Char} (hp : p ∈ splitSeq "--".toList (replaceLicensed s))
    (htries : n.payload ∈ tries p) : ¬ "-licensed-".toList <:+: n.payload := by
  intro hlicensed
  obtain ⟨y, hy, hhead⟩ := payload_head (n := n)
  obtain ⟨t, ht⟩ := List.head?_eq_some_iff.mp hhead
  have hwithin : n.payload <:+: replaceLicensed s :=
    (infix_of_mem_tries htries).trans (infix_of_mem_splitSeq (by decide) hp)
  -- The payload does not begin with a dash, so something stands before the marker in it.
  have hbefore : ∃ x, x :: "-licensed-".toList <:+: n.payload := by
    obtain ⟨a, b, hab⟩ := hlicensed
    rcases List.eq_nil_or_concat a with rfl | ⟨a, x, rfl⟩
    · rw [← hab, List.append_assoc, List.nil_append] at hhead
      cases hhead
      exact absurd hy (by decide)
    · refine ⟨x, a, b, ?_⟩
      rw [← hab, List.concat_eq_append]
      simp
  obtain ⟨x, hx⟩ := hbefore
  have hdash : x = '-' :=
    eq_of_infix_replace (c := 'l') (q := "icensed".toList) (by decide) (by decide)
      (hx.trans hwithin)
  rw [hdash] at hx
  exact not_dashes hp htries (List.IsInfix.trans ⟨[], _, rfl⟩ hx)

/-- Of the parts between parentheses the last one ends like the text. -/
theorem getLast?_splitOn {last s : List Char} {init : List (List Char)}
    (h : s.splitOn '(' = init ++ [last]) (hs : s.getLast? = some '-') :
    last.getLast? = some '-' := by
  have heq : ['('].intercalate (s.splitOn '(') = s := List.intercalate_splitOn _
  rw [h, intercalate_concat] at heq
  by_cases hlast : last = []
  · rcases List.eq_nil_or_concat init with rfl | ⟨init, q, rfl⟩
    · rw [← heq, hlast] at hs
      cases hs
    · rw [← heq, hlast, List.concat_eq_append, List.flatMap_append, List.append_nil,
        List.flatMap_singleton, ← List.append_assoc, List.getLast?_concat] at hs
      exact absurd hs (by decide)
  · rw [← heq, List.getLast?_append_of_ne_nil _ hlast] at hs
    exact hs

/-- With something left in front the payload is only tried where it is there already. -/
theorem mem_tries_append {last : List Char} (hlast : last.getLast? = some '-')
    (h : n.payload ∈ tries (last ++ n.payload)) : n.payload ∈ tries last := by
  have hdash {a : List Char} (ha : a.getLast? = some '-') :
      trim (a ++ n.payload) ≠ n.payload := by
    obtain ⟨l, rfl⟩ := List.getLast?_eq_some_iff.mp ha
    rw [List.append_assoc]
    exact trim_dash l
  unfold tries at h ⊢
  rcases List.mem_cons.mp h with heq | h
  · exact absurd heq.symm (hdash hlast)
  · split at h
    · next hparen =>
        have hmem : '(' ∈ last := (List.mem_append.mp hparen).resolve_right paren_payload
        have hfree : ∀ c ∈ n.payload, (c == '(') = false := by
          intro c hc
          rw [beq_eq_false_iff_ne]
          rintro rfl
          exact paren_payload hc
        obtain ⟨init, rest, hone, hboth⟩ := splitOnP_append_last hfree last
        rw [← List.splitOn_eq_splitOnP] at hone hboth
        rw [if_pos hmem, hone]
        rw [hboth, List.map_append, List.mem_append] at h
        rcases h with h | h
        · rw [List.map_append]
          exact List.mem_cons_of_mem _ (List.mem_append_left _ h)
        · rw [List.map_singleton, List.mem_singleton] at h
          exact absurd h.symm (hdash (getLast?_splitOn hone hlast))
    · cases h

theorem marker_whole (hparts : ∀ p ∈ n.parts, n.payload ∉ tries p)
    (hdashes : ¬ "--".toList <:+: n.payload) (hlicensed : ¬ "-licensed-".toList <:+: n.payload)
    {p : List Char} (hp : p ∈ splitSeq "--".toList (replaceLicensed (n.front ++ n.payload)))
    (htries : n.payload ∈ tries p) : n.parts.getLast? = some [] := by
  obtain ⟨y, hy, hhead⟩ := payload_head (n := n)
  obtain ⟨heq, hdash⟩ := replaceLicensed_front front_last hhead hy
  obtain ⟨init, last, hfront, hboth⟩ :=
    splitSeq_append_pieces (not_across (marker_payload (.inl rfl) hy) hdash hhead)
  have hall : n.parts = init ++ [last] := hfront
  rw [heq, replaceLicensed_self hlicensed, hboth, splitSeq_eq_singleton hdashes] at hp
  rw [hall] at hparts ⊢
  rcases List.mem_append.mp hp with hinit | hlast
  · exact absurd htries (hparts p (List.mem_append_left _ hinit))
  · rw [List.mem_singleton.mp hlast] at htries
    rw [List.getLast?_concat]
    by_contra hne
    have hnil : last ≠ [] := fun hnil => hne (congrArg some hnil)
    have hend : last.getLast? = some '-' := by
      have hsplit : "--".toList.intercalate (splitSeq "--".toList (replaceLicensed n.front)) =
          replaceLicensed n.front := intercalate_splitSeq (by decide)
      rw [hfront, intercalate_concat] at hsplit
      rw [← hsplit, List.getLast?_append_of_ne_nil _ hnil] at hdash
      exact hdash
    exact hparts last (List.mem_append_right _ List.mem_cons_self) (mem_tries_append hend htries)

end Names

variable (n : LicensedName) (final : List Char → List Char → Bool) in
/-- A prefix and a server go together, whatever follows but `host=`, exactly if the server is
    whole. -/
theorem licensed_names_iff (hhost : beforeHost n.start = none)
    (hparts : ∀ p ∈ n.parts, n.payload ∉ tries p) :
    (∀ rest ending, n.Reads final rest ending ↔
      beforeHost (stem (n.text rest ending)) = none) ↔ n.Whole := by
  constructor
  · intro h
    have hnone : beforeHost (stem (n.text .nothing .once)) = none := not_host_nothing hhost
    have hreads := (h .nothing .once).mpr hnone
    have hbefore : ∀ p ∈ n.before, readPiece (only n {}) p = none :=
      fun p hp => readPiece_only (hparts p (List.dropLast_subset _ hp))
    have hok := hreads (only n {}) {} only_inverts hbefore
    rw [outcome_pieces hnone, stem_nothing] at hok
    have hsome : readPieces (only n {}) (n.front ++ n.payload) ≠ none := by
      intro hno
      rw [hno] at hok
      cases hok
    obtain ⟨p, hp, htries⟩ := exists_piece hsome
    have hdashes := not_dashes hp htries
    have hlicensed := not_licensed hp htries
    exact ⟨marker_whole hparts hdashes hlicensed hp htries, hdashes, hlicensed⟩
  · intro h rest ending
    exact ⟨not_host_of_reads hparts, reads_of_whole h⟩

/-- JSON of a server with this host, and with `k` as its key. -/
def hostJson (host : List Char) : List UInt8 :=
  ("\x7b\"key\":\"k\",\"host\":\"".toList ++ host ++
    "\",\"api\":\"\",\"relay\":\"\"\x7d".toList).flatMap String.utf8EncodeChar

def plain : LicensedName where
  start := "luoda".toList
  marker := .short
  json := hostJson ['h']
  json_head := by decide +kernel
  json_last := by decide +kernel

theorem licensed_names_copy : plain.Reads (fun _ _ => false) (.copy true 1) .once :=
  ((licensed_names_iff plain _ (by decide +kernel) (by decide +kernel)).mpr
    ⟨by decide +kernel, by decide +kernel, by decide +kernel⟩ _ _).mpr (by decide +kernel)

/-- Base64 of a letter of three bytes may have two dashes. -/
def katakana : LicensedName where
  start := "luoda".toList
  marker := .short
  json := hostJson ['ﾊ']
  json_head := by decide +kernel
  json_last := by decide +kernel

def dashed : LicensedName := { plain with start := "luoda-".toList }

/-- One server has a separator in it, another a dash too many in front: both are lost, though the
    libraries decode them. -/
theorem licensed_names_lost :
    (katakana.Inverts (only katakana { key := ['k'], host := ['ﾊ'] })
        { key := ['k'], host := ['ﾊ'] } ∧
      (∀ p ∈ katakana.parts, readPiece (only katakana { key := ['k'], host := ['ﾊ'] }) p = none) ∧
      getCustomServerFromString (fun _ _ => false)
        (only katakana { key := ['k'], host := ['ﾊ'] }) (katakana.text .nothing .once) = .err) ∧
    dashed.Inverts (only dashed { key := ['k'], host := ['h'] })
        { key := ['k'], host := ['h'] } ∧
      (∀ p ∈ dashed.parts, readPiece (only dashed { key := ['k'], host := ['h'] }) p = none) ∧
      getCustomServerFromString (fun _ _ => false)
        (only dashed { key := ['k'], host := ['h'] }) (dashed.text .nothing .once) = .err := by
  refine ⟨⟨only_inverts, ?_, ?_⟩, only_inverts, ?_, ?_⟩ <;> decide +kernel

end LicensedName

end CustomServer

end LuodaRemote
