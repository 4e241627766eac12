/-
  Names with `host=`.

  The position of `host=` is one in the lower-cased name, and the name is cut there. Few letters
  have more or fewer bytes in lower case, and where one of them stands before `host=` the cut is
  in another place: inside a character, which panics, or inside a field, which is lost.
  `host_names_iff` says when a name is safe, and when it is read as it was meant.
-/
import LuodaRemote.CustomServer.Parse

namespace LuodaRemote
open Lib

namespace CustomServer

/-! ## Fields -/

inductive Field where
  | host
  | key
  | api
  | relay
  deriving DecidableEq

instance : Fintype Field := ⟨{.host, .key, .api, .relay}, fun f => by cases f <;> decide⟩

def Field.text : Field → List Char
  | .host => "host=".toList
  | .key => "key=".toList
  | .api => "api=".toList
  | .relay => "relay=".toList

/-- In the order of a name. -/
def Field.all : List Field := [.host, .key, .api, .relay]

def get (c : CustomServer) : Field → List Char
  | .host => c.host
  | .key => c.key
  | .api => c.api
  | .relay => c.relay

theorem ext_get {c d : CustomServer} : c = d ↔ ∀ f, c.get f = d.get f := by
  constructor
  · rintro rfl _
    rfl
  · intro h
    obtain ⟨key, host, api, relay⟩ := c
    obtain ⟨key', host', api', relay'⟩ := d
    obtain rfl : host = host' := h .host
    obtain rfl : key = key' := h .key
    obtain rfl : api = api' := h .api
    obtain rfl : relay = relay' := h .relay
    rfl

theorem get_default (f : Field) : ({} : CustomServer).get f = [] := by cases f <;> rfl

section Fields

variable {final : List Char → List Char → Bool} {c : CustomServer} {el p q v : List Char}
  {f g : Field}

theorem text_ne_nil : f.text ≠ [] := by
  cases f <;> decide

theorem get_readField : (readField final c el).get f =
    if f.text <+: toLowercase final el then el.drop f.text.length else c.get f := by
  cases f <;> rfl

theorem readField_nil : readField final c [] = c := by
  rw [ext_get]
  intro f
  have hno : ¬ f.text <+: toLowercase final [] := fun h => text_ne_nil (List.prefix_nil.mp h)
  rw [get_readField, if_neg hno]

/-- The name of a field, in any case. -/
def Names (f : Field) (p : List Char) : Prop := p.map Char.toLower = f.text

instance (f : Field) (p : List Char) : Decidable (Names f p) :=
  inferInstanceAs (Decidable (_ = _))

theorem ascii_text : ∀ x ∈ f.text, x.toNat < 128 := by
  cases f <;> exact forall_mem_of_all (by decide)

theorem Names.ascii (h : Names f p) : ∀ c ∈ p, c.toNat < 128 := by
  intro c hc
  have hmem : c.toLower ∈ f.text := h ▸ List.mem_map_of_mem hc
  exact ascii_of_toLower (ascii_text _ hmem)

theorem Names.length (h : Names f p) : p.length = f.text.length := by
  rw [← h, List.length_map]

variable (final v) in
theorem Names.lower (h : Names f p) :
    ∃ rest, toLowercase final (p ++ v) = f.text ++ rest := by
  unfold toLowercase
  rw [lowerFrom_append_of_ascii h.ascii, h]
  exact ⟨_, rfl⟩

/-- A part that is one field is that field only. -/
theorem Names.prefix_iff (h : Names f p) : g.text <+: toLowercase final (p ++ v) ↔ g = f := by
  obtain ⟨rest, hlower⟩ := h.lower final v
  rw [hlower]
  constructor
  · rintro ⟨t, ht⟩
    have hhead := congrArg List.head? ht
    rw [List.head?_append_of_ne_nil _ text_ne_nil, List.head?_append_of_ne_nil _ text_ne_nil]
      at hhead
    have hheads : ∀ f g : Field, g.text.head? = f.text.head? → g = f := by decide
    exact hheads f g hhead
  · rintro rfl
    exact List.prefix_append _ _

/-- Reading a field. -/
theorem get_readField_names (h : Names f p) :
    (readField final c (p ++ v)).get g = if g = f then v else c.get g := by
  rw [get_readField, if_congr h.prefix_iff rfl rfl]
  split
  · next heq => rw [heq, ← h.length, List.drop_left]
  · rfl

/-- What is left of the name of a field, when it is cut, is no field. -/
theorem readField_cut (h : Names f (p ++ q)) (hp : p ≠ []) : readField final c q = c := by
  have hcut : q.map Char.toLower = f.text.drop p.length := by
    rw [← h, List.map_append, ← List.length_map Char.toLower, List.drop_left]
  have hascii : ∀ c ∈ q, c.toNat < 128 := fun c hc => h.ascii c (List.mem_append_right _ hc)
  have hlen : 0 < p.length := List.length_pos_iff.mpr hp
  have hle : p.length ≤ f.text.length := by
    rw [← h.length, List.length_append]
    exact Nat.le_add_right _ _
  have hnone : ∀ f g : Field, ∀ n ∈ List.range 7, 0 < n → n ≤ f.text.length →
      ¬ g.text <+: f.text.drop n := by decide
  have hmax : ∀ f : Field, f.text.length < 7 := by decide
  rw [ext_get]
  intro g
  rw [get_readField, toLowercase_of_ascii hascii, hcut, if_neg]
  exact hnone f g p.length (List.mem_range.mpr (Nat.lt_of_le_of_lt hle (hmax f))) hlen hle

/-- A value that is read is shorter than the part by the name. -/
theorem length_get_readField :
    ((readField final {} el).get f).length ≤ el.length - f.text.length := by
  rw [get_readField]
  split
  · rw [List.length_drop]
  · rw [get_default]
    exact Nat.zero_le _

end Fields

/-! ## Names -/

/-- A name that says a server, with the names of the fields in any case. -/
structure HostName where
  start : List Char
  names : Field → List Char
  values : CustomServer
  comma : Bool
  ending : List Char
  names_names : ∀ f, Names f (names f)
  comma_values : ∀ f, ',' ∉ values.get f
  ending_mem : ending ∈ [[], ".exe".toList, ".EXE".toList, ".exe.exe".toList]

namespace HostName

variable (n : HostName)

/-- `host=h` and the others. -/
def piece (f : Field) : List Char := n.names f ++ n.values.get f

def fields : List Char :=
  [','].intercalate (Field.all.map n.piece) ++ if n.comma then [','] else []

/-- The name without its ending. -/
def body : List Char := n.start ++ n.fields

def text : List Char := n.body ++ n.ending

/-- A part that begins with `host=`, in any case. -/
def hostField (el : List Char) : Prop := "host=".toList <+: el.map Char.toLower

instance (el : List Char) : Decidable (hostField el) :=
  inferInstanceAs (Decidable (_ <+: _))

/-- What is left of the start does no harm to the host: it ends with a comma, or the part that
    goes on with the host is no host, and the host before it is the same. -/
def Harmless (rest : List Char) : Prop :=
  ∃ init last, rest.splitOn ',' = init ++ [last] ∧
    (last = [] ∨ ¬ hostField (last ++ n.piece .host) ∧
      (((init.filter (hostField ·)).getLast?.map (List.drop 5)).getD []) = n.values.host)

/-- These fields, with a comma behind each. -/
def upTo (fs : List Field) : List Char := fs.flatMap fun f => n.piece f ++ [',']

/-- The fields that so much is cut off of have no values. -/
def Unharmed (cut : List Char) : Prop :=
  ∃ lost kept, Field.all = lost ++ kept ∧ (∀ f ∈ lost, n.values.get f = []) ∧
    cut.length ≤ (n.upTo lost).length

/-- The name is read as it was meant. -/
structure Readable : Prop where
  /-- Only the ending is taken off. -/
  ending : n.ending = ".exe.exe".toList ∨ ¬ ".exe".toList <:+ n.body.map Char.toLower
  /-- It is cut in the start, or in fields that say nothing. -/
  cut : ∃ before rest, n.body = before ++ rest ∧
    (∀ a ∈ beforeHost n.body, byteLen before = lowerLen a) ∧
      ((∃ left, n.start = before ++ left ∧ n.Harmless left) ∨
        ∃ lost, before = n.start ++ lost ∧ n.Unharmed lost)

end HostName

/-- The bytes before `host=` in lower case are the bytes of a beginning of the text. -/
def Sliceable (s : List Char) : Prop :=
  ∀ a ∈ beforeHost s, ∃ before rest, s = before ++ rest ∧ byteLen before = lowerLen a

/-! ## Reading the parts -/

section Reading

variable {final : List Char → List Char → Bool} {n : HostName} {c : CustomServer} {f g : Field}

theorem mem_all (f : Field) : f ∈ Field.all := by cases f <;> decide

theorem nodup_all : Field.all.Nodup := by decide

namespace HostName

variable (n) in
/-- What a comma at the end leaves. -/
def tail : List (List Char) := if n.comma then [[]] else []

variable (n) in
theorem fields_eq : n.fields = [','].intercalate (Field.all.map n.piece ++ n.tail) := by
  unfold fields tail Field.all
  cases n.comma with
  | false => simp
  | true => simp [List.intercalate_cons_cons]

variable (n) in
theorem length_piece (f : Field) :
    (n.piece f).length = f.text.length + (n.values.get f).length := by
  unfold piece
  rw [List.length_append, (n.names_names f).length]

theorem comma_names {p : List Char} (h : Names f p) : ',' ∉ p := by
  intro hmem
  have hlower : ','.toLower ∈ f.text := h ▸ List.mem_map_of_mem hmem
  have hno : ∀ f : Field, ','.toLower ∉ f.text := by decide
  exact hno f hlower

theorem comma_pieces : ∀ q ∈ Field.all.map n.piece ++ n.tail, ',' ∉ q := by
  intro q hq
  rcases List.mem_append.mp hq with hq | hq
  · obtain ⟨f, -, rfl⟩ := List.mem_map.mp hq
    unfold piece
    rw [List.mem_append, not_or]
    exact ⟨comma_names (n.names_names f), n.comma_values f⟩
  · have hnil : q = [] := by
      unfold tail at hq
      split at hq
      · exact List.mem_singleton.mp hq
      · cases hq
    rw [hnil]
    exact List.not_mem_nil

theorem foldl_tail (ps : List (List Char)) :
    (ps ++ n.tail).foldl (readField final) c = ps.foldl (readField final) c := by
  unfold tail
  split
  · rw [List.foldl_append, List.foldl_cons, List.foldl_nil, readField_nil]
  · rw [List.append_nil]

/-- After the parts the fields have their values, the others are as before. -/
theorem get_foldl_pieces (fs : List Field) :
    ((fs.map n.piece).foldl (readField final) c).get g =
      if g ∈ fs then n.values.get g else c.get g := by
  induction fs generalizing c with
  | nil => rw [if_neg List.not_mem_nil]; rfl
  | cons f fs ih =>
    rw [List.map_cons, List.foldl_cons, ih]
    unfold piece
    rw [get_readField_names (n.names_names f)]
    by_cases hfs : g ∈ fs
    · rw [if_pos hfs, if_pos (List.mem_cons_of_mem f hfs)]
    · by_cases hf : g = f
      · rw [if_neg hfs, if_pos hf, if_pos (hf ▸ List.mem_cons_self), hf]
      · rw [if_neg hfs, if_neg hf, if_neg (fun h => (List.mem_cons.mp h).elim hf hfs)]

/-! ### A cut in the start -/

variable (final) in
theorem hostField_iff {el : List Char} :
    Field.host.text <+: toLowercase final el ↔ hostField el :=
  prefix_lower (forall_mem_of_all (by decide))

theorem get_foldl_host (init : List (List Char)) :
    (init.foldl (readField final) {}).get .host =
      (((init.filter (hostField ·)).getLast?.map (List.drop 5)).getD []) := by
  induction init using List.reverseRecOn with
  | nil => rfl
  | append_singleton init el ih =>
    rw [List.foldl_concat, get_readField, ih, List.filter_append]
    by_cases hel : hostField el
    · rw [if_pos ((hostField_iff final).mpr hel), List.filter_cons_of_pos (by simpa using hel),
        List.filter_nil, List.getLast?_concat, Option.map_some, Option.getD_some]
      rfl
    · rw [if_neg ((hostField_iff final).not.mpr hel), List.filter_cons_of_neg (by simpa using hel)]
      simp

theorem readFields_left {left last : List Char} {init : List (List Char)}
    (h : left.splitOn ',' = init ++ [last]) :
    readFields final (left ++ n.fields) =
      ([Field.key, .api, .relay].map n.piece).foldl (readField final)
        (readField final (init.foldl (readField final) {}) (last ++ n.piece .host)) := by
  have hpieces : Field.all.map n.piece ++ n.tail =
      n.piece .host :: ([Field.key, .api, .relay].map n.piece ++ n.tail) := rfl
  have hfree := comma_pieces (n := n)
  unfold readFields
  rw [fields_eq]
  rw [hpieces] at hfree ⊢
  rw [splitOn_append_intercalate h hfree, List.foldl_append, List.foldl_cons, foldl_tail]

/-- The other fields come later, so only the host may be another. -/
theorem readFields_left_iff {left last : List Char} {init : List (List Char)}
    (h : left.splitOn ',' = init ++ [last]) :
    readFields final (left ++ n.fields) = n.values ↔
      (last = [] ∨ ¬ hostField (last ++ n.piece .host) ∧
        (((init.filter (hostField ·)).getLast?.map (List.drop 5)).getD []) = n.values.host) := by
  have hhost : readFields final (left ++ n.fields) = n.values ↔
      (readField final (init.foldl (readField final) {}) (last ++ n.piece .host)).get .host =
        n.values.get .host := by
    rw [ext_get, readFields_left h]
    constructor
    · intro hall
      have hget := hall .host
      rw [get_foldl_pieces, if_neg (by decide)] at hget
      exact hget
    · intro hget g
      rw [get_foldl_pieces]
      cases g with
      | host => rw [if_neg (by decide), hget]
      | key | api | relay => exact if_pos (by decide)
  rw [hhost, get_readField, if_congr (hostField_iff final) rfl rfl, get_foldl_host]
  by_cases hlast : last = []
  · have hown : hostField (last ++ n.piece .host) := by
      rw [hlast, List.nil_append, ← hostField_iff final]
      exact (n.names_names .host).prefix_iff.mpr rfl
    rw [if_pos hown, hlast, List.nil_append]
    refine iff_of_true ?_ (.inl rfl)
    unfold piece
    rw [← (n.names_names .host).length, List.drop_left]
  · by_cases hown : hostField (last ++ n.piece .host)
    · rw [if_pos hown]
      refine iff_of_false (fun heq => ?_) fun hor => ?_
      · have hlen := congrArg List.length heq
        have hpos := List.length_pos_iff.mpr hlast
        rw [List.length_drop, List.length_append, length_piece] at hlen
        omega
      · exact hor.elim hlast fun hnot => hnot.1 hown
    · rw [if_neg hown]
      exact ⟨fun heq => .inr ⟨hown, heq⟩, fun hor => (hor.resolve_left hlast).2⟩

theorem harmless_iff {left : List Char} :
    readFields final (left ++ n.fields) = n.values ↔ n.Harmless left := by
  obtain ⟨init, last, h⟩ := (List.eq_nil_or_concat (left.splitOn ',')).resolve_left
    (List.splitOn_ne_nil _ _)
  rw [List.concat_eq_append] at h
  rw [readFields_left_iff h]
  constructor
  · exact fun hor => ⟨init, last, h, hor⟩
  · rintro ⟨init', last', h', hor⟩
    obtain ⟨rfl, hlast⟩ := List.append_inj' (h.symm.trans h') rfl
    cases hlast
    exact hor

/-! ### A cut in the fields -/

theorem upTo_append (fs gs : List Field) : n.upTo (fs ++ gs) = n.upTo fs ++ n.upTo gs :=
  List.flatMap_append

theorem length_upTo_pos {fs : List Field} (h : fs ≠ []) : 0 < (n.upTo fs).length := by
  obtain ⟨f, fs, rfl⟩ := List.exists_cons_of_ne_nil h
  unfold upTo
  rw [List.flatMap_cons, List.length_append, List.length_append, List.length_singleton]
  omega

/-- Of two beginnings of the fields the shorter has fewer characters. -/
theorem prefix_of_length_le {fs gs : List Field} (hfs : fs <+: Field.all) (hgs : gs <+: Field.all)
    (hle : (n.upTo fs).length ≤ (n.upTo gs).length) : fs <+: gs := by
  rcases List.prefix_or_prefix_of_prefix hfs hgs with h | ⟨rest, rfl⟩
  · exact h
  · have hrest : rest = [] := by
      by_contra hne
      have hpos := length_upTo_pos (n := n) hne
      rw [upTo_append, List.length_append] at hle
      omega
    rw [hrest, List.append_nil]

variable (final) in
/-- The part that is cut, and what is read behind the cut. -/
theorem cut_fields {lost t : List Char} (h : n.fields = lost ++ t) :
    (∃ fs1 f fs2 q1 q2, Field.all = fs1 ++ f :: fs2 ∧ n.piece f = q1 ++ q2 ∧
      lost = n.upTo fs1 ++ q1 ∧ readFields final t =
        (fs2.map n.piece).foldl (readField final) (readField final {} q2)) ∨
      lost = n.upTo Field.all ∧ readFields final t = {} := by
  have hne : Field.all.map n.piece ++ n.tail ≠ [] :=
    List.append_ne_nil_of_left_ne_nil (List.cons_ne_nil _ _) _
  rw [fields_eq] at h
  obtain ⟨ps1, q1, q2, ps2, hps, rfl, rfl⟩ := cut_intercalate hne h.symm
  have hfree := comma_pieces (n := n)
  rw [hps, List.forall_mem_append, List.forall_mem_cons] at hfree
  have hbehind : ∀ q ∈ q2 :: ps2, ',' ∉ q := by
    refine List.forall_mem_cons.mpr ⟨fun hmem => ?_, hfree.2.2⟩
    exact hfree.2.1 (List.mem_append_right q1 hmem)
  have hread : readFields final ([','].intercalate (q2 :: ps2)) =
      ps2.foldl (readField final) (readField final {} q2) := by
    unfold readFields
    rw [List.splitOn_intercalate ',' hbehind (List.cons_ne_nil _ _), List.foldl_cons]
  have hend (hps1 : ps1 = Field.all.map n.piece) (htail : n.tail = (q1 ++ q2) :: ps2) :
      ps1.flatMap (· ++ [',']) ++ q1 = n.upTo Field.all ∧
        readFields final ([','].intercalate (q2 :: ps2)) = {} := by
    unfold tail at htail
    split at htail
    · obtain ⟨hnil, rfl⟩ := List.cons.inj htail
      obtain ⟨rfl, rfl⟩ := List.append_eq_nil_iff.mp hnil.symm
      rw [hread, readField_nil, hps1, List.append_nil, List.flatMap_map]
      exact ⟨rfl, rfl⟩
    · cases htail
  rcases List.append_eq_append_iff.mp hps with ⟨a, hps1, htail⟩ | ⟨d, hall, hrest⟩
  · have ha : a = [] := by
      have hlen := congrArg List.length htail
      have hone : n.tail.length ≤ 1 := by
        unfold tail
        split <;> decide
      rw [List.length_append, List.length_cons] at hlen
      exact List.length_eq_zero_iff.mp (by omega)
    rw [ha, List.append_nil] at hps1
    rw [ha, List.nil_append] at htail
    exact .inr (hend hps1 htail)
  · cases d with
    | nil =>
      rw [List.append_nil] at hall
      exact .inr (hend hall.symm hrest.symm)
    | cons d ds =>
      rw [List.cons_append] at hrest
      obtain ⟨rfl, rfl⟩ := List.cons.inj hrest
      obtain ⟨fs1, fs', hfs, rfl, hfs'⟩ := List.map_eq_append_iff.mp hall
      obtain ⟨f, fs2, rfl, hf, rfl⟩ := List.map_eq_cons_iff.mp hfs'
      refine .inl ⟨fs1, f, fs2, q1, q2, hfs, hf, ?_, ?_⟩
      · rw [List.flatMap_map]
        rfl
      · rw [hread, foldl_tail]

/-- The fields before the cut, and the one that is cut, have to be without value. -/
theorem unharmed_cut {fs1 fs2 : List Field} {q1 : List Char}
    (hall : Field.all = fs1 ++ f :: fs2) (hle : q1.length ≤ (n.piece f).length) :
    n.Unharmed (n.upTo fs1 ++ q1) ↔
      (∀ g ∈ fs1, n.values.get g = []) ∧ (q1 ≠ [] → n.values.get f = []) := by
  constructor
  · rintro ⟨gs, kept, hgs, hempty, hcut⟩
    rw [List.length_append] at hcut
    have hfirst : fs1 <+: gs := by
      refine prefix_of_length_le (n := n) (hall ▸ List.prefix_append _ _)
        (hgs ▸ List.prefix_append _ _) ?_
      omega
    refine ⟨fun g hg => hempty g (hfirst.subset hg), fun hq1 => ?_⟩
    obtain ⟨rest, rfl⟩ := hfirst
    cases rest with
    | nil =>
      have hpos := List.length_pos_iff.mpr hq1
      rw [List.append_nil] at hcut
      omega
    | cons g rest =>
      rw [hall, List.append_assoc, List.append_cancel_left_eq, List.cons_append] at hgs
      obtain ⟨rfl, -⟩ := List.cons.inj hgs
      exact hempty f (List.mem_append_right _ List.mem_cons_self)
  · rintro ⟨hfirst, hone⟩
    by_cases hq1 : q1 = []
    · refine ⟨fs1, f :: fs2, hall, hfirst, ?_⟩
      rw [hq1, List.append_nil]
    · refine ⟨fs1 ++ [f], fs2, by rw [hall]; simp, fun g hg => ?_, ?_⟩
      · rcases List.mem_append.mp hg with hg | hg
        · exact hfirst g hg
        · exact List.mem_singleton.mp hg ▸ hone hq1
      · have hlen : (n.upTo [f]).length = (n.piece f).length + 1 := by
          simp [upTo]
        rw [upTo_append, List.length_append, List.length_append, hlen]
        omega

/-- So much of a field that something is cut off gives its value only if there is none. -/
theorem get_readField_cut {q1 q2 : List Char} (hf : n.piece f = q1 ++ q2) (hq1 : q1 ≠ []) :
    (readField final {} q2).get f = n.values.get f ↔ n.values.get f = [] := by
  have hpos := List.length_pos_iff.mpr hq1
  have hlen := congrArg List.length hf
  rw [length_piece, List.length_append] at hlen
  have hle : ((readField final {} q2).get f).length ≤ q2.length - f.text.length :=
    length_get_readField
  constructor
  · intro hget
    rw [hget] at hle
    exact List.length_eq_zero_iff.mp (by omega)
  · intro hvalue
    rw [hvalue, List.length_nil] at hlen
    rw [hvalue]
    exact List.length_eq_zero_iff.mp (by omega)

theorem readField_unnamed {q1 q2 : List Char} (hf : n.piece f = q1 ++ q2) (hq1 : q1 ≠ [])
    (hvalue : n.values.get f = []) : readField final {} q2 = {} := by
  have hname : n.names f = q1 ++ q2 := by
    rw [← hf]
    unfold piece
    rw [hvalue, List.append_nil]
  exact readField_cut (hname ▸ n.names_names f) hq1

/-- What is read behind a cut in a field. -/
theorem readFields_cut {fs1 fs2 : List Field} {q1 q2 : List Char}
    (hall : Field.all = fs1 ++ f :: fs2) (hf : n.piece f = q1 ++ q2) :
    (fs2.map n.piece).foldl (readField final) (readField final {} q2) = n.values ↔
      (∀ g ∈ fs1, n.values.get g = []) ∧ (q1 ≠ [] → n.values.get f = []) := by
  have hnodup := nodup_all
  rw [hall] at hnodup
  obtain ⟨-, hbehind, hdisjoint⟩ := List.nodup_append.mp hnodup
  have hf2 : f ∉ fs2 := (List.nodup_cons.mp hbehind).1
  have hlater : (fs2.map n.piece).foldl (readField final) (readField final {} q2) = n.values ↔
      ∀ g, g ∉ fs2 → (readField final {} q2).get g = n.values.get g := by
    rw [ext_get]
    refine forall_congr' fun g => ?_
    rw [get_foldl_pieces]
    split
    · next hg => exact iff_of_true rfl fun hno => absurd hg hno
    · next hg => rw [forall_prop_of_true hg]
  have hmem (g : Field) (hg : g ∉ fs2) : g ∈ fs1 ∨ g = f := by
    have hg' := mem_all g
    rw [hall, List.mem_append, List.mem_cons] at hg'
    exact hg'.imp_right fun h => h.resolve_right hg
  have hfs1 (g : Field) (hg : g ∈ fs1) : g ∉ fs2 ∧ g ≠ f :=
    ⟨fun h2 => hdisjoint g hg g (List.mem_cons_of_mem f h2) rfl,
      hdisjoint g hg f List.mem_cons_self⟩
  rw [hlater]
  by_cases hq1 : q1 = []
  · have hwhole (g : Field) : (readField final {} q2).get g =
        if g = f then n.values.get f else [] := by
      rw [hq1, List.nil_append] at hf
      rw [← hf]
      unfold piece
      rw [get_readField_names (n.names_names f), get_default]
    constructor
    · refine fun hget => ⟨fun g hg => ?_, fun hne => absurd hq1 hne⟩
      rw [← hget g (hfs1 g hg).1, hwhole, if_neg (hfs1 g hg).2]
    · intro h g hg
      rw [hwhole]
      rcases hmem g hg with hg | rfl
      · rw [if_neg (hfs1 g hg).2, h.1 g hg]
      · exact if_pos rfl
  · constructor
    · intro hget
      have hvalue := (get_readField_cut hf hq1).mp (hget f hf2)
      refine ⟨fun g hg => ?_, fun _ => hvalue⟩
      rw [← hget g (hfs1 g hg).1, readField_unnamed hf hq1 hvalue, get_default]
    · intro h g hg
      rw [readField_unnamed hf hq1 (h.2 hq1), get_default]
      rcases hmem g hg with hg | rfl
      · exact (h.1 g hg).symm
      · exact (h.2 hq1).symm

theorem unharmed_iff {lost t : List Char} (h : n.fields = lost ++ t) :
    readFields final t = n.values ↔ n.Unharmed lost := by
  rcases cut_fields final h with
    ⟨fs1, f, fs2, q1, q2, hall, hf, rfl, hread⟩ | ⟨rfl, hread⟩
  · have hle : q1.length ≤ (n.piece f).length := by
      rw [hf, List.length_append]
      exact Nat.le_add_right _ _
    rw [hread, readFields_cut hall hf, unharmed_cut hall hle]
  · rw [hread, ext_get]
    constructor
    · intro hget
      refine ⟨Field.all, [], (List.append_nil _).symm, fun g _ => ?_, le_refl _⟩
      rw [← hget g, get_default]
    · rintro ⟨gs, kept, hgs, hempty, hle⟩ g
      have hcovers : Field.all <+: gs :=
        prefix_of_length_le (List.prefix_refl _) (hgs ▸ List.prefix_append _ _) hle
      rw [get_default, hempty g (hcovers.subset (mem_all g))]

end HostName

end Reading

/-! ## Taking off the ending -/

section Ending

variable {n : HostName} {pat : List Char}

namespace HostName

/-- There is a `host=` to be found. -/
theorem beforeHost_body : ∃ a, beforeHost n.body = some a := by
  refine Option.ne_none_iff_exists'.mp fun hnone => ?_
  obtain ⟨rest, hrest⟩ : ∃ rest, n.fields = n.names .host ++ rest := by
    refine ⟨n.values.host ++ ([','] ++ [','].intercalate
      ([Field.key, .api, .relay].map n.piece) ++ if n.comma then [','] else []), ?_⟩
    unfold fields Field.all
    rw [List.map_cons, List.map_cons, List.intercalate_cons_cons]
    unfold piece
    simp [get]
  have hno := beforeFirst_eq_none.mp hnone n.start n.fields rfl
  refine of_decide_eq_false hno ?_
  rw [hrest, List.map_append, n.names_names .host]
  exact List.prefix_append _ _

/-- A comma at the end is no ending. -/
theorem not_ending_of_comma (h : n.comma = true) (hpat : pat ≠ []) (hno : ',' ∉ pat) :
    ¬ pat <:+ n.body.map Char.toLower := by
  intro hsuf
  have hbody : n.body.map Char.toLower =
      (n.start ++ [','].intercalate (Field.all.map n.piece)).map Char.toLower ++ ',' :: [] := by
    unfold body fields
    rw [if_pos h, ← List.append_assoc, List.map_append]
    rfl
  rw [hbody] at hsuf
  exact hpat (List.suffix_nil.mp (suffix_of_not_mem hno hsuf))

variable (n) in
/-- What is before the last value. -/
def front : List Char := n.start ++ n.upTo [.host, .key, .api] ++ n.names .relay

theorem body_eq (h : n.comma = false) : n.body = n.front ++ n.values.relay := by
  have hall : Field.all.map n.piece = [Field.host, .key, .api].map n.piece ++ [n.piece .relay] :=
    rfl
  unfold body fields front upTo
  rw [h, if_neg Bool.false_ne_true, List.append_nil, hall, intercalate_concat, List.flatMap_map]
  unfold piece
  simp [get]

/-- The ending of the text is one of the last value. -/
theorem ending_relay (h : n.comma = false) (hno : '=' ∉ pat)
    (hsuf : pat <:+ n.body.map Char.toLower) : pat <:+ n.values.relay.map Char.toLower := by
  have hname : (n.names .relay).map Char.toLower = "relay".toList ++ ['='] := n.names_names .relay
  rw [body_eq h, List.map_append] at hsuf
  unfold front at hsuf
  rw [List.map_append, hname, List.append_assoc, List.append_assoc, ← List.append_assoc,
    List.singleton_append] at hsuf
  exact suffix_of_not_mem hno hsuf

theorem ending_cases : n.ending = [] ∨ n.ending.map Char.toLower = ".exe".toList ∨
    n.ending = ".exe.exe".toList := by
  have hall : ∀ x ∈ [[], ".exe".toList, ".EXE".toList, ".exe.exe".toList],
      x = [] ∨ x.map Char.toLower = ".exe".toList ∨ x = ".exe.exe".toList := by decide
  exact hall n.ending n.ending_mem

theorem stem_text (h : n.ending = ".exe.exe".toList ∨ ¬ ".exe".toList <:+ n.body.map Char.toLower) :
    stem n.text = n.body := by
  unfold text
  rcases ending_cases (n := n) with hnil | hone | htwo
  · rcases h with htwo | hno
    · rw [hnil] at htwo
      cases htwo
    · rw [hnil, List.append_nil, stem_none hno]
  · rcases h with htwo | hno
    · rw [htwo, stem_double]
    · exact stem_whole hone hno
  · rw [htwo, stem_double]

/-- Otherwise some of the last value is taken off as well. -/
theorem stem_text_short (h : n.ending ≠ ".exe.exe".toList)
    (hsuf : ".exe".toList <:+ n.body.map Char.toLower) :
    ∃ v, v.length < n.values.relay.length ∧ ',' ∉ v ∧ stem n.text = n.front ++ v := by
  have hcomma : n.comma = false := by
    refine Bool.eq_false_iff.mpr fun hcomma => ?_
    exact not_ending_of_comma hcomma (by decide) (by decide) hsuf
  have htake (k : Nat) (hk : 0 < k) (hle : k ≤ n.values.relay.length)
      (hstem : stem n.text = n.body.take (n.body.length - k)) :
      ∃ v, v.length < n.values.relay.length ∧ ',' ∉ v ∧ stem n.text = n.front ++ v := by
    refine ⟨n.values.relay.take (n.values.relay.length - k), ?_, fun hmem => ?_, ?_⟩
    · rw [List.length_take]
      omega
    · exact n.comma_values .relay (List.mem_of_mem_take hmem)
    · rw [hstem, body_eq hcomma, List.length_append, Nat.add_sub_assoc hle,
        List.take_length_add_append]
  have hfour : 4 ≤ n.values.relay.length := by
    have hle := (ending_relay hcomma (by decide) hsuf).length_le
    rw [List.length_map] at hle
    exact hle
  rcases ending_cases (n := n) with hnil | hone | htwo
  · have htext : n.text = n.body := by
      unfold text
      rw [hnil, List.append_nil]
    rcases stem_short hsuf with ⟨hstem, hdouble⟩ | hstem
    · have height := (ending_relay hcomma (by decide) hdouble).length_le
      rw [List.length_map] at height
      exact htake 8 (by decide) height (htext.symm ▸ hstem)
    · exact htake 4 (by decide) hfour (htext.symm ▸ hstem)
  · exact htake 4 (by decide) hfour (stem_shorter hone hsuf)
  · exact absurd htwo h

end HostName

end Ending

/-! ## When a name is read as it was meant -/

section Main

variable {final : List Char → List Char → Bool} {lib : Libraries} {n : HostName} {s : List Char}

/-- Nothing but the cut may panic. -/
theorem no_panic_iff : getCustomServerFromString final lib s ≠ .panic ↔ Sliceable (stem s) := by
  unfold Sliceable
  cases hfind : beforeHost (stem s) with
  | none =>
    rw [outcome_pieces hfind]
    refine iff_of_true ?_ nofun
    split <;> exact nofun
  | some a =>
    rw [outcome_host hfind]
    simp only [Option.mem_def, Option.some.injEq, forall_eq']
    cases hslice : sliceFrom (lowerLen a) (stem s) with
    | none =>
      refine iff_of_false (fun h => h rfl) ?_
      rintro ⟨before, rest, heq, hlen⟩
      rw [sliceFrom_eq_some.mpr ⟨before, heq, hlen⟩] at hslice
      cases hslice
    | some rest =>
      obtain ⟨before, heq, hlen⟩ := sliceFrom_eq_some.mp hslice
      exact iff_of_true nofun ⟨before, rest, heq, hlen⟩

theorem ok_iff {a : List Char} {c : CustomServer} (h : beforeHost (stem s) = some a) :
    getCustomServerFromString final lib s = .ok c ↔
      ∃ before rest, stem s = before ++ rest ∧ byteLen before = lowerLen a ∧
        readFields final rest = c := by
  rw [outcome_host h]
  cases hslice : sliceFrom (lowerLen a) (stem s) with
  | none =>
    refine iff_of_false nofun ?_
    rintro ⟨before, rest, heq, hlen, -⟩
    rw [sliceFrom_eq_some.mpr ⟨before, heq, hlen⟩] at hslice
    cases hslice
  | some rest =>
    dsimp only
    rw [Outcome.ok.injEq]
    constructor
    · intro hread
      obtain ⟨before, heq, hlen⟩ := sliceFrom_eq_some.mp hslice
      exact ⟨before, rest, heq, hlen, hread⟩
    · rintro ⟨before, rest', heq, hlen, hread⟩
      rw [sliceFrom_eq_some.mpr ⟨before, heq, hlen⟩] at hslice
      cases hslice
      exact hread

namespace HostName

variable (final) in
/-- Wherever the body is cut, the relay is not longer than it was. -/
theorem relay_le {before rest : List Char} (h : n.body = before ++ rest) :
    (readFields final rest).relay.length ≤ n.values.relay.length := by
  show ((readFields final rest).get .relay).length ≤ (n.values.get .relay).length
  rcases List.append_eq_append_iff.mp h with ⟨lost, -, hfields⟩ | ⟨left, -, rfl⟩
  · rcases cut_fields final hfields with
      ⟨fs1, f, fs2, q1, q2, hall, hf, -, hread⟩ | ⟨-, hread⟩
    · rw [hread, get_foldl_pieces]
      split
      · exact le_refl _
      · next hrelay =>
          have hlast : f = .relay := by
            have hend := congrArg List.getLast? hall
            rw [List.getLast?_append_of_ne_nil _ (List.cons_ne_nil _ _)] at hend
            cases fs2 with
            | nil => exact (Option.some.inj hend).symm
            | cons g fs2 =>
              rw [List.getLast?_cons_cons] at hend
              exact absurd (List.mem_of_getLast? hend.symm) hrelay
          have hlen := congrArg List.length hf
          have hle : ((readField final {} q2).get .relay).length ≤
              q2.length - Field.relay.text.length := length_get_readField
          rw [length_piece, List.length_append, hlast] at hlen
          omega
    · rw [hread]
      exact Nat.zero_le _
  · obtain ⟨init, last, hsplit⟩ := (List.eq_nil_or_concat (left.splitOn ',')).resolve_left
      (List.splitOn_ne_nil _ _)
    rw [List.concat_eq_append] at hsplit
    rw [readFields_left hsplit, get_foldl_pieces, if_pos (by decide)]

end HostName

end Main

/-- A name is safe when the cut is at a character, and is read as it was meant when it loses no more
    than its ending and text that says nothing. -/
theorem host_names_iff (final : List Char → List Char → Bool) (lib : Libraries) :
    (∀ s, getCustomServerFromString final lib s ≠ .panic ↔ Sliceable (stem s)) ∧
      ∀ n : HostName, getCustomServerFromString final lib n.text = .ok n.values ↔ n.Readable := by
  refine ⟨fun s => no_panic_iff, fun n => ?_⟩
  by_cases hend : n.ending = ".exe.exe".toList ∨ ¬ ".exe".toList <:+ n.body.map Char.toLower
  · have hstem := HostName.stem_text hend
    obtain ⟨a, ha⟩ := n.beforeHost_body
    rw [ok_iff (hstem.symm ▸ ha), hstem]
    constructor
    · rintro ⟨before, rest, heq, hlen, hread⟩
      refine ⟨hend, before, rest, heq, fun b hb => ?_, ?_⟩
      · cases ha.symm.trans hb
        exact hlen
      · rcases List.append_eq_append_iff.mp heq with ⟨lost, hbefore, hfields⟩ | ⟨left, hstart, rfl⟩
        · exact .inr ⟨lost, hbefore, (HostName.unharmed_iff hfields).mp hread⟩
        · exact .inl ⟨left, hstart, HostName.harmless_iff.mp hread⟩
    · rintro ⟨-, before, rest, heq, hlen, hcut⟩
      refine ⟨before, rest, heq, hlen a ha, ?_⟩
      rcases hcut with ⟨left, hstart, hleft⟩ | ⟨lost, rfl, hlost⟩
      · have hrest : rest = left ++ n.fields := by
          have hboth : before ++ rest = before ++ (left ++ n.fields) := by
            rw [← heq, ← List.append_assoc, ← hstart]
            rfl
          exact List.append_cancel_left hboth
        rw [hrest]
        exact HostName.harmless_iff.mpr hleft
      · have hfields : n.fields = lost ++ rest := by
          unfold HostName.body at heq
          rw [List.append_assoc] at heq
          exact List.append_cancel_left heq
        exact (HostName.unharmed_iff hfields).mpr hlost
  · obtain ⟨hdouble, hsuf⟩ := not_or.mp hend
    refine iff_of_false (fun hok => ?_) fun h => hend h.ending
    obtain ⟨v, hv, hcomma, hstem⟩ := HostName.stem_text_short hdouble (not_not.mp hsuf)
    -- The name with the shorter value is what is read.
    let m : HostName := { n with
      values := { n.values with relay := v }
      comma := false
      comma_values := by
        intro f
        cases f with
        | relay => exact hcomma
        | host => exact n.comma_values .host
        | key => exact n.comma_values .key
        | api => exact n.comma_values .api }
    have hm : stem n.text = m.body := by
      rw [hstem, HostName.body_eq (n := m) rfl]
      rfl
    obtain ⟨a, ha⟩ := m.beforeHost_body
    obtain ⟨before, rest, heq, -, hread⟩ := (ok_iff (hm.symm ▸ ha)).mp hok
    have hle := HostName.relay_le final (hm.symm.trans heq)
    rw [hread] at hle
    exact absurd hv (Nat.not_lt.mpr hle)

/-- A Turkish `İ` has more bytes in lower case. -/
def turkish : HostName where
  start := "İndir-".toList
  names := Field.text
  values := {
    host := "a.b".toList
    key := "k".toList }
  comma := false
  ending := ".exe".toList
  names_names := by decide
  comma_values := by decide
  ending_mem := by decide

/-- The names below do not come to the libraries. -/
def noLibraries : Libraries := ⟨fun _ => none, fun _ => none, fun _ _ => none⟩

/-- One name loses its host, another panics. -/
theorem host_names_misread :
    ¬ "host=".toList <:+: turkish.start ∧
      getCustomServerFromString (fun _ _ => false) noLibraries turkish.text =
        .ok { turkish.values with host := [] } ∧
      getCustomServerFromString (fun _ _ => false) noLibraries "ẞhost=a.b.exe".toList =
        .panic := by
  refine ⟨?_, ?_, ?_⟩ <;> decide +kernel

end CustomServer

end LuodaRemote
