/-
  The files of the peers (`PeerConfig::path` and `PeerConfig::get_vec_id_modified_time_path` of
  `libs/hbb_common/src/config.rs`).

  The file of a peer has its id for a name, or the id in Base64 behind `base64_` if a character of
  it may not stand in a name. The list of peers reads the ids back from the names. This goes wrong
  for two kinds of ids: Base64 has slashes, which lead into another directory or are dropped, and an
  id that starts with the mark is read as if it were encoded. `peer_files_iff` says that nothing
  else does.

  A path is the list of names that it leads through. Names are lists of characters.
-/
import LuodaRemote.Lib.Base64
import LuodaRemote.Lib.Slice
import LuodaRemote.Lib.Text
import LuodaRemote.Lib.Utf8

namespace LuodaRemote
open Lib

namespace PeerFiles

/-! ## Paths -/

abbrev Path := List (List Char)

def isSeparator (windows : Bool) (c : Char) : Bool := c = '/' || windows && c = '\\'

/-- The names that a relative text adds to a path. -/
def components (windows : Bool) (p : List Char) : Path :=
  (p.splitOnP (isSeparator windows)).filter fun n => n ≠ [] && n ≠ ['.']

def fileName (p : Path) : Option (List Char) := p.getLast?.filter (· ≠ ['.', '.'])

/-- The stem and the extension of a name. -/
def rsplitFileAtDot (name : List Char) : List Char × Option (List Char) :=
  match rsplitOnce '.' name with
  | some (before, after) => if before = [] then (name, none) else (before, some after)
  | none => (name, none)

def fileStem (p : Path) : Option (List Char) := (fileName p).map fun n => (rsplitFileAtDot n).1

def extension (p : Path) : Option (List Char) := (fileName p).bind fun n => (rsplitFileAtDot n).2

def parent (p : Path) : Option Path := if p = [] then none else some p.dropLast

/-- `Path::with_extension`. -/
def replaceExtension (ext : List Char) (p : Path) : Path :=
  match fileStem p with
  | none => p
  | some stem => p.dropLast ++ [if ext = [] then stem else stem ++ '.' :: ext]

/-! ## The files of the configuration -/

/-- `Config::with_extension`. -/
def withExtension (p : Path) : Path :=
  match extension p with
  | some ext => replaceExtension (ext ++ ".toml".toList) p
  | none => replaceExtension "toml".toList p

variable (windows : Bool) (dir : Option Path)

/-- `Config::path`, where `dir` is the directory of the configuration, if one is found. -/
def configPath (p : Path) : Path :=
  match dir with
  | some dir => dir ++ p
  | none => []

def peers : List Char := "peers".toList

def mark : List Char := "base64_".toList

/-- `.*[<>:/\\|\?\*].*` is found in the id. -/
def isForbidden (id : String) : Bool := id.toList.any fun c => c ∈ "<>:/\\|?*".toList

def encoded (id : String) : List Char := Base64.encode id.toUTF8.toList

def idEncoded (id : String) : List Char :=
  if isForbidden id then mark ++ encoded id else id.toList

/-- `PeerConfig::path`. -/
def path (id : String) : Path :=
  withExtension (configPath dir (peers :: components windows (idEncoded id)))

/-- The id of a stem, as `get_vec_id_modified_time_path` reads it. -/
def decodeStem (id : List Char) : String :=
  if mark.isPrefixOf id && byteLen id ≠ 7 then
    fromUtf8Lossy ((Base64.decode (id.drop 7)).getD [])
  else String.ofList id

def decodeId (p : Path) : String := decodeStem ((fileStem p).getD [])

/-- A path that leads to the peers and back to the id. -/
structure Addressed (id : String) : Prop where
  child : parent (path windows dir id) = some (configPath dir [peers])
  toml : extension (path windows dir id) = some "toml".toList
  decoded : decodeId (path windows dir id) = id

/-- An id that can be a name. -/
structure Proper (id : String) : Prop where
  ne_empty : id ≠ ""
  ne_dot : id ≠ "."
  ne_dots : id ≠ ".."

/-- An id whose name says what it is. -/
def Reversible (id : String) : Prop :=
  if isForbidden id then '/' ∉ encoded id else ¬ (mark <+: id.toList ∧ id ≠ "base64_")

instance (id : String) : Decidable (Reversible id) := by
  unfold Reversible
  infer_instance

/-! ## Names with an extension -/

section Names

variable {name ext : List Char} {p : Path}

theorem rsplit_toml (hname : name ≠ []) :
    rsplitFileAtDot (name ++ ".toml".toList) = (name, some "toml".toList) := by
  have hsplit : rsplitOnce '.' (name ++ '.' :: "toml".toList) = some (name, "toml".toList) :=
    rsplitOnce_append (by decide)
  have htoml : ".toml".toList = '.' :: "toml".toList := by decide
  rw [rsplitFileAtDot, htoml, hsplit]
  exact if_neg hname

theorem fileName_concat (hname : name ≠ ['.', '.']) : fileName (p ++ [name]) = some name := by
  rw [fileName, List.getLast?_concat, Option.filter_some, if_pos (by simpa using hname)]

theorem toml_ne_dots : name ++ ".toml".toList ≠ ['.', '.'] := by
  intro h
  have hlen := congrArg List.length h
  have htoml : ".toml".toList.length = 5 := by decide
  rw [List.length_append, htoml] at hlen
  simp only [List.length_cons, List.length_nil] at hlen
  omega

/-- Whatever dots the name has, the extension goes to its end. -/
theorem withExtension_concat (hdots : name ≠ ['.', '.']) :
    withExtension (p ++ [name]) = p ++ [name ++ ".toml".toList] := by
  have htoml : ".toml".toList = '.' :: "toml".toList := by decide
  have hext : extension (p ++ [name]) = (rsplitFileAtDot name).2 := by
    rw [extension, fileName_concat hdots, Option.bind_some]
  have hstem : fileStem (p ++ [name]) = some (rsplitFileAtDot name).1 := by
    rw [fileStem, fileName_concat hdots, Option.map_some]
  have hplain (h : rsplitFileAtDot name = (name, none)) :
      withExtension (p ++ [name]) = p ++ [name ++ ".toml".toList] := by
    rw [withExtension, hext, h]
    dsimp only
    rw [replaceExtension, hstem, h, List.dropLast_concat, htoml]
    rfl
  cases hsplit : rsplitOnce '.' name with
  | none =>
    apply hplain
    rw [rsplitFileAtDot, hsplit]
  | some parts =>
    obtain ⟨before, after⟩ := parts
    by_cases hbefore : before = []
    · apply hplain
      rw [rsplitFileAtDot, hsplit]
      exact if_pos hbefore
    · have hparts : rsplitFileAtDot name = (before, some after) := by
        rw [rsplitFileAtDot, hsplit]
        exact if_neg hbefore
      have hname := (rsplitOnce_some hsplit).1
      rw [withExtension, hext, hparts]
      dsimp only
      have hne : after ++ ".toml".toList ≠ [] :=
        List.append_ne_nil_of_right_ne_nil after (by decide)
      rw [replaceExtension, hstem, hparts, List.dropLast_concat]
      dsimp only
      rw [if_neg hne, hname, List.append_assoc]
      rfl

end Names

/-! ## The names of an id -/

section Components

variable {windows : Bool} {dir : Option Path} {d init : Path} {name text : List Char} {id : String}

theorem addressed_none : ¬ Addressed windows none id := by
  intro h
  have hparent := h.child
  have hpath : path windows none id = [] := rfl
  rw [hpath] at hparent
  cases hparent

theorem path_of_components (hc : components windows (idEncoded id) = init ++ [name])
    (hdots : name ≠ ['.', '.']) :
    path windows (some d) id = (d ++ peers :: init) ++ [name ++ ".toml".toList] := by
  have happend : d ++ peers :: (init ++ [name]) = (d ++ peers :: init) ++ [name] := by simp
  rw [path, hc, configPath, happend, withExtension_concat hdots]

/-- The path is right if the id makes one name, and that gives the id. -/
theorem addressed_iff (hc : components windows (idEncoded id) = init ++ [name])
    (hdots : name ≠ ['.', '.']) (hne : name ≠ []) :
    Addressed windows (some d) id ↔ init = [] ∧ decodeStem name = id := by
  have hpath : path windows (some d) id = (d ++ peers :: init) ++ [name ++ ".toml".toList] :=
    path_of_components hc hdots
  have hparent : parent (path windows (some d) id) = some (d ++ peers :: init) := by
    rw [hpath, parent, if_neg (List.append_ne_nil_of_right_ne_nil _ (List.cons_ne_nil _ _)),
      List.dropLast_concat]
  have hext : extension (path windows (some d) id) = some "toml".toList := by
    rw [hpath, extension, fileName_concat toml_ne_dots, Option.bind_some, rsplit_toml hne]
  have hstem : decodeId (path windows (some d) id) = decodeStem name := by
    rw [hpath, decodeId, fileStem, fileName_concat toml_ne_dots, Option.map_some, rsplit_toml hne]
    rfl
  constructor
  · intro h
    have hchild := h.child
    rw [hparent, configPath, Option.some.injEq, List.append_cancel_left_eq] at hchild
    exact ⟨(List.cons_eq_cons.mp hchild).2, hstem ▸ h.decoded⟩
  · rintro ⟨rfl, hdecoded⟩
    exact ⟨hparent, hext, hstem.trans hdecoded⟩

theorem components_of_plain (hsep : ∀ c ∈ text, isSeparator windows c = false) (hne : text ≠ [])
    (hdot : text ≠ ['.']) : components windows text = [text] := by
  rw [components, List.splitOnP_eq_singleton hsep, List.filter_cons_of_pos (by simp [hne, hdot])]
  rfl

theorem components_slash (hsep : ∀ c ∈ name, isSeparator windows c = false) (hne : name ≠ [])
    (hdot : name ≠ ['.']) (rest : List Char) :
    components windows (name ++ '/' :: rest) = name :: components windows rest := by
  have hslash : isSeparator windows '/' = true := rfl
  rw [components, List.splitOnP_append_cons_of_forall_mem hsep '/' hslash,
    List.filter_cons_of_pos (by simp [hne, hdot])]
  rfl

/-- A text that adds no names is nothing but slashes. -/
theorem slash_of_components_nil (hdot : '.' ∉ text) (hback : '\\' ∉ text)
    (h : components windows text = []) : ∀ c ∈ text, c = '/' := by
  induction text with
  | nil => exact nofun
  | cons c text ih =>
    rw [List.mem_cons, not_or] at hdot hback
    obtain ⟨piece, pieces, hpieces⟩ :=
      List.exists_cons_of_ne_nil (List.splitOnP_ne_nil (isSeparator windows) text)
    have hslash : c = '/' := by
      by_contra hc
      have hsep : isSeparator windows c = false := by
        simp [isSeparator, hc, Ne.symm hback.1]
      have hpiece : c :: piece ∈ components windows (c :: text) := by
        rw [components, List.splitOnP_cons_eq_if_modifyHead, if_neg (by simp [hsep]), hpieces,
          List.modifyHead_cons]
        exact List.mem_filter.mpr ⟨List.mem_cons_self, by simp [Ne.symm hdot.1]⟩
      rw [h] at hpiece
      exact List.not_mem_nil hpiece
    have hsep : isSeparator windows c = true := by rw [hslash]; rfl
    rw [components, List.splitOnP_cons_eq_if_modifyHead, if_pos hsep,
      List.filter_cons_of_neg (by simp)] at h
    exact List.forall_mem_cons.mpr ⟨hslash, ih hdot.2 hback.2 h⟩

end Components

/-! ## Encoded ids -/

section Encoded

variable {windows : Bool} {d : Path} {id : String} {e : List Char}

theorem not_mem_encoded {c : Char} (hpad : c ≠ '=') (hchar : ∀ n : Fin 64, c ≠ Base64.char n) :
    c ∉ encoded id := by
  intro hmem
  rcases Base64.mem_encode hmem with h | ⟨n, hn, h⟩
  · exact hpad h
  · exact hchar ⟨n, hn⟩ h

theorem dot_not_mem_encoded : '.' ∉ encoded id := not_mem_encoded (by decide) (by decide)

theorem backslash_not_mem_encoded : '\\' ∉ encoded id := not_mem_encoded (by decide) (by decide)

theorem plain_mark (he : e.Subset (encoded id)) (hslash : '/' ∉ e) :
    (∀ c ∈ mark ++ e, isSeparator windows c = false) ∧ '.' ∉ mark ++ e := by
  constructor
  · intro c hc
    have hne : c ≠ '/' ∧ c ≠ '\\' := by
      rcases List.mem_append.mp hc with hc | hc
      · have hmark : (mark.all fun c => c ≠ '/' && c ≠ '\\') = true := by decide
        simpa using List.all_eq_true.mp hmark c hc
      · refine ⟨fun h => hslash (h ▸ hc), fun h => ?_⟩
        exact @backslash_not_mem_encoded id (h ▸ he hc)
    simp [isSeparator, hne.1, hne.2]
  · intro hdot
    rcases List.mem_append.mp hdot with hdot | hdot
    · revert hdot
      decide
    · exact dot_not_mem_encoded (he hdot)

theorem mark_ne (e : List Char) : mark ++ e ≠ [] ∧ mark ++ e ≠ ['.'] ∧ mark ++ e ≠ ['.', '.'] := by
  have hmark : mark = 'b' :: "ase64_".toList := by decide
  rw [hmark]
  refine ⟨List.cons_ne_nil _ _, fun h => ?_, fun h => ?_⟩
  · exact absurd (List.head_eq_of_cons_eq h) (by decide)
  · exact absurd (List.head_eq_of_cons_eq h) (by decide)

theorem byteLen_pos (he : e ≠ []) : 0 < byteLen e := by
  obtain ⟨c, e, rfl⟩ := List.exists_cons_of_ne_nil he
  have hsize := c.utf8Size_pos
  rw [byteLen_cons]
  omega

theorem decodeStem_mark (he : e ≠ []) :
    decodeStem (mark ++ e) = fromUtf8Lossy ((Base64.decode e).getD []) := by
  have hpos := byteLen_pos he
  have hseven : byteLen mark = 7 := by decide
  have hprefix : mark.isPrefixOf (mark ++ e) = true := List.isPrefixOf_iff_prefix.mpr ⟨e, rfl⟩
  have hlen : byteLen (mark ++ e) ≠ 7 := by
    rw [byteLen_append, hseven]
    omega
  rw [decodeStem, hprefix, if_pos (by simpa using hlen)]
  rfl

theorem utf8_ne_nil (hne : id ≠ "") : id.toUTF8.toList ≠ [] := by
  have hempty : "".toUTF8.toList = [] := by rw [utf8_eq_flatMap]; rfl
  exact fun h => hne (utf8_injective (h.trans hempty.symm))

theorem encoded_ne_nil (hne : id ≠ "") : encoded id ≠ [] := Base64.encode_ne_nil (utf8_ne_nil hne)

theorem addressed_of_no_slash (hf : isForbidden id = true) (hne : id ≠ "")
    (hslash : '/' ∉ encoded id) : Addressed windows (some d) id := by
  have hid : idEncoded id = mark ++ encoded id := if_pos hf
  obtain ⟨hnil, hdot, hdots⟩ := mark_ne (encoded id)
  have hsep := (@plain_mark windows _ _ (List.Subset.refl _) hslash).1
  have hc : components windows (idEncoded id) = [] ++ [mark ++ encoded id] := by
    rw [hid]
    exact components_of_plain hsep hnil hdot
  refine (addressed_iff hc hdots hnil).mpr ⟨rfl, ?_⟩
  rw [decodeStem_mark (encoded_ne_nil hne), encoded, Base64.decode_encode, Option.getD_some,
    fromUtf8Lossy_utf8]

/-- The first slash ends the name or is dropped, and what is left cannot be decoded. -/
theorem not_addressed_of_slash (hf : isForbidden id = true) (hne : id ≠ "")
    (hslash : '/' ∈ encoded id) : ¬ Addressed windows (some d) id := by
  obtain ⟨e, rest, heq, he⟩ := List.eq_append_cons_of_mem hslash
  have hsub : e.Subset (encoded id) := fun c hc => by
    rw [heq]
    exact List.mem_append_left _ hc
  have hrest : ∀ c ∈ rest, c ∈ encoded id := fun c hc => by
    rw [heq]
    exact List.mem_append_right _ (List.mem_cons_of_mem _ hc)
  have hdotRest : '.' ∉ rest := fun h => dot_not_mem_encoded (hrest _ h)
  obtain ⟨hnil, hdot, hdots⟩ := mark_ne e
  have hsep := (@plain_mark windows _ _ hsub he).1
  have hc : components windows (idEncoded id) = (mark ++ e) :: components windows rest := by
    have hid : idEncoded id = (mark ++ e) ++ '/' :: rest := by
      rw [idEncoded, if_pos hf, heq, List.append_assoc]
    rw [hid, components_slash hsep hnil hdot]
  rcases (components windows rest).eq_nil_or_concat with hempty | ⟨init, name, hlast⟩
  · -- nothing comes behind the slash: it is the last character, and the groups are incomplete
    have hslashes := slash_of_components_nil hdotRest
      (fun h => backslash_not_mem_encoded (hrest _ h)) hempty
    have hshort : rest = [] := by
      obtain ⟨n, hn⟩ : ∃ n, rest = List.replicate n '/' :=
        ⟨rest.length, List.eq_replicate_of_mem hslashes⟩
      cases n with
      | zero => exact hn
      | succ n =>
        have hends : encoded id = (e ++ List.replicate n '/') ++ ['/', '/'] := by
          have hrep : '/' :: List.replicate (n + 1) '/' = List.replicate n '/' ++ ['/', '/'] :=
            List.replicate_add n 2 '/'
          rw [heq, hn, hrep, List.append_assoc]
        exact absurd (lt_of_mem_utf8 (Base64.mem_of_two_slashes hends)) (by decide)
    rw [hempty] at hc
    intro h
    have hdecoded := ((@addressed_iff windows d [] (mark ++ e) id hc hdots hnil).mp h).2
    have hfour := Base64.length_encode id.toUTF8.toList
    rw [← encoded, heq, hshort, List.length_append, List.length_singleton] at hfour
    have hfail : Base64.decode e = none := by
      by_contra hsome
      obtain ⟨bs, hbs⟩ := Option.ne_none_iff_exists'.mp hsome
      have hgroups := (Base64.length_of_decode hbs).1
      omega
    have hene : e ≠ [] := fun h => by
      rw [h] at hfour
      cases hfour
    rw [decodeStem_mark hene, hfail] at hdecoded
    exact hne hdecoded.symm
  · rw [hlast, List.concat_eq_append, ← List.cons_append] at hc
    have hname : name ∈ components windows rest := by
      rw [hlast]
      simp
    obtain ⟨hpiece, hkeep⟩ := List.mem_filter.mp hname
    have hnameNil : name ≠ [] := by
      rw [Bool.and_eq_true, decide_eq_true_iff] at hkeep
      exact hkeep.1
    have hnameDots : name ≠ ['.', '.'] := fun h =>
      hdotRest (mem_of_mem_splitOnP hpiece (h ▸ List.mem_cons_self))
    intro h
    exact List.cons_ne_nil _ _ ((addressed_iff hc hnameDots hnameNil).mp h).1

end Encoded

/-! ## Every id -/

section Ids

variable {windows : Bool} {dir : Option Path} {d : Path} {id a b : String} {e : List Char}

/-- What is read as if it were encoded is shorter than it was. -/
theorem decodeStem_ne (he : e ≠ []) : (decodeStem (mark ++ e)).toList ≠ mark ++ e := by
  intro h
  have hlen : ((Base64.decode e).getD []).length ≤ e.length := by
    cases hdecode : Base64.decode e with
    | none => exact Nat.zero_le _
    | some bs => exact (Base64.length_of_decode hdecode).2
  have hshort := length_lossyChars ((Base64.decode e).getD []).length ((Base64.decode e).getD [])
  have hmark : mark.length = 7 := by decide
  rw [decodeStem_mark he, fromUtf8Lossy, String.toList_ofList] at h
  rw [h, List.length_append] at hshort
  omega

theorem decodeStem_plain_iff :
    decodeStem id.toList = id ↔ ¬ (mark <+: id.toList ∧ id ≠ "base64_") := by
  by_cases hprefix : mark <+: id.toList
  · obtain ⟨e, he⟩ := hprefix
    have hwhole : id = "base64_" ↔ e = [] := by
      rw [← String.toList_inj, ← he]
      exact List.append_right_eq_self
    rw [and_iff_right ⟨e, he⟩, not_not, hwhole, ← he]
    constructor
    · intro h
      by_contra hne
      refine decodeStem_ne hne ?_
      rw [h, he]
    · rintro rfl
      rw [List.append_nil] at he ⊢
      rw [← String.toList_inj, ← he]
      decide
  · refine iff_of_true ?_ fun h => hprefix h.1
    have hno : mark.isPrefixOf id.toList = false := by
      rw [← Bool.not_eq_true, List.isPrefixOf_iff_prefix]
      exact hprefix
    rw [decodeStem, hno]
    exact String.ofList_toList

theorem addressed_some_iff (hid : Proper id) : Addressed windows (some d) id ↔ Reversible id := by
  cases hf : isForbidden id with
  | true =>
    rw [Reversible, if_pos hf]
    constructor
    · exact fun h hslash => not_addressed_of_slash hf hid.ne_empty hslash h
    · exact addressed_of_no_slash hf hid.ne_empty
  | false =>
    have hplain : idEncoded id = id.toList := by
      rw [idEncoded, hf]
      rfl
    have hsep : ∀ c ∈ id.toList, isSeparator windows c = false := by
      intro c hc
      have hc : c ∉ "<>:/\\|?*".toList := by simpa using List.any_eq_false.mp hf c hc
      have hslash : c ≠ '/' := fun h => hc (by rw [h]; decide)
      have hback : c ≠ '\\' := fun h => hc (by rw [h]; decide)
      simp [isSeparator, hslash, hback]
    have hnil : id.toList ≠ [] := fun h => hid.ne_empty (String.toList_inj.mp h)
    have hdot : id.toList ≠ ['.'] := fun h => hid.ne_dot (String.toList_inj.mp h)
    have hdots : id.toList ≠ ['.', '.'] := fun h => hid.ne_dots (String.toList_inj.mp h)
    have hc : components windows (idEncoded id) = [] ++ [id.toList] := by
      rw [hplain]
      exact components_of_plain hsep hnil hdot
    rw [addressed_iff hc hdots hnil, Reversible, hf, decodeStem_plain_iff]
    exact and_iff_right rfl

/-- Two peers have files of their own in the directory of the peers, from which their ids are read
    back, precisely if there is such a directory and both ids are reversible. -/
theorem peer_files_iff (windows : Bool) (dir : Option Path) (ha : Proper a) (hb : Proper b) :
    Addressed windows dir a ∧ Addressed windows dir b ∧
        (a ≠ b → path windows dir a ≠ path windows dir b) ↔
      dir.isSome = true ∧ Reversible a ∧ Reversible b := by
  cases dir with
  | none => exact iff_of_false (fun h => addressed_none h.1) (fun h => Bool.false_ne_true h.1)
  | some d =>
    rw [addressed_some_iff ha, addressed_some_iff hb, and_iff_right (Option.isSome_some)]
    constructor
    · exact fun h => ⟨h.1, h.2.1⟩
    · rintro ⟨hra, hrb⟩
      refine ⟨hra, hrb, fun hne heq => hne ?_⟩
      have hda := ((@addressed_some_iff windows d a ha).mpr hra).decoded
      have hdb := ((@addressed_some_iff windows d b hb).mpr hrb).decoded
      rw [← hda, heq, hdb]

end Ids

theorem reversible_number : Reversible "123456789" := by decide +kernel

theorem reversible_address : Reversible "10.0.0.1:21118" := by
  have hbytes : encoded "10.0.0.1:21118" =
      Base64.encode ("10.0.0.1:21118".toList.flatMap String.utf8EncodeChar) := by
    rw [encoded, utf8_eq_flatMap]
  rw [Reversible, hbytes]
  decide +kernel

theorem peer_files_of_address :
    Addressed false (some []) "123456789" ∧ Addressed false (some []) "10.0.0.1:21118" ∧
      ("123456789" ≠ "10.0.0.1:21118" →
        path false (some []) "123456789" ≠ path false (some []) "10.0.0.1:21118") :=
  (peer_files_iff false (some []) ⟨by decide, by decide, by decide⟩
    ⟨by decide, by decide, by decide⟩).mpr ⟨rfl, reversible_number, reversible_address⟩

/-- An id that looks as if it were encoded has the file of another one. -/
theorem marked_id_collides :
    ¬ ∀ (windows : Bool) (dir : Option Path) (a b : String), Proper a → Proper b →
      Addressed windows dir a ∧ Addressed windows dir b ∧
        (a ≠ b → path windows dir a ≠ path windows dir b) := by
  intro hall
  obtain ⟨-, -, hne⟩ := hall false (some []) "ab:" "base64_YWI6"
    ⟨by decide, by decide, by decide⟩ ⟨by decide, by decide, by decide⟩
  refine hne (by decide) ?_
  have hbytes : encoded "ab:" = Base64.encode ("ab:".toList.flatMap String.utf8EncodeChar) := by
    rw [encoded, utf8_eq_flatMap]
  have hid : idEncoded "ab:" = idEncoded "base64_YWI6" := by
    rw [idEncoded, hbytes]
    decide +kernel
  rw [path, path, hid]

end PeerFiles
end LuodaRemote
