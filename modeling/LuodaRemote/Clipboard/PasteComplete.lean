/-
  A paste that is answered as it should be. In a tree where nothing is in the way, with good
  responses to every request, all files of the list arrive under fresh names with their content
  and what was there before stays as it is. Whether the paste counts as complete is another
  matter: the total has the sizes of the directories in it, which are never received
  (`paste_complete_iff`).
-/
import LuodaRemote.Clipboard.PasteConfined
import LuodaRemote.Lib.SoundTree

namespace LuodaRemote
open Lib

namespace Paste

open Clip (FileDescription FileType getElem?_concat_cases)
open TransferJob (pathJoin_extends pathJoin_ends)

variable {base : Place} {p path name last : String} {init : List String} {t t' : Tree}

/-! ## Names -/

/-- A relative path as a walk of directories gives it. -/
structure EntryName (name : String) (init : List String) (last : String) : Prop where
  eq : name = "/".intercalate (init ++ [last])
  plain : ∀ s ∈ init ++ [last], NoSlash s ∧ s ≠ "" ∧ s ≠ "." ∧ s ≠ ".."

theorem EntryName.names (hn : EntryName name init last) : pathNames name = init ++ [last] := by
  rw [hn.eq]
  exact pathNames_intercalate fun s hs => ⟨(hn.plain s hs).1, (hn.plain s hs).2.1⟩

theorem intercalate_concat (last : String) :
    ∀ init : List String, ∃ start, "/".intercalate (init ++ [last]) = start ++ last
  | [] => ⟨"", by simp⟩
  | s :: init => by
      obtain ⟨start, hstart⟩ := intercalate_concat last init
      cases init with
      | nil => exact ⟨s ++ "/", by simp [String.intercalate_cons_cons]⟩
      | cons u init =>
        refine ⟨s ++ "/" ++ start, ?_⟩
        rw [List.cons_append, List.cons_append, String.intercalate_cons_cons,
          ← List.cons_append, hstart, ← String.append_assoc]

/-- The path of an entry ends in its name. -/
theorem exact_of_ends (he : Extends p path (init ++ [last]))
    (hplain : ∀ s ∈ init ++ [last], s ≠ "." ∧ s ≠ "..") (hslash : NoSlash last) (hne : last ≠ "")
    (hends : ∃ start, path = start ++ last) : Exact p path init last := by
  obtain ⟨start, rfl⟩ := hends
  obtain ⟨hdot, hdots⟩ := hplain last (by simp)
  refine ⟨he, hplain, endsInName_append hslash hne ?_ hdot hdots⟩
  rw [he.names, ← List.append_assoc, List.getLast?_concat]

theorem join_exact (hp : p ≠ "") (hn : EntryName name init last) :
    Exact p (pathJoin false p name) init last := by
  have hhead : name.toList.head? ≠ some '/' := by
    rw [hn.eq]
    exact head_intercalate fun s hs => ⟨(hn.plain s hs).1, (hn.plain s hs).2.1⟩
  have he := pathJoin_extends hp hhead
  rw [hn.names] at he
  obtain ⟨hslash, hne, -⟩ := hn.plain last (by simp)
  refine exact_of_ends he (fun s hs => (hn.plain s hs).2.2) hslash hne ?_
  obtain ⟨start, hstart⟩ := pathJoin_ends p name
  obtain ⟨start', hname⟩ := intercalate_concat last init
  refine ⟨start ++ start', ?_⟩
  rw [hstart, String.append_assoc, ← hname, ← hn.eq]

/-- The name that is tried with a number for a file of the given name. -/
def numberedName (last : String) (i : Nat) : String :=
  match splitExtension last with
  | (stem, some ext) => stem ++ "-" ++ toString i ++ "." ++ ext
  | (_, none) => last ++ " (" ++ toString i ++ ")"

theorem toString_injective {i j : Nat} (h : toString i = toString j) : i = j := by
  rw [Nat.toString_eq_repr, Nat.toString_eq_repr] at h
  have hdigits := congrArg String.toList h
  rw [Nat.toList_repr, Nat.toList_repr] at hdigits
  rw [← Nat.ofDigitChars_ten_toDigits (n := i), hdigits, Nat.ofDigitChars_ten_toDigits]

theorem append_cancel_middle {a b c d : String} (h : a ++ b ++ c = a ++ d ++ c) : b = d := by
  have hlists := congrArg String.toList h
  simp only [String.toList_append, List.append_assoc] at hlists
  have hmid := List.append_cancel_right (List.append_cancel_left hlists)
  exact String.toList_inj.mp hmid

theorem numberedName_injective {i j : Nat} (h : numberedName last i = numberedName last j) :
    i = j := by
  unfold numberedName at h
  cases hsplit : splitExtension last with
  | mk stem ext =>
    rw [hsplit] at h
    cases ext with
    | none => exact toString_injective (append_cancel_middle h)
    | some ext =>
      have hassoc (k : Nat) : stem ++ "-" ++ toString k ++ "." ++ ext =
          stem ++ "-" ++ toString k ++ ("." ++ ext) := String.append_assoc ..
      dsimp only at h
      rw [hassoc, hassoc] at h
      exact toString_injective (append_cancel_middle h)

theorem fileName_exact (he : Exact p path init last) : pathFileName false path = last := by
  have hdot : (decide (last ≠ ".")) = true := by simpa using he.last_plain.1
  rw [pathFileName_eq, he.ext.names, ← List.append_assoc, List.filter_append,
    List.filter_singleton, hdot, cond_true, List.getLast?_concat]
  exact if_neg he.last_plain.2

theorem numbered_exact (hp : p ≠ "") (he : Exact p path init last) (i : Nat) :
    ∃ new, numbered .file path i = some new ∧ Exact p new init (numberedName last i) := by
  have hparent : Extends p (parentPath path) init := by
    have hdir := parentPath_extends hp he.toNamed
    rwa [parentNames_of_name _ he.last_plain.1] at hdir
  have hslash : NoSlash last := fileName_exact he ▸ pathFileName_noSlash path
  unfold numbered numberedName
  rw [fileName_exact he]
  cases hsplit : splitExtension last with
  | mk stem ext =>
    cases ext with
    | none =>
      obtain ⟨hs, hlong⟩ := counter_suffix i
      refine ⟨_, rfl, ?_⟩
      dsimp only
      have hlonger := he.append_suffix hs hlong
      rwa [← String.append_assoc, ← String.append_assoc, ← String.append_assoc,
        ← String.append_assoc] at hlonger
    | some ext =>
      obtain ⟨hstem, hext⟩ := splitExtension_noSlash hslash hsplit
      obtain ⟨htail, hlong⟩ := dash_suffix i hext
      refine ⟨_, rfl, ?_⟩
      have hassoc : stem ++ "-" ++ toString i ++ "." ++ ext =
          stem ++ ("-" ++ toString i ++ "." ++ ext) := by
        simp only [String.append_assoc]
      have hname := hstem.append htail
      have hne := append_suffix_ne hlong stem (s := "") (by decide)
      have hdot := append_suffix_ne hlong stem (s := ".") (by decide)
      have hdots := append_suffix_ne hlong stem (s := "..") (by decide)
      dsimp only
      rw [hassoc]
      have hext := hparent.trans (pathJoin_extends hparent.ne_empty hname.head)
      rw [hname.names hne] at hext
      refine exact_of_ends hext ?_ hname hne (pathJoin_ends _ _)
      intro s hs
      rcases List.mem_append.mp hs with hs | hs
      · exact he.init_plain s hs
      · rw [List.mem_singleton.mp hs]
        exact ⟨hdot, hdots⟩

/-! ## Free names -/

/-- More than `n` of the numbers that are tried give a name that is free. -/
def Room (n : Nat) (base : Place) (init : List String) (last : String) (t : Tree) : Prop :=
  ∃ ks : List Nat, ks.Nodup ∧ n < ks.length ∧ ∀ k ∈ ks, 1 ≤ k ∧ k ≤ 9999998 ∧
    t.node (base ++ (init ++ [numberedName last k])) = none

/-- What came to the tree is at the places. -/
def NewAt (places : List Place) (t t' : Tree) : Prop :=
  ∀ q, t'.node q ≠ none → t.node q ≠ none ∨ q ∈ places

/-- Numbers are tried until a name is free. -/
theorem tryNumbers_spec (hr : t.Ready base p) (he : Exact p path init last) :
    ∀ fuel i : Nat, (∃ new k, tryNumbers Tree.fileSystem .file path t fuel i = some new ∧
      Exact p new init (numberedName last k) ∧
        t.node (base ++ (init ++ [numberedName last k])) = none) ∨
      ∀ k, i ≤ k → k < i + fuel → t.node (base ++ (init ++ [numberedName last k])) ≠ none
  | 0, i => .inr fun k h1 h2 => by omega
  | fuel + 1, i => by
      obtain ⟨new, hnew, hexact⟩ := numbered_exact hr.leads.ne_empty he i
      unfold tryNumbers
      rw [hnew]
      dsimp only
      cases hnode : t.node (base ++ (init ++ [numberedName last i])) with
      | none =>
        refine .inl ⟨new, i, ?_, hexact, hnode⟩
        rw [hr.pathExists hexact, hnode]
        rfl
      | some e =>
        rw [hr.pathExists hexact, hnode]
        rcases tryNumbers_spec hr he fuel (i + 1) with hfound | hall
        · exact .inl hfound
        · refine .inr fun k h1 h2 => ?_
          by_cases hk : k = i
          · rw [hk, hnode]
            simp
          · exact hall k (by omega) (by omega)

/-- The name of a file or a number of it. -/
def NameOf (last last' : String) : Prop := last' = last ∨ ∃ k, last' = numberedName last k

/-- The path leads to a name that is free. -/
def Found (base : Place) (p : String) (t : Tree) (init : List String) (last new : String) : Prop :=
  ∃ last', NameOf last last' ∧ Exact p new init last' ∧
    t.node (base ++ (init ++ [last'])) = none

theorem getFirstFilename_spec {n : Nat} {t0 : Tree} {places : List Place} (hr : t.Ready base p)
    (he : Exact p path init last) (hroom : Room n base init last t0) (hnew : NewAt places t0 t)
    (hlen : places.length ≤ n) :
    ∃ new, getFirstFilename Tree.fileSystem path .file t = some new ∧
      Found base p t init last new := by
  unfold getFirstFilename
  rw [hr.pathExists he]
  cases hnode : t.node (base ++ (init ++ [last])) with
  | none => exact ⟨path, rfl, ⟨last, .inl rfl, he, hnode⟩⟩
  | some e =>
    rcases tryNumbers_spec hr he 9999998 1 with ⟨new, k, hfound, hexact, hfree⟩ | hall
    · exact ⟨new, hfound, ⟨_, .inr ⟨k, rfl⟩, hexact, hfree⟩⟩
    · -- All numbers are taken, so the free ones of the start are now among the new places.
      exfalso
      obtain ⟨ks, hnodup, hmore, hks⟩ := hroom
      have hsub : ks.map (fun k => base ++ (init ++ [numberedName last k])) ⊆ places := by
        intro q hq
        obtain ⟨k, hk, rfl⟩ := List.mem_map.mp hq
        obtain ⟨h1, h2, hfree⟩ := hks k hk
        exact (hnew _ (hall k h1 (by omega))).resolve_left (by simp [hfree])
      have hinj : (ks.map (fun k => base ++ (init ++ [numberedName last k]))).Nodup := by
        refine hnodup.map fun i j hij => ?_
        have hnames := List.append_cancel_left (List.append_cancel_left hij)
        exact numberedName_injective (List.singleton_inj.mp hnames)
      have hle := (List.subperm_of_subset hinj hsub).length_le
      rw [List.length_map] at hle
      omega

theorem getNewFilename_spec {n : Nat} {t0 : Tree} {places : List Place} {d : FileDescription}
    (hr : t.Ready base p) (hkind : d.kind = .file) (hd : EntryName d.name init last)
    (hroom : Room n base init last t0) (hnew : NewAt places t0 t) (hlen : places.length ≤ n) :
    ∃ new, getNewFilename Tree.fileSystem p d t = some new ∧ Found base p t init last new := by
  have he := join_exact hr.leads.ne_empty hd
  unfold getNewFilename
  dsimp only
  rw [hkind]
  split_ifs with hex
  · exact getFirstFilename_spec hr he hroom hnew hlen
  · rw [hr.pathExists he, Bool.not_eq_true, Option.isSome_eq_false_iff,
      Option.isNone_iff_eq_none] at hex
    exact ⟨_, rfl, ⟨last, .inl rfl, he, hex⟩⟩

/-! ## Lists -/

/-- Where a file of the list can come to. -/
def Landing (base : Place) (d : FileDescription) (q : Place) : Prop :=
  ∃ init last last', EntryName d.name init last ∧ NameOf last last' ∧
    q = base ++ (init ++ [last'])

/-- A list in preorder: every entry has a plain relative path, and its directory is listed before
    it. -/
structure Preorder (files : List FileDescription) : Prop where
  names : ∀ d ∈ files, ∃ init last, EntryName d.name init last
  parents : ∀ before d after init last, files = before ++ d :: after →
    EntryName d.name init last → init = [] ∨
      ∃ e ∈ before, e.kind = .directory ∧ pathNames e.name = init

/-- Nothing is in the way: no file where a directory of the list is to be, neither one that is
    there nor one that is received before, and room for every file. -/
structure Unobstructed (base : Place) (files : List FileDescription) (t : Tree) : Prop where
  there : ∀ d ∈ files, d.kind = .directory → ∀ i, t.node (base ++ pathNames d.name) ≠ some (.file i)
  received : ∀ before d after, files = before ++ d :: after → d.kind = .directory →
    ∀ e ∈ before, e.kind = .file → ¬ Landing base e (base ++ pathNames d.name)
  room : ∀ d ∈ files, d.kind = .file → ∀ init last, EntryName d.name init last →
    Room files.length base init last t ∧ Room files.length base init (last ++ ".rddownload") t

/-! ## How far a paste has come -/

/-- The files so far are at places of their own that were free. -/
structure Present (base : Place) (contents : Nat → Bytes) (t0 : Tree)
    (done : List FileDescription) (place : Nat → Place) (t : Tree) : Prop where
  lands : ∀ j d, done[j]? = some d → d.kind = .file → Landing base d (place j) ∧
    t0.node (place j) = none ∧ t.content (place j) = some (contents j)
  apart : ∀ j k d e, done[j]? = some d → done[k]? = some e → d.kind = .file → e.kind = .file →
    place j = place k → j = k

/-- What was there is as it was. -/
structure Preserved (t0 t : Tree) : Prop where
  node : ∀ q, t0.node q ≠ none → t.node q = t0.node q
  contents : ∀ i < t0.store.nextInode, t.store.contents i = t0.store.contents i
  next : t0.store.nextInode ≤ t.store.nextInode

/-- The tree after the first entries of the list. -/
structure Upto (base : Place) (p : String) (contents : Nat → Bytes) (t0 : Tree)
    (done rest : List FileDescription) (t : Tree) : Prop where
  ready : t.Ready base p
  preserved : Preserved t0 t
  dirs : ∀ d ∈ done, d.kind = .directory → t.node (base ++ pathNames d.name) = some .dir
  present : ∃ place, Present base contents t0 done place t
  free : ∀ d ∈ rest, d.kind = .directory → ∀ i, t.node (base ++ pathNames d.name) ≠ some (.file i)
  places : ∃ places, NewAt places t0 t ∧ places.length ≤ done.length

section Upto

variable {contents : Nat → Bytes} {t0 : Tree} {done rest files : List FileDescription}
  {d : FileDescription} {q : Place} {i : Nat}

theorem Preserved.of_added {e : Entry} (hp : Preserved t0 t) (ha : Tree.Added q e t t') :
    Preserved t0 t' where
  node x hx := by
    have hold := hp.node x hx
    rw [ha.of_ne (by rwa [hold]), hold]
  contents i hi := by rw [ha.old i (hi.trans_le hp.next), hp.contents i hi]
  next := hp.next.trans ha.next

theorem NewAt.of_added {e : Entry} {places : List Place} (hn : NewAt places t0 t)
    (ha : Tree.Added q e t t') : NewAt (q :: places) t0 t' := by
  intro x hx
  rw [ha.node] at hx
  split_ifs at hx with heq
  · exact .inr (heq ▸ List.mem_cons_self)
  · exact (hn x hx).imp_right (List.mem_cons_of_mem q)

theorem Present.of_added {e : Entry} {place : Nat → Place}
    (hpr : Present base contents t0 done place t) (ht : t.Sound) (ha : Tree.Added q e t t') :
    Present base contents t0 done place t' where
  lands j d hj hk := by
    obtain ⟨hland, hfree, hcontent⟩ := hpr.lands j d hj hk
    exact ⟨hland, hfree, ha.content_old ht hcontent⟩
  apart := hpr.apart

/-- An entry that is no file needs no place. -/
theorem Present.skip {place : Nat → Place} (hpr : Present base contents t0 done place t)
    (hd : d.kind ≠ .file) : Present base contents t0 (done ++ [d]) place t := by
  have hold {j : Nat} {e : FileDescription} (hj : (done ++ [d])[j]? = some e)
      (he : e.kind = .file) : done[j]? = some e := by
    rcases getElem?_concat_cases hj with hj | ⟨-, rfl⟩
    · exact hj
    · exact absurd he hd
  exact ⟨fun j e hj he => hpr.lands j e (hold hj he) he,
    fun j k e e' hj hk he he' => hpr.apart j k e e' (hold hj he) (hold hk he') he he'⟩

/-- The place of a file is one where nothing was. -/
theorem Present.ne_new {place : Nat → Place} (hpr : Present base contents t0 done place t)
    (hq : t.node q = none) {j : Nat} {e : FileDescription} (hj : done[j]? = some e)
    (he : e.kind = .file) : place j ≠ q := by
  rintro rfl
  have hcontent := (hpr.lands j e hj he).2.2
  unfold Tree.content at hcontent
  rw [hq] at hcontent
  cases hcontent

theorem Present.add {place : Nat → Place} (hpr : Present base contents t0 done place t)
    (ht : t.Sound) (ha : Tree.Added q (.file i) t t') (hfree : t0.node q = none)
    (hcontent : t'.store.contents i = contents done.length) (hland : Landing base d q) :
    Present base contents t0 (done ++ [d]) (Function.update place done.length q) t' := by
  have hplace {j : Nat} {e : FileDescription} (hj : done[j]? = some e) :
      Function.update place done.length q j = place j := by
    have := (List.getElem?_eq_some_iff.mp hj).1
    exact Function.update_of_ne (by omega) ..
  refine ⟨?_, ?_⟩
  · intro j e hj he
    rcases getElem?_concat_cases hj with hj | ⟨rfl, rfl⟩
    · rw [hplace hj]
      exact (hpr.of_added ht ha).lands j e hj he
    · rw [Function.update_self]
      refine ⟨hland, hfree, ?_⟩
      unfold Tree.content
      rw [ha.node, if_pos rfl]
      exact congrArg some hcontent
  · intro j k e e' hj hk he he' heq
    rcases getElem?_concat_cases hj with hj' | ⟨rfl, -⟩
    · rcases getElem?_concat_cases hk with hk' | ⟨rfl, -⟩
      · rw [hplace hj', hplace hk'] at heq
        exact hpr.apart j k e e' hj' hk' he he' heq
      · rw [hplace hj', Function.update_self] at heq
        exact absurd heq (hpr.ne_new ha.fresh hj' he)
    · rcases getElem?_concat_cases hk with hk' | ⟨rfl, -⟩
      · rw [hplace hk', Function.update_self] at heq
        exact absurd heq.symm (hpr.ne_new ha.fresh hk' he')
      · rfl

theorem Preserved.free (hp : Preserved t0 t) (hq : t.node q = none) : t0.node q = none := by
  by_contra hne
  rw [hp.node q hne] at hq
  exact hne hq

/-- One more file. -/
theorem Upto.add_file (hu : Upto base p contents t0 done (d :: rest) t) (hkind : d.kind = .file)
    (hr : t'.Ready base p) (ha : Tree.Added q (.file i) t t')
    (hcontent : t'.store.contents i = contents done.length) (hland : Landing base d q)
    (hlater : ∀ e ∈ rest, e.kind = .directory → q ≠ base ++ pathNames e.name) :
    Upto base p contents t0 (done ++ [d]) rest t' := by
  obtain ⟨place, hpr⟩ := hu.present
  obtain ⟨places, hnew, hlen⟩ := hu.places
  refine ⟨hr, hu.preserved.of_added ha, ?_,
    ⟨_, hpr.add hu.ready.sound ha (hu.preserved.free ha.fresh) hcontent hland⟩, ?_,
    q :: places, hnew.of_added ha, by simpa using hlen⟩
  · intro e he hdir
    rcases List.mem_append.mp he with he | he
    · have hold := hu.dirs e he hdir
      rw [ha.of_ne (by simp [hold]), hold]
    · rw [List.mem_singleton.mp he, hkind] at hdir
      cases hdir
  · intro e he hdir j
    rw [ha.node, if_neg (hlater e he hdir).symm]
    exact hu.free e (List.mem_cons_of_mem _ he) hdir j

/-- One more directory. -/
theorem Upto.add_dir (hu : Upto base p contents t0 done (d :: rest) t)
    (hkind : d.kind = .directory) (hr : t'.Ready base p)
    (ha : Tree.Added (base ++ pathNames d.name) .dir t t') :
    Upto base p contents t0 (done ++ [d]) rest t' := by
  obtain ⟨place, hpr⟩ := hu.present
  obtain ⟨places, hnew, hlen⟩ := hu.places
  refine ⟨hr, hu.preserved.of_added ha, ?_,
    ⟨place, (hpr.of_added hu.ready.sound ha).skip (by simp [hkind])⟩, ?_,
    _ :: places, hnew.of_added ha, by simpa using hlen⟩
  · intro e he hdir
    rcases List.mem_append.mp he with he | he
    · have hold := hu.dirs e he hdir
      rw [ha.of_ne (by simp [hold]), hold]
    · rw [List.mem_singleton.mp he, ha.node, if_pos rfl]
  · intro e he hdir j
    rw [ha.node]
    split_ifs
    · simp
    · exact hu.free e (List.mem_cons_of_mem _ he) hdir j

/-- An entry for which nothing is to be done. -/
theorem Upto.skip (hu : Upto base p contents t0 done (d :: rest) t) (hkind : d.kind ≠ .file)
    (hdir : d.kind = .directory → t.node (base ++ pathNames d.name) = some .dir) :
    Upto base p contents t0 (done ++ [d]) rest t := by
  obtain ⟨place, hpr⟩ := hu.present
  obtain ⟨places, hnew, hlen⟩ := hu.places
  refine ⟨hu.ready, hu.preserved, ?_, ⟨place, hpr.skip hkind⟩,
    fun e he => hu.free e (List.mem_cons_of_mem _ he), places, hnew, by simp; omega⟩
  intro e he hk
  rcases List.mem_append.mp he with he | he
  · exact hu.dirs e he hk
  · rw [List.mem_singleton.mp he] at hk ⊢
    exact hdir hk

end Upto

/-! ## Entries -/

/-- What a paste starts from. -/
structure Job (base : Place) (p : String) (contents : Nat → Bytes) (t0 : Tree)
    (files : List FileDescription) : Prop where
  ready : t0.Ready base p
  preorder : Preorder files
  sizes : ∀ j d, files[j]? = some d → d.kind = .file → (contents j).length = d.size
  clear : Unobstructed base files t0
  /-- `list_index` is an `i32`. -/
  short : files.length < 2 ^ 31

section Entries

variable {contents : Nat → Bytes} {t0 : Tree} {done rest files : List FileDescription}
  {d : FileDescription} {q : Place} {i f n : Nat}

theorem Job.dir (hj : Job base p contents t0 files) (hfiles : files = done ++ d :: rest)
    (hu : Upto base p contents t0 done (d :: rest) t) (hd : EntryName d.name init last) :
    t.node (base ++ init) = some .dir := by
  rcases hj.preorder.parents done d rest init last hfiles hd with rfl | ⟨e, he, hkind, hnames⟩
  · rw [List.append_nil]
    exact hu.ready.leads.dir
  · rw [← hnames]
    exact hu.dirs e he hkind

theorem Job.mem (hfiles : files = done ++ d :: rest) : d ∈ files := by
  rw [hfiles]
  simp

theorem Job.size (hj : Job base p contents t0 files) (hfiles : files = done ++ d :: rest)
    (hkind : d.kind = .file) : (contents done.length).length = d.size :=
  hj.sizes done.length d (by rw [hfiles]; simp) hkind

/-- No directory of the rest is to be where a file came to. -/
theorem Job.later (hj : Job base p contents t0 files) (hfiles : files = done ++ d :: rest)
    (hkind : d.kind = .file) (hland : Landing base d q) :
    ∀ e ∈ rest, e.kind = .directory → q ≠ base ++ pathNames e.name := by
  intro e he hdir heq
  obtain ⟨r1, r2, rfl⟩ := List.append_of_mem he
  have hsplit : files = (done ++ d :: r1) ++ e :: r2 := by
    rw [hfiles]
    simp
  exact hj.clear.received _ e r2 hsplit hdir d (by simp) hkind (heq ▸ hland)

theorem Job.createDir (hj : Job base p contents t0 files) (hfiles : files = done ++ d :: rest)
    {s : PasteTaskHandle Tree Nat} (htarget : s.targetDir = p)
    (hu : Upto base p contents t0 done (d :: rest) s.disk) (hkind : d.kind = .directory) :
    ∃ disk, s.createDir Tree.fileSystem d = { s with disk } ∧
      Upto base p contents t0 (done ++ [d]) rest disk := by
  subst htarget
  obtain ⟨init, last, hd⟩ := hj.preorder.names d (Job.mem hfiles)
  have hr := hu.ready
  have hdir := hj.dir hfiles hu hd
  have he := join_exact hr.leads.ne_empty hd
  unfold PasteTaskHandle.createDir
  dsimp only
  rw [hr.pathExists he]
  cases hnode : s.disk.node (base ++ (init ++ [last])) with
  | some e =>
    refine ⟨s.disk, rfl, hu.skip (by simp [hkind]) fun _ => ?_⟩
    rw [hd.names, hnode]
    -- What is there is no link, and it is no file.
    cases e with
    | dir => rfl
    | link target => exact absurd hnode (hr.noLinks.node (List.prefix_append _ _) target)
    | file j =>
      refine absurd hnode ?_
      rw [← hd.names]
      exact hu.free d List.mem_cons_self hkind j
  | none =>
    have hchild : Extends (pathJoin false s.targetDir d.name)
        (pathJoin false (pathJoin false s.targetDir d.name) "x") (pathNames "x") :=
      pathJoin_extends he.ext.ne_empty (by decide)
    rw [names_x] at hchild
    have hmake := hr.makeDir he hdir hnode hchild
    have hkept := Tree.createParents_kept hr.leads hr.noLinks (inside_child he.toNamed.toInside)
    rw [hmake] at hkept
    have ha : Tree.Added (base ++ pathNames d.name) .dir s.disk
        (s.disk.put (base ++ (init ++ [last])) .dir) := by
      rw [← List.append_assoc] at hnode
      rw [hd.names, ← List.append_assoc]
      exact Tree.put_added hr.sound hdir hnode
    refine ⟨_, ?_, hu.add_dir hkind (hr.of_kept hkept (ha.sound hr.sound)) ha⟩
    unfold createDirAll
    rw [hmake]
    rfl

theorem Job.createEmpty (hj : Job base p contents t0 files) (hfiles : files = done ++ d :: rest)
    {s : PasteTaskHandle Tree Nat} (htarget : s.targetDir = p)
    (hu : Upto base p contents t0 done (d :: rest) s.disk) (hkind : d.kind = .file)
    (hsize : d.size = 0) :
    ∃ disk, s.createEmpty Tree.fileSystem d = { s with disk } ∧
      Upto base p contents t0 (done ++ [d]) rest disk := by
  subst htarget
  obtain ⟨init, last, hd⟩ := hj.preorder.names d (Job.mem hfiles)
  obtain ⟨places, hnew, hlen⟩ := hu.places
  have hroom := (hj.clear.room d (Job.mem hfiles) hkind init last hd).1
  have hlen' : places.length ≤ files.length := by
    rw [hfiles, List.length_append]
    omega
  obtain ⟨new, hget, last', hname, hexact, hfree⟩ :=
    getNewFilename_spec hu.ready hkind hd hroom hnew hlen'
  obtain ⟨f, disk, hcreate, hcr⟩ := hu.ready.create hexact (hj.dir hfiles hu hd) hfree
  have hkept := Tree.create_kept hu.ready.leads hu.ready.noLinks hexact.toNamed
  rw [hcreate] at hkept
  have hland : Landing base d (base ++ (init ++ [last'])) := ⟨init, last, last', hd, hname, rfl⟩
  refine ⟨disk, ?_, hu.add_file hkind (hu.ready.of_kept hkept (hcr.added.sound hu.ready.sound))
    hcr.added ?_ hland (hj.later hfiles hkind hland)⟩
  · unfold PasteTaskHandle.createEmpty
    rw [hget]
    dsimp only
    rw [hcreate]
  · have hlength := hj.size hfiles hkind
    rw [hsize] at hlength
    rw [hcr.content, List.eq_nil_of_length_eq_zero hlength]

/-- A file of the list is open beside its name, and its first `n` bytes are written. -/
def Opened (base : Place) (p : String) (contents : Nat → Bytes) (t0 : Tree)
    (done : List FileDescription) (d : FileDescription) (rest : List FileDescription)
    (path : String) (f n : Nat) (t : Tree) : Prop :=
  ∃ t1 init last last' i, Upto base p contents t0 done (d :: rest) t1 ∧
    EntryName d.name init last ∧ Exact p path init last' ∧
      Tree.Added (base ++ (init ++ [last'])) (.file i) t1 t ∧ t.Ready base p ∧
        t.store.contents i = (contents done.length).take n ∧ t.store.handles f = ⟨i, n, true⟩

theorem Job.write (hj : Job base p contents t0 files) (hfiles : files = done ++ d :: rest)
    (hkind : d.kind = .file) (ho : Opened base p contents t0 done d rest path f n t)
    (hn : n ≤ d.size) {bs : Bytes} (hbs : bs ≠ []) (hdata : bs <+: (contents done.length).drop n) :
    ∃ t', Tree.fileSystem.writeAll f bs t = (.ok (), t') ∧
      Opened base p contents t0 done d rest path f (n + bs.length) t' := by
  obtain ⟨t1, init, last, last', i, hu, hd, hexact, ha, hr, hcontent, hhandle⟩ := ho
  have hlen : ((contents done.length).take n).length = n := by
    rw [List.length_take, hj.size hfiles hkind]
    omega
  rw [← hlen] at hhandle
  obtain ⟨store, hwrite, happ⟩ := Tree.writeAll_end hhandle hcontent hbs
  have hkept : Tree.Kept base t { t with store } := (Tree.Kept.refl base t).of_store store
  have ha' := ha.of_write happ.others happ.next
  refine ⟨_, hwrite, t1, init, last, last', i, hu, hd, hexact, ha',
    hr.of_kept hkept (ha'.sound hu.ready.sound), ?_, ?_⟩
  · obtain ⟨tail, htail⟩ := hdata
    show store.contents i = _
    rw [happ.content, List.take_add, ← htail, List.take_left]
  · show store.handles f = _
    rw [happ.handle, List.length_append, hlen]

/-- A file that is all there is renamed to a name that is free. -/
theorem Job.finish (hj : Job base p contents t0 files) (hfiles : files = done ++ d :: rest)
    (hkind : d.kind = .file) (ho : Opened base p contents t0 done d rest path f d.size t) :
    ∃ new t', getNewFilename Tree.fileSystem p d t = some new ∧
      Tree.fileSystem.rename path new t = (.ok (), t') ∧
        Upto base p contents t0 (done ++ [d]) rest t' := by
  obtain ⟨t1, init, last, last', i, hu, hd, hexact, ha, hr, hcontent, -⟩ := ho
  obtain ⟨places, hnew, hlen⟩ := hu.places
  have hroom := (hj.clear.room d (Job.mem hfiles) hkind init last hd).1
  have hlen' : ((base ++ (init ++ [last'])) :: places).length ≤ files.length := by
    rw [hfiles, List.length_append, List.length_cons, List.length_cons]
    omega
  obtain ⟨new, hget, last'', hname, hexact', hfree⟩ :=
    getNewFilename_spec hr hkind hd hroom (hnew.of_added ha) hlen'
  have hdir1 := hj.dir hfiles hu hd
  have hdir : t.node (base ++ init) = some .dir := by
    rw [ha.of_ne (by simp [hdir1]), hdir1]
  have hsrc : t.node (base ++ (init ++ [last'])) = some (.file i) := by
    rw [ha.node, if_pos rfl]
  have hne : last' ≠ last'' := by
    rintro rfl
    rw [hfree] at hsrc
    cases hsrc
  have hrename := hr.rename hexact hexact' hdir hsrc hfree
  have hkept := Tree.rename_kept hr.leads hr.noLinks hexact.toNamed hexact'.toNamed
  have hmove : Tree.Added (base ++ (init ++ [last''])) (.file i) t1
      (t.move (base ++ (init ++ [last'])) (base ++ (init ++ [last'']))) := by
    refine ha.move hu.ready.sound hfree
      ⟨base ++ init, last'', (List.append_assoc _ _ _).symm, hdir1⟩ ?_ ?_
    · rw [← List.append_assoc, ← List.append_assoc]
      exact Tree.sibling_not_prefix hne
    · rw [← List.append_assoc, ← List.append_assoc]
      exact Tree.sibling_not_prefix hne.symm
  have hland : Landing base d (base ++ (init ++ [last''])) := ⟨init, last, last'', hd, hname, rfl⟩
  refine ⟨new, _, hget, hrename, hu.add_file hkind ?_ hmove ?_ hland (hj.later hfiles hkind hland)⟩
  · have hk : Tree.Kept base t (Tree.fileSystem.rename path new t).2 := hkept
    rw [hrename] at hk
    exact hr.of_kept hk (hmove.sound hu.ready.sound)
  · show t.store.contents i = _
    rw [hcontent, ← hj.size hfiles hkind, List.take_length]

theorem asUsize_index (hj : Job base p contents t0 files) (hn : n ≤ files.length) :
    asUsize (n : Int) = n := by
  have := hj.short
  unfold asUsize
  rw [Int.emod_eq_of_lt (by omega) (by omega)]
  exact Int.toNat_natCast n

theorem Job.fileAt (hj : Job base p contents t0 files) (hfiles : files = done ++ d :: rest)
    {s : PasteTaskHandle Tree Nat} (hs : s.files = files) : s.fileAt done.length = some d := by
  unfold PasteTaskHandle.fileAt
  rw [hs, asUsize_index hj (by rw [hfiles]; simp), hfiles]
  simp

/-- The next file that has a size is opened. -/
theorem Job.openNewWriter (hj : Job base p contents t0 files)
    (hfiles : files = done ++ d :: rest) {s : PasteTaskHandle Tree Nat} (htarget : s.targetDir = p)
    (hs : s.files = files) (hindex : s.progress.listIndex = done.length)
    (hu : Upto base p contents t0 done (d :: rest) s.disk) (hkind : d.kind = .file) :
    ∃ path f disk, s.openNewWriter Tree.fileSystem = (.ok (), { s with
        progress := { s.progress with
          downloadFileIndex := done.length
          downloadFileSize := d.size
          downloadFilePath := path
          downloadFileCurrentSize := 0
          fileHandle := some f }
        disk }) ∧ Opened base p contents t0 done d rest path f 0 disk := by
  subst htarget
  obtain ⟨init, last, hd⟩ := hj.preorder.names d (Job.mem hfiles)
  obtain ⟨places, hnew, hlen⟩ := hu.places
  have hr := hu.ready
  have hroom := (hj.clear.room d (Job.mem hfiles) hkind init last hd).2
  have hlen' : places.length ≤ files.length := by
    rw [hfiles, List.length_append]
    omega
  have hside : Exact s.targetDir (pathJoin false s.targetDir d.name ++ "." ++
      PasteTaskHandle.downloadExtension) init (last ++ ".rddownload") := by
    rw [String.append_assoc]
    exact (join_exact hr.leads.ne_empty hd).append_suffix
      (by simp [NoSlash, PasteTaskHandle.downloadExtension]) (by decide)
  obtain ⟨path, hget, last', -, hexact, hfree⟩ := getFirstFilename_spec hr hside hroom hnew hlen'
  have hdir := hj.dir hfiles hu hd
  have hparent : Tree.fileSystem.pathExists (parentPath path) s.disk = true := by
    have hext := parentPath_extends hr.leads.ne_empty hexact.toNamed
    rw [parentNames_of_name _ hexact.last_plain.1] at hext
    exact hr.pathExists_dir hext hexact.init_plain hdir
  obtain ⟨f, disk, hcreate, hcr⟩ := hr.create hexact hdir hfree
  have hkept := Tree.create_kept hr.leads hr.noLinks hexact.toNamed
  rw [hcreate] at hkept
  refine ⟨path, f, disk, ?_, s.disk, init, last, last', _, hu, hd, hexact, hcr.added,
    hr.of_kept hkept (hcr.added.sound hr.sound), by simp [hcr.content], hcr.handle⟩
  unfold PasteTaskHandle.openNewWriter
  rw [hindex, hj.fileAt hfiles hs]
  dsimp only
  rw [hkind, hget]
  dsimp only
  rw [hparent, if_pos rfl]
  dsimp only
  rw [hcreate]

end Entries

/-! ## The task -/

/-- The bytes of the files. -/
def fileBytes (files : List FileDescription) : Nat :=
  ((files.filter fun d => d.kind = .file).map (·.size)).sum

/-- The sizes of what is no file. -/
def otherBytes (files : List FileDescription) : Nat :=
  ((files.filter fun d => d.kind ≠ .file).map (·.size)).sum

theorem fileBytes_append (xs ys : List FileDescription) :
    fileBytes (xs ++ ys) = fileBytes xs + fileBytes ys := by
  unfold fileBytes
  rw [List.filter_append, List.map_append, List.sum_append]

theorem sum_sizes (files : List FileDescription) :
    (files.map (·.size)).sum = fileBytes files + otherBytes files := by
  induction files with
  | nil => rfl
  | cons d files ih =>
    unfold fileBytes otherBytes at ih ⊢
    rw [List.map_cons, List.sum_cons, ih, List.filter_cons, List.filter_cons]
    by_cases hd : d.kind = .file
    · simp [hd]
      omega
    · simp [hd]
      omega

section Task

variable {contents : Nat → Bytes} {t0 : Tree} {done rest files : List FileDescription}
  {d : FileDescription} {n : Nat} {s : PasteTaskHandle Tree Nat}

/-- A task that has had no trouble. -/
structure Sane (p : String) (files : List FileDescription) (s : PasteTaskHandle Tree Nat) :
    Prop where
  targetDir : s.targetDir = p
  list : s.files = files
  error : s.progress.error = none
  canceled : s.progress.isCanceled = false
  total : s.progress.totalSize = (files.map (·.size)).sum % 2 ^ 64

/-- Between two entries of the list. -/
structure Idle (base : Place) (p : String) (contents : Nat → Bytes) (t0 : Tree)
    (files done rest : List FileDescription) (s : PasteTaskHandle Tree Nat) : Prop where
  sane : Sane p files s
  split : files = done ++ rest
  closed : s.progress.fileHandle = none
  current : s.progress.currentSize = fileBytes done % 2 ^ 64
  upto : Upto base p contents t0 done rest s.disk

/-- In the middle of a file, of which `n` bytes are there. -/
structure Busy (base : Place) (p : String) (contents : Nat → Bytes) (t0 : Tree)
    (files done : List FileDescription) (d : FileDescription) (rest : List FileDescription)
    (n : Nat) (s : PasteTaskHandle Tree Nat) : Prop where
  sane : Sane p files s
  split : files = done ++ d :: rest
  kind : d.kind = .file
  more : n < d.size
  index : s.progress.listIndex = done.length
  download : s.progress.downloadFileIndex = done.length
  size : s.progress.downloadFileSize = d.size
  offset : s.progress.offset = n
  current : s.progress.currentSize = (fileBytes done + n) % 2 ^ 64
  opened : ∃ f, s.progress.fileHandle = some f ∧
    Opened base p contents t0 done d rest s.progress.downloadFilePath f n s.disk

theorem fileBytes_skip (done : List FileDescription) (hd : d.kind = .file → d.size = 0) :
    fileBytes (done ++ [d]) = fileBytes done := by
  rw [fileBytes_append]
  unfold fileBytes
  by_cases hk : d.kind = .file
  · simp [hk, hd hk]
  · simp [hk]

/-- The next file is open, or the list is over. -/
def Reached (base : Place) (p : String) (contents : Nat → Bytes) (t0 : Tree)
    (files : List FileDescription) (bytes : Nat) (s : PasteTaskHandle Tree Nat) : Prop :=
  (Idle base p contents t0 files files [] s ∧ fileBytes files = bytes) ∨
    ∃ done d rest, Busy base p contents t0 files done d rest 0 s ∧ fileBytes done = bytes

theorem Job.nextFile (hj : Job base p contents t0 files) :
    ∀ {rest done : List FileDescription} {s : PasteTaskHandle Tree Nat},
      Idle base p contents t0 files done rest s →
        ∃ s', PasteTaskHandle.nextFile Tree.fileSystem done.length rest s = (.ok (), s') ∧
          Reached base p contents t0 files (fileBytes done) s'
  | [], done, s, hs => by
      have hdone : files = done := by rw [hs.split, List.append_nil]
      subst hdone
      exact ⟨s, rfl, .inl ⟨hs, rfl⟩⟩
  | d :: rest, done, s, hs => by
      have hlen : (done ++ [d]).length = done.length + 1 := by simp
      have hsplit : files = (done ++ [d]) ++ rest := by
        rw [hs.split]
        simp
      -- With the entry done nothing but the disk is different.
      have hgo (hd : d.kind = .file → d.size = 0) (disk : Tree)
          (hu : Upto base p contents t0 (done ++ [d]) rest disk) :
          ∃ s', PasteTaskHandle.nextFile Tree.fileSystem (done.length + 1) rest { s with disk } =
            (.ok (), s') ∧ Reached base p contents t0 files (fileBytes done) s' := by
        have hidle : Idle base p contents t0 files (done ++ [d]) rest { s with disk } :=
          ⟨⟨hs.sane.targetDir, hs.sane.list, hs.sane.error, hs.sane.canceled, hs.sane.total⟩,
            hsplit, hs.closed, by rw [fileBytes_skip done hd]; exact hs.current, hu⟩
        have hrec := Job.nextFile hj hidle
        rwa [hlen, fileBytes_skip done hd] at hrec
      unfold PasteTaskHandle.nextFile
      cases hkind : d.kind with
      | symlink =>
        exact hgo (by simp [hkind]) s.disk (hs.upto.skip (by simp [hkind]) (by simp [hkind]))
      | directory =>
        obtain ⟨disk, hmake, hu⟩ := hj.createDir hs.split hs.sane.targetDir hs.upto hkind
        dsimp only
        rw [hmake]
        exact hgo (by simp [hkind]) disk hu
      | file =>
        dsimp only
        split_ifs with hsize
        · obtain ⟨disk, hmake, hu⟩ :=
            hj.createEmpty hs.split hs.sane.targetDir hs.upto hkind hsize
          rw [hmake]
          exact hgo (fun _ => hsize) disk hu
        · obtain ⟨path, f, disk, hopen, ho⟩ := hj.openNewWriter hs.split
            (s := { s with progress :=
              { s.progress with listIndex := done.length, offset := 0 } })
            hs.sane.targetDir hs.sane.list rfl hs.upto hkind
          refine ⟨_, hopen, .inr ⟨done, d, rest, ?_, rfl⟩⟩
          exact ⟨⟨hs.sane.targetDir, hs.sane.list, hs.sane.error, hs.sane.canceled,
            hs.sane.total⟩, hs.split, hkind, by omega, rfl, rfl, rfl, rfl, hs.current, f, rfl, ho⟩

/-- The whole list is worked off. -/
def Over (base : Place) (p : String) (contents : Nat → Bytes) (t0 : Tree)
    (files : List FileDescription) (s : PasteTaskHandle Tree Nat) : Prop :=
  Idle base p contents t0 files files [] s ∧ s.progress.listIndex = files.length

/-- What a task is in when the good responses so far had so many bytes. -/
def Received (base : Place) (p : String) (contents : Nat → Bytes) (t0 : Tree)
    (files : List FileDescription) (bytes : Nat) (s : PasteTaskHandle Tree Nat) : Prop :=
  (Over base p contents t0 files s ∧ fileBytes files = bytes) ∨
    ∃ done d rest n, Busy base p contents t0 files done d rest n s ∧ fileBytes done + n = bytes

theorem Job.openNext (hj : Job base p contents t0 files)
    (hs : Idle base p contents t0 files done rest s)
    (hindex : s.progress.listIndex + 1 = done.length) :
    ∃ s', s.openNext Tree.fileSystem = (.ok (), s') ∧
      Received base p contents t0 files (fileBytes done) s' := by
  have hi : (s.progress.listIndex + 1).toNat = done.length := by omega
  have hdrop : s.files.drop done.length = rest := by
    rw [hs.sane.list, hs.split, List.drop_left]
  obtain ⟨s1, hnext, hreached⟩ := hj.nextFile hs
  unfold PasteTaskHandle.openNext
  dsimp only
  rw [hi, hdrop, hnext]
  refine ⟨s1.endOfList, rfl, ?_⟩
  unfold PasteTaskHandle.endOfList
  rcases hreached with ⟨hidle, hbytes⟩ | ⟨done', d, rest', hbusy, hbytes⟩
  · rw [hidle.closed]
    refine .inl ⟨⟨⟨?_, hidle.split, hidle.closed, hidle.current, hidle.upto⟩, ?_⟩, hbytes⟩
    · exact ⟨hidle.sane.targetDir, hidle.sane.list, hidle.sane.error, hidle.sane.canceled,
        hidle.sane.total⟩
    · show (s1.files.length : Int) = _
      rw [hidle.sane.list]
  · obtain ⟨f, hf, -⟩ := hbusy.opened
    rw [hf]
    exact .inr ⟨done', d, rest', 0, hbusy, hbytes⟩

/-- A file that is all there. -/
theorem Job.onDone (hj : Job base p contents t0 files) (hsane : Sane p files s)
    (hsplit : files = done ++ d :: rest) (hkind : d.kind = .file)
    (hdownload : s.progress.downloadFileIndex = done.length)
    (hcurrent : s.progress.currentSize = fileBytes (done ++ [d]) % 2 ^ 64) {f : Nat}
    (hf : s.progress.fileHandle = some f)
    (ho : Opened base p contents t0 done d rest s.progress.downloadFilePath f d.size s.disk) :
    Idle base p contents t0 files (done ++ [d]) rest (s.onDone Tree.fileSystem) ∧
      (s.onDone Tree.fileSystem).progress.listIndex = s.progress.listIndex := by
  obtain ⟨new, disk, hget, hrename, hu⟩ := hj.finish hsplit hkind ho
  rw [← hsane.targetDir] at hget
  have hat : s.files[asUsize s.progress.downloadFileIndex]? = some d := by
    rw [hdownload]
    exact hj.fileAt hsplit hsane.list
  have hdone : s.onDone Tree.fileSystem = { s with
      progress := { s.progress with
        fileHandle := none
        downloadFilePath := ""
        downloadFileIndex := -1 }
      disk } := by
    unfold PasteTaskHandle.onDone
    rw [hf]
    dsimp only
    rw [if_neg (by omega)]
    unfold PasteTaskHandle.fileAt
    dsimp only
    rw [hat]
    dsimp only
    rw [hget]
    dsimp only
    rw [hrename]
  rw [hdone]
  refine ⟨⟨?_, ?_, rfl, hcurrent, hu⟩, rfl⟩
  · exact ⟨hsane.targetDir, hsane.list, hsane.error, hsane.canceled, hsane.total⟩
  · rw [hsplit]
    simp

theorem Busy.not_finished (hs : Busy base p contents t0 files done d rest n s) :
    s.isFinished = false := by
  have hlen : files.length = done.length + (rest.length + 1) := by
    rw [hs.split]
    simp
  unfold PasteTaskHandle.isFinished
  rw [hs.sane.canceled, hs.sane.error, hs.sane.list, hs.index]
  simp
  omega

/-- Some more of the file, or the rest of it. -/
theorem Job.receive_data (hj : Job base p contents t0 files)
    (hs : Busy base p contents t0 files done d rest n s) {r : FileContentsResponse}
    (hbs : r.requestedData ≠ []) (hdata : r.requestedData <+: (contents done.length).drop n) :
    ∃ s', s.handleFileContentsResponse Tree.fileSystem r = (.ok (), s') ∧
      Received base p contents t0 files (fileBytes done + n + r.requestedData.length) s' := by
  obtain ⟨f, hf, ho⟩ := hs.opened
  obtain ⟨disk, hwrite, ho'⟩ := hj.write hs.split hs.kind ho hs.more.le hbs hdata
  have hfit : n + r.requestedData.length ≤ d.size := by
    have := hdata.length_le
    rw [List.length_drop, hj.size hs.split hs.kind] at this
    have := hs.more
    omega
  have hcur : ((s.progress.currentSize + r.requestedData.length) % 2 ^ 64) =
      (fileBytes done + (n + r.requestedData.length)) % 2 ^ 64 := by
    rw [hs.current, Nat.mod_add_mod, Nat.add_assoc]
  have hfin : PasteTaskHandle.isFinished { s with disk } = false := hs.not_finished
  unfold PasteTaskHandle.handleFileContentsResponse
  rw [hf]
  dsimp only
  rw [hwrite]
  dsimp only
  unfold PasteTaskHandle.updateNext
  rw [hfin, if_neg (by decide)]
  dsimp only
  rw [hs.index, if_neg (by omega), hs.size, hs.offset]
  have hsane : Sane p files s := hs.sane
  split_ifs with hlast
  · -- The file is complete.
    have hall : n + r.requestedData.length = d.size := by omega
    rw [hall] at ho' hcur
    have hbytes : fileBytes (done ++ [d]) = fileBytes done + d.size := by
      rw [fileBytes_append]
      simp [fileBytes, hs.kind]
    obtain ⟨hidle, hindex⟩ := hj.onDone
      (s := PasteTaskHandle.count { s with disk } r.requestedData.length)
      ⟨hsane.targetDir, hsane.list, hsane.error, hsane.canceled, hsane.total⟩ hs.split hs.kind
      hs.download (by rw [hbytes]; exact hcur) hf ho'
    obtain ⟨s', hopen, hrec⟩ := hj.openNext hidle (by
      rw [hindex]
      show s.progress.listIndex + 1 = _
      rw [hs.index]
      simp)
    refine ⟨s', hopen, ?_⟩
    rw [Nat.add_assoc, hall, ← hbytes]
    exact hrec
  · refine ⟨_, rfl, .inr ⟨done, d, rest, n + r.requestedData.length, ?_, (Nat.add_assoc ..).symm⟩⟩
    have hopen : (PasteTaskHandle.moveOffset (PasteTaskHandle.count { s with disk }
        r.requestedData.length) r.requestedData.length).progress.fileHandle = some f := hf
    unfold PasteTaskHandle.endOfList
    rw [hopen]
    refine ⟨⟨hsane.targetDir, hsane.list, hsane.error, hsane.canceled, hsane.total⟩, hs.split,
      hs.kind, by omega, hs.index, hs.download, hs.size, ?_, hcur, f, hf, ho'⟩
    show s.progress.offset + _ = _
    rw [hs.offset]

/-- After the end of the list. -/
structure Ended (base : Place) (p : String) (contents : Nat → Bytes) (t0 : Tree)
    (files : List FileDescription) (s : PasteTaskHandle Tree Nat) : Prop where
  finished : s.isFinished = true
  upto : Upto base p contents t0 files [] s.disk
  current : s.progress.currentSize = fileBytes files % 2 ^ 64
  total : s.progress.totalSize = (files.map (·.size)).sum % 2 ^ 64
  error : s.progress.error = none ↔ s.progress.currentSize = s.progress.totalSize

/-- The request for what comes after the first `n` bytes of a file. -/
def requestAt (done : List FileDescription) (d : FileDescription) (n : Nat) :
    FileContentsRequest where
  connId := d.connId
  streamId := done.length
  listIndex := done.length
  nPositionHigh := n / 2 ^ 32
  nPositionLow := n % 2 ^ 32
  cbRequested := min PasteTaskHandle.blockSize (d.size - n)

/-- A task and its request, when the good responses so far had so many bytes. -/
def InFlight (base : Place) (p : String) (contents : Nat → Bytes) (t0 : Tree)
    (files : List FileDescription) (bytes : Nat)
    (s : PasteTaskHandle Tree Nat × List FileContentsRequest) : Prop :=
  (Ended base p contents t0 files s.1 ∧ s.2 = [] ∧ fileBytes files = bytes) ∨
    ∃ done d rest n, Busy base p contents t0 files done d rest n s.1 ∧
      s.2 = [requestAt done d n] ∧ fileBytes done + n = bytes

theorem Over.finished (hs : Over base p contents t0 files s) : s.isFinished = true := by
  unfold PasteTaskHandle.isFinished
  rw [hs.1.sane.list, hs.2]
  simp

theorem Over.ended (hs : Over base p contents t0 files s) :
    Ended base p contents t0 files (s.onFinished Tree.fileSystem) := by
  have hfin := hs.finished
  obtain ⟨hidle, -⟩ := hs
  have hdone : s.onDone Tree.fileSystem = s := by
    unfold PasteTaskHandle.onDone
    rw [hidle.closed]
  have hend : (if s.progress.error.isSome then s.onCancelled Tree.fileSystem
      else s.onDone Tree.fileSystem) = s := by
    rw [hidle.sane.error, hdone]
    rfl
  unfold PasteTaskHandle.onFinished
  dsimp only
  rw [hend]
  split_ifs with hsize
  · refine ⟨by simp [PasteTaskHandle.isFinished, PasteTaskHandle.fail], hidle.upto, hidle.current,
      hidle.sane.total, ?_⟩
    exact ⟨fun herr => (by cases herr), fun heq => absurd heq hsize⟩
  · exact ⟨hfin, hidle.upto, hidle.current, hidle.sane.total,
      fun _ => not_not.mp hsize, fun _ => hidle.sane.error⟩

theorem Job.send (hj : Job base p contents t0 files)
    (hs : Busy base p contents t0 files done d rest n s) :
    s.sendFileContentsRequest Tree.fileSystem = (s, [requestAt done d n]) := by
  have hat := hj.fileAt hs.split hs.sane.list
  unfold PasteTaskHandle.sendFileContentsRequest
  rw [hs.not_finished, if_neg (by decide), hs.index, hat]
  dsimp only
  rw [hs.offset]
  rfl

theorem Job.goOn (hj : Job base p contents t0 files) {bytes : Nat}
    (hs : Received base p contents t0 files bytes s) :
    InFlight base p contents t0 files bytes (s.goOn Tree.fileSystem) := by
  unfold PasteTaskHandle.goOn
  rcases hs with ⟨hover, hbytes⟩ | ⟨done, d, rest, n, hbusy, hbytes⟩
  · rw [hover.finished, Bool.not_true, if_neg (by decide)]
    have hretry : Over base p contents t0 files { s with retryCount := 0 } := by
      obtain ⟨hidle, hindex⟩ := hover
      have hsane := hidle.sane
      exact ⟨⟨⟨hsane.targetDir, hsane.list, hsane.error, hsane.canceled, hsane.total⟩,
        hidle.split, hidle.closed, hidle.current, hidle.upto⟩, hindex⟩
    exact .inl ⟨hretry.ended, rfl, hbytes⟩
  · rw [hbusy.not_finished, Bool.not_false, if_pos rfl, hj.send hbusy]
    exact .inr ⟨done, d, rest, n, hbusy, rfl, hbytes⟩

theorem Job.start (hj : Job base p contents t0 files) :
    InFlight base p contents t0 files 0 (start Tree.fileSystem p files t0) := by
  have hinit : Idle base p contents t0 files [] files
      { progress := { totalSize := (files.map (·.size)).sum % 2 ^ 64 }, targetDir := p, files,
        disk := t0 } := by
    refine ⟨⟨rfl, rfl, rfl, rfl, rfl⟩, rfl, rfl, rfl, hj.ready, ?_, by simp, ?_, hj.clear.there, ?_⟩
    · exact ⟨fun _ _ => rfl, fun _ _ => rfl, le_refl _⟩
    · exact ⟨fun _ => [], by simp, by simp⟩
    · exact ⟨[], fun q hq => .inl hq, le_refl _⟩
  have hcount : Idle base p contents t0 files [] files (PasteTaskHandle.count
      { progress := { totalSize := (files.map (·.size)).sum % 2 ^ 64 }, targetDir := p, files,
        disk := t0 } 0) :=
    ⟨⟨rfl, rfl, rfl, rfl, rfl⟩, rfl, rfl, rfl, hinit.upto⟩
  obtain ⟨s', hopen, hrec⟩ := hj.openNext hcount rfl
  have hnext : (PasteTaskHandle.updateNext Tree.fileSystem
      { progress := { totalSize := (files.map (·.size)).sum % 2 ^ 64 }, targetDir := p, files,
        disk := t0 } 0) = (.ok (), s') := by
    unfold PasteTaskHandle.updateNext
    rw [if_neg (by simp [PasteTaskHandle.isFinished]; omega), if_pos rfl, hopen]
  unfold Paste.start
  dsimp only
  rw [hnext]
  rcases hrec with ⟨hover, hbytes⟩ | ⟨done, d, rest, n, hbusy, hbytes⟩
  · rw [if_pos hover.finished]
    exact .inl ⟨hover.ended, rfl, hbytes⟩
  · rw [if_neg (by simp [hbusy.not_finished]), hj.send hbusy]
    exact .inr ⟨done, d, rest, n, hbusy, rfl, hbytes⟩

/-! ## Good responses -/

/-- A response with the next bytes that a request asks for, some at least. -/
structure Answers (contents : Nat → Bytes) (q : FileContentsRequest) (r : FileContentsResponse) :
    Prop where
  connId : r.connId = q.connId
  flags : r.msgFlags = 1
  streamId : r.streamId = q.streamId
  nonempty : r.requestedData ≠ []
  fits : r.requestedData.length ≤ q.cbRequested
  data : r.requestedData <+:
    (contents q.listIndex.toNat).drop (q.nPositionHigh * 2 ^ 32 + q.nPositionLow)

/-- A task, the requests it made last, and a response. -/
def answer (s : PasteTaskHandle Tree Nat × List FileContentsRequest) (r : FileContentsResponse) :
    PasteTaskHandle Tree Nat × List FileContentsRequest := s.1.receive Tree.fileSystem r

def Good (contents : Nat → Bytes) (s : PasteTaskHandle Tree Nat × List FileContentsRequest)
    (r : FileContentsResponse) : Prop := ∃ q ∈ s.2, Answers contents q r

def delivered (rs : List FileContentsResponse) : Nat :=
  (rs.map (·.requestedData.length)).sum

theorem position_requestAt (done : List FileDescription) (d : FileDescription) (n : Nat) :
    (requestAt done d n).nPositionHigh * 2 ^ 32 + (requestAt done d n).nPositionLow = n := by
  show n / 2 ^ 32 * 2 ^ 32 + n % 2 ^ 32 = n
  omega

/-- A good response brings the task on by its bytes. -/
theorem Job.answer (hj : Job base p contents t0 files) {bytes : Nat}
    {sq : PasteTaskHandle Tree Nat × List FileContentsRequest}
    (hs : InFlight base p contents t0 files bytes sq) {r : FileContentsResponse}
    (hr : Good contents sq r) :
    InFlight base p contents t0 files (bytes + r.requestedData.length) (answer sq r) := by
  obtain ⟨q, hq, hans⟩ := hr
  rcases hs with ⟨-, hnone, -⟩ | ⟨done, d, rest, n, hbusy, hreq, rfl⟩
  · rw [hnone] at hq
    cases hq
  rw [hreq, List.mem_singleton] at hq
  subst hq
  have hdata := hans.data
  rw [position_requestAt] at hdata
  have hindex : (requestAt done d n).listIndex.toNat = done.length := Int.toNat_natCast _
  rw [hindex] at hdata
  obtain ⟨s', hhandle, hrec⟩ := hj.receive_data hbusy hans.nonempty hdata
  have hstream : r.streamId = done.length := hans.streamId
  have hconn : d.connId = r.connId := hans.connId.symm
  have hat := hj.fileAt hbusy.split hbusy.sane.list
  unfold Paste.answer PasteTaskHandle.receive
  rw [hbusy.not_finished, if_neg (by decide), hstream, hbusy.index, if_neg (by simp), hans.flags,
    if_neg (by simp), hat]
  dsimp only
  rw [if_neg (by simp [hconn]), hhandle]
  exact hj.goOn hrec

theorem Job.run (hj : Job base p contents t0 files) :
    ∀ {rs : List FileContentsResponse} {bytes : Nat}
      {sq : PasteTaskHandle Tree Nat × List FileContentsRequest},
      InFlight base p contents t0 files bytes sq → Along Paste.answer (Good contents) sq rs →
        InFlight base p contents t0 files (bytes + delivered rs) (run Paste.answer sq rs)
  | [], _, _, hs, _ => hs
  | r :: rs, bytes, sq, hs, hgood => by
      have hrest := Job.run hj (hj.answer hs hgood.1) hgood.2
      rw [run_cons]
      rwa [Nat.add_assoc] at hrest

/-! ## Complete pastes -/

/-- Every file of the list is there under a name that was free, with its content, the sizes agree
    and there is no error; no file that was there before has changed. -/
structure Complete (base : Place) (contents : Nat → Bytes) (t0 : Tree)
    (files : List FileDescription) (s : PasteTaskHandle Tree Nat) : Prop where
  finished : s.isFinished = true
  present : ∃ place, Present base contents t0 files place s.disk
  sizes : s.progress.currentSize = s.progress.totalSize
  error : s.progress.error = none
  unchanged : ∀ q bs, t0.content q = some bs → s.disk.content q = some bs

theorem Preserved.content_same (hp : Preserved t0 t) (ht : t0.Sound) {q : Place} {bs : Bytes}
    (hq : t0.content q = some bs) : t.content q = some bs := by
  unfold Tree.content at hq ⊢
  cases hnode : t0.node q with
  | none => simp [hnode] at hq
  | some e =>
    rw [hp.node q (by simp [hnode]), hnode]
    rw [hnode] at hq
    cases e with
    | file i =>
      dsimp only at hq ⊢
      rw [hp.contents i (ht.inode q i hnode)]
      exact hq
    | dir => exact hq
    | link target => exact hq

/-- All is there in any case; only the sizes decide. -/
theorem Ended.complete_iff (hs : Ended base p contents t0 files s) (ht : t0.Sound) :
    Complete base contents t0 files s ↔ otherBytes files % 2 ^ 64 = 0 := by
  have hsizes : s.progress.currentSize = s.progress.totalSize ↔ otherBytes files % 2 ^ 64 = 0 := by
    rw [hs.current, hs.total, sum_sizes]
    omega
  constructor
  · intro hc
    exact hsizes.mp hc.sizes
  · intro hzero
    have heq := hsizes.mpr hzero
    exact ⟨hs.finished, hs.upto.present, heq, hs.error.mpr heq,
      fun q bs hq => hs.upto.preserved.content_same ht hq⟩

/-- While something is missing there is a request, and a good response to it. -/
theorem Job.goes_on (hj : Job base p contents t0 files)
    (hs : Busy base p contents t0 files done d rest n s) :
    ∃ r, Answers contents (requestAt done d n) r := by
  have hsize := hj.size hs.split hs.kind
  have hmore := hs.more
  refine ⟨⟨d.connId, 1, done.length,
    ((contents done.length).drop n).take (min PasteTaskHandle.blockSize (d.size - n))⟩,
    rfl, rfl, rfl, ?_, ?_, ?_⟩
  · have hblock : 0 < PasteTaskHandle.blockSize := by decide
    intro hnil
    have hlen := congrArg List.length hnil
    rw [List.length_take, List.length_drop, hsize, List.length_nil] at hlen
    omega
  · exact (List.length_take_le _ _)
  · rw [position_requestAt]
    exact List.take_prefix _ _

end Task

/-- A list in preorder is pasted where nothing is in the way, and every response is a good one.
    Until all bytes of the files have come there is a request that can be answered; then the paste
    is complete exactly if what is no file has no size, up to overflow. -/
theorem paste_complete_iff {base : Place} {p : String} {t : Tree} (hready : t.Ready base p)
    {files : List FileDescription} (hlist : Preorder files) (hshort : files.length < 2 ^ 31)
    {contents : Nat → Bytes}
    (hsizes : ∀ j d, files[j]? = some d → d.kind = .file → (contents j).length = d.size)
    (hclear : Unobstructed base files t) (rs : List FileContentsResponse)
    (hgood : Along answer (Good contents) (start Tree.fileSystem p files t) rs) :
    delivered rs ≤ fileBytes files ∧
      (delivered rs < fileBytes files →
        ∃ r, Good contents (run answer (start Tree.fileSystem p files t) rs) r) ∧
      (delivered rs = fileBytes files →
        (Complete base contents t files (run answer (start Tree.fileSystem p files t) rs).1 ↔
          otherBytes files % 2 ^ 64 = 0)) := by
  have hj : Job base p contents t files := ⟨hready, hlist, hsizes, hclear, hshort⟩
  have hrun := hj.run hj.start hgood
  rw [Nat.zero_add] at hrun
  rcases hrun with ⟨hended, -, hbytes⟩ | ⟨done, d, rest, n, hbusy, hreq, hbytes⟩
  · refine ⟨hbytes.ge, fun hless => ?_, fun _ => hended.complete_iff hready.sound⟩
    omega
  · have hless : delivered rs < fileBytes files := by
      have hrest : fileBytes (d :: rest) = d.size + fileBytes rest := by
        simp [fileBytes, hbusy.kind]
      have hmore := hbusy.more
      rw [← hbytes, hbusy.split, fileBytes_append, hrest]
      omega
    refine ⟨hless.le, fun _ => ?_, fun heq => absurd heq hless.ne⟩
    obtain ⟨r, hr⟩ := hj.goes_on hbusy
    exact ⟨r, requestAt done d n, by rw [hreq]; exact List.mem_singleton_self _, hr⟩

/-! ### A directory and a file in it -/

/-- A directory as the file system of the peer reports it. -/
def directory (size : UInt64) : Clip.LocalFileEntry :=
  { Clip.sampleEntry "d" (by decide) with isDir := true, normal := false, size := size }

def dirEntry (size : UInt64) : FileDescription := Clip.described 1 (directory size)

def fileEntry : FileDescription := Clip.described 1 (oneByte "d/x" (by decide))

theorem sound_target : target.Sound := by
  have hnode (q : Place) : target.node q =
      if q = [] then some .dir else if q = ["t"] then some .dir else none := by
    unfold Lib.Tree.node
    split_ifs with h1 h2
    · rfl
    · rw [h2]
      rfl
    · have hne : (q == ["t"]) = false := beq_false_of_ne h2
      simp only [target, Tree.ofEntries, List.lookup_cons, hne, List.lookup_nil]
  constructor
  · intro q x hq
    rw [hnode] at hq ⊢
    rw [if_neg (by simp)] at hq
    split_ifs at hq with ht
    · have hnil : q = [] := (List.append_inj' (ht.trans (List.nil_append ["t"]).symm) rfl).1
      rw [if_pos hnil]
    · exact absurd rfl hq
  · intro q i hq
    rw [hnode] at hq
    split_ifs at hq
    · cases hq
    · cases hq

theorem ready_target : target.Ready ["t"] "/t" := ⟨leads_target, noLinks_target, sound_target⟩

theorem entryName_unique {name name' : String} {init init' : List String} {last last' : String}
    (h : EntryName name init last) (h' : EntryName name' init' last') (hname : name = name') :
    init = init' ∧ last = last' := by
  have hnames := h.names
  rw [hname, h'.names] at hnames
  obtain ⟨h1, h2⟩ := List.append_inj' hnames rfl
  exact ⟨h1.symm, (List.singleton_inj.mp h2).symm⟩

theorem dirEntry_name (size : UInt64) : EntryName (dirEntry size).name [] "d" := by
  have hname : (dirEntry size).name = "d" := by
    show String.ofList ("d".toList.map fun c => if c = '\\' then '/' else c) = "d"
    decide +kernel
  refine ⟨by rw [hname]; rfl, ?_⟩
  simp [NoSlash]

theorem fileEntry_name : EntryName fileEntry.name ["d"] "x" := by
  refine ⟨by decide +kernel, ?_⟩
  simp [NoSlash]

theorem preorder_dir (size : UInt64) : Preorder [dirEntry size] where
  names d hd := by
    rw [List.mem_singleton.mp hd]
    exact ⟨_, _, dirEntry_name size⟩
  parents before d after init last hsplit hname := by
    cases before with
    | nil =>
      cases hsplit
      exact .inl (entryName_unique hname (dirEntry_name size) rfl).1
    | cons e before => simp at hsplit

theorem split_pair {a b d : FileDescription} {before after : List FileDescription}
    (h : [a, b] = before ++ d :: after) : (before = [] ∧ d = a) ∨ (before = [a] ∧ d = b) := by
  cases before with
  | nil =>
    cases h
    exact .inl ⟨rfl, rfl⟩
  | cons x before =>
    cases before with
    | nil =>
      cases h
      exact .inr ⟨rfl, rfl⟩
    | cons y before => simp at h

theorem preorder_dir_file (size : UInt64) : Preorder [dirEntry size, fileEntry] where
  names d hd := by
    rcases List.mem_pair.mp hd with rfl | rfl
    · exact ⟨_, _, dirEntry_name size⟩
    · exact ⟨_, _, fileEntry_name⟩
  parents before d after init last hsplit hname := by
    rcases split_pair hsplit with ⟨rfl, rfl⟩ | ⟨rfl, rfl⟩
    · exact .inl (entryName_unique hname (dirEntry_name size) rfl).1
    · refine .inr ⟨dirEntry size, by simp, rfl, ?_⟩
      rw [(entryName_unique hname fileEntry_name rfl).1, (dirEntry_name size).names]
      rfl

theorem room_target {last : String} (hfree : ∀ k ∈ [1, 2, 3],
    target.node (["t"] ++ (["d"] ++ [numberedName last k])) = none) :
    Room 2 ["t"] ["d"] last target := by
  refine ⟨[1, 2, 3], by decide, by decide, fun k hk => ⟨?_, ?_, hfree k hk⟩⟩
  · revert k
    decide
  · revert k
    decide

theorem unobstructed_target : Unobstructed ["t"] [dirEntry 0, fileEntry] target where
  there d hd hkind i := by
    rcases List.mem_pair.mp hd with rfl | rfl
    · have hnone : target.node (["t"] ++ ([] ++ ["d"])) = none := by decide +kernel
      rw [(dirEntry_name 0).names, hnone]
      simp
    · cases hkind
  received before d after hsplit hkind e he := by
    rcases split_pair hsplit with ⟨rfl, rfl⟩ | ⟨rfl, rfl⟩
    · cases he
    · cases hkind
  room d hd hkind init last hname := by
    rcases List.mem_pair.mp hd with rfl | rfl
    · cases hkind
    · obtain ⟨rfl, rfl⟩ := entryName_unique hname fileEntry_name rfl
      exact ⟨room_target (by decide +kernel), room_target (by decide +kernel)⟩

theorem answer_one_byte : Along answer (Good fun _ => [5])
    (start Tree.fileSystem "/t" [dirEntry 0, fileEntry] target) [⟨1, 1, 1, [5]⟩] := by
  refine ⟨⟨⟨1, 1, 1, 2, 0, 0, 1⟩, by decide +kernel, ?_⟩, trivial⟩
  exact ⟨rfl, rfl, rfl, by decide, by decide, by decide⟩

/-- With a directory that has no size the paste is complete. -/
theorem paste_complete_dir_file :
    Complete ["t"] (fun _ => [5]) target [dirEntry 0, fileEntry]
      (run answer (start Tree.fileSystem "/t" [dirEntry 0, fileEntry] target)
        [⟨1, 1, 1, [5]⟩]).1 := by
  refine ((paste_complete_iff ready_target (preorder_dir_file 0) (by decide) ?_ unobstructed_target
    _ answer_one_byte).2.2 (by decide +kernel)).mpr (by decide +kernel)
  intro j d hj hkind
  have hmem := List.mem_of_getElem? hj
  rcases List.mem_pair.mp hmem with rfl | rfl
  · cases hkind
  · rfl

/-- A directory of 4096 bytes, as it is on many file systems: the list is over at once, and the
    task says that it has failed. -/
theorem directory_fails :
    ¬ ∀ (base : Place) (p : String) (t : Tree) (files : List FileDescription)
      (contents : Nat → Bytes) (rs : List FileContentsResponse), t.Ready base p → Preorder files →
        files.length < 2 ^ 31 →
          (∀ j d, files[j]? = some d → d.kind = .file → (contents j).length = d.size) →
            Along answer (Good contents) (start Tree.fileSystem p files t) rs →
              delivered rs = fileBytes files →
                Complete base contents t files
                  (run answer (start Tree.fileSystem p files t) rs).1 := by
  intro hall
  have hcomplete := hall ["t"] "/t" target [dirEntry 4096] (fun _ => []) [] ready_target
    (preorder_dir 4096) (by decide) (by
      intro j d hj hkind
      rw [List.mem_singleton.mp (List.mem_of_getElem? hj)] at hkind
      cases hkind) trivial (by decide +kernel)
  exact absurd hcomplete.error (by decide +kernel)

end Paste

end LuodaRemote
