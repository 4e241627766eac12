/-
  The codec of a video session (`Encoder::update` and `Decoder::supported_decodings` of
  libs/scrap/src/common/codec.rs).

  Every peer sends what it can decode and what it prefers, and each update picks one codec for all
  of them: the most frequent preference among those that can be met, or a default by availability.
  VP8, AV1, H264 and H265 are taken only if all peers can decode them. VP9 has no such test: it is
  the codec everyone is taken to decode. `negotiated_codec_decodable` says what is true of every
  run of updates, `vp9_not_decodable` is a peer that has given up on VP9 and still gets it.

  The map of peers is iterated in an order of its own, which every update may change. Of the
  preferences with the most votes the first one is taken, so that the order decides where two are
  tied, and nowhere else (`order_matters_iff_tied`).
-/
import LuodaRemote.Lib.Run

namespace LuodaRemote
open Lib

namespace Codec

/-! ## What a peer can decode -/

inductive CodecFormat where
  | vp8 | vp9 | av1 | h264 | h265 | unknown
deriving DecidableEq

inductive PreferCodec where
  | auto | vp9 | h264 | h265 | vp8 | av1
deriving DecidableEq

/-- The number of a preference in the protocol. -/
def PreferCodec.value : PreferCodec → Int
  | .auto => 0
  | .vp9 => 1
  | .h264 => 2
  | .h265 => 3
  | .vp8 => 4
  | .av1 => 5

/-- `EnumOrUnknown::enum_value_or(PreferCodec::Auto)`. -/
def enumValueOrAuto (n : Int) : PreferCodec :=
  if n = 1 then .vp9 else if n = 2 then .h264 else if n = 3 then .h265
  else if n = 4 then .vp8 else if n = 5 then .av1 else .auto

/-- What `update` reads of the message; `prefer` may be a number that stands for nothing. -/
structure SupportedDecoding where
  abilityVp8 : Int
  abilityVp9 : Int
  abilityAv1 : Int
  abilityH264 : Int
  abilityH265 : Int
  prefer : Int
deriving DecidableEq

def SupportedDecoding.ability (d : SupportedDecoding) : CodecFormat → Int
  | .vp8 => d.abilityVp8
  | .vp9 => d.abilityVp9
  | .av1 => d.abilityAv1
  | .h264 => d.abilityH264
  | .h265 => d.abilityH265
  | .unknown => 0

/-- A codec whose decoder failed is marked. -/
def SupportedDecoding.unsupport (d : SupportedDecoding) : CodecFormat → SupportedDecoding
  | .vp8 => { d with abilityVp8 := 0 }
  | .vp9 => { d with abilityVp9 := 0 }
  | .av1 => { d with abilityAv1 := 0 }
  | .h264 => { d with abilityH264 := 0 }
  | .h265 => { d with abilityH265 := 0 }
  | .unknown => d

/-- `Decoder::supported_decodings`, with what the hardware of the peer decodes. -/
def supportedDecodings (prefer : PreferCodec) (disableAv1 h264 h265 : Bool)
    (markUnsupported : List CodecFormat) : SupportedDecoding :=
  markUnsupported.foldl SupportedDecoding.unsupport
    { abilityVp8 := 1
      abilityVp9 := 1
      abilityAv1 := if disableAv1 then 0 else 1
      abilityH264 := if h264 then 1 else 0
      abilityH265 := if h265 then 1 else 0
      prefer := prefer.value }

/-! ## The update -/

/-- What the host finds available at an update. A build without `vram` or `hwcodec` is one where
    the option is off. -/
structure Available where
  disableAv1 : Bool
  vramOption : Bool
  vramH264 : Bool
  vramH265 : Bool
  hwcodecOption : Bool
  hwH264 : Bool
  hwH265 : Bool
  /-- The option `av1-test` is not `N`. -/
  av1Test : Bool
  totalMemory : Nat

def Available.h264 (a : Available) : Bool :=
  a.vramOption && a.vramH264 || a.hwcodecOption && a.hwH264

def Available.h265 (a : Available) : Bool :=
  a.vramOption && a.vramH265 || a.hwcodecOption && a.hwH265

/-- The host can encode the codec. -/
def Available.encodes (a : Available) : CodecFormat → Bool
  | .vp8 => true
  | .vp9 => true
  | .av1 => !a.disableAv1
  | .h264 => a.h264
  | .h265 => a.h265
  | .unknown => false

structure SupportedEncoding where
  vp8 : Bool
  av1 : Bool
  h264 : Bool
  h265 : Bool
deriving DecidableEq

abbrev Peers := List (Int × SupportedDecoding)

/-- The order in which a map is iterated. -/
structure Order where
  of : Peers → Peers
  perm : ∀ peers, (of peers).Perm peers

inductive EncodingUpdate where
  | update (id : Int) (decoding : SupportedDecoding)
  | remove (id : Int)
  | newOnlyVp9 (id : Int)
  | check
deriving DecidableEq

/-- `PEER_DECODINGS`, `ENCODE_CODEC_FORMAT` and `USABLE_ENCODING`. -/
structure Negotiation where
  decodings : Peers
  format : CodecFormat
  usable : Option SupportedEncoding
deriving DecidableEq

def Negotiation.new : Negotiation where
  decodings := []
  format := .vp9
  usable := none

def insertPeer (id : Int) (d : SupportedDecoding) (peers : Peers) : Peers :=
  (id, d) :: peers.filter (·.1 != id)

def removePeer (id : Int) (peers : Peers) : Peers := peers.filter (·.1 != id)

def updatePeers (peers : Peers) : EncodingUpdate → Peers
  | .update id decoding => insertPeer id decoding peers
  | .remove id => removePeer id peers
  | .newOnlyVp9 id =>
    insertPeer id { abilityVp8 := 0, abilityVp9 := 1, abilityAv1 := 0, abilityH264 := 0,
                    abilityH265 := 0, prefer := PreferCodec.auto.value } peers
  | .check => peers

/-- There is a peer, and all peers decode the codec. -/
def allSupport (peers : Peers) (c : CodecFormat) : Bool :=
  decide (0 < peers.length) && peers.all fun p => decide (0 < p.2.ability c)

/-- What `update` finds useable; `h264` and `h265` ask for an encoder only if all peers decode
    them. -/
def useable (a : Available) (peers : Peers) : SupportedEncoding where
  vp8 := allSupport peers .vp8
  av1 := allSupport peers .av1 && !a.disableAv1
  h264 := allSupport peers .h264 && a.h264
  h265 := allSupport peers .h265 && a.h265

/-- The filter on the preferences. -/
def canBeMet (u : SupportedEncoding) (prefer : Int) : Bool :=
  prefer == PreferCodec.vp9.value
    || prefer == PreferCodec.vp8.value && u.vp8
    || prefer == PreferCodec.av1.value && u.av1
    || prefer == PreferCodec.h264.value && u.h264
    || prefer == PreferCodec.h265.value && u.h265

def preferences (u : SupportedEncoding) (peers : Peers) : List Int :=
  (peers.map (·.2.prefer)).filter (canBeMet u)

/-- Counts one more vote, at the end of the list if it is the first one for `pref`. -/
def countVote (pref : Int) : List (Int × Nat) → List (Int × Nat)
  | [] => [(pref, 1)]
  | (p, count) :: rest =>
    if p = pref then (p, count + 1) :: rest else (p, count) :: countVote pref rest

def countVotes (prefs : List Int) : List (Int × Nat) :=
  prefs.foldl (fun counts pref => countVote pref counts) []

/-- The first of the preferences that have the most votes. -/
def mostFrequent (prefs : List Int) : Int :=
  let counts := countVotes prefs
  let maxCount := (counts.map (·.2)).foldl max 0
  match counts.find? (·.2 == maxCount) with
  | some (pref, _) => pref
  | none => PreferCodec.auto.value

/-- `h265 > h264 > av1/vp9/vp8`. -/
def autoCodec (a : Available) (u : SupportedEncoding) : CodecFormat :=
  let codec := if u.av1 && a.av1Test then CodecFormat.av1 else .vp9
  let codec := if u.h264 then CodecFormat.h264 else codec
  let codec := if u.h265 then CodecFormat.h265 else codec
  if codec = .vp9 ∨ codec = .av1 then
    if u.vp8 && decide (a.totalMemory ≤ 4 * 1024 * 1024 * 1024) then .vp8 else codec
  else codec

/-- The codec for a preference. The encoders of `h264` were asked for only if all peers decode it,
    so that `h264vram_encoding || h264hw_encoding.is_some()` is `u.h264`. -/
def chooseCodec (a : Available) (u : SupportedEncoding) : PreferCodec → CodecFormat
  | .vp8 => .vp8
  | .vp9 => .vp9
  | .av1 => .av1
  | .h264 => if u.h264 then .h264 else autoCodec a u
  | .h265 => if u.h265 then .h265 else autoCodec a u
  | .auto => autoCodec a u

def update (n : Negotiation) (e : Available × Order × EncodingUpdate) : Negotiation :=
  let (a, order, event) := e
  let decodings := order.of (updatePeers n.decodings event)
  let u := useable a decodings
  { decodings := decodings
    format := chooseCodec a u (enumValueOrAuto (mostFrequent (preferences u decodings)))
    usable := some u }

/-! ## The vote -/

variable {a : Available} {u : SupportedEncoding} {peers : Peers} {prefs : List Int}

theorem mem_countVote {pref : Int} {counts : List (Int × Nat)} {p : Int × Nat}
    (h : p ∈ countVote pref counts) : p.1 = pref ∨ ∃ q ∈ counts, q.1 = p.1 := by
  induction counts with
  | nil =>
    rw [countVote, List.mem_singleton] at h
    exact .inl (congrArg Prod.fst h)
  | cons head rest ih =>
    rw [countVote] at h
    split at h
    · rcases List.mem_cons.mp h with rfl | hmem
      · exact .inr ⟨head, List.mem_cons_self, rfl⟩
      · exact .inr ⟨p, List.mem_cons_of_mem head hmem, rfl⟩
    · rcases List.mem_cons.mp h with rfl | hmem
      · exact .inr ⟨head, List.mem_cons_self, rfl⟩
      · rcases ih hmem with heq | ⟨q, hq, heq⟩
        · exact .inl heq
        · exact .inr ⟨q, List.mem_cons_of_mem head hq, heq⟩

/-- Only what was voted for is counted. -/
theorem mem_countVotes {p : Int × Nat} (h : p ∈ countVotes prefs) : p.1 ∈ prefs := by
  have hfold : ∀ (votes : List Int) (counts : List (Int × Nat)),
      (∀ q ∈ counts, q.1 ∈ prefs) → (∀ v ∈ votes, v ∈ prefs) →
      ∀ q ∈ votes.foldl (fun counts pref => countVote pref counts) counts, q.1 ∈ prefs := by
    intro votes
    induction votes with
    | nil => exact fun counts hcounts _ => hcounts
    | cons v votes ih =>
      intro counts hcounts hvotes
      refine ih (countVote v counts) (fun q hq => ?_)
        fun w hw => hvotes w (List.mem_cons_of_mem v hw)
      rcases mem_countVote hq with heq | ⟨r, hr, heq⟩
      · rw [heq]
        exact hvotes v List.mem_cons_self
      · rw [← heq]
        exact hcounts r hr
  exact hfold prefs [] (fun q hq => absurd hq List.not_mem_nil) (fun _ hv => hv) p h

theorem mostFrequent_mem (prefs : List Int) :
    mostFrequent prefs ∈ prefs ∨ mostFrequent prefs = PreferCodec.auto.value := by
  unfold mostFrequent
  dsimp only
  split
  · next pref count hfind => exact .inl (mem_countVotes (List.mem_of_find?_eq_some hfind))
  · exact .inr rfl

/-! ## The codec -/

theorem allSupport_ability {c : CodecFormat} (h : allSupport peers c = true) :
    ∀ p ∈ peers, 0 < p.2.ability c := by
  intro p hp
  rw [allSupport, Bool.and_eq_true, List.all_eq_true] at h
  exact of_decide_eq_true (h.2 p hp)

/-- All peers decode the codec, or it is VP9 and nothing better was to be had. -/
def Settles (u : SupportedEncoding) (peers : Peers) (c : CodecFormat) : Prop :=
  (∀ p ∈ peers, 0 < p.2.ability c) ∨
    (c = .vp9 ∧ ((∃ p ∈ peers, p.2.prefer = PreferCodec.vp9.value) ∨
      u.h264 = false ∧ u.h265 = false))

theorem settles_h264 (h : (useable a peers).h264 = true) :
    Settles (useable a peers) peers .h264 :=
  .inl (allSupport_ability (Bool.and_eq_true_iff.mp h).1)

theorem settles_h265 (h : (useable a peers).h265 = true) :
    Settles (useable a peers) peers .h265 :=
  .inl (allSupport_ability (Bool.and_eq_true_iff.mp h).1)

theorem settles_vp8 (h : (useable a peers).vp8 = true) :
    Settles (useable a peers) peers .vp8 := .inl (allSupport_ability h)

theorem settles_av1 (h : (useable a peers).av1 = true) :
    Settles (useable a peers) peers .av1 :=
  .inl (allSupport_ability (Bool.and_eq_true_iff.mp h).1)

theorem settles_autoCodec : Settles (useable a peers) peers (autoCodec a (useable a peers)) := by
  cases h265 : (useable a peers).h265 with
  | true =>
    have hauto : autoCodec a (useable a peers) = .h265 := by simp [autoCodec, h265]
    exact hauto ▸ settles_h265 h265
  | false =>
    cases h264 : (useable a peers).h264 with
    | true =>
      have hauto : autoCodec a (useable a peers) = .h264 := by simp [autoCodec, h265, h264]
      exact hauto ▸ settles_h264 h264
    | false =>
      -- neither hardware codec: AV1 if it passed its test, VP8 on a small machine, else VP9
      by_cases hvp8 : (useable a peers).vp8 &&
          decide (a.totalMemory ≤ 4 * 1024 * 1024 * 1024)
      · have hauto : autoCodec a (useable a peers) = .vp8 := by
          simp only [autoCodec, h265, h264, hvp8]
          cases (useable a peers).av1 && a.av1Test <;> rfl
        exact hauto ▸ settles_vp8 (Bool.and_eq_true_iff.mp hvp8).1
      · rw [Bool.not_eq_true] at hvp8
        cases hav1 : (useable a peers).av1 && a.av1Test with
        | true =>
          have hauto : autoCodec a (useable a peers) = .av1 := by
            simp [autoCodec, h265, h264, hvp8, hav1]
          exact hauto ▸ settles_av1 (Bool.and_eq_true_iff.mp hav1).1
        | false =>
          have hauto : autoCodec a (useable a peers) = .vp9 := by
            simp [autoCodec, h265, h264, hvp8, hav1]
          exact .inr ⟨hauto, .inr ⟨h264, h265⟩⟩

/-- A preference that passed the filter is VP9, or all peers decode it. -/
theorem settles_preference {pref : Int} (hmem : pref ∈ preferences (useable a peers) peers) :
    Settles (useable a peers) peers
      (chooseCodec a (useable a peers) (enumValueOrAuto pref)) := by
  obtain ⟨hpeer, hmet⟩ := List.mem_filter.mp hmem
  obtain ⟨p, hp, hprefer⟩ := List.mem_map.mp hpeer
  simp only [canBeMet, Bool.or_eq_true, Bool.and_eq_true, beq_iff_eq] at hmet
  obtain (((rfl | ⟨rfl, hvp8⟩) | ⟨rfl, hav1⟩) | ⟨rfl, h264⟩) | ⟨rfl, h265⟩ := hmet
  · exact .inr ⟨rfl, .inl ⟨p, hp, hprefer⟩⟩
  · exact settles_vp8 hvp8
  · exact settles_av1 hav1
  · have hcodec : chooseCodec a (useable a peers) (enumValueOrAuto PreferCodec.h264.value) =
        .h264 :=
      if_pos h264
    exact hcodec ▸ settles_h264 h264
  · have hcodec : chooseCodec a (useable a peers) (enumValueOrAuto PreferCodec.h265.value) =
        .h265 :=
      if_pos h265
    exact hcodec ▸ settles_h265 h265

theorem settles_update (n : Negotiation) (e : Available × Order × EncodingUpdate) :
    ∃ u, (update n e).usable = some u ∧ Settles u (update n e).decodings (update n e).format := by
  obtain ⟨a, order, event⟩ := e
  refine ⟨_, rfl, ?_⟩
  show Settles _ _ (chooseCodec a _ (enumValueOrAuto (mostFrequent _)))
  rcases mostFrequent_mem (preferences (useable a (order.of (updatePeers n.decodings event)))
    (order.of (updatePeers n.decodings event))) with hmem | hauto
  · exact settles_preference hmem
  · rw [hauto]
    exact settles_autoCodec

/-! ## Every run -/

/-- With a peer connected, the codec is one that all peers decode, unless it is VP9: then a peer
    asked for VP9 or neither H264 nor H265 was useable. -/
def Negotiation.Decodable (n : Negotiation) : Prop :=
  n.decodings ≠ [] → ∃ u, n.usable = some u ∧ Settles u n.decodings n.format

theorem negotiated_codec_decodable (events : List (Available × Order × EncodingUpdate)) :
    Always update Negotiation.Decodable .new events :=
  always_of_step (fun n e _ _ => settles_update n e) (fun hne => absurd rfl hne) events

/-- Some codec that the host encodes is decoded by every peer. -/
def Available.Serves (a : Available) (peers : Peers) : Prop :=
  ∃ c, a.encodes c = true ∧ ∀ p ∈ peers, 0 < p.2.ability c

/-- A host without hardware encoders. -/
def softwareOnly : Available where
  disableAv1 := false
  vramOption := false
  vramH264 := false
  vramH265 := false
  hwcodecOption := false
  hwH264 := false
  hwH265 := false
  av1Test := true
  totalMemory := 8 * 1024 * 1024 * 1024

def asInserted : Order where
  of := fun peers => peers
  perm := fun peers => .refl peers

/-- A peer that prefers VP9 and has marked its decoder as failing is sent VP9, although the host
    could send it VP8 or AV1. -/
theorem vp9_not_decodable :
    ¬ ∀ events : List (Available × Order × EncodingUpdate), ∀ e,
      (run update .new (events ++ [e])).decodings ≠ [] →
      e.1.Serves (run update .new (events ++ [e])).decodings →
      ∀ p ∈ (run update .new (events ++ [e])).decodings,
        0 < p.2.ability (run update .new (events ++ [e])).format := by
  intro h
  have hpeer : (run update .new [(softwareOnly, asInserted,
      .update 1 (supportedDecodings .vp9 false false false [.vp9]))]).decodings =
        [(1, ⟨1, 0, 1, 0, 0, 1⟩)] := by decide
  have hformat : (run update .new [(softwareOnly, asInserted,
      .update 1 (supportedDecodings .vp9 false false false [.vp9]))]).format = .vp9 := by decide
  have hcodec := h [] (softwareOnly, asInserted,
    .update 1 (supportedDecodings .vp9 false false false [.vp9]))
  simp only [List.nil_append] at hcodec
  rw [hpeer, hformat] at hcodec
  have hserves : softwareOnly.Serves [(1, ⟨1, 0, 1, 0, 0, 1⟩)] := by
    refine ⟨.vp8, rfl, fun p hp => ?_⟩
    rw [List.mem_singleton.mp hp]
    decide
  exact absurd (hcodec (List.cons_ne_nil _ _) hserves _ List.mem_cons_self) (by decide)

/-! ## The order of the peers -/

/-- No preference has more votes. -/
def Frequent (prefs : List Int) (p : Int) : Prop := p ∈ prefs ∧ ∀ q, prefs.count q ≤ prefs.count p

theorem Frequent.perm {prefs prefs' : List Int} (hperm : prefs.Perm prefs') {p : Int}
    (hp : Frequent prefs p) : Frequent prefs' p :=
  ⟨hperm.mem_iff.mp hp.1, fun q => by rw [← hperm.count_eq, ← hperm.count_eq]; exact hp.2 q⟩

theorem keys_countVote (v : Int) (counts : List (Int × Nat)) :
    (countVote v counts).map Prod.fst =
      if v ∈ counts.map Prod.fst then counts.map Prod.fst else counts.map Prod.fst ++ [v] := by
  induction counts with
  | nil => rfl
  | cons head rest ih =>
    rw [countVote]
    by_cases hv : head.1 = v
    · rw [if_pos hv, if_pos (by simp [hv])]
      rfl
    · rw [if_neg hv, List.map_cons, List.map_cons, ih]
      by_cases hrest : v ∈ rest.map Prod.fst
      · rw [if_pos hrest, if_pos (List.mem_cons_of_mem _ hrest)]
      · have hnew : v ∉ head.1 :: rest.map Prod.fst :=
          List.not_mem_cons_of_ne_of_not_mem (Ne.symm hv) hrest
        rw [if_neg hrest, if_neg hnew]
        rfl

/-- One more vote for `v` and the rest as before. -/
theorem mem_countVote_cases {v : Int} {counts : List (Int × Nat)} {p : Int × Nat}
    (hkeys : (counts.map Prod.fst).Nodup) (hmem : p ∈ countVote v counts) :
    (p.1 ≠ v ∧ p ∈ counts) ∨ (∃ c, (v, c) ∈ counts ∧ p = (v, c + 1)) ∨
      (v ∉ counts.map Prod.fst ∧ p = (v, 1)) := by
  induction counts with
  | nil => exact .inr (.inr ⟨by simp, List.mem_singleton.mp hmem⟩)
  | cons head rest ih =>
    rw [List.map_cons, List.nodup_cons] at hkeys
    rw [countVote] at hmem
    by_cases hv : head.1 = v
    · rw [if_pos hv] at hmem
      rcases List.mem_cons.mp hmem with rfl | hrest
      · exact .inr (.inl ⟨head.2, by simp [← hv], by rw [hv]⟩)
      · refine .inl ⟨fun heq => hkeys.1 ?_, List.mem_cons_of_mem _ hrest⟩
        rw [hv, ← heq]
        exact List.mem_map_of_mem hrest
    · rw [if_neg hv] at hmem
      rcases List.mem_cons.mp hmem with rfl | hrest
      · exact .inl ⟨hv, List.mem_cons_self⟩
      · rcases ih hkeys.2 hrest with ⟨hne, hold⟩ | ⟨c, hold, heq⟩ | ⟨hnew, heq⟩
        · exact .inl ⟨hne, List.mem_cons_of_mem _ hold⟩
        · exact .inr (.inl ⟨c, List.mem_cons_of_mem _ hold, heq⟩)
        · exact .inr (.inr ⟨by simp [hnew, Ne.symm hv], heq⟩)

/-- What the loop over the preferences has counted. -/
structure Counted (prefs : List Int) (counts : List (Int × Nat)) : Prop where
  nodup : (counts.map Prod.fst).Nodup
  mem_iff : ∀ p, p ∈ counts.map Prod.fst ↔ p ∈ prefs
  count : ∀ p ∈ counts, p.2 = prefs.count p.1
  head : (counts.map Prod.fst).head? = prefs.head?

theorem countVotes_counted (prefs : List Int) : Counted prefs (countVotes prefs) := by
  induction prefs using List.reverseRecOn with
  | nil => exact ⟨List.nodup_nil, fun p => Iff.rfl, by rintro p ⟨⟩, rfl⟩
  | append_singleton prefs v ih =>
    have hlast : countVotes (prefs ++ [v]) = countVote v (countVotes prefs) := by
      rw [countVotes, List.foldl_append]
      rfl
    rw [hlast]
    refine ⟨?_, ?_, ?_, ?_⟩
    · rw [keys_countVote]
      split
      · exact ih.nodup
      · rename_i hv
        exact List.nodup_append.mpr ⟨ih.nodup, List.nodup_singleton v, by
          rintro p hp q hq rfl
          exact hv (List.mem_singleton.mp hq ▸ hp)⟩
    · intro p
      rw [keys_countVote, List.mem_append, List.mem_singleton, ← ih.mem_iff]
      split
      · rename_i hv
        exact ⟨.inl, fun hp => hp.elim id fun heq => heq ▸ hv⟩
      · rw [List.mem_append, List.mem_singleton]
    · intro p hp
      rw [List.count_append]
      rcases mem_countVote_cases ih.nodup hp with ⟨hne, hold⟩ | ⟨c, hold, rfl⟩ | ⟨hnew, rfl⟩
      · have hnone : [v].count p.1 = 0 := List.count_eq_zero.mpr (by simpa using hne)
        rw [ih.count p hold, hnone]
        rfl
      · have hc := ih.count (v, c) hold
        dsimp only at hc ⊢
        rw [hc, List.count_singleton_self]
      · rw [ih.mem_iff] at hnew
        dsimp only
        rw [List.count_eq_zero.mpr hnew, List.count_singleton_self]
    · rw [keys_countVote, List.head?_append, ← ih.head]
      split
      · rename_i hv
        rw [Option.or_of_isSome (List.isSome_head?.mpr (List.ne_nil_of_mem hv))]
      · rw [List.head?_append]

theorem Counted.mem {counts : List (Int × Nat)} (hc : Counted prefs counts) {p : Int}
    (hp : p ∈ prefs) : (p, prefs.count p) ∈ counts := by
  obtain ⟨q, hq, rfl⟩ := List.mem_map.mp ((hc.mem_iff p).mpr hp)
  rw [← hc.count q hq]
  exact hq

/-- The most votes are those of a preference that nothing beats. -/
theorem maxCount_eq {counts : List (Int × Nat)} (hc : Counted prefs counts) {p : Int}
    (hp : Frequent prefs p) : (counts.map Prod.snd).foldl max 0 = prefs.count p := by
  have hmem : prefs.count p ∈ counts.map Prod.snd :=
    List.mem_map.mpr ⟨_, hc.mem hp.1, rfl⟩
  rw [List.foldl_max_eq_max (List.ne_nil_of_mem hmem), Nat.zero_max]
  refine le_antisymm ((List.max_le_iff (List.ne_nil_of_mem hmem)).mpr fun b hb => ?_)
    (List.le_max_of_mem hmem)
  obtain ⟨q, hq, rfl⟩ := List.mem_map.mp hb
  rw [hc.count q hq]
  exact hp.2 q.1

theorem exists_frequent (hne : prefs ≠ []) : ∃ p, Frequent prefs p := by
  have hcounts : prefs.map (fun p => prefs.count p) ≠ [] := by simpa using hne
  obtain ⟨p, hp, hmax⟩ := List.mem_map.mp (List.max_mem hcounts)
  refine ⟨p, hp, fun q => ?_⟩
  by_cases hq : q ∈ prefs
  · rw [hmax]
    exact List.le_max_of_mem (a := prefs.count q) (List.mem_map.mpr ⟨q, hq, rfl⟩)
  · rw [List.count_eq_zero.mpr hq]
    exact Nat.zero_le _

theorem mostFrequent_eq {p : Int} (hp : Frequent prefs p) :
    mostFrequent prefs = match (countVotes prefs).find? (·.2 == prefs.count p) with
      | some (pref, _) => pref
      | none => PreferCodec.auto.value := by
  unfold mostFrequent
  dsimp only
  rw [maxCount_eq (countVotes_counted prefs) hp]

/-- What the vote chooses has the most votes. -/
theorem frequent_mostFrequent (hne : prefs ≠ []) : Frequent prefs (mostFrequent prefs) := by
  obtain ⟨p, hp⟩ := exists_frequent hne
  have hc := countVotes_counted prefs
  rw [mostFrequent_eq hp]
  cases hfind : (countVotes prefs).find? (·.2 == prefs.count p) with
  | none =>
    exact absurd (beq_self_eq_true _) (List.find?_eq_none.mp hfind _ (hc.mem hp.1))
  | some q =>
    have hq := List.mem_of_find?_eq_some hfind
    have hcount : q.2 = prefs.count p := by simpa using List.find?_some hfind
    refine ⟨(hc.mem_iff q.1).mp (List.mem_map_of_mem hq), fun r => ?_⟩
    rw [← hc.count q hq, hcount]
    exact hp.2 r

theorem frequent_of_perm {prefs' : List Int} (hperm : prefs'.Perm prefs) (hne : prefs ≠ []) :
    Frequent prefs (mostFrequent prefs') := by
  refine (frequent_mostFrequent fun hempty => hne ?_).perm hperm
  rw [hempty] at hperm
  exact hperm.symm.eq_nil

/-- Of those that have the most votes the first one is chosen. -/
theorem mostFrequent_head {p : Int} (hp : Frequent prefs p) (hhead : prefs.head? = some p) :
    mostFrequent prefs = p := by
  have hc := countVotes_counted prefs
  rw [mostFrequent_eq hp]
  cases hcounts : countVotes prefs with
  | nil =>
    have hnone := hc.head
    rw [hcounts, hhead] at hnone
    cases hnone
  | cons q rest =>
    have hfirst := hc.head
    rw [hcounts, hhead] at hfirst
    obtain rfl : q.1 = p := Option.some.inj hfirst
    have hcount : q.2 = prefs.count q.1 := hc.count q (by simp [hcounts])
    rw [List.find?_cons_of_pos (by simp [hcount])]

theorem useable_perm {peers' : Peers} (hperm : peers.Perm peers') (a : Available) :
    useable a peers' = useable a peers := by
  have hall (c : CodecFormat) : allSupport peers' c = allSupport peers c := by
    unfold allSupport
    rw [hperm.length_eq, hperm.all_eq]
  simp only [useable, hall]

theorem preferences_perm {peers' : Peers} (hperm : peers.Perm peers') (u : SupportedEncoding) :
    (preferences u peers).Perm (preferences u peers') := (hperm.map _).filter _

/-- Preferences that can be met stand for different codecs. -/
theorem chooseCodec_inj {p q : Int} (hp : canBeMet u p = true) (hq : canBeMet u q = true)
    (heq : chooseCodec a u (enumValueOrAuto p) = chooseCodec a u (enumValueOrAuto q)) : p = q := by
  simp only [canBeMet, Bool.or_eq_true, Bool.and_eq_true, beq_iff_eq] at hp hq
  obtain (((rfl | ⟨rfl, _⟩) | ⟨rfl, _⟩) | ⟨rfl, hp264⟩) | ⟨rfl, hp265⟩ := hp <;>
  obtain (((rfl | ⟨rfl, _⟩) | ⟨rfl, _⟩) | ⟨rfl, hq264⟩) | ⟨rfl, hq265⟩ := hq <;>
  simp_all [chooseCodec, enumValueOrAuto, PreferCodec.value]

/-- Two preferences that can be met have the most votes. -/
def Tied (u : SupportedEncoding) (peers : Peers) : Prop :=
  ∃ p q, p ≠ q ∧ Frequent (preferences u peers) p ∧ Frequent (preferences u peers) q

/-- An order in which these peers come in this way. -/
def Order.swap (peers peers' : Peers) (hperm : peers'.Perm peers) : Order where
  of := fun l => if l = peers then peers' else l
  perm := fun l => by
    split
    · rename_i heq
      exact heq ▸ hperm
    · exact .refl l

theorem Order.swap_of (peers peers' : Peers) (hperm : peers'.Perm peers) :
    (Order.swap peers peers' hperm).of peers = peers' := if_pos rfl

/-- A peer that asks for `p` may come first. -/
theorem exists_first {p : Int} (hp : p ∈ preferences u peers) :
    ∃ peers' : Peers, peers'.Perm peers ∧ (preferences u peers').head? = some p := by
  obtain ⟨hpeer, hmet⟩ := List.mem_filter.mp hp
  obtain ⟨peer, hmem, rfl⟩ := List.mem_map.mp hpeer
  refine ⟨peer :: peers.erase peer, (List.perm_cons_erase hmem).symm, ?_⟩
  rw [preferences, List.map_cons, List.filter_cons_of_pos hmet]
  rfl

theorem format_update (n : Negotiation) (a : Available) (o : Order) (e : EncodingUpdate) :
    (update n (a, o, e)).format = chooseCodec a (useable a (updatePeers n.decodings e))
      (enumValueOrAuto (mostFrequent (preferences (useable a (updatePeers n.decodings e))
        (o.of (updatePeers n.decodings e))))) := by
  have hu := useable_perm (o.perm (updatePeers n.decodings e)).symm a
  unfold update
  dsimp only
  rw [hu]

/-- The choice depends on the order of the peers only where two preferences are tied. A check
    with the peers and the host as they were leaves it as it is, and so does the first one. -/
theorem order_matters_iff_tied (n : Negotiation) (a : Available) (e : EncodingUpdate) :
    ((∀ o o' : Order, (update n (a, o, e)).format = (update n (a, o', e)).format) ↔
      ¬ Tied (useable a (updatePeers n.decodings e)) (updatePeers n.decodings e)) ∧
    (∀ o : Order, (update (update n (a, o, e)) (a, asInserted, .check)).format =
      (update n (a, o, e)).format) ∧
    ∀ o : Order, (update .new (a, o, .check)).format = Negotiation.new.format := by
  refine ⟨⟨?_, fun htied o o' => ?_⟩, fun o => rfl, fun o => ?_⟩
  · rintro hsame ⟨p, q, hne, hp, hq⟩
    obtain ⟨first, hfirst, hhead⟩ := exists_first hp.1
    obtain ⟨second, hsecond, hhead'⟩ := exists_first hq.1
    have hformat := hsame (.swap _ first hfirst) (.swap _ second hsecond)
    rw [format_update, format_update, Order.swap_of, Order.swap_of,
      mostFrequent_head (hp.perm (preferences_perm hfirst.symm _)) hhead,
      mostFrequent_head (hq.perm (preferences_perm hsecond.symm _)) hhead'] at hformat
    exact hne (chooseCodec_inj (List.mem_filter.mp hp.1).2 (List.mem_filter.mp hq.1).2 hformat)
  · rw [format_update, format_update]
    have hperm := preferences_perm (o.perm (updatePeers n.decodings e))
      (useable a (updatePeers n.decodings e))
    have hperm' := preferences_perm (o'.perm (updatePeers n.decodings e))
      (useable a (updatePeers n.decodings e))
    by_cases hnil : preferences (useable a (updatePeers n.decodings e))
        (updatePeers n.decodings e) = []
    · rw [hnil] at hperm hperm'
      rw [hperm.eq_nil, hperm'.eq_nil]
    · by_contra hdiff
      exact htied ⟨_, _, fun heq => hdiff (by rw [heq]), frequent_of_perm hperm hnil,
        frequent_of_perm hperm' hnil⟩
  · rw [format_update, show o.of (updatePeers Negotiation.new.decodings .check) = [] from
      (o.perm []).eq_nil]
    rfl

def lastFirst : Order where
  of := List.reverse
  perm := List.reverse_perm

/-- A host with an encoder for H264. -/
def withH264 : Available := { softwareOnly with hwcodecOption := true, hwH264 := true }

/-- With a peer that prefers VP9 and one that prefers AV1 the codec is that of the one that comes
    first. A check after an encoder has been found takes it. -/
theorem choice_not_stable :
    (run update .new [(softwareOnly, asInserted, .update 1 ⟨1, 1, 1, 0, 0, 1⟩),
        (softwareOnly, asInserted, .update 2 ⟨1, 1, 1, 0, 0, 5⟩)]).format = .av1 ∧
      (run update .new [(softwareOnly, asInserted, .update 1 ⟨1, 1, 1, 0, 0, 1⟩),
        (softwareOnly, lastFirst, .update 2 ⟨1, 1, 1, 0, 0, 5⟩)]).format = .vp9 ∧
      (run update .new [(softwareOnly, asInserted, .update 1 ⟨1, 1, 1, 1, 0, 0⟩)]).format = .av1 ∧
      (run update .new [(softwareOnly, asInserted, .update 1 ⟨1, 1, 1, 1, 0, 0⟩),
        (withH264, asInserted, .check)]).format = .h264 := by
  decide

end Codec
end LuodaRemote
