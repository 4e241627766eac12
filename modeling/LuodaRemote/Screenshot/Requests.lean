/-
  The requests for screenshots (`SCREENSHOTS`, `set_take_screenshot`, `handle_screenshot` and
  their part of `run` in `src/server/video_service.rs`).

  A request waits under the index of its display for the next frame. The service takes it out,
  and answers it or, if the frame is a texture, puts it back and starts again without VRAM. One
  index has room for one request: a second one displaces the first, and so does one that is put
  back with one that came in between. And a camera of the same index takes the request as well.
  `answered_iff` says that nothing else goes wrong, for any number of connections and services and
  in any order of their steps.

  The thread that answers is part of the step that spawns it. Encoding a PNG is a parameter, which
  may fail.
-/
import LuodaRemote.Screenshot.Pixels
import LuodaRemote.VideoService

namespace LuodaRemote
open Lib

namespace Screenshot

/-! ## Requests and responses -/

/-- `Screenshot`, with the number of its request. -/
structure Pending where
  tag : ℕ
  sid : String
  /-- The connection that is to be answered. -/
  tx : ℕ
  restoreVram : Bool
deriving DecidableEq

/-- A call of `set_take_screenshot`. -/
structure Request where
  displayIdx : ℕ
  sid : String
  tx : ℕ
deriving DecidableEq

inductive Frame where
  | pixelBuffer (f : PixelBuffer)
  /-- And whether it is not null. -/
  | texture (nonNull : Bool)
deriving DecidableEq

def Frame.valid : Frame → Bool
  | .pixelBuffer f => !f.data.isEmpty
  | .texture nonNull => nonNull

/-- `ScreenshotResponse` with its receiver, the number of the request and whose frame was taken. -/
structure Response where
  tag : ℕ
  source : VideoService
  tx : ℕ
  sid : String
  msg : String
  data : Bytes
deriving DecidableEq

/-- What converts and encodes. -/
structure Codecs where
  yuv : Libyuv
  encodePng : ℕ → ℕ → Bytes → Except String Bytes

def PixelError.display : PixelError → String
  | .bail msg => msg
  | .failedCall msg => "FailedCall(\"" ++ msg ++ "\")"
  | .indexOutOfBounds => "index out of bounds"

variable (c : Codecs)

/-- The text and the data of the response. -/
def handleScreenshot (msg : String) (w h : ℕ) (data : Bytes) : String × Bytes :=
  if msg.isEmpty then
    if data.isEmpty then ("Failed to take screenshot, please try again later.", [])
    else match c.encodePng w h data with
      | .ok png => ("", png)
      | .error e => ("Error encoding png: " ++ e, [])
  else (msg, [])

inductive Outcome where
  | respond (msg : String) (data : Bytes)
  | putBack
  | panic
deriving DecidableEq

/-- What `run` does with a request and a frame. -/
def outcome (screenshot : Pending) : Frame → Outcome
  | .pixelBuffer f =>
    match getRgbaFromPixelbuf c.yuv f with
    | .ok rgba =>
      let (msg, data) := handleScreenshot c "" f.width f.height rgba
      .respond msg data
    | .error .indexOutOfBounds => .panic
    | .error e =>
      let (msg, data) := handleScreenshot c ("Convert pixfmt: " ++ e.display) 0 0 []
      .respond msg data
  | .texture _ =>
    if screenshot.restoreVram then
      let (msg, data) := handleScreenshot c "Please change codec and try again." 0 0 []
      .respond msg data
    else .putBack

structure Screenshots where
  /-- `SCREENSHOTS`. -/
  map : ℕ → Option Pending
  /-- The requests that services have taken out, with the frames they have. -/
  hands : VideoService → Option (Pending × Frame)
  requests : List Request
  responses : List Response

inductive ScreenshotStep where
  | setTakeScreenshot (displayIdx : ℕ) (sid : String) (tx : ℕ)
  /-- The service has a frame. -/
  | frame (vs : VideoService) (f : Frame)
  /-- It goes on with what it has taken out. -/
  | finish (vs : VideoService)
deriving DecidableEq

def start : Screenshots := ⟨fun _ => none, fun _ => none, [], []⟩

def setTakeScreenshot (displayIdx : ℕ) (sid : String) (tx : ℕ) (s : Screenshots) : Screenshots :=
  { s with
    map := Function.update s.map displayIdx (some ⟨s.requests.length, sid, tx, false⟩)
    requests := s.requests ++ [⟨displayIdx, sid, tx⟩] }

/-- A service that holds a request is not at its next frame yet. -/
def frame (vs : VideoService) (f : Frame) (s : Screenshots) : Screenshots :=
  match f.valid, s.hands vs, s.map vs.idx with
  | true, none, some screenshot =>
    { s with
      map := Function.update s.map vs.idx none
      hands := Function.update s.hands vs (some (screenshot, f)) }
  | _, _, _ => s

def finish (vs : VideoService) (s : Screenshots) : Screenshots :=
  match s.hands vs with
  | none => s
  | some (screenshot, f) =>
    let hands := Function.update s.hands vs none
    match outcome c screenshot f with
    | .respond msg data =>
      { s with
        hands
        responses := s.responses ++
          [⟨screenshot.tag, vs, screenshot.tx, screenshot.sid, msg, data⟩] }
    | .putBack =>
      { s with
        hands
        map := Function.update s.map vs.idx (some { screenshot with restoreVram := true }) }
    | .panic => { s with hands }

def step (s : Screenshots) : ScreenshotStep → Screenshots
  | .setTakeScreenshot displayIdx sid tx => setTakeScreenshot displayIdx sid tx s
  | .frame vs f => frame vs f s
  | .finish vs => finish c vs s

/-! ## What is promised -/

/-- Where a request can be. -/
inductive Place where
  | map (displayIdx : ℕ)
  | hand (vs : VideoService)
deriving DecidableEq

def Place.idx : Place → ℕ
  | .map displayIdx => displayIdx
  | .hand vs => vs.idx

namespace Screenshots

def held (s : Screenshots) : Place → Option Pending
  | .map displayIdx => s.map displayIdx
  | .hand vs => (s.hands vs).map Prod.fst

def Waits (s : Screenshots) (tag : ℕ) : Prop := ∃ p r, s.held p = some r ∧ r.tag = tag

/-- Every request waits or has one response, which is its own, and what is shown is its display. -/
structure Answered (s : Screenshots) : Prop where
  kept : ∀ tag < s.requests.length, s.Waits tag ∨ tag ∈ s.responses.map Response.tag
  once : (s.responses.map Response.tag).Nodup
  left : ∀ tag, s.Waits tag → tag ∉ s.responses.map Response.tag
  own : ∀ a ∈ s.responses, ∃ r, s.requests[a.tag]? = some r ∧ a.sid = r.sid ∧ a.tx = r.tx
  shown : ∀ a ∈ s.responses, a.data ≠ [] →
    ∃ r, s.requests[a.tag]? = some r ∧ a.source = ⟨.monitor, r.displayIdx⟩

/-- The frame can be looked at without a panic. -/
def Readable : Frame → Prop
  | .pixelBuffer f => getRgbaFromPixelbuf c.yuv f ≠ .error .indexOutOfBounds
  | .texture _ => True

/-- The frame makes a picture that can be shown. -/
def HasPicture : Frame → Prop
  | .pixelBuffer f => ∃ rgba png, getRgbaFromPixelbuf c.yuv f = .ok rgba ∧ rgba ≠ [] ∧
      c.encodePng f.width f.height rgba = .ok png ∧ png ≠ []
  | .texture _ => False

/-- The frame is a texture, for the first time. -/
def PutsBack (screenshot : Pending) (f : Frame) : Prop :=
  screenshot.restoreVram = false ∧ ∃ nonNull, f = .texture nonNull

/-- No request is there for the display, when one is set or put back; frames can be read; and a
    camera has nothing to show. -/
def Allowed (s : Screenshots) : ScreenshotStep → Prop
  | .setTakeScreenshot displayIdx _ _ => s.map displayIdx = none
  | .frame _ _ => True
  | .finish vs => ∀ r f, s.hands vs = some (r, f) →
    (PutsBack r f → s.map vs.idx = none) ∧ Readable c f ∧
      (HasPicture c f → vs.source = .monitor)

/-! ## What becomes of a frame -/

section Outcomes

variable {c} {r : Pending} {f : Frame}

theorem handleScreenshot_msg {msg : String} (hmsg : msg ≠ "") (w h : ℕ) (data : Bytes) :
    handleScreenshot c msg w h data = (msg, []) :=
  if_neg (by simpa using hmsg)

theorem handleScreenshot_data {w h : ℕ} {data : Bytes} : (handleScreenshot c "" w h data).2 ≠ [] ↔
    data ≠ [] ∧ ∃ png, c.encodePng w h data = .ok png ∧ png ≠ [] := by
  have hempty : "".isEmpty = true := rfl
  unfold handleScreenshot
  rw [if_pos hempty]
  cases data with
  | nil => exact iff_of_false (fun h => h rfl) fun h => h.1 rfl
  | cons b data =>
    rw [if_neg (by simp), and_iff_right (List.cons_ne_nil b data)]
    cases hpng : c.encodePng w h (b :: data) with
    | ok png => simp
    | error e => simp

theorem outcome_putsBack (h : PutsBack r f) : outcome c r f = .putBack := by
  obtain ⟨hfirst, nonNull, rfl⟩ := h
  unfold outcome
  dsimp only
  rw [if_neg (by simp [hfirst])]

theorem outcome_panic (h : ¬ Readable c f) : outcome c r f = .panic := by
  cases f with
  | texture nonNull => exact absurd trivial h
  | pixelBuffer f =>
    unfold outcome
    dsimp only
    rw [not_not.mp h]

/-- What is shown is a picture of the frame. -/
theorem outcome_respond (hback : ¬ PutsBack r f) (hread : Readable c f) :
    ∃ msg data, outcome c r f = .respond msg data ∧ (data ≠ [] ↔ HasPicture c f) := by
  cases f with
  | texture nonNull =>
    have hsecond : r.restoreVram = true := by
      by_contra hnot
      exact hback ⟨Bool.eq_false_of_not_eq_true hnot, nonNull, rfl⟩
    unfold outcome
    dsimp only
    rw [if_pos hsecond, handleScreenshot_msg (by decide)]
    exact ⟨_, _, rfl, iff_of_false (fun h => h rfl) id⟩
  | pixelBuffer f =>
    unfold Readable at hread
    unfold outcome HasPicture
    dsimp only at hread ⊢
    cases hrgba : getRgbaFromPixelbuf c.yuv f with
    | error e =>
      rw [hrgba] at hread
      have hempty : handleScreenshot c ("Convert pixfmt: " ++ e.display) 0 0 [] =
          ("Convert pixfmt: " ++ e.display, []) :=
        handleScreenshot_msg (by simp) 0 0 []
      cases e with
      | indexOutOfBounds => exact absurd rfl hread
      | bail msg =>
        dsimp only
        rw [hempty]
        exact ⟨_, _, rfl, iff_of_false (fun h => h rfl) (by rintro ⟨_, _, ⟨⟩, _⟩)⟩
      | failedCall msg =>
        dsimp only
        rw [hempty]
        exact ⟨_, _, rfl, iff_of_false (fun h => h rfl) (by rintro ⟨_, _, ⟨⟩, _⟩)⟩
    | ok rgba =>
      refine ⟨_, _, rfl, handleScreenshot_data.trans ⟨?_, ?_⟩⟩
      · rintro ⟨hne, png, hpng, hpic⟩
        exact ⟨rgba, png, rfl, hne, hpng, hpic⟩
      · rintro ⟨_, png, ⟨⟩, hne, hpng, hpic⟩
        exact ⟨hne, png, hpng, hpic⟩

end Outcomes

/-! ## Who holds what -/

structure Inv (s : Screenshots) : Prop where
  known : ∀ p r, s.held p = some r → s.requests[r.tag]? = some ⟨p.idx, r.sid, r.tx⟩
  unique : ∀ p p' r r', s.held p = some r → s.held p' = some r' → r.tag = r'.tag → p = p'
  left : ∀ p r, s.held p = some r → r.tag ∉ s.responses.map Response.tag
  once : (s.responses.map Response.tag).Nodup
  own : ∀ a ∈ s.responses, s.requests[a.tag]? = some ⟨a.source.idx, a.sid, a.tx⟩

/-- Every request is somewhere. -/
def Kept (s : Screenshots) : Prop :=
  ∀ tag < s.requests.length, s.Waits tag ∨ tag ∈ s.responses.map Response.tag

/-- Only monitors show something. -/
def Shown (s : Screenshots) : Prop :=
  ∀ a ∈ s.responses, a.data ≠ [] → a.source.source = .monitor

section Ledger

variable {c} {s t : Screenshots} {p : Place} {r : Pending} {vs : VideoService} {f : Frame} {d : ℕ}

theorem answered_iff_kept (h : s.Inv) : s.Answered ↔ s.Kept ∧ s.Shown := by
  constructor
  · intro ha
    refine ⟨ha.kept, fun a hmem hdata => ?_⟩
    obtain ⟨r, _, hsource⟩ := ha.shown a hmem hdata
    rw [hsource]
  · rintro ⟨hkept, hshown⟩
    refine ⟨hkept, h.once, ?_, fun a hmem => ⟨_, h.own a hmem, rfl, rfl⟩, fun a hmem hdata => ?_⟩
    · rintro tag ⟨p, r, hr, rfl⟩
      exact h.left p r hr
    · refine ⟨_, h.own a hmem, ?_⟩
      have hsource := hshown a hmem hdata
      cases hvs : a.source with
      | mk source idx =>
        rw [hvs] at hsource
        cases hsource
        rfl

theorem tag_lt (h : s.Inv) (hr : s.held p = some r) : r.tag < s.requests.length :=
  (List.getElem?_eq_some_iff.mp (h.known p r hr)).1

theorem held_map (v : Option Pending) : ({ s with map := Function.update s.map d v }).held p =
    if p = .map d then v else s.held p := by
  cases p with
  | map d' =>
    by_cases hd : d' = d
    · subst hd
      simp [held]
    · simp [held, hd]
  | hand vs => simp [held]

theorem held_hand (v : Option (Pending × Frame)) :
    ({ s with hands := Function.update s.hands vs v }).held p =
      if p = .hand vs then v.map Prod.fst else s.held p := by
  cases p with
  | map d => simp [held]
  | hand vs' =>
    by_cases hvs : vs' = vs
    · subst hvs
      simp [held]
    · simp [held, hvs]

/-- What is held was held before, somewhere for the same display. -/
structure Moves (s t : Screenshots) (src : Place → Place) : Prop where
  requests : t.requests = s.requests
  from_src : ∀ p r, t.held p = some r → ∃ r', s.held (src p) = some r' ∧ r'.tag = r.tag ∧
    r'.sid = r.sid ∧ r'.tx = r.tx ∧ (src p).idx = p.idx
  inj : ∀ p p' r r', t.held p = some r → t.held p' = some r' → src p = src p' → p = p'

theorem Moves.known {src : Place → Place} (hm : Moves s t src) (h : s.Inv) :
    ∀ p r, t.held p = some r → t.requests[r.tag]? = some ⟨p.idx, r.sid, r.tx⟩ := by
  intro p r hr
  obtain ⟨r', hr', htag, hsid, htx, hidx⟩ := hm.from_src p r hr
  rw [hm.requests, ← htag, ← hsid, ← htx, ← hidx]
  exact h.known _ _ hr'

theorem Moves.unique {src : Place → Place} (hm : Moves s t src) (h : s.Inv) :
    ∀ p p' r r', t.held p = some r → t.held p' = some r' → r.tag = r'.tag → p = p' := by
  intro p p' r r' hr hr' heq
  obtain ⟨a, ha, htag, _⟩ := hm.from_src p r hr
  obtain ⟨b, hb, htag', _⟩ := hm.from_src p' r' hr'
  exact hm.inj p p' r r' hr hr' (h.unique _ _ a b ha hb (htag.trans (heq.trans htag'.symm)))

/-- Requests that are moved about and not answered. -/
theorem Moves.inv {src : Place → Place} (hm : Moves s t src) (h : s.Inv)
    (hresponses : t.responses = s.responses) : t.Inv := by
  refine ⟨hm.known h, hm.unique h, fun p r hr => ?_, ?_, ?_⟩
  · obtain ⟨r', hr', htag, _⟩ := hm.from_src p r hr
    rw [hresponses, ← htag]
    exact h.left _ _ hr'
  · rw [hresponses]
    exact h.once
  · rw [hresponses, hm.requests]
    exact h.own

/-! ### A request is set -/

theorem held_set (d : ℕ) (sid : String) (tx : ℕ) (p : Place) :
    (setTakeScreenshot d sid tx s).held p =
      if p = .map d then some ⟨s.requests.length, sid, tx, false⟩ else s.held p :=
  held_map (s := { s with requests := s.requests ++ [⟨d, sid, tx⟩] }) _

theorem set_inv (h : s.Inv) (d : ℕ) (sid : String) (tx : ℕ) :
    (setTakeScreenshot d sid tx s).Inv := by
  have hown : ∀ a ∈ s.responses, a.tag < s.requests.length := fun a ha =>
    (List.getElem?_eq_some_iff.mp (h.own a ha)).1
  have hcases : ∀ p r, (setTakeScreenshot d sid tx s).held p = some r →
      (p = .map d ∧ r = ⟨s.requests.length, sid, tx, false⟩) ∨ s.held p = some r := by
    intro p r hr
    rw [held_set] at hr
    split at hr
    · rename_i hp
      cases hr
      exact .inl ⟨hp, rfl⟩
    · exact .inr hr
  refine ⟨fun p r hr => ?_, fun p p' r r' hr hr' heq => ?_, fun p r hr => ?_, h.once,
    fun a ha => ?_⟩
  · show (s.requests ++ [(⟨d, sid, tx⟩ : Request)])[r.tag]? = _
    rcases hcases p r hr with ⟨rfl, rfl⟩ | hold
    · exact List.getElem?_concat_length
    · rw [List.getElem?_append_left (tag_lt h hold)]
      exact h.known p r hold
  · rcases hcases p r hr with ⟨rfl, rfl⟩ | hold
    · rcases hcases p' r' hr' with ⟨rfl, _⟩ | hold'
      · rfl
      · exact absurd heq.symm (tag_lt h hold').ne
    · rcases hcases p' r' hr' with ⟨rfl, rfl⟩ | hold'
      · exact absurd heq (tag_lt h hold).ne
      · exact h.unique p p' r r' hold hold' heq
  · rcases hcases p r hr with ⟨rfl, rfl⟩ | hold
    · rintro hmem
      obtain ⟨a, ha, htag⟩ := List.mem_map.mp hmem
      exact absurd htag (hown a ha).ne
    · exact h.left p r hold
  · show (s.requests ++ [(⟨d, sid, tx⟩ : Request)])[a.tag]? = _
    rw [List.getElem?_append_left (hown a ha)]
    exact h.own a ha

/-- A request is displaced by a second one for its display. -/
theorem set_kept (h : s.Inv) (hkept : s.Kept) (d : ℕ) (sid : String) (tx : ℕ) :
    (setTakeScreenshot d sid tx s).Kept ↔ s.map d = none := by
  constructor
  · intro hall
    cases hd : s.map d with
    | none => rfl
    | some r =>
      have hr : s.held (.map d) = some r := hd
      have hlt : r.tag < (s.requests ++ [(⟨d, sid, tx⟩ : Request)]).length := by
        rw [List.length_append]
        exact Nat.lt_add_right _ (tag_lt h hr)
      rcases hall r.tag hlt with ⟨p, r', hr', heq⟩ | hresponse
      · rw [held_set] at hr'
        split at hr'
        · cases hr'
          exact absurd heq.symm (tag_lt h hr).ne
        · rename_i hp
          exact absurd (h.unique _ _ _ _ hr' hr heq) hp
      · exact absurd hresponse (h.left _ _ hr)
  · intro hnone tag htag
    have hcases : tag < s.requests.length ∨ tag = s.requests.length := by
      have htag : tag < (s.requests ++ [(⟨d, sid, tx⟩ : Request)]).length := htag
      rw [List.length_append] at htag
      exact Nat.lt_succ_iff_lt_or_eq.mp htag
    rcases hcases with hlt | rfl
    · refine (hkept tag hlt).imp (fun hwaits => ?_) id
      obtain ⟨p, r, hr, heq⟩ := hwaits
      refine ⟨p, r, ?_, heq⟩
      rw [held_set, if_neg]
      · exact hr
      · rintro rfl
        rw [show s.held (.map d) = none from hnone] at hr
        cases hr
    · exact .inl ⟨.map d, _, (held_set d sid tx _).trans (if_pos rfl), rfl⟩

/-! ### A frame comes -/

/-- A service takes the request for its index out, or nothing happens. -/
theorem frame_cases (vs : VideoService) (f : Frame) (s : Screenshots) :
    frame vs f s = s ∨ ∃ r, s.held (.hand vs) = none ∧ s.held (.map vs.idx) = some r ∧
      frame vs f s = { s with
        map := Function.update s.map vs.idx none
        hands := Function.update s.hands vs (some (r, f)) } := by
  unfold frame
  split
  · rename_i r _ hhand hmap
    exact .inr ⟨r, by rw [held, hhand]; rfl, hmap, rfl⟩
  · exact .inl rfl

theorem held_taken (p : Place) :
    ({ s with
      map := Function.update s.map vs.idx none
      hands := Function.update s.hands vs (some (r, f)) } : Screenshots).held p =
        if p = .hand vs then some r else if p = .map vs.idx then none else s.held p := by
  rw [held_hand (s := { s with map := Function.update s.map vs.idx none }), held_map]
  rfl

/-- What is moved to a place that another one left is not confused with anything. -/
theorem redirect_inj {a b p q : Place} (hp : p ≠ b) (hq : q ≠ b)
    (heq : (if p = a then b else p) = if q = a then b else q) : p = q := by
  split at heq
  · rename_i hpa
    split at heq
    · rename_i hqa
      exact hpa.trans hqa.symm
    · exact absurd heq.symm hq
  · split at heq
    · exact absurd heq hp
    · exact heq

theorem frame_moves (hmap : s.held (.map vs.idx) = some r) :
    Moves s { s with
      map := Function.update s.map vs.idx none
      hands := Function.update s.hands vs (some (r, f)) }
        fun p => if p = .hand vs then .map vs.idx else p := by
  refine ⟨rfl, fun p r' hr' => ?_, fun p p' a b ha hb heq => ?_⟩
  · rw [held_taken] at hr'
    by_cases hp : p = .hand vs
    · subst hp
      rw [if_pos rfl] at hr' ⊢
      cases hr'
      exact ⟨r, hmap, rfl, rfl, rfl, rfl⟩
    · rw [if_neg hp] at hr' ⊢
      by_cases hp' : p = .map vs.idx
      · rw [if_pos hp'] at hr'
        cases hr'
      · rw [if_neg hp'] at hr'
        exact ⟨r', hr', rfl, rfl, rfl, rfl⟩
  · have hnone : ∀ q c, (if q = .hand vs then some r else if q = .map vs.idx then none
        else s.held q) = some c → q ≠ .map vs.idx := by
      rintro q c hq rfl
      simp at hq
    rw [held_taken] at ha hb
    exact redirect_inj (hnone p a ha) (hnone p' b hb) heq

theorem frame_keeps (h : s.Inv) (vs : VideoService) (f : Frame) :
    (frame vs f s).Inv ∧ (s.Answered → (frame vs f s).Answered) := by
  rcases frame_cases vs f s with hsame | ⟨r, hhand, hmap, htaken⟩
  · rw [hsame]
    exact ⟨h, id⟩
  · rw [htaken]
    have hinv := (frame_moves (f := f) hmap).inv h rfl
    refine ⟨hinv, fun ha => (answered_iff_kept hinv).mpr ?_⟩
    obtain ⟨hkept, hshown⟩ := (answered_iff_kept h).mp ha
    refine ⟨fun tag htag => (hkept tag htag).imp (fun hwaits => ?_) id, hshown⟩
    obtain ⟨p, r', hr', heq⟩ := hwaits
    by_cases hp : p = .map vs.idx
    · subst hp
      rw [hmap] at hr'
      cases hr'
      exact ⟨.hand vs, r, (held_taken _).trans (if_pos rfl), heq⟩
    · refine ⟨p, r', ?_, heq⟩
      rw [held_taken, if_neg, if_neg hp]
      · exact hr'
      · rintro rfl
        rw [hhand] at hr'
        cases hr'

/-! ### The service goes on -/

theorem held_released (p : Place) :
    ({ s with hands := Function.update s.hands vs none } : Screenshots).held p =
      if p = .hand vs then none else s.held p := held_hand none

theorem held_back (p : Place) :
    ({ s with
      hands := Function.update s.hands vs none
      map := Function.update s.map vs.idx (some r) } : Screenshots).held p =
        if p = .map vs.idx then some r else if p = .hand vs then none else s.held p := by
  rw [held_map (s := { s with hands := Function.update s.hands vs none }), held_released]

theorem released_moves :
    Moves s { s with hands := Function.update s.hands vs none } id := by
  refine ⟨rfl, fun p r hr => ⟨r, ?_, rfl, rfl, rfl, rfl⟩, fun _ _ _ _ _ _ heq => heq⟩
  rw [held_released] at hr
  split at hr
  · cases hr
  · exact hr

theorem back_moves (hr : s.held (.hand vs) = some r) :
    Moves s { s with
      hands := Function.update s.hands vs none
      map := Function.update s.map vs.idx (some { r with restoreVram := true }) }
        fun p => if p = .map vs.idx then .hand vs else p := by
  refine ⟨rfl, fun p r' hr' => ?_, fun p p' a b ha hb heq => ?_⟩
  · rw [held_back] at hr'
    by_cases hp : p = .map vs.idx
    · subst hp
      rw [if_pos rfl] at hr' ⊢
      cases hr'
      exact ⟨r, hr, rfl, rfl, rfl, rfl⟩
    · rw [if_neg hp] at hr' ⊢
      split at hr'
      · cases hr'
      · exact ⟨r', hr', rfl, rfl, rfl, rfl⟩
  · have hnone : ∀ q c, (if q = .map vs.idx then some { r with restoreVram := true }
        else if q = .hand vs then none else s.held q) = some c → q ≠ .hand vs := by
      rintro q c hq rfl
      simp at hq
    rw [held_back] at ha hb
    exact redirect_inj (hnone p a ha) (hnone p' b hb) heq

/-- A request that is put back displaces what has come in the meantime. -/
theorem putBack_keeps (h : s.Inv) (hr : s.held (.hand vs) = some r) :
    let t : Screenshots := { s with
      hands := Function.update s.hands vs none
      map := Function.update s.map vs.idx (some { r with restoreVram := true }) }
    t.Inv ∧ (s.Answered → (t.Answered ↔ s.map vs.idx = none)) := by
  intro t
  have hinv : t.Inv := (back_moves hr).inv h rfl
  refine ⟨hinv, fun ha => ?_⟩
  obtain ⟨hkept, hshown⟩ := (answered_iff_kept h).mp ha
  rw [answered_iff_kept hinv]
  constructor
  · rintro ⟨hall, _⟩
    cases hidx : s.map vs.idx with
    | none => rfl
    | some r2 =>
      have hr2 : s.held (.map vs.idx) = some r2 := hidx
      have hlt : r2.tag < s.requests.length := tag_lt h hr2
      rcases hall r2.tag hlt with ⟨p, r', hr', heq⟩ | hresponse
      · rw [held_back] at hr'
        split at hr'
        · cases hr'
          cases h.unique _ _ _ _ hr hr2 heq
        · rename_i hp
          split at hr'
          · cases hr'
          · exact absurd (h.unique _ _ _ _ hr' hr2 heq) hp
      · exact absurd hresponse (h.left _ _ hr2)
  · intro hnone
    refine ⟨fun tag htag => (hkept tag htag).imp (fun hwaits => ?_) id, hshown⟩
    obtain ⟨p, r', hr', heq⟩ := hwaits
    by_cases hp : p = .hand vs
    · subst hp
      rw [hr] at hr'
      cases hr'
      exact ⟨.map vs.idx, _, (held_back _).trans (if_pos rfl), heq⟩
    · refine ⟨p, r', ?_, heq⟩
      rw [held_back, if_neg, if_neg hp]
      · exact hr'
      · rintro rfl
        rw [show s.held (.map vs.idx) = none from hnone] at hr'
        cases hr'

/-- A panic loses the request. -/
theorem panic_keeps (h : s.Inv) (hr : s.held (.hand vs) = some r) :
    ({ s with hands := Function.update s.hands vs none } : Screenshots).Inv ∧
      ¬ ({ s with hands := Function.update s.hands vs none } : Screenshots).Answered := by
  have hinv : ({ s with hands := Function.update s.hands vs none } : Screenshots).Inv :=
    released_moves.inv h rfl
  refine ⟨hinv, fun ha => ?_⟩
  have hlt : r.tag < s.requests.length := tag_lt h hr
  rcases ha.kept r.tag hlt with ⟨p, r', hr', heq⟩ | hresponse
  · rw [held_released] at hr'
    split at hr'
    · cases hr'
    · rename_i hp
      exact hp (h.unique _ _ _ _ hr' hr heq)
  · exact h.left _ _ hr hresponse

/-- A request that is answered is not there any more. -/
theorem respond_keeps (h : s.Inv) (hr : s.held (.hand vs) = some r) (msg : String) (data : Bytes) :
    let t : Screenshots := { s with
      hands := Function.update s.hands vs none
      responses := s.responses ++ [⟨r.tag, vs, r.tx, r.sid, msg, data⟩] }
    t.Inv ∧ (s.Answered → (t.Answered ↔ (data ≠ [] → vs.source = .monitor))) := by
  intro t
  have hmoves : Moves s t id := ⟨rfl, released_moves.from_src, released_moves.inj⟩
  have htags : t.responses.map Response.tag = s.responses.map Response.tag ++ [r.tag] := by
    simp [t]
  have hinv : t.Inv := by
    refine ⟨hmoves.known h, hmoves.unique h, fun p r' hr' => ?_, ?_, ?_⟩
    · replace hr' : (if p = .hand vs then none else s.held p) = some r' :=
        (held_released p).symm.trans hr'
      split at hr'
      · cases hr'
      · rename_i hp
        rw [htags, List.mem_append, List.mem_singleton]
        rintro (hold | heq)
        · exact h.left _ _ hr' hold
        · exact hp (h.unique _ _ _ _ hr' hr heq)
    · rw [htags, List.nodup_append]
      refine ⟨h.once, List.nodup_singleton _, fun a ha b hb heq => ?_⟩
      rw [List.mem_singleton.mp hb] at heq
      rw [heq] at ha
      exact h.left _ _ hr ha
    · exact List.forall_mem_append.mpr ⟨h.own, List.forall_mem_singleton.mpr (h.known _ _ hr)⟩
  refine ⟨hinv, fun ha => ?_⟩
  obtain ⟨hkept, hshown⟩ := (answered_iff_kept h).mp ha
  rw [answered_iff_kept hinv]
  have hall : t.Kept := by
    intro tag htag
    rw [htags, List.mem_append, List.mem_singleton]
    rcases hkept tag htag with ⟨p, r', hr', heq⟩ | hresponse
    · by_cases hp : p = .hand vs
      · subst hp
        rw [hr] at hr'
        cases hr'
        exact .inr (.inr heq.symm)
      · exact .inl ⟨p, r', (held_released p).trans ((if_neg hp).trans hr'), heq⟩
    · exact .inr (.inl hresponse)
  refine (and_iff_right hall).trans (List.forall_mem_append.trans ((and_iff_right hshown).trans ?_))
  exact List.forall_mem_singleton

theorem finish_keeps (h : s.Inv) (vs : VideoService) : (finish c vs s).Inv ∧
    (s.Answered → ((finish c vs s).Answered ↔ s.Allowed c (.finish vs))) := by
  cases hhand : s.hands vs with
  | none =>
    have hsame : finish c vs s = s := by
      unfold finish
      rw [hhand]
    rw [hsame]
    refine ⟨h, fun ha => iff_of_true ha fun r f hr => ?_⟩
    rw [hhand] at hr
    cases hr
  | some rf =>
    obtain ⟨r, f⟩ := rf
    have hr : s.held (.hand vs) = some r := by
      rw [held, hhand]
      rfl
    have hallowed : s.Allowed c (.finish vs) ↔ (PutsBack r f → s.map vs.idx = none) ∧
        Readable c f ∧ (HasPicture c f → vs.source = .monitor) := by
      refine ⟨fun hall => hall r f hhand, fun hrf r' f' hr' => ?_⟩
      rw [hhand] at hr'
      cases hr'
      exact hrf
    rw [hallowed]
    unfold finish
    rw [hhand]
    dsimp only
    by_cases hback : PutsBack r f
    · obtain ⟨hfirst, nonNull, rfl⟩ := hback
      rw [outcome_putsBack ⟨hfirst, nonNull, rfl⟩]
      obtain ⟨hinv, hiff⟩ := putBack_keeps h hr
      refine ⟨hinv, fun ha => (hiff ha).trans ⟨fun hnone => ?_, fun hall => ?_⟩⟩
      · exact ⟨fun _ => hnone, trivial, False.elim⟩
      · exact hall.1 ⟨hfirst, nonNull, rfl⟩
    · by_cases hread : Readable c f
      · obtain ⟨msg, data, houtcome, hpicture⟩ := outcome_respond hback hread
        rw [houtcome]
        obtain ⟨hinv, hiff⟩ := respond_keeps h hr msg data
        refine ⟨hinv, fun ha => (hiff ha).trans ?_⟩
        rw [hpicture]
        exact ⟨fun hsource => ⟨fun hb => absurd hb hback, hread, hsource⟩, fun hall => hall.2.2⟩
      · rw [outcome_panic hread]
        obtain ⟨hinv, hlost⟩ := panic_keeps h hr
        exact ⟨hinv, fun _ => iff_of_false hlost fun hall => hread hall.2.1⟩

theorem step_keeps (h : s.Inv) (a : ScreenshotStep) :
    (step c s a).Inv ∧ (s.Answered → ((step c s a).Answered ↔ s.Allowed c a)) := by
  cases a with
  | setTakeScreenshot d sid tx =>
    have hinv : (setTakeScreenshot d sid tx s).Inv := set_inv h d sid tx
    refine ⟨hinv, fun ha => (answered_iff_kept hinv).trans ?_⟩
    obtain ⟨hkept, hshown⟩ := (answered_iff_kept h).mp ha
    exact (and_iff_left hshown).trans (set_kept h hkept d sid tx)
  | frame vs f =>
    obtain ⟨hinv, himp⟩ := frame_keeps h vs f
    exact ⟨hinv, fun ha => iff_of_true (himp ha) trivial⟩
  | finish vs => exact finish_keeps h vs

theorem start_held (p : Place) : start.held p = none := by
  cases p with
  | map d => rfl
  | hand vs => rfl

theorem start_inv : start.Inv := by
  refine ⟨fun p r hr => ?_, fun p _ r _ hr => ?_, fun p r hr => ?_, List.nodup_nil,
    fun a ha => absurd ha List.not_mem_nil⟩
  · rw [start_held] at hr
    cases hr
  · rw [start_held] at hr
    cases hr
  · rw [start_held] at hr
    cases hr

theorem start_answered : start.Answered :=
  (answered_iff_kept start_inv).mpr
    ⟨fun tag htag => absurd htag (Nat.not_lt_zero tag), fun _ ha => absurd ha List.not_mem_nil⟩

end Ledger

/-! ## Every order of steps -/

/-- Every request is kept and answered by its own display throughout, precisely if each step is
    allowed. -/
theorem answered_iff (c : Codecs) (steps : List ScreenshotStep) :
    Always (step c) Answered start steps ↔ Along (step c) (Allowed c) start steps :=
  always_iff_along (I := Inv) (fun _ a h => (step_keeps h a).1)
    (fun _ a h ha => (step_keeps h a).2 ha) start_inv start_answered

/-- Of two requests for one display the first is never answered. -/
theorem first_request_lost :
    ¬ ∀ (c : Codecs) (steps : List ScreenshotStep), Always (step c) Answered start steps := by
  intro hall
  have hlast := (hall ⟨fourPixelYuv, fun _ _ data => .ok data⟩
    [.setTakeScreenshot 0 "first" 1, .setTakeScreenshot 0 "second" 2]).last
  rcases hlast.kept 0 Nat.zero_lt_two with ⟨p, r, hr, htag⟩ | hresponse
  · cases p with
    | map d =>
      replace hr : Function.update
        (Function.update (fun _ => none) 0 (some ⟨0, "first", 1, false⟩)) 0
        (some (⟨1, "second", 2, false⟩ : Pending)) d = some r := hr
      by_cases hd : d = 0
      · subst hd
        rw [Function.update_self] at hr
        cases hr
        cases htag
      · rw [Function.update_of_ne hd, Function.update_of_ne hd] at hr
        cases hr
    | hand vs => cases hr
  · cases hresponse

end Screenshots

end Screenshot

end LuodaRemote
