/-
  Services and their subscribers: `Server` of `src/server.rs` over `ServiceTmpl` of
  `src/server/service.rs`.

  A service keeps the ids of its subscribers in two maps, `subscribes` and, where it sends
  a snapshot first, `new_subscribes`. `Service` carries what the operations keep true: no
  id is in both, and only a snapshot service has new ones. `Server` is the map from names
  to services, so its names are distinct.

  The operations are those a connection calls. Each one has a lemma that says what it does
  to `isSubed`, the only view of the server the connection proofs use.
-/
import LuodaRemote.Host

namespace LuodaRemote

/-! ## Service names -/

inductive VideoSource where
  | monitor
  | camera
  deriving DecidableEq

def VideoSource.serviceNamePrefix : VideoSource → String
  | monitor => "monitor"
  | camera => "camera"

/-- The services a server can hold. `video` is `video_service::get_service_name`. -/
inductive ServiceName where
  | audio
  | display
  | clipboard
  | fileClipboard
  | cursor
  | pos
  | windowFocus
  | printer
  | video (source : VideoSource) (idx : Nat)
  deriving DecidableEq

/-- The key of the service in `Server::services`. -/
def ServiceName.text : ServiceName → String
  | audio => "audio"
  | display => "display"
  | clipboard => "clipboard"
  | fileClipboard => "file-clipboard"
  | cursor => "mouse_cursor"
  | pos => "mouse_pos"
  | windowFocus => "window_focus"
  | printer => "remote-printer"
  | video source idx => source.serviceNamePrefix ++ toString idx

/-- `Server::is_video_service_name`. -/
def ServiceName.isVideo : ServiceName → Bool
  | video _ _ => true
  | _ => false

/-- The source tests the text of the name for the two prefixes. -/
theorem ServiceName.isVideo_iff_prefix (n : ServiceName) :
    n.isVideo = true ↔
      "monitor".toList <+: n.text.toList ∨ "camera".toList <+: n.text.toList := by
  cases n with
  | video source idx =>
    cases source <;> simp [isVideo, text, VideoSource.serviceNamePrefix]
  | _ => decide

/-! ## One service -/

structure Service where
  name : ServiceName
  needSnapshot : Bool
  subscribes : List Int := []
  newSubscribes : List Int := []
  disjoint : ∀ id ∈ subscribes, id ∉ newSubscribes := by simp
  snapshotOnly : needSnapshot = false → newSubscribes = [] := by simp

namespace Service

/-- `ServiceTmpl::new`. -/
def new (name : ServiceName) (needSnapshot : Bool) : Service where
  name := name
  needSnapshot := needSnapshot

def isSubed (s : Service) (id : Int) : Bool :=
  s.subscribes.contains id || s.newSubscribes.contains id

def onSubscribe (s : Service) (id : Int) : Service :=
  if hs : id ∈ s.subscribes then s
  else if hn : s.needSnapshot then
    { s with
      newSubscribes := id :: s.newSubscribes
      disjoint := by
        intro j hj hj'
        rcases List.mem_cons.mp hj' with rfl | hj'
        · exact hs hj
        · exact s.disjoint j hj hj'
      snapshotOnly := by simp [hn] }
  else
    { s with
      subscribes := id :: s.subscribes
      disjoint := by simp [s.snapshotOnly (by simpa using hn)] }

/-- The second map is searched only if the first did not hold the id. -/
def onUnsubscribe (s : Service) (id : Int) : Service :=
  if id ∈ s.subscribes then
    { s with
      subscribes := s.subscribes.filter (· ≠ id)
      disjoint := fun j hj => s.disjoint j (List.mem_of_mem_filter hj) }
  else
    { s with
      newSubscribes := s.newSubscribes.filter (· ≠ id)
      disjoint := fun j hj hj' => s.disjoint j hj (List.mem_of_mem_filter hj')
      snapshotOnly := fun h => by simp [s.snapshotOnly h] }

/-- `swap_new_subscribes`, run by the service thread after a snapshot. -/
def swapNewSubscribes (s : Service) : Service :=
  { s with
    subscribes := s.newSubscribes ++ s.subscribes
    newSubscribes := []
    disjoint := by simp
    snapshotOnly := by simp }

theorem name_onSubscribe (s : Service) (id : Int) : (s.onSubscribe id).name = s.name := by
  unfold onSubscribe
  split
  · rfl
  · split <;> rfl

theorem name_onUnsubscribe (s : Service) (id : Int) : (s.onUnsubscribe id).name = s.name := by
  unfold onUnsubscribe
  split <;> rfl

theorem isSubed_onSubscribe (s : Service) (id j : Int) :
    (s.onSubscribe id).isSubed j = (j == id || s.isSubed j) := by
  unfold onSubscribe
  split
  · rename_i hs
    by_cases h : j = id
    · subst h; simp [isSubed, hs]
    · simp [h]
  · split
    · by_cases h : j = id <;> simp [isSubed, h]
    · by_cases h : j = id <;> simp [isSubed, h]

theorem isSubed_onUnsubscribe (s : Service) (id j : Int) :
    (s.onUnsubscribe id).isSubed j = (j != id && s.isSubed j) := by
  unfold onUnsubscribe
  by_cases h : j = id
  · subst h
    split
    · rename_i hs; simp [isSubed, s.disjoint j hs]
    · rename_i hs; simp [isSubed, hs]
  · split <;> simp [isSubed, h]

theorem isSubed_swapNewSubscribes (s : Service) (j : Int) :
    s.swapNewSubscribes.isSubed j = s.isSubed j := by
  simp [swapNewSubscribes, isSubed, Bool.or_comm]

end Service

/-! ## The server -/

structure Server where
  services : List Service
  nodup : (services.map (·.name)).Nodup

namespace Server

/-- Apply an operation to every service; it may not rename one. -/
def mapServices (srv : Server) (f : Service → Service) (hf : ∀ s, (f s).name = s.name) :
    Server :=
  ⟨srv.services.map f, by
    have : (·.name) ∘ f = fun s : Service => s.name := funext hf
    rw [List.map_map, this]
    exact srv.nodup⟩

def contains (srv : Server) (name : ServiceName) : Bool :=
  srv.services.any fun s => s.name == name

/-- Whether the connection is subscribed to the service of that name. -/
def isSubed (srv : Server) (name : ServiceName) (id : Int) : Bool :=
  srv.services.any fun s => s.name == name && s.isSubed id

/-- The map insert of `add_service`. -/
def addService (srv : Server) (svc : Service) : Server :=
  ⟨svc :: srv.services.filter (·.name ≠ svc.name), by
    rw [List.map_cons, List.nodup_cons]
    refine ⟨by simp, ?_⟩
    exact srv.nodup.sublist (List.filter_sublist.map _)⟩

/-- Every caller adds a video service only if it is not there. -/
def addVideoService (srv : Server) (source : VideoSource) (idx : Nat) : Server :=
  if srv.contains (.video source idx) then srv
  else srv.addService { name := .video source idx, needSnapshot := true }

private def setSub (id : Int) (sub : Bool) (s : Service) : Service :=
  if s.isSubed id == sub then s
  else if sub then s.onSubscribe id
  else s.onUnsubscribe id

private theorem name_setSub (id : Int) (sub : Bool) (s : Service) :
    (setSub id sub s).name = s.name := by
  unfold setSub
  split
  · rfl
  · split
    · exact s.name_onSubscribe id
    · exact s.name_onUnsubscribe id

private theorem isSubed_setSub (id : Int) (sub : Bool) (s : Service) (j : Int) :
    (setSub id sub s).isSubed j = if j = id then sub else s.isSubed j := by
  unfold setSub
  by_cases hj : j = id
  · subst hj
    split
    · rename_i h; simpa using h
    · cases sub
      · simp [Service.isSubed_onUnsubscribe]
      · simp [Service.isSubed_onSubscribe]
  · rw [if_neg hj]
    split
    · rfl
    · cases sub
      · simp [Service.isSubed_onUnsubscribe, hj]
      · simp [Service.isSubed_onSubscribe, hj]

def subscribe (srv : Server) (name : ServiceName) (id : Int) (sub : Bool) : Server :=
  srv.mapServices (fun s => if s.name = name then setSub id sub s else s) (by
    intro s
    split
    · exact name_setSub id sub s
    · rfl)

/-- `Server::capture_displays`: one `subscribe` for each video service. -/
def captureDisplays (srv : Server) (id : Int) (source : VideoSource) (displays : List Nat)
    (incl excl : Bool) : Server :=
  srv.mapServices (fun s =>
    if s.name.isVideo then
      if s.name ∈ displays.map (ServiceName.video source) then
        if incl then setSub id true s else s
      else if excl then setSub id false s else s
    else s) (by
    intro s
    split_ifs <;> first | rfl | exact name_setSub id _ s)

/-- `add_connection`: everything but the services in `noperms` and the displays that are
    not the primary one. -/
def addConnection (srv : Server) (h : Host) (id : Int) (noperms : List ServiceName) : Server :=
  srv.mapServices (fun s =>
    if s.name.isVideo && s.name != .video .monitor h.primaryDisplayIdx then s
    else if noperms.contains s.name then s
    else s.onSubscribe id) (by
    intro s
    split_ifs <;> first | rfl | exact s.name_onSubscribe id)

def tryAddPrimayVideoService (srv : Server) (h : Host) : Server :=
  srv.addVideoService .monitor h.primaryDisplayIdx

/-- `camera::PRIMARY_CAMERA_IDX`. -/
def primaryCameraIdx : Nat := 0

/-- `try_add_primary_camera_service` and `add_camera_connection`. -/
def addCameraConnection (srv : Server) (env : Env) (id : Int) : Server :=
  if env.primaryCameraExists then
    (srv.addVideoService .camera primaryCameraIdx).mapServices (fun s =>
      if s.name = .video .camera primaryCameraIdx then s.onSubscribe id else s) (by
      intro s
      split
      · exact s.name_onSubscribe id
      · rfl)
  else srv

def removeConnection (srv : Server) (id : Int) : Server :=
  srv.mapServices (fun s => s.onUnsubscribe id) (fun s => s.name_onUnsubscribe id)

def getSubbedDisplaysCount (srv : Server) (id : Int) : Nat :=
  srv.services.countP fun s => s.name.isVideo && s.isSubed id

/-- The service thread of `name` has sent its snapshot. -/
def snapshot (srv : Server) (name : ServiceName) : Server :=
  srv.mapServices (fun s => if s.name = name then s.swapNewSubscribes else s) (by
    intro s
    split <;> rfl)

/-- The services `server::new` registers, by build and display server, and whether each
    sends a snapshot. -/
def newServices (h : Host) (captureCursorEmbedded isX11 printerReady : Bool) :
    List (ServiceName × Bool) :=
  [(.audio, true), (.display, true), (.clipboard, false)] ++
  (if h.unixFileCopyPaste then [(.fileClipboard, false)] else []) ++
  (if captureCursorEmbedded then [] else
    [(.cursor, true), (.pos, false)] ++
    (if h.targetOs == .linux && !isX11 then [] else [(.windowFocus, false)])) ++
  (if h.targetOs == .windows && h.flutter && printerReady then [(.printer, false)] else [])

theorem newServices_nodup (h : Host) (captureCursorEmbedded isX11 printerReady : Bool) :
    ((newServices h captureCursorEmbedded isX11 printerReady).map (·.1)).Nodup := by
  unfold newServices
  cases h.unixFileCopyPaste <;> cases captureCursorEmbedded <;>
    cases (h.targetOs == .linux && !isX11) <;>
    cases (h.targetOs == .windows && h.flutter && printerReady) <;> decide

def new (h : Host) (captureCursorEmbedded isX11 printerReady : Bool) : Server where
  services := (newServices h captureCursorEmbedded isX11 printerReady).map fun p =>
    { name := p.1, needSnapshot := p.2 }
  nodup := by
    rw [List.map_map]
    exact newServices_nodup h captureCursorEmbedded isX11 printerReady

/-! ## What the operations do to the registered names -/

theorem contains_mapServices (srv : Server) (f : Service → Service)
    (hf : ∀ s, (f s).name = s.name) (m : ServiceName) :
    (srv.mapServices f hf).contains m = srv.contains m := by
  simp [contains, mapServices, List.any_map, Function.comp_def, hf]

@[simp] theorem contains_subscribe (srv : Server) (n : ServiceName) (id : Int) (sub : Bool)
    (m : ServiceName) : (srv.subscribe n id sub).contains m = srv.contains m :=
  contains_mapServices srv _ _ m

@[simp] theorem contains_captureDisplays (srv : Server) (id : Int) (source : VideoSource)
    (displays : List Nat) (incl excl : Bool) (m : ServiceName) :
    (srv.captureDisplays id source displays incl excl).contains m = srv.contains m :=
  contains_mapServices srv _ _ m

@[simp] theorem contains_addConnection (srv : Server) (h : Host) (id : Int)
    (noperms : List ServiceName) (m : ServiceName) :
    (srv.addConnection h id noperms).contains m = srv.contains m :=
  contains_mapServices srv _ _ m

@[simp] theorem contains_removeConnection (srv : Server) (id : Int) (m : ServiceName) :
    (srv.removeConnection id).contains m = srv.contains m :=
  contains_mapServices srv _ _ m

@[simp] theorem contains_snapshot (srv : Server) (n m : ServiceName) :
    (srv.snapshot n).contains m = srv.contains m :=
  contains_mapServices srv _ _ m

theorem contains_addVideoService (srv : Server) (source : VideoSource) (idx : Nat)
    (m : ServiceName) :
    (srv.addVideoService source idx).contains m =
      (m == .video source idx || srv.contains m) := by
  unfold addVideoService
  split
  · rename_i h
    by_cases hm : m = .video source idx
    · subst hm; simp [h]
    · simp [hm]
  · by_cases hm : m = .video source idx
    · simp [contains, addService, hm]
    · rw [Bool.eq_iff_iff]
      simp only [contains, addService, List.any_cons, List.any_filter, Bool.or_eq_true,
        List.any_eq_true, Bool.and_eq_true, beq_iff_eq, decide_eq_true_eq]
      grind

/-- The services that are no video service are the same before and after. -/
theorem contains_addVideoService_of_not_isVideo (srv : Server) (source : VideoSource)
    (idx : Nat) {m : ServiceName} (hm : m.isVideo = false) :
    (srv.addVideoService source idx).contains m = srv.contains m := by
  rw [contains_addVideoService]
  cases m <;> simp_all [ServiceName.isVideo]

/-! ## What the operations do to the subscriptions -/

theorem isSubed_mapServices (srv : Server) (f : Service → Service)
    (hf : ∀ s, (f s).name = s.name) (m : ServiceName) (j : Int) :
    (srv.mapServices f hf).isSubed m j =
      srv.services.any fun s => s.name == m && (f s).isSubed j := by
  simp [isSubed, mapServices, List.any_map, Function.comp_def, hf]

/-- If every service of the name answers `b` after the operation, so does the server,
    provided there is one. -/
private theorem any_name_const (srv : Server) (m : ServiceName) (p : Service → Bool)
    (b : Bool) (hp : ∀ s, s.name = m → p s = b) :
    (srv.services.any fun s => s.name == m && p s) = (srv.contains m && b) := by
  unfold contains
  induction srv.services with
  | nil => cases b <;> rfl
  | cons s ss ih =>
    rw [List.any_cons, List.any_cons, ih]
    by_cases hs : s.name = m
    · rw [hp s hs]; cases b <;> simp [hs]
    · have hne : (s.name == m) = false := by simpa using hs
      rw [hne, Bool.false_and, Bool.false_or, Bool.false_or]

private theorem any_name_same (srv : Server) (m : ServiceName) (p : Service → Bool)
    (j : Int) (hp : ∀ s, s.name = m → p s = s.isSubed j) :
    (srv.services.any fun s => s.name == m && p s) = srv.isSubed m j := by
  unfold isSubed
  congr 1
  funext s
  by_cases hs : s.name = m
  · rw [hp s hs]
  · have hne : (s.name == m) = false := by simpa using hs
    rw [hne, Bool.false_and, Bool.false_and]

theorem isSubed_subscribe (srv : Server) (n : ServiceName) (id : Int) (sub : Bool)
    (m : ServiceName) (j : Int) :
    (srv.subscribe n id sub).isSubed m j =
      if m = n ∧ j = id then srv.contains m && sub else srv.isSubed m j := by
  unfold subscribe
  rw [isSubed_mapServices]
  split
  · rename_i h
    obtain ⟨rfl, rfl⟩ := h
    refine any_name_const srv m _ sub fun s hs => ?_
    simp [hs, isSubed_setSub]
  · rename_i h
    refine any_name_same srv m _ j fun s hs => ?_
    by_cases hn : s.name = n
    · rw [if_pos hn, isSubed_setSub, if_neg (fun hj => h ⟨hs ▸ hn, hj⟩)]
    · rw [if_neg hn]

/-- A video service that is added has no subscribers. -/
@[simp] theorem isSubed_addVideoService (srv : Server) (source : VideoSource) (idx : Nat)
    (m : ServiceName) (j : Int) :
    (srv.addVideoService source idx).isSubed m j = srv.isSubed m j := by
  unfold addVideoService
  split
  · rfl
  · rename_i h
    have hno : ∀ s ∈ srv.services, s.name ≠ .video source idx := by
      intro s hs he
      apply h
      simp only [contains, List.any_eq_true, beq_iff_eq]
      exact ⟨s, hs, he⟩
    have hf : srv.services.filter (fun s => decide (s.name ≠ .video source idx)) =
        srv.services := List.filter_eq_self.mpr fun s hs => by simpa using hno s hs
    unfold isSubed addService
    rw [List.any_cons, hf]
    simp [Service.isSubed]

theorem isSubed_captureDisplays (srv : Server) (id : Int) (source : VideoSource)
    (displays : List Nat) (incl excl : Bool) (m : ServiceName) (j : Int) :
    (srv.captureDisplays id source displays incl excl).isSubed m j =
      if m.isVideo ∧ j = id then
        if m ∈ displays.map (ServiceName.video source) then
          if incl then srv.contains m else srv.isSubed m j
        else if excl then false else srv.isSubed m j
      else srv.isSubed m j := by
  unfold captureDisplays
  rw [isSubed_mapServices]
  by_cases hv : m.isVideo
  · by_cases hj : j = id
    · subst hj
      rw [if_pos ⟨hv, rfl⟩]
      by_cases hm : m ∈ displays.map (ServiceName.video source)
      · rw [if_pos hm]
        cases incl
        · exact any_name_same srv m _ j fun s hs => by simp only [hs, hv, hm]; rfl
        · rw [if_pos rfl, ← Bool.and_true (srv.contains m)]
          exact any_name_const srv m _ true fun s hs => by
            simp only [hs, hv, hm, if_true, isSubed_setSub]
      · rw [if_neg hm]
        cases excl
        · exact any_name_same srv m _ j fun s hs => by
            simp only [hs, hv, hm, if_true, if_false]; rfl
        · rw [if_pos rfl, any_name_const srv m _ false fun s hs => by
            simp only [hs, hv, hm, if_true, if_false, isSubed_setSub], Bool.and_false]
    · rw [if_neg (fun h => hj h.2)]
      refine any_name_same srv m _ j fun s hs => ?_
      split_ifs <;> simp [isSubed_setSub, hj]
  · rw [if_neg (fun h => hv h.1)]
    exact any_name_same srv m _ j fun s hs => by rw [hs, if_neg hv]

theorem isSubed_addConnection (srv : Server) (h : Host) (id : Int)
    (noperms : List ServiceName) (m : ServiceName) (j : Int) :
    (srv.addConnection h id noperms).isSubed m j =
      if (m.isVideo = true → m = .video .monitor h.primaryDisplayIdx) ∧ m ∉ noperms ∧ j = id then
        srv.contains m
      else srv.isSubed m j := by
  unfold addConnection
  rw [isSubed_mapServices]
  split
  · rename_i hc
    obtain ⟨hv, hn, rfl⟩ := hc
    rw [← Bool.and_true (srv.contains m)]
    refine any_name_const srv m _ true fun s hs => ?_
    have hskip : (m.isVideo && m != .video .monitor h.primaryDisplayIdx) = false := by
      cases hm : m.isVideo with
      | false => rfl
      | true => simpa using hv hm
    rw [hs, hskip, if_neg (by simp), if_neg (by simpa using hn)]
    simp [Service.isSubed_onSubscribe]
  · rename_i hc
    refine any_name_same srv m _ j fun s hs => ?_
    rw [hs]
    split_ifs with h1 h2
    · rfl
    · rfl
    · rw [Service.isSubed_onSubscribe]
      have : j ≠ id := by
        rintro rfl
        refine hc ⟨fun hm => ?_, by simpa using h2, rfl⟩
        by_contra hne
        exact h1 (by simp [hm, hne])
      simp [this]

/-- A camera connection gets the primary camera and nothing else. -/
theorem isSubed_addCameraConnection (srv : Server) (env : Env) (id : Int) (m : ServiceName)
    (j : Int) :
    (srv.addCameraConnection env id).isSubed m j =
      (srv.isSubed m j ||
        (env.primaryCameraExists && m == .video .camera primaryCameraIdx && j == id)) := by
  unfold addCameraConnection
  split
  · rename_i he
    rw [isSubed_mapServices]
    by_cases hm : m = .video .camera primaryCameraIdx ∧ j = id
    · obtain ⟨rfl, rfl⟩ := hm
      rw [any_name_const _ _ _ true fun s hs => by
        rw [if_pos hs, Service.isSubed_onSubscribe]; simp]
      simp [contains_addVideoService, he]
    · rw [any_name_same _ _ _ j fun s hs => ?_, isSubed_addVideoService]
      · have : (m == ServiceName.video .camera primaryCameraIdx && j == id) = false := by
          simpa using hm
        rw [Bool.and_assoc, this]
        simp
      · split
        · rename_i hn
          rw [Service.isSubed_onSubscribe]
          have : j ≠ id := fun hj => hm ⟨hs ▸ hn, hj⟩
          simp [this]
        · rfl
  · rename_i he
    simp [he]

@[simp] theorem isSubed_removeConnection (srv : Server) (id : Int) (m : ServiceName) (j : Int) :
    (srv.removeConnection id).isSubed m j = (j != id && srv.isSubed m j) := by
  unfold removeConnection
  rw [isSubed_mapServices]
  by_cases hj : j = id
  · subst hj
    rw [any_name_const _ _ _ false fun s _ => by rw [Service.isSubed_onUnsubscribe]; simp]
    simp
  · rw [any_name_same _ _ _ j fun s _ => by rw [Service.isSubed_onUnsubscribe]; simp [hj]]
    simp [hj]

@[simp] theorem isSubed_snapshot (srv : Server) (n m : ServiceName) (j : Int) :
    (srv.snapshot n).isSubed m j = srv.isSubed m j := by
  unfold snapshot
  rw [isSubed_mapServices]
  refine any_name_same srv m _ j fun s _ => ?_
  split
  · exact s.isSubed_swapNewSubscribes j
  · rfl

/-- A subscription needs a registered service. -/
theorem contains_of_isSubed (srv : Server) {m : ServiceName} {j : Int}
    (hs : srv.isSubed m j = true) : srv.contains m = true := by
  simp only [isSubed, contains, List.any_eq_true, Bool.and_eq_true, beq_iff_eq] at hs ⊢
  obtain ⟨s, hmem, hname, _⟩ := hs
  exact ⟨s, hmem, hname⟩

/-- Nobody is subscribed to anything on a new server. -/
theorem isSubed_new (h : Host) (captureCursorEmbedded isX11 printerReady : Bool)
    (m : ServiceName) (j : Int) :
    (new h captureCursorEmbedded isX11 printerReady).isSubed m j = false := by
  simp [isSubed, new, Service.isSubed]

end Server

end LuodaRemote
