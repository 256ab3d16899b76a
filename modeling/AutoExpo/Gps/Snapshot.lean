import AutoExpo.Kit.Runs

/-!
# GPS metadata of a frame

The GPS thread opens the connection to gpsd, stores one report after the other
in `gps_data`, and closes the connection when a read fails. At the start of an
exposure `addGPSinfo` takes the metadata from there with five getters, and
nothing keeps the GPS thread from moving in between: a frame can have the
position of one report and the time of the next (`mixed_frame`).

Each getter takes what it stores from one state, and the states of the five are
in the order of the calls. What they store is one snapshot if nothing changes
from the first of them to the last (`taken_in_order`).

What libgps leaves in `gps_data` comes with the step: an opening, a report and a
read that fails may each leave anything.
-/

namespace AutoExpo.Gps

open Kit

/-! ## GPSInfo -/

/-- `double` -/
inductive Double
  | nan
  | infinite (negative : Bool)
  | finite (val : Rat)
  deriving DecidableEq

/-- `std::isnan(val) ? other : val` -/
def Double.orElse (val : Double) (other : Rat) : Double :=
  match val with
  | .nan => .finite other
  | val => val

/-- The members of `gps_data_t` that the getters read. -/
structure GpsData where
  latitude : Double
  longitude : Double
  altitude : Double
  satellitesVisible : Int
  time : Double
  online : Double
  mode : Int
  status : Int
  deriving DecidableEq

structure GPSInfo where
  data : GpsData
  connected : Bool
  deriving DecidableEq

/-- Control points of `GPSInfo::loop`. -/
inductive Pc
  | head
  | opened
  | readFailed
  | ended
  deriving DecidableEq

/-- What the GPS thread does, with what libgps leaves in `gps_data`. -/
inductive GpsAct
  | gpsOpen (data : GpsData) (ok : Bool)
  | setConnected
  | gpsRead (data : GpsData) (ok : Bool)
  | gpsClose
  | stop

/-- `GPSInfo::loop`, and `stop` with its join. -/
def loop (pc : Pc) (gps : GPSInfo) : GpsAct → Option (Pc × GPSInfo)
  | .gpsOpen data ok =>
      if pc = .head ∧ gps.connected = false then
        some (if ok then .opened else .head, { gps with data := data })
      else none
  | .setConnected =>
      if pc = .opened then some (.head, { gps with connected := true }) else none
  | .gpsRead data ok =>
      -- a read that fails may have stored a part of a report
      if pc = .head ∧ gps.connected = true then
        some (if ok then .head else .readFailed, { gps with data := data })
      else none
  | .gpsClose =>
      if pc = .readFailed then some (.head, { gps with connected := false }) else none
  | .stop =>
      if pc = .head then some (.ended, { gps with connected := false }) else none

/-! ## `addGPSinfo` -/

/-- The members of `ImgMeta` that are read from gpsd. -/
structure ImgMeta where
  gpsLatitude : Double := .finite 0
  gpsLongitude : Double := .finite 0
  gpsAltitude : Double := .finite 0
  gpsStatus : Int := 0
  gpsFixMode : Int := 0
  gpsSatellites : Int := 0
  gpsFixTime : Double := .finite 0
  gpsOnline : Double := .finite 0
  gpsConnected : Bool := false
  deriving DecidableEq

/-- The getters, in the order of their calls. -/
inductive Getter
  | latLonAlt
  | satellites
  | time
  | state
  | connected
  deriving DecidableEq

/-- The line of `addGPSinfo` with the getter. -/
def Getter.store (g : Getter) (gps : GPSInfo) (info : ImgMeta) : ImgMeta :=
  match g with
  | .latLonAlt =>
      { info with
        gpsLatitude := gps.data.latitude.orElse (-999)
        gpsLongitude := gps.data.longitude.orElse (-999)
        gpsAltitude := gps.data.altitude.orElse (-999) }
  | .satellites => { info with gpsSatellites := gps.data.satellitesVisible }
  | .time =>
      { info with
        gpsFixTime := gps.data.time.orElse 0
        gpsOnline := gps.data.online.orElse 0 }
  | .state => { info with gpsFixMode := gps.data.mode, gpsStatus := gps.data.status }
  | .connected => { info with gpsConnected := gps.connected }

def getters : List Getter := [.latLonAlt, .satellites, .time, .state, .connected]

/-- `addGPSinfo`, with the state that each getter sees. -/
def addGPSinfo (seen : Getter → GPSInfo) : ImgMeta :=
  getters.foldl (fun info g => g.store (seen g) info) {}

def Getter.place : Getter → Nat
  | .latLonAlt => 0
  | .satellites => 1
  | .time => 2
  | .state => 3
  | .connected => 4

/-- The getter called next; after the last one, the first for another frame. -/
def Getter.after : Getter → Getter
  | .latLonAlt => .satellites
  | .satellites => .time
  | .time => .state
  | .state => .connected
  | .connected => .latLonAlt

/-- An exposure thread: the getter it calls next, and the metadata it assembles. -/
structure Reader where
  next : Getter
  info : ImgMeta

def Reader.call (r : Reader) (gps : GPSInfo) : Reader where
  next := r.next.after
  -- the frame's `ImgMeta` is new
  info := r.next.store gps (if r.next = .latLonAlt then {} else r.info)

/-! ## The threads -/

/-- The GPS thread, and the exposure threads of the cameras. -/
structure State where
  pc : Pc
  gps : GPSInfo
  reader : Int → Reader

inductive Act
  | gps (a : GpsAct)
  | call (c : Int)

def threads : TSys State Act where
  init s := s.pc = .head ∧ s.gps.connected = false ∧ ∀ c, (s.reader c).next = .latLonAlt
  step s
    | .gps a => (loop s.pc s.gps a).map fun p => { s with pc := p.1, gps := p.2 }
    | .call c => some
        { s with reader := fun d => if d = c then (s.reader c).call s.gps else s.reader d }

/-! ## Frames -/

/-- The states of GPSInfo from the first getter on but the present one, and the place among
them of the state that each getter has seen. -/
structure Assembly where
  past : List GPSInfo
  moment : Getter → Nat

/-- The metadata of a frame, the states of GPSInfo from the first getter to the last, and the
place of what each getter has seen. -/
structure Frame where
  info : ImgMeta
  during : List GPSInfo
  moment : Getter → Nat

structure Log where
  assembly : Int → Assembly
  frames : List Frame

def Assembly.call (asm : Assembly) (g : Getter) : Assembly :=
  let past := if g = .latLonAlt then [] else asm.past
  { past := past, moment := fun h => if h = g then past.length else asm.moment h }

def noteCall (log : Log) (s : State) (c : Int) : Log :=
  let g := (s.reader c).next
  let asm := (log.assembly c).call g
  { assembly := fun d => if d = c then asm else log.assembly d
    frames :=
      if g = .connected then
        log.frames ++ [⟨((s.reader c).call s.gps).info, asm.past ++ [s.gps], asm.moment⟩]
      else log.frames }

def note (log : Log) (s : State) : Act → Log
  | .gps _ =>
      { log with assembly := fun c =>
          { log.assembly c with past := (log.assembly c).past ++ [s.gps] } }
  | .call c => noteCall log s c

/-- The threads, with the frames they assemble. -/
def assembling : TSys (State × Log) Act :=
  threads.record ⟨fun _ => ⟨[], fun _ => 0⟩, []⟩ note

/-- A reading of gpsd as it should be stored, with `other` for what is not a number. -/
def Reading (val : Double) (other : Rat) (stored : Double) : Prop :=
  if val = .nan then stored = .finite other else stored = val

instance (val : Double) (other : Rat) (stored : Double) : Decidable (Reading val other stored) :=
  inferInstanceAs (Decidable (if val = .nan then stored = .finite other else stored = val))

/-- The members of `info` that a getter is for are those of the state `s`. -/
def Getter.Stored (s : GPSInfo) (info : ImgMeta) : Getter → Prop
  | .latLonAlt => Reading s.data.latitude (-999) info.gpsLatitude ∧
      Reading s.data.longitude (-999) info.gpsLongitude ∧
      Reading s.data.altitude (-999) info.gpsAltitude
  | .satellites => info.gpsSatellites = s.data.satellitesVisible
  | .time => Reading s.data.time 0 info.gpsFixTime ∧ Reading s.data.online 0 info.gpsOnline
  | .state => info.gpsFixMode = s.data.mode ∧ info.gpsStatus = s.data.status
  | .connected => info.gpsConnected = s.connected

/-- The metadata is that of one state. -/
def Frame.OneSnapshot (frame : Frame) : Prop :=
  ∃ s ∈ frame.during, ∀ g : Getter, g.Stored s frame.info

/-- Each getter has taken its members from one state, from the first to the last of `during`,
and none from an older one than the getter before. -/
structure Frame.InOrder (frame : Frame) : Prop where
  first : frame.moment .latLonAlt = 0
  last : frame.moment .connected + 1 = frame.during.length
  order : ∀ g h : Getter, g.place ≤ h.place → frame.moment g ≤ frame.moment h
  stored : ∀ g : Getter, ∃ s, frame.during[frame.moment g]? = some s ∧ g.Stored s frame.info

/-! ## What the getters store -/

theorem reading_orElse (val : Double) (other : Rat) : Reading val other (val.orElse other) := by
  cases val <;> simp [Reading, Double.orElse]

/-- What a getter leaves as it is has the members of the state already. -/
theorem stored_of_store {g : Getter} {s : GPSInfo} {info : ImgMeta} (h : g.store s info = info) :
    g.Stored s info := by
  rw [← h]
  cases g with
  | latLonAlt => exact ⟨reading_orElse _ _, reading_orElse _ _, reading_orElse _ _⟩
  | satellites | connected => rfl
  | time => exact ⟨reading_orElse _ _, reading_orElse _ _⟩
  | state => exact ⟨rfl, rfl⟩

theorem store_store (g : Getter) (s t : GPSInfo) (info : ImgMeta) :
    g.store s (g.store t info) = g.store s info := by
  cases g <;> rfl

/-- Two getters store different members. -/
theorem store_comm {g h : Getter} (hne : g ≠ h) (s t : GPSInfo) (info : ImgMeta) :
    g.store s (h.store t info) = h.store t (g.store s info) := by
  cases g <;> cases h <;> first | exact absurd rfl hne | rfl

theorem eq_addGPSinfo {info : ImgMeta} {seen : Getter → GPSInfo}
    (hstored : ∀ g : Getter, g.store (seen g) info = info) : info = addGPSinfo seen :=
  calc info = getters.foldl (fun info g => g.store (seen g) info) info := by
        simp only [getters, List.foldl_cons, List.foldl_nil, hstored]
    -- each member is stored by one of the getters
    _ = addGPSinfo seen := rfl

/-! ## The order of the moments -/

theorem place_inj {g h : Getter} (heq : g.place = h.place) : g = h := by
  cases g <;> cases h <;> first | rfl | cases heq

theorem place_lt (g : Getter) : g.place < 5 := by
  cases g <;> decide

theorem place_after {g : Getter} (hg : g ≠ .connected) : g.after.place = g.place + 1 := by
  cases g <;> first | rfl | exact absurd rfl hg

/-- The first `n` getters have stored their members in `info`, in order, each from the state
at its moment. -/
structure Taken (n : Nat) (during : List GPSInfo) (moment : Getter → Nat) (info : ImgMeta) :
    Prop where
  first : 0 < n → moment .latLonAlt = 0
  order : ∀ g h : Getter, g.place ≤ h.place → h.place < n → moment g ≤ moment h
  stored : ∀ g : Getter, g.place < n →
    ∃ s, during[moment g]? = some s ∧ g.store s info = info

/-- Before the first getter nothing is stored. -/
theorem taken_new {g : Getter} (hg : g = .latLonAlt) (during : List GPSInfo)
    (moment : Getter → Nat) (info : ImgMeta) : Taken g.place during moment info := by
  subst hg
  exact ⟨nofun, fun _ _ _ hlt => absurd hlt (Nat.not_lt_zero _),
    fun _ hlt => absurd hlt (Nat.not_lt_zero _)⟩

/-- Later states change nothing. -/
theorem Taken.extend {n : Nat} {during : List GPSInfo} {moment : Getter → Nat}
    {info : ImgMeta} (h : Taken n during moment info) (s : GPSInfo) :
    Taken n (during ++ [s]) moment info := by
  refine ⟨h.first, h.order, ?_⟩
  intro g hg
  obtain ⟨t, ht, hstore⟩ := h.stored g hg
  obtain ⟨hlt, -⟩ := List.getElem?_eq_some_iff.mp ht
  exact ⟨t, by rw [List.getElem?_append_left hlt, ht], hstore⟩

/-- The next getter stores its members from the present state. -/
theorem Taken.store {g : Getter} {past : List GPSInfo} {gps : GPSInfo}
    {moment : Getter → Nat} {info : ImgMeta}
    (h : Taken g.place (past ++ [gps]) moment info) (hpast : g = .latLonAlt → past = []) :
    Taken (g.place + 1) (past ++ [gps])
      (fun k => if k = g then past.length else moment k) (g.store gps info) := by
  have hbefore : ∀ {k : Getter}, k.place < g.place + 1 → k ≠ g → k.place < g.place := by
    intro k hk hne
    have hplace : k.place ≠ g.place := fun heq => hne (place_inj heq)
    omega
  refine ⟨fun _ => ?_, ?_, ?_⟩
  · split
    next heq => rw [hpast heq.symm, List.length_nil]
    next hne =>
      have hlt : Getter.latLonAlt.place < g.place := hbefore (Nat.succ_pos g.place) hne
      exact h.first hlt
  · intro k l hkl hl
    by_cases hlg : l = g
    · rw [if_pos hlg]
      by_cases hkg : k = g
      · rw [if_pos hkg]
      · rw [if_neg hkg]
        obtain ⟨s, hs, -⟩ := h.stored k (hbefore (by omega) hkg)
        obtain ⟨hlt, -⟩ := List.getElem?_eq_some_iff.mp hs
        simpa [Nat.lt_succ_iff] using hlt
    · have hlt := hbefore hl hlg
      have hkg : k ≠ g := fun heq => by subst heq; omega
      rw [if_neg hlg, if_neg hkg]
      exact h.order k l hkl hlt
  · intro k hk
    by_cases hkg : k = g
    · rw [if_pos hkg, hkg]
      exact ⟨gps, by simp, store_store g gps gps info⟩
    · rw [if_neg hkg]
      obtain ⟨s, hs, hstore⟩ := h.stored k (hbefore hk hkg)
      exact ⟨s, hs, by rw [store_comm hkg, hstore]⟩

/-- What is taken when an exposure thread has called its next getter. -/
theorem taken_call {r : Reader} {gps : GPSInfo} {asm : Assembly}
    (h : Taken r.next.place (asm.past ++ [gps]) asm.moment r.info) :
    Taken (r.next.place + 1) ((asm.call r.next).past ++ [gps]) (asm.call r.next).moment
      (r.call gps).info := by
  by_cases hnew : r.next = .latLonAlt
  · exact Taken.store (taken_new hnew _ _ _) fun _ => if_pos hnew
  · have hpast : (asm.call r.next).past = asm.past := if_neg hnew
    refine Taken.store ?_ fun heq => absurd heq hnew
    rw [hpast, if_neg hnew]
    exact h

/-! ## Every run -/

/-- What is known of the frames being assembled, and of those that are. -/
structure Inv (p : State × Log) : Prop where
  taken : ∀ c, Taken (p.1.reader c).next.place ((p.2.assembly c).past ++ [p.1.gps])
    (p.2.assembly c).moment (p.1.reader c).info
  frames : ∀ frame ∈ p.2.frames, Taken 5 frame.during frame.moment frame.info ∧
    frame.moment .connected + 1 = frame.during.length

theorem inv_call {s : State} {log : Log} (hinv : Inv (s, log)) (c : Int) :
    Inv ({ s with reader := fun d => if d = c then (s.reader c).call s.gps else s.reader d },
      noteCall log s c) := by
  have hcall := taken_call (hinv.taken c)
  refine ⟨?_, ?_⟩
  · intro d
    by_cases hd : d = c
    · simp only [noteCall, if_pos hd]
      by_cases hlast : (s.reader c).next = .connected
      · exact taken_new (congrArg Getter.after hlast) _ _ _
      · rw [← place_after hlast] at hcall
        exact hcall
    · simp only [noteCall, if_neg hd]
      exact hinv.taken d
  · intro frame hframe
    by_cases hlast : (s.reader c).next = .connected
    · simp only [noteCall, if_pos hlast, List.mem_append, List.mem_singleton] at hframe
      rcases hframe with hold | rfl
      · exact hinv.frames frame hold
      · have hplace : (s.reader c).next.place + 1 = 5 := by rw [hlast]; rfl
        exact ⟨hplace ▸ hcall, by simp [Assembly.call, hlast]⟩
    · simp only [noteCall, if_neg hlast] at hframe
      exact hinv.frames frame hframe

theorem inv_inductive : assembling.Inductive Inv := by
  refine ⟨?_, ?_⟩
  · rintro ⟨s, log⟩ ⟨⟨-, -, hnext⟩, rfl⟩
    exact ⟨fun c => taken_new (hnext c) _ _ _,
      fun frame hframe => absurd hframe List.not_mem_nil⟩
  · rintro ⟨s, log⟩ a ⟨s', log'⟩ - hinv hstep
    obtain ⟨hstep, rfl⟩ := TSys.record_step.mp hstep
    cases a with
    | gps a =>
        obtain ⟨p, -, rfl⟩ := Option.map_eq_some_iff.mp hstep
        exact ⟨fun c => (hinv.taken c).extend p.2, hinv.frames⟩
    | call c =>
        cases hstep
        exact inv_call hinv c

/-- The metadata of a frame is what `addGPSinfo` assembles, each getter at its moment. -/
theorem frames_addGPSinfo {p : State × Log} (hp : assembling.Reachable p) :
    ∀ frame ∈ p.2.frames, ∃ seen : Getter → GPSInfo,
      (∀ g, frame.during[frame.moment g]? = some (seen g)) ∧ frame.info = addGPSinfo seen := by
  intro frame hframe
  obtain ⟨htaken, -⟩ := (inv_inductive.invariant p hp).frames frame hframe
  choose seen hseen hstored using fun g => htaken.stored g (place_lt g)
  exact ⟨seen, hseen, eq_addGPSinfo hstored⟩

/-- The getters of a frame have each taken their members from one state, in the order of
their calls; if nothing changes from the first to the last of them, the metadata is one
snapshot. -/
theorem taken_in_order {p : State × Log} (hp : assembling.Reachable p) :
    ∀ frame ∈ p.2.frames, frame.InOrder ∧
      ∀ s, (∀ t ∈ frame.during, t = s) → ∀ g : Getter, g.Stored s frame.info := by
  intro frame hframe
  obtain ⟨htaken, hlast⟩ := (inv_inductive.invariant p hp).frames frame hframe
  have hstored : ∀ g : Getter, ∃ s, frame.during[frame.moment g]? = some s ∧
      g.Stored s frame.info := by
    intro g
    obtain ⟨s, hs, hstore⟩ := htaken.stored g (place_lt g)
    exact ⟨s, hs, stored_of_store hstore⟩
  refine ⟨⟨htaken.first (by decide), hlast, fun g h hgh => htaken.order g h hgh (place_lt h),
    hstored⟩, ?_⟩
  intro s hsame g
  obtain ⟨t, ht, htg⟩ := hstored g
  exact hsame t (List.mem_of_getElem? ht) ▸ htg

/-- A report with a fix in two dimensions. -/
def report (time latitude : Rat) : GpsData where
  latitude := .finite latitude
  longitude := .finite 116
  altitude := .nan
  satellitesVisible := 8
  time := .finite time
  online := .finite 900
  mode := 2
  status := 1

/-- Nothing has been read, and no exposure has started. -/
def unread : State × Log where
  fst :=
    { pc := .head
      gps := ⟨report 0 0, false⟩
      reader := fun _ => ⟨.latLonAlt, {}⟩ }
  snd := ⟨fun _ => ⟨[], fun _ => 0⟩, []⟩

theorem unread_init : assembling.init unread :=
  ⟨⟨rfl, rfl, fun _ => rfl⟩, rfl⟩

/-- A frame for which a report comes between the first getter and the second. -/
def reportBetween : List Act :=
  [.gps (.gpsOpen (report 0 0) true), .gps .setConnected, .gps (.gpsRead (report 1000 40) true),
    .call 0, .gps (.gpsRead (report 1001 41) true), .call 0, .call 0, .call 0, .call 0]

theorem taken_in_order_reportBetween : ∃ p : State × Log, p.2.frames.length = 1 ∧
    ∀ frame ∈ p.2.frames, frame.InOrder ∧
      ∀ s, (∀ t ∈ frame.during, t = s) → ∀ g : Getter, g.Stored s frame.info := by
  obtain ⟨p, hp, hlen⟩ := TSys.Reachable.of_exec unread_init
    (show (assembling.exec unread reportBetween).any (fun p => p.2.frames.length = 1) = true by
      decide +kernel)
  simp only [decide_eq_true_eq] at hlen
  exact ⟨p, hlen, taken_in_order hp⟩

/-- The latitude of no state that has the time of the frame. -/
def Frame.mixed (frame : Frame) : Bool :=
  frame.during.all fun s => ¬ (Reading s.data.latitude (-999) frame.info.gpsLatitude ∧
    Reading s.data.time 0 frame.info.gpsFixTime)

/-- The frame has the latitude of the one report and the time of the other. -/
theorem mixed_frame : ¬ ∀ p, assembling.Reachable p → ∀ frame ∈ p.2.frames,
    frame.OneSnapshot := by
  intro hall
  obtain ⟨p, hp, hmixed⟩ := TSys.Reachable.of_exec unread_init
    (show (assembling.exec unread reportBetween).any (fun p =>
      p.2.frames.any Frame.mixed) = true by decide +kernel)
  obtain ⟨frame, hframe, hnot⟩ := List.any_eq_true.mp hmixed
  obtain ⟨s, hs, hstored⟩ := hall p hp frame hframe
  exact of_decide_eq_true (List.all_eq_true.mp hnot s hs)
    ⟨(hstored .latLonAlt).1, (hstored .time).1⟩

end AutoExpo.Gps
