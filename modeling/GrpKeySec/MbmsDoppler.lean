import GrpKeySec.CellSimulation
import GrpKeySec.DashAccounting
set_option autoImplicit false

/-!
The satellite link of the two mbms_leo simulations. The part of the Doppler shift that a
compensation level leaves sets the packet error rate, and a transmission gets through where
`rand` is above it. What `rand` gives is an input. Then the figures of mbms_leo_simulation.m
over all its runs, and what compensation does to a run of mbms_leo_simulation_v1.m.
-/

namespace GrpKeySec.Mbms
open Tally

structure OrbitMaths (K : Type) extends PhysicalLayer.CellMaths K where
  cosd : K → K

structure Constants (K : Type) [Field K] [LinearOrder K] where
  leoAltitudeKm : K
  earthRadiusKm : K
  gm : K
  speedOfLight : K
  carrierFreqHz : K
  nasSignalingOverheadMs : K
  altitude_nonneg : 0 ≤ leoAltitudeKm
  light_pos : 0 < speedOfLight
  carrier_pos : 0 < carrierFreqHz
  overhead_pos : 0 < nasSignalingOverheadMs

section Definitions

variable {K : Type} [Field K] [LinearOrder K] (f : OrbitMaths K) (c : Constants K)

def kilo : Nat := 1000

def propagationLatencyMs : K := c.leoAltitudeKm * kilo / c.speedOfLight * (2 : Nat) * kilo

def satelliteSpeedMs : K := f.sqrt (c.gm / ((c.earthRadiusKm + c.leoAltitudeKm) * kilo))

def dopplerShiftHz : K := satelliteSpeedMs f c * f.cosd 60 * c.carrierFreqHz / c.speedOfLight

def per (dopplerCompensation : K) : K :=
  let residualDoppler := dopplerShiftHz f c * (1 - dopplerCompensation)
  0.1 * |residualDoppler| / c.carrierFreqHz

/-- `linspace(0, 1, runs)`, which is 1 alone for one run. -/
def compensationLevel (runs : Nat) (run : Fin runs) : K :=
  if run.val + 1 = runs then 1 else run.val / ((runs - 1 : Nat) : K)

structure Draws (K : Type) [Field K] [LinearOrder K] (n : Nat) where
  registration : Fin n → K
  session : K
  broadcast : Fin n → K
  multicast : Nat → K
  registration_pos : ∀ i,0 < registration i
  session_pos : 0 < session
  broadcast_pos : ∀ i,0 < broadcast i
  multicast_pos : ∀ idx,0 < multicast idx

variable {n users : Nat}

def Draws.channel (d : Draws K n) (dopplerCompensation : K) : Channel n where
  registration i := decide (per f c dopplerCompensation < d.registration i)
  session := decide (per f c dopplerCompensation < d.session)
  broadcast i := decide (per f c dopplerCompensation < d.broadcast i)
  multicast idx := decide (per f c dopplerCompensation < d.multicast idx)

structure Point (K : Type) where
  throughputMbps : K
  latencyMs : K

def latencyMs : K := propagationLatencyMs c + c.nasSignalingOverheadMs

def throughputOf (totalBytes : Nat) : K := totalBytes * (8 : Nat) / 1e6 / (latencyMs c / kilo)

def metrics (r : Run n) : Point K := ⟨throughputOf c (∑ i,(r.ues i).totalBytes),latencyMs c⟩

def simulateRun {runs : Nat} (run : Fin runs) (d : Draws K n) (selected : Selection n users) :
    Option (Point K) :=
  (Run.simulate (d.channel f c (compensationLevel runs run)) selected (run.val + 1)).map (metrics c)

end Definitions

section Per

variable {K : Type} [Field K] [LinearOrder K] [IsStrictOrderedRing K] (f : OrbitMaths K)
  (c : Constants K)

theorem per_one : per f c 1 = 0 := by
  simp [per]

/-- More compensation, up to all of it, leaves less of the shift. -/
theorem per_antitone {x y : K} (hxy : x ≤ y) (hy : y ≤ 1) : per f c y ≤ per f c x := by
  have habs : |dopplerShiftHz f c * (1 - y)| ≤ |dopplerShiftHz f c * (1 - x)| := by
    rw [abs_mul,abs_mul,abs_of_nonneg (sub_nonneg.mpr hy),
      abs_of_nonneg (sub_nonneg.mpr (hxy.trans hy))]
    exact mul_le_mul_of_nonneg_left (by linarith) (abs_nonneg _)
  refine div_le_div_of_nonneg_right ?_ c.carrier_pos.le
  exact mul_le_mul_of_nonneg_left habs (by norm_num)

theorem latencyMs_pos : 0 < latencyMs c := by
  have hlight := c.light_pos
  have haltitude := c.altitude_nonneg
  have hpropagation : 0 ≤ propagationLatencyMs c := by
    unfold propagationLatencyMs
    positivity
  have hoverhead := c.overhead_pos
  unfold latencyMs
  linarith

theorem throughputOf_mono : Monotone (throughputOf c) := by
  intro b b' h
  have hlatency := latencyMs_pos c
  have hcast : (b : K) ≤ b' := Nat.cast_le.mpr h
  unfold throughputOf
  gcongr

end Per

namespace Run

variable {n users : Nat}

theorem simulate_totalBytes {channel : Channel n} {selected : Selection n users} {run : Nat}
    {r : Run n} (h : simulate channel selected run = some r) (i : Fin n) :
    (r.ues i).totalBytes = packetSizeBytes *
      (reached i (broadcastCalls channel) + reached i (multicastCalls channel selected)) := by
  simp only [simulate,Option.map_eq_some_iff] at h
  obtain ⟨active,hactive,hr⟩ := h
  obtain ⟨hses,-⟩ := setupSession_eq channel run hactive
  obtain ⟨hbro,-⟩ := foldl_transmitTo (show mbmsBroadcast = _ from rfl) (broadcastCalls channel) active
  obtain ⟨hmul,-⟩ := foldl_transmitTo (show mbmsMulticast = _ from rfl)
    (multicastCalls channel selected) ((broadcastCalls channel).foldl (transmitTo mbmsBroadcast) active)
  rw [hr] at hmul
  rw [hmul i,hbro,hses,foldl_registerUe_ues]
  simp [Ue.receive,init,Nat.mul_add]

theorem sum_reached (calls : List (Fin n × Bool)) : ∑ i,reached i calls = calls.countP Prod.snd := by
  rw [← sum_countP_key Prod.snd Prod.fst calls]
  simp only [reached,Bool.and_comm]

theorem sum_totalBytes {channel : Channel n} {selected : Selection n users} {run : Nat} {r : Run n}
    (h : simulate channel selected run = some r) :
    ∑ i,(r.ues i).totalBytes = packetSizeBytes *
      ((broadcastCalls channel).countP Prod.snd + (multicastCalls channel selected).countP Prod.snd) := by
  simp only [simulate_totalBytes h,← Finset.mul_sum,Finset.sum_add_distrib,sum_reached]

theorem length_broadcastCalls (channel : Channel n) : (broadcastCalls channel).length = n := by
  simp [broadcastCalls]

theorem length_multicastCalls (channel : Channel n) (selected : Selection n users) :
    (multicastCalls channel selected).length = min users n := by
  simp [multicastCalls,selected.length]

def fullBytes (n users : Nat) : Nat := packetSizeBytes * (n + min users n)

theorem sum_totalBytes_le {channel : Channel n} {selected : Selection n users} {run : Nat} {r : Run n}
    (h : simulate channel selected run = some r) :
    ∑ i,(r.ues i).totalBytes ≤ fullBytes n users := by
  rw [sum_totalBytes h]
  refine Nat.mul_le_mul_left _ (Nat.add_le_add ?_ ?_)
  · exact List.countP_le_length.trans_eq (length_broadcastCalls channel)
  · exact List.countP_le_length.trans_eq (length_multicastCalls channel selected)

theorem sum_totalBytes_of_lossless {channel : Channel n} {selected : Selection n users} {run : Nat}
    {r : Run n} (h : simulate channel selected run = some r) (hb : ∀ i,channel.broadcast i = true)
    (hm : ∀ idx,channel.multicast idx = true) :
    ∑ i,(r.ues i).totalBytes = fullBytes n users := by
  have hbro : (broadcastCalls channel).countP Prod.snd = n := by
    rw [List.countP_eq_length.mpr,length_broadcastCalls]
    simp [broadcastCalls,hb]
  have hmul : (multicastCalls channel selected).countP Prod.snd = min users n := by
    rw [List.countP_eq_length.mpr,length_multicastCalls]
    simp only [multicastCalls,List.forall_mem_map,hm,implies_true]
  rw [sum_totalBytes h,hbro,hmul,fullBytes]

theorem exists_simulate (hn : 0 < n) (channel : Channel n) (selected : Selection n users) (run : Nat) :
    ∃ r,simulate channel selected run = some r := by
  simp only [simulate,setupSession,dif_pos hn]
  split <;> exact ⟨_,rfl⟩

end Run

/-- Whatever is drawn and whoever is selected, no run of the script has more throughput than
the last one, the one with full compensation, which loses nothing; and the latency is the
same in all of them. -/
theorem last_run_best {K : Type} [Field K] [LinearOrder K] [IsStrictOrderedRing K] (f : OrbitMaths K)
    (c : Constants K) {n users runs : Nat} (hn : 0 < n) (d : Fin runs → Draws K n)
    (selected : Fin runs → Selection n users) (run : Fin runs) :
    ∃ pt,simulateRun f c run (d run) (selected run) = some pt ∧ pt.latencyMs = latencyMs c ∧
      pt.throughputMbps ≤ throughputOf c (Run.fullBytes n users) ∧
      (run.val + 1 = runs → pt.throughputMbps = throughputOf c (Run.fullBytes n users)) := by
  obtain ⟨r,hr⟩ := Run.exists_simulate hn ((d run).channel f c (compensationLevel runs run))
    (selected run) (run.val + 1)
  refine ⟨metrics c r,congrArg (Option.map (metrics c)) hr,rfl,
    throughputOf_mono c (Run.sum_totalBytes_le hr),fun hlast => congrArg (throughputOf c) ?_⟩
  have hlevel : compensationLevel runs run = (1 : K) := if_pos hlast
  rw [hlevel] at hr
  refine Run.sum_totalBytes_of_lossless hr (fun i => ?_) (fun idx => ?_)
  · exact decide_eq_true (by simpa [per_one] using (d run).broadcast_pos i)
  · exact decide_eq_true (by simpa [per_one] using (d run).multicast_pos idx)

/-- Whole square roots, and the one cosine that the script takes. -/
def OrbitMaths.rounded : OrbitMaths Rat where
  toMaths := .rounded
  sqrt x := Nat.sqrt ⌊x⌋₊
  cosd _ := 1 / 2

def scriptConstants : Constants Rat where
  leoAltitudeKm := 8000
  earthRadiusKm := 6371
  gm := 3.986e14
  speedOfLight := 3e8
  carrierFreqHz := 2e9
  nasSignalingOverheadMs := 50
  altitude_nonneg := by norm_num
  light_pos := by norm_num
  carrier_pos := by norm_num
  overhead_pos := by norm_num

/-- So small that only full compensation gets it through. -/
def smallDraws (n : Nat) : Draws Rat n where
  registration _ := 1e-8
  session := 1e-8
  broadcast _ := 1e-8
  multicast _ := 1e-8
  registration_pos _ := by norm_num
  session_pos := by norm_num
  broadcast_pos _ := by norm_num
  multicast_pos _ := by norm_num

def Selection.first (n users : Nat) : Selection n users where
  ues := (List.finRange n).take users
  nodup := (List.nodup_finRange n).sublist (List.take_sublist _ _)
  length := by simp

theorem last_run_best_ten :
    (∃ pt,simulateRun OrbitMaths.rounded scriptConstants (0 : Fin 10) (smallDraws 2) (.first 2 1) =
        some pt ∧ pt.throughputMbps ≤ throughputOf scriptConstants (Run.fullBytes 2 1)) ∧
      ∃ pt,simulateRun OrbitMaths.rounded scriptConstants (9 : Fin 10) (smallDraws 2) (.first 2 1) =
        some pt ∧ pt.throughputMbps = throughputOf scriptConstants (Run.fullBytes 2 1) := by
  have hbest := last_run_best OrbitMaths.rounded scriptConstants two_pos
    (fun _ : Fin 10 => smallDraws 2) (fun _ => (.first 2 1))
  obtain ⟨pt,hrun,-,hle,-⟩ := hbest 0
  obtain ⟨pt',hrun',-,-,hlast⟩ := hbest 9
  exact ⟨⟨pt,hrun,hle⟩,pt',hrun',hlast rfl⟩

end GrpKeySec.Mbms

namespace GrpKeySec.Dash

structure Draws (K : Type) [Field K] [LinearOrder K] (n : Nat) where
  registration : Fin n → K
  session : K
  broadcast : Nat → Nat → Fin n → K
  multicast : Nat → Nat → K
  registration_pos : ∀ i,0 < registration i
  session_pos : 0 < session
  broadcast_pos : ∀ k t i,0 < broadcast k t i
  multicast_pos : ∀ idx t,0 < multicast idx t

def Draws.channel {K : Type} [Field K] [LinearOrder K] {n : Nat} (f : Mbms.OrbitMaths K)
    (c : Mbms.Constants K) (d : Draws K n) (dopplerCompensation : K) : Channel n where
  registration i := decide (Mbms.per f c dopplerCompensation < d.registration i)
  session := decide (Mbms.per f c dopplerCompensation < d.session)
  broadcast k t i := decide (Mbms.per f c dopplerCompensation < d.broadcast k t i)
  multicast idx t := decide (Mbms.per f c dopplerCompensation < d.multicast idx t)

structure Channel.Le {n : Nat} (channel channel' : Channel n) : Prop where
  broadcast : ∀ {k t i},channel.broadcast k t i = true → channel'.broadcast k t i = true
  multicast : ∀ {idx t},channel.multicast idx t = true → channel'.multicast idx t = true

section Order

variable {n users steps segs : Nat} {channel channel' : Channel n}

theorem Channel.Le.deliveredTo (h : channel.Le channel') {selected : Mbms.Selection n users}
    {i : Fin n} {k : Fin segs} (hd : channel.DeliveredTo selected segs steps i k) :
    channel'.DeliveredTo selected segs steps i k := by
  obtain ⟨t,ht⟩ | ⟨hk,idx,hidx,t,ht⟩ := hd
  · exact .inl ⟨t,h.broadcast ht⟩
  · exact .inr ⟨hk,idx,hidx,t,h.multicast ht⟩

theorem lost_once_le {delivered delivered' : Bool} (h : delivered = true → delivered' = true)
    (now : Bool) :
    (if (!delivered' && now) = true then 1 else 0) ≤ if (!delivered && now) = true then 1 else 0 := by
  cases delivered <;> cases delivered' <;> cases now <;> simp at h ⊢

theorem Channel.Le.lost_le (h : channel.Le channel') (selected : Mbms.Selection n users)
    (premium : Fin segs) (t : Fin steps) :
    Call.lost (Call.ofRun channel' selected premium steps) t ≤
      Call.lost (Call.ofRun channel selected premium steps) t := by
  simp only [Call.lost,Call.ofRun,List.countP_append,Call.countP_ofBroadcast,Call.countP_ofMulticast]
  refine Nat.add_le_add ?_ ?_
  · exact Finset.sum_le_sum (fun k _ => Finset.sum_le_sum (fun t' _ => Finset.sum_le_sum (fun i _ =>
      lost_once_le h.broadcast _)))
  · exact Finset.sum_le_sum (fun idx _ => Finset.sum_le_sum (fun t' _ => lost_once_le h.multicast _))

theorem lost_of_lossless {selected : Mbms.Selection n users} {premium : Fin segs}
    (hb : ∀ k t i,channel.broadcast k t i = true) (hm : ∀ idx t,channel.multicast idx t = true)
    (t : Fin steps) : Call.lost (Call.ofRun channel selected premium steps) t = 0 := by
  simp [Call.lost,Call.ofRun,Call.countP_ofBroadcast,Call.countP_ofMulticast,hb,hm]

end Order

namespace Run

variable {n steps users : Nat} {S : Type} {segments : List (Segment S)} {channel : Channel n}
  {selected : Mbms.Selection n users} {run : Nat} {r : Run n steps}

theorem deliver_packetLoss (h : deliver channel selected segments run = .ok r)
    (hne : segments ≠ []) (t : Fin steps) :
    r.packetLoss t = Call.lost (Call.ofRun channel selected (lastSegment hne) steps) t := by
  obtain ⟨_,attached,hfresh,rfl⟩ := of_deliver h
  rw [foldl_perform_packetLoss,hfresh.packetLoss,Nat.zero_add]

theorem mem_deliver_receivedSegments (h : deliver channel selected segments run = .ok r) (i : Fin n)
    (x : String) :
    x ∈ (r.ues i).receivedSegments ↔
      ∃ k,channel.DeliveredTo selected segments.length steps i k ∧ (segments.get k).id = x := by
  obtain ⟨hne,attached,hfresh,rfl⟩ := of_deliver h
  rw [mem_foldl_perform,hfresh.receivedSegments]
  simp only [← Call.exists_delivered_iff channel selected hne,List.not_mem_nil,false_or]
  constructor
  · rintro ⟨call,hcall,hd,hi,hid⟩
    exact ⟨call.segment,⟨call,hcall,hd,hi,rfl⟩,hid⟩
  · rintro ⟨k,⟨call,hcall,hd,hi,rfl⟩,hid⟩
    exact ⟨call,hcall,hd,hi,hid⟩

end Run

/-- For the same draws more compensation never costs anything: at every time step no more
packets are lost, and every UE has all the segments that it had with less. Full compensation
loses no packet, and then every UE has every segment, if there is a time step at all. -/
theorem compensation_never_hurts {K : Type} [Field K] [LinearOrder K] [IsStrictOrderedRing K]
    (f : Mbms.OrbitMaths K) (c : Mbms.Constants K) {n users : Nat} (steps : Nat) (hn : 0 < n)
    (d : Draws K n) (selected : Mbms.Selection n users) {S : Type} {segments : List (Segment S)}
    (hne : segments ≠ []) (run : Nat) {x y : K} (hxy : x ≤ y) (hy : y ≤ 1) :
    ∃ r r' : Run n steps,
      Run.deliver (d.channel f c x) selected segments run = .ok r ∧
      Run.deliver (d.channel f c y) selected segments run = .ok r' ∧
      (∀ t,r'.packetLoss t ≤ r.packetLoss t) ∧
      (∀ i,(r.ues i).receivedSegments ⊆ (r'.ues i).receivedSegments) ∧
      (y = 1 → (∀ t,r'.packetLoss t = 0) ∧
        (0 < steps → ∀ i k,(segments.get k).id ∈ (r'.ues i).receivedSegments)) := by
  have hper := Mbms.per_antitone f c hxy hy
  have hle : (d.channel f c x).Le (d.channel f c y) := by
    constructor
    · intro k t i hd
      exact decide_eq_true (hper.trans_lt (of_decide_eq_true hd))
    · intro idx t hd
      exact decide_eq_true (hper.trans_lt (of_decide_eq_true hd))
  obtain ⟨attached,-,hr⟩ := Run.deliver_ok steps (d.channel f c x) selected run hn hne
  obtain ⟨attached',-,hr'⟩ := Run.deliver_ok steps (d.channel f c y) selected run hn hne
  refine ⟨_,_,hr,hr',fun t => ?_,fun i z hz => ?_,?_⟩
  · rw [Run.deliver_packetLoss hr hne,Run.deliver_packetLoss hr' hne]
    exact hle.lost_le selected _ t
  · obtain ⟨k,hk,hid⟩ := (Run.mem_deliver_receivedSegments hr i z).mp hz
    exact (Run.mem_deliver_receivedSegments hr' i z).mpr ⟨k,hle.deliveredTo hk,hid⟩
  · rintro rfl
    have hb : ∀ k t i,(d.channel f c 1).broadcast k t i = true := fun k t i =>
      decide_eq_true (by simpa [Mbms.per_one] using d.broadcast_pos k t i)
    have hm : ∀ idx t,(d.channel f c 1).multicast idx t = true := fun idx t =>
      decide_eq_true (by simpa [Mbms.per_one] using d.multicast_pos idx t)
    constructor
    · intro t
      rw [Run.deliver_packetLoss hr' hne]
      exact lost_of_lossless hb hm t
    · intro hsteps i k
      exact (Run.mem_deliver_receivedSegments hr' i _).mpr ⟨k,.inl ⟨⟨0,hsteps⟩,hb _ _ _⟩,rfl⟩

def smallDraws (n : Nat) : Draws Rat n where
  registration _ := 1e-8
  session := 1e-8
  broadcast _ _ _ := 1e-8
  multicast _ _ := 1e-8
  registration_pos _ := by norm_num
  session_pos := by norm_num
  broadcast_pos _ _ _ := by norm_num
  multicast_pos _ _ := by norm_num

theorem compensation_never_hurts_small :
    ∃ r r' : Run 2 3,
      Run.deliver ((smallDraws 2).channel .rounded Mbms.scriptConstants 0) (.first 2 1)
        dashServer 1 = .ok r ∧
      Run.deliver ((smallDraws 2).channel .rounded Mbms.scriptConstants 1) (.first 2 1)
        dashServer 1 = .ok r' ∧
      (∀ t,r'.packetLoss t ≤ r.packetLoss t) ∧ (∀ t,r'.packetLoss t = 0) ∧
      ∀ i k,(dashServer.get k).id ∈ (r'.ues i).receivedSegments := by
  obtain ⟨r,r',hr,hr',hloss,-,hfull⟩ := compensation_never_hurts Mbms.OrbitMaths.rounded
    Mbms.scriptConstants 3 two_pos (smallDraws 2) (.first 2 1) dashServer_ne_nil 1
    zero_le_one (le_refl (1 : Rat))
  exact ⟨r,r',hr,hr',hloss,(hfull rfl).1,(hfull rfl).2 (by decide)⟩

end GrpKeySec.Dash
