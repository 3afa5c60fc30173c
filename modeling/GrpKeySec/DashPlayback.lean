import Mathlib.Algebra.Order.BigOperators.Group.Finset
import GrpKeySec.DashAccounting
set_option autoImplicit false

/-!
The playback check of mbms_leo_simulation_v1.m. A segment is sent once for each time step,
however many packets it takes, and what the check reads is `[]` for every UE.
-/

namespace GrpKeySec.Dash
open Tally

variable {n steps users : Nat}

def Channel.Lossless (channel : Channel n) (selected : Mbms.Selection n users)
    (segs steps : Nat) : Prop :=
  (∀ (k : Fin segs) (t : Fin steps) (i : Fin n),channel.broadcast k t i = true) ∧
    ∀ (idx : Fin selected.ues.length) (t : Fin steps),channel.multicast idx t = true

section Packets

variable {K : Type} [DecidableEq K] {segments : List (Segment K)}

/-- The packet is one of the segment `k`: a broadcast one, or a premium one if the segment
is the last. -/
def Packet.carries (segments : List (Segment K)) (k : Fin segments.length) (packet : Packet K) :
    Bool :=
  decide (packet = mbmsBroadcast segments k ∨
    (k.val + 1 = segments.length ∧ packet = mbmsMulticast segments k))

def packetsAt (segments : List (Segment K)) (arrived : List (Fin n × Packet K)) (i : Fin n)
    (k : Fin segments.length) : Nat :=
  arrived.countP (fun p => decide (p.1 = i) && p.2.carries segments k)

omit [DecidableEq K] in
theorem mbmsBroadcast_inj {j k : Fin segments.length} :
    mbmsBroadcast segments j = mbmsBroadcast segments k ↔ j = k := by
  constructor
  · intro h
    have hcontent := (append_repr_inj _).mp (congrArg Packet.content h)
    exact Fin.ext (Nat.succ.inj hcontent)
  · intro h
    rw [h]

theorem carries_packet (hne : segments ≠ []) {phase : Phase} {j : Fin segments.length}
    (hj : phase = .multicast → j = Run.lastSegment hne) (k : Fin segments.length) :
    (phase.packet segments j).carries segments k = decide (j = k) := by
  have hlast := Run.lastSegment_eq_iff hne k
  cases phase with
  | broadcast =>
    have hkind : mbmsBroadcast segments j ≠ mbmsMulticast segments k := by
      simp [mbmsBroadcast,mbmsMulticast]
    simp [Packet.carries,Phase.packet,mbmsBroadcast_inj,hkind]
  | multicast =>
    have hkind : mbmsMulticast segments j ≠ mbmsBroadcast segments k := by
      simp [mbmsBroadcast,mbmsMulticast]
    obtain rfl := hj rfl
    by_cases hk : k.val + 1 = segments.length
    · have hk' := hlast.mpr hk
      subst hk'
      simp [Packet.carries,Phase.packet,hk]
    · simp [Packet.carries,Phase.packet,hkind,hlast,hk]

/-- What the UE `i` makes of the packets that arrived at it. -/
def Ue.receiveAll (arrived : List (Fin n × Packet K)) (i : Fin n) (ue : Ue) : Ue :=
  (arrived.filter (fun p => decide (p.1 = i))).foldl (fun ue p => ue.receive p.2) ue

def Call.arrived (calls : List (Call segments.length n steps)) : List (Fin n × Packet K) :=
  (calls.filter Call.delivered).map
    (fun call => (call.ue,call.phase.packet segments call.segment))

omit [DecidableEq K] in
theorem Call.foldl_arrive (calls : List (Call segments.length n steps))
    (arrived : List (Fin n × Packet K)) :
    calls.foldl (fun s call => Run.arrive (call.phase.packet segments call.segment) call.time
        call.ue call.delivered s) arrived = arrived ++ Call.arrived calls := by
  induction calls generalizing arrived with
  | nil => simp [Call.arrived]
  | cons call calls ih =>
    rw [List.foldl_cons,ih]
    cases h : call.delivered <;>
      simp [h,Call.arrived,Run.arrive,simulateUpfForward,simulateGatewayTransmit]

omit [DecidableEq K] in
theorem Run.arrivals_eq (channel : Channel n) (selected : Mbms.Selection n users)
    (hne : segments ≠ []) :
    Run.arrivals steps channel selected segments =
      .ok (Call.arrived (Call.ofRun channel selected (Run.lastSegment hne) steps)) := by
  rw [Run.arrivals,Run.loops_eq channel selected hne,Call.foldl_arrive,List.nil_append]

omit [DecidableEq K] in
/-- A run leaves its UEs with what arrived at them, and nothing else. -/
theorem Run.foldl_perform_ues (calls : List (Call segments.length n steps)) (r : Run n steps)
    (i : Fin n) :
    (calls.foldl (Run.perform segments) r).ues i =
      Ue.receiveAll (Call.arrived calls) i (r.ues i) := by
  induction calls generalizing r with
  | nil => rfl
  | cons call calls ih =>
    rw [List.foldl_cons,ih,Run.perform_ues]
    cases hd : call.delivered with
    | false => simp [Call.arrived,hd]
    | true => by_cases hi : call.ue = i <;> simp [Call.arrived,Ue.receiveAll,hd,hi]

theorem packetsAt_arrived (channel : Channel n) (selected : Mbms.Selection n users)
    (hne : segments ≠ []) (i : Fin n) (k : Fin segments.length) :
    packetsAt segments (Call.arrived (Call.ofRun channel selected (Run.lastSegment hne) steps)) i k =
      (Call.ofRun channel selected (Run.lastSegment hne) steps).countP
        (fun c => (c.delivered && decide (c.ue = i)) && decide (c.segment = k)) := by
  rw [packetsAt,Call.arrived,List.countP_map,List.countP_filter]
  apply List.countP_congr
  intro call hcall
  have hphase : call.phase = .multicast → call.segment = Run.lastSegment hne := by
    rcases Call.mem_ofRun.mp hcall with ⟨k',t,i',rfl⟩ | ⟨idx,t,rfl⟩ <;> simp
  simp only [Function.comp_apply,carries_packet hne hphase,Bool.and_eq_true]
  tauto

end Packets

def Channel.packetsTo (channel : Channel n) (selected : Mbms.Selection n users)
    (segs steps : Nat) (i : Fin n) (k : Fin segs) : Nat :=
  (∑ t : Fin steps,if channel.broadcast k t i then 1 else 0) +
    if k.val + 1 = segs then
      ∑ idx,∑ t : Fin steps,if selected.ues.get idx = i ∧ channel.multicast idx t then 1 else 0
    else 0

theorem Channel.packetsTo_of_lossless {channel : Channel n} {selected : Mbms.Selection n users}
    {segs : Nat} (h : channel.Lossless selected segs steps) (i : Fin n) (k : Fin segs) :
    channel.packetsTo selected segs steps i k =
      if k.val + 1 = segs ∧ i ∈ selected.ues then 2 * steps else steps := by
  have hsent : (∑ idx,∑ t : Fin steps,
      if selected.ues.get idx = i ∧ channel.multicast idx t then 1 else 0) =
        if i ∈ selected.ues then steps else 0 := by
    simp only [h.2,and_true]
    rw [← sum_ite_get selected.nodup]
    apply Finset.sum_congr rfl
    intro idx _
    by_cases hidx : selected.ues.get idx = i <;> simp only [hidx] <;> simp
  rw [packetsTo,hsent]
  simp only [h.1,if_true,Finset.sum_const,Finset.card_univ,Fintype.card_fin,smul_eq_mul,mul_one]
  by_cases hk : k.val + 1 = segs <;> by_cases hi : i ∈ selected.ues <;> simp [hk,hi]
  omega

theorem Call.packetsTo_eq (channel : Channel n) (selected : Mbms.Selection n users) {K : Type}
    {segments : List (Segment K)} (h : segments ≠ []) (i : Fin n) (k : Fin segments.length) :
    (Call.ofRun channel selected (Run.lastSegment h) steps).countP
        (fun c => (c.delivered && decide (c.ue = i)) && decide (c.segment = k)) =
      channel.packetsTo selected segments.length steps i k := by
  have hbroadcast : (Call.ofBroadcast channel segments.length steps).countP
      (fun c => (c.delivered && decide (c.ue = i)) && decide (c.segment = k)) =
        ∑ t : Fin steps,if channel.broadcast k t i then 1 else 0 := by
    rw [countP_ofBroadcast,Finset.sum_eq_single k]
    · apply Finset.sum_congr rfl
      intro t _
      rw [Finset.sum_eq_single i] <;> simp +contextual
    · simp +contextual
    · simp
  have hlast := Run.lastSegment_eq_iff h k
  rw [Call.ofRun,List.countP_append,hbroadcast,countP_ofMulticast,Channel.packetsTo]
  by_cases hk : k.val + 1 = segments.length
  · simp [hlast,hk,and_comm]
  · simp [hlast,hk]

theorem Call.sum_packetsTo (channel : Channel n) (selected : Mbms.Selection n users) {K : Type}
    {segments : List (Segment K)} (h : segments ≠ []) (i : Fin n) :
    ∑ k,channel.packetsTo selected segments.length steps i k =
      Call.reached (Call.ofRun channel selected (Run.lastSegment h) steps) i := by
  simp only [← Call.packetsTo_eq channel selected h]
  exact sum_countP_key _ Call.segment _

theorem packetsAt_ofRun (channel : Channel n) (selected : Mbms.Selection n users) {K : Type}
    [DecidableEq K] {segments : List (Segment K)} (h : segments ≠ []) (i : Fin n)
    (k : Fin segments.length) :
    packetsAt segments (Call.arrived (Call.ofRun channel selected (Run.lastSegment h) steps)) i k =
      channel.packetsTo selected segments.length steps i k :=
  (packetsAt_arrived channel selected h i k).trans (Call.packetsTo_eq channel selected h i k)

section Playback

variable {K : Type} [Field K] [LinearOrder K]

/-- All that the UE needs to play the video, `arrived` being what the run brought. -/
structure Run.Playable [FloorSemiring K] (segments : List (Segment K))
    (arrived : List (Fin n × Packet K)) (r : Run n steps) (i : Fin n) : Prop where
  packets : ∀ k,numPackets (segments.get k) ≤ packetsAt segments arrived i k
  bytes : ∃ b,(r.ues i).totalBytes = some b ∧ totalVideoBytes segments ≤ b
  report : playback segments (r.ues i) = .playing

theorem playback_eq_playing_iff (segments : List (Segment K)) (ue : Ue) :
    playback segments ue = .playing ↔
      ∃ b,ue.totalBytes = some b ∧ totalVideoBytes segments ≤ b := by
  cases h : ue.totalBytes with
  | none => simp [playback,h]
  | some b => simp [playback,h]

variable [IsStrictOrderedRing K] [FloorSemiring K]

theorem totalVideoBytes_le {segments : List (Segment K)} {packets : Fin segments.length → Nat}
    (h : ∀ k,numPackets (segments.get k) ≤ packets k) :
    totalVideoBytes segments ≤ ((Mbms.packetSizeBytes * ∑ k,packets k : Nat) : K) := by
  have hsum : totalVideoBytes segments = ∑ k,(segments.get k).size :=
    (Fin.sum_univ_fun_getElem segments Segment.size).symm
  rw [hsum,Finset.mul_sum,Nat.cast_sum]
  apply Finset.sum_le_sum
  intro k _
  have hk := Nat.mul_le_mul_left Mbms.packetSizeBytes (h k)
  exact (size_le_numPackets (segments.get k)).trans (Nat.cast_le.mpr hk)

namespace Run

variable {channel : Channel n} {selected : Mbms.Selection n users} {segments : List (Segment K)}

theorem playable_foldl_iff (h : segments ≠ []) (r : Run n steps) (i : Fin n) :
    ((Call.ofRun channel selected (lastSegment h) steps).foldl (perform segments) r).Playable
        segments (Call.arrived (Call.ofRun channel selected (lastSegment h) steps)) i ↔
      (r.ues i).totalBytes ≠ none ∧
        ∀ k,numPackets (segments.get k) ≤
          channel.packetsTo selected segments.length steps i k := by
  simp only [← packetsAt_ofRun channel selected h]
  constructor
  · rintro ⟨hpackets,⟨b,hb,-⟩,-⟩
    rw [foldl_perform_totalBytes] at hb
    refine ⟨fun hnone => ?_,hpackets⟩
    simp [hnone] at hb
  · rintro ⟨hsome,hpackets⟩
    obtain ⟨a,ha⟩ := Option.ne_none_iff_exists'.mp hsome
    have hcovered := totalVideoBytes_le hpackets
    simp only [packetsAt_ofRun channel selected h,Call.sum_packetsTo channel selected h]
      at hcovered
    have hbytes : ∃ b,
        (((Call.ofRun channel selected (lastSegment h) steps).foldl (perform segments) r).ues
          i).totalBytes = some b ∧ totalVideoBytes segments ≤ b := by
      rw [foldl_perform_totalBytes,ha]
      exact ⟨_,rfl,hcovered.trans (Nat.cast_le.mpr (Nat.le_add_left _ a))⟩
    exact ⟨hpackets,hbytes,(playback_eq_playing_iff _ _).mpr hbytes⟩

omit [Field K] [LinearOrder K] [IsStrictOrderedRing K] [FloorSemiring K] in
theorem of_stream {r r' : Run n steps} {arrived : List (Fin n × Packet K)}
    (hr : r.stream channel selected segments = .ok r')
    (ha : arrivals steps channel selected segments = .ok arrived) :
    ∃ h : segments ≠ [],
      (Call.ofRun channel selected (lastSegment h) steps).foldl (perform segments) r = r' ∧
      Call.arrived (Call.ofRun channel selected (lastSegment h) steps) = arrived := by
  obtain ⟨h,hrun⟩ := stream_eq_ok hr
  rw [arrivals_eq channel selected h] at ha
  exact ⟨h,hrun,Except.ok.inj ha⟩

omit [IsStrictOrderedRing K] [FloorSemiring K] in
theorem deliver_insufficient {run : Nat} {r : Run n steps}
    (h : deliver channel selected segments run = .ok r) (i : Fin n) :
    playback segments (r.ues i) = .insufficientData := by
  simp [playback,(deliver_counters h i).2]

/-- Without losses a video can be played where the bytes are counted at all and every
segment fits into as many packets as there are time steps (two rounds of them for the last
segment at a UE of the multicast). The script does not count the bytes. -/
theorem playable_iff (channel : Channel n) (selected : Mbms.Selection n users)
    (segments : List (Segment K)) (run : Nat)
    (hch : channel.Lossless selected segments.length steps) :
    (∀ (r r' : Run n steps) (arrived : List (Fin n × Packet K)),
      r.stream channel selected segments = .ok r' →
      arrivals steps channel selected segments = .ok arrived →
      ∀ i,r'.ues i = Ue.receiveAll arrived i (r.ues i)) ∧
    (∀ r : Run n steps,
      (∃ r' arrived,r.stream channel selected segments = .ok r' ∧
          arrivals steps channel selected segments = .ok arrived ∧
          ∀ i,r'.Playable segments arrived i) ↔
        segments ≠ [] ∧ ∀ i,(r.ues i).totalBytes ≠ none ∧
          ∀ k,numPackets (segments.get k) ≤
            if k.val + 1 = segments.length ∧ i ∈ selected.ues then 2 * steps else steps) ∧
    (¬ ∃ (r' : Run n steps) (arrived : List (Fin n × Packet K)),
      deliver channel selected segments run = .ok r' ∧
      arrivals steps channel selected segments = .ok arrived ∧
      ∀ i,r'.Playable segments arrived i) ∧
    (∀ r' : Run n steps,deliver channel selected segments run = .ok r' →
      ∀ i,playback segments (r'.ues i) = .insufficientData) := by
  refine ⟨fun r r' arrived hr' harrived i => ?_,fun r => ?_,?_,
    fun r' hr' => deliver_insufficient hr'⟩
  · obtain ⟨hne,rfl,rfl⟩ := of_stream hr' harrived
    exact foldl_perform_ues _ r i
  · simp only [← Channel.packetsTo_of_lossless hch]
    constructor
    · rintro ⟨r',arrived,hr',harrived,hplay⟩
      obtain ⟨hne,rfl,rfl⟩ := of_stream hr' harrived
      exact ⟨hne,fun i => (playable_foldl_iff hne r i).mp (hplay i)⟩
    · rintro ⟨hne,hi⟩
      exact ⟨_,_,stream_eq channel selected hne r,arrivals_eq channel selected hne,
        fun i => (playable_foldl_iff hne r i).mpr (hi i)⟩
  · rintro ⟨r',arrived,hr',-,hplay⟩
    obtain ⟨hn,-⟩ := pos_of_deliver hr'
    have hreport := (hplay ⟨0,hn⟩).report
    rw [deliver_insufficient hr'] at hreport
    cases hreport

theorem playable_one_packet : ∃ r' arrived,
    (⟨fun _ => ⟨"UE_1",some true,some true,some 0,some 0,[]⟩,∅,∅,fun _ => 0⟩ : Run 1 1).stream
        (.always 1 true) onlyUe [(⟨"segment_1",1500⟩ : Segment Rat)] = .ok r' ∧
      arrivals 1 (.always 1 true) onlyUe [(⟨"segment_1",1500⟩ : Segment Rat)] = .ok arrived ∧
      ∀ i,r'.Playable [(⟨"segment_1",1500⟩ : Segment Rat)] arrived i := by
  have hlossless : (Channel.always 1 true).Lossless onlyUe 1 1 :=
    ⟨fun _ _ _ => rfl,fun _ _ => rfl⟩
  apply ((playable_iff (.always 1 true) onlyUe [(⟨"segment_1",1500⟩ : Segment Rat)] 1
    hlossless).2.1 _).mpr
  have hone : numPackets (⟨"segment_1",1500⟩ : Segment Rat) = 1 := by
    norm_num [numPackets,Mbms.packetSizeBytes]
  refine ⟨by simp,fun i => ⟨by simp,fun k => ?_⟩⟩
  rw [List.mem_singleton.mp (List.get_mem _ k),hone]
  split <;> decide

/-- The first run of the script, when nothing is lost in it: of 667 packets of each segment
101 arrive, or 202 of the last one at the selected UEs, and no byte is counted. -/
theorem first_run_not_playable : ∃ (r : Run 100 101) (arrived : _),
    deliver (.always 100 true) firstTen dashServer 1 = .ok r ∧
      arrivals 101 (.always 100 true) firstTen dashServer = .ok arrived ∧
      ∀ i,playback dashServer (r.ues i) = .insufficientData ∧
        ∀ k,packetsAt dashServer arrived i k < numPackets (dashServer.get k) := by
  obtain ⟨attached,-,hr⟩ :=
    deliver_ok 101 (.always 100 true) firstTen 1 (by decide) dashServer_ne_nil
  refine ⟨_,_,hr,arrivals_eq (.always 100 true) firstTen dashServer_ne_nil,
    fun i => ⟨deliver_insufficient hr i,fun k => ?_⟩⟩
  have hlossless : (Channel.always 100 true).Lossless firstTen dashServer.length 101 :=
    ⟨fun _ _ _ => rfl,fun _ _ => rfl⟩
  rw [packetsAt_ofRun,Channel.packetsTo_of_lossless hlossless,
    numPackets_dashServer (List.get_mem _ k)]
  split <;> decide

end Run
end Playback
end GrpKeySec.Dash
