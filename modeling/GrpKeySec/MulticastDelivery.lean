import Mathlib.Data.List.Induction
import GrpKeySec.MulticastInvariant
set_option autoImplicit false

/-!
A whole simulation: the group is set up from a list of ids and then packets are
sent to it. Every packet and every member is accounted for.
-/

namespace GrpKeySec

namespace RrcLayer

theorem connectUe_keys (rrc : RrcLayer) (u : Int) :
    (rrc.connectUe u).2.ues.keys =
      if u ∈ rrc.ues then rrc.ues.keys else rrc.ues.keys ++ [u] := by
  unfold connectUe
  by_cases hu : u ∈ rrc.ues
  · simp only [hu,if_true]
    split <;> simp [Dict.keys_set,hu]
  · simp only [hu,if_false]
    split <;> simp [Dict.keys_set,hu]

theorem connectAll_init (ueIds : List Int) :
    (init.connectAll ueIds).ues.keys = ueIds.eraseDups ∧
    ∀ k,(init.connectAll ueIds).ues.get? k =
      if k ∈ ueIds then some ⟨k,.connected,0,false⟩ else none := by
  refine ⟨?_,connectAll_get? ueIds init⟩
  induction ueIds using List.reverseRecOn with
  | nil => rfl
  | append_singleton ids u ih =>
    have hstep : init.connectAll (ids ++ [u]) = ((init.connectAll ids).connectUe u).2 := by
      simp [connectAll]
    have hmem : u ∈ (init.connectAll ids).ues ↔ u ∈ ids := by
      rw [Dict.mem_def,ih,List.mem_eraseDups]
    rw [hstep,connectUe_keys,ih,List.eraseDups_append]
    by_cases hu : u ∈ ids
    · simp [hmem,hu,List.removeAll]
    · simp [hmem,hu,List.removeAll,List.eraseDups_cons]

theorem setup_init (ueIds : List Int) :
    let rrc := ((init.connectAll ueIds).configureMulticastGroup ueIds).2
    rrc.groupGRnti = 1000 ∧ rrc.ues.keys = ueIds.eraseDups ∧
    ∀ k,rrc.ues.get? k = if k ∈ ueIds then some ⟨k,.connected,1000,false⟩ else none := by
  obtain ⟨hkeys,hget⟩ := connectAll_init ueIds
  have hgroup : (init.connectAll ueIds).groupGRnti = 1000 := connectAll_groupGRnti ueIds init
  have hflag : (init.connectAll ueIds).multicastConfigured = false :=
    connectAll_multicastConfigured ueIds init
  have hconnected : ∀ u ∈ ueIds,(init.connectAll ueIds).connected u = true := by
    intro u hu
    simp [connectAll_connected,hu]
  have htake := List.takeWhile_eq_self_iff.mpr hconnected
  rw [configureMulticastGroup_eq hflag,htake]
  refine ⟨?_,?_,?_⟩
  · exact (foldl_joinGroup_groupGRnti ueIds _).trans hgroup
  · exact (foldl_keeps (fun r : RrcLayer => r.ues.keys) joinGroup_keys _ ueIds).trans hkeys
  · intro k
    have hk := foldl_joinGroup_get? ueIds (init.connectAll ueIds) k
    rw [hget,hgroup] at hk
    rw [hk]
    by_cases hmem : k ∈ ueIds <;> simp [hmem]

end RrcLayer

namespace PhyLayer

theorem foldl_receive_draws (outcome : Nat → Bool) (entries : List (Int × Ue)) (f : Feedback) :
    (entries.foldl (receive outcome) f).draws = f.draws + entries.length := by
  induction entries generalizing f with
  | nil => rfl
  | cons entry rest ih =>
    rw [List.foldl_cons,ih]
    simp only [receive,List.length_cons]
    omega

theorem foldl_receive_ues_keys (outcome : Nat → Bool) (entries : List (Int × Ue)) (f : Feedback)
    (h : ∀ entry ∈ entries,entry.1 ∈ f.ues) :
    (entries.foldl (receive outcome) f).ues.keys = f.ues.keys := by
  induction entries generalizing f with
  | nil => rfl
  | cons entry rest ih =>
    have hentry := h entry List.mem_cons_self
    rw [List.foldl_cons,ih]
    · simp [receive,Dict.keys_set,hentry]
    · intro e he
      simp [receive,h e (List.mem_cons_of_mem entry he)]

theorem foldl_receive_result_keys (outcome : Nat → Bool) (entries : List (Int × Ue))
    (f : Feedback) (hkeyed : ∀ entry ∈ entries,entry.2.ueId = entry.1)
    (hnodup : (entries.map Prod.fst).Nodup) (hnew : ∀ entry ∈ entries,entry.1 ∉ f.results) :
    (entries.foldl (receive outcome) f).results.keys =
      f.results.keys ++ entries.map Prod.fst := by
  induction entries generalizing f with
  | nil => simp
  | cons entry rest ih =>
    rw [List.map_cons,List.nodup_cons] at hnodup
    have hid := hkeyed entry List.mem_cons_self
    have hentry := hnew entry List.mem_cons_self
    rw [List.foldl_cons,ih]
    · simp [receive,Dict.keys_set,hid,hentry]
    · exact fun e he => hkeyed e (List.mem_cons_of_mem entry he)
    · exact hnodup.2
    · intro e he
      have hne : e.1 ≠ entry.1 := fun heq => hnodup.1 (heq ▸ List.mem_map_of_mem he)
      simp [receive,hid,hne,hnew e (List.mem_cons_of_mem entry he)]

theorem foldl_receive_result_other (outcome : Nat → Bool) (entries : List (Int × Ue))
    (f : Feedback) {k : Int} (hk : ∀ entry ∈ entries,k ≠ entry.2.ueId) :
    (entries.foldl (receive outcome) f).results.get? k = f.results.get? k := by
  induction entries generalizing f with
  | nil => rfl
  | cons entry rest ih =>
    rw [List.foldl_cons,ih _ (fun e he => hk e (List.mem_cons_of_mem entry he))]
    exact Dict.get?_set_ne f.results _ (hk entry List.mem_cons_self)

/-- The i-th UE of the list gets the i-th outcome, in its result and in its entry. -/
theorem foldl_receive_nth (outcome : Nat → Bool) (entries : List (Int × Ue)) (f : Feedback)
    (hkeyed : ∀ entry ∈ entries,entry.2.ueId = entry.1)
    (hnodup : (entries.map Prod.fst).Nodup) {i : Nat} {entry : Int × Ue}
    (hi : entries[i]? = some entry) :
    (entries.foldl (receive outcome) f).results.get? entry.1 = some (outcome (f.draws + i)) ∧
    (entries.foldl (receive outcome) f).ues.get? entry.1 =
      some { entry.2 with lastAck := outcome (f.draws + i) } := by
  induction entries generalizing f i with
  | nil => simp at hi
  | cons first rest ih =>
    rw [List.map_cons,List.nodup_cons] at hnodup
    have hrest : ∀ e ∈ rest,e.2.ueId = e.1 := fun e he => hkeyed e (List.mem_cons_of_mem first he)
    rw [List.foldl_cons]
    cases i with
    | zero =>
      -- the first UE's outcome is drawn now, and no later UE has its id
      have hfirst : first = entry := by simpa using hi
      subst hfirst
      have hid := hkeyed first List.mem_cons_self
      have hne : ∀ e ∈ rest,first.1 ≠ e.2.ueId := by
        intro e he heq
        rw [hrest e he] at heq
        exact hnodup.1 (heq ▸ List.mem_map_of_mem he)
      rw [foldl_receive_result_other outcome rest _ hne,
        foldl_receive_other outcome rest _ hnodup.1]
      simp [receive,hid]
    | succ i =>
      have hnext := ih (receive outcome f first) hrest hnodup.2 (by simpa using hi)
      have hdraws : (receive outcome f first).draws + i = f.draws + (i + 1) := by
        simp only [receive]
        omega
      rwa [hdraws] at hnext

end PhyLayer

namespace GnbSimulator

def sendAll (outcome : Nat → Bool) (g : GnbSimulator) :
    List (String × Int) → List Sent × GnbSimulator
  | [] => ([],g)
  | packet :: rest =>
      let sent := g.sendMulticastPacket outcome packet.1 packet.2
      let later := sendAll outcome sent.2 rest
      (sent.1 :: later.1,later.2)

def runSimulation (outcome : Nat → Bool) (g : GnbSimulator) (numPackets : Nat) :
    List Sent × GnbSimulator :=
  (g.setupMulticastGroup [1,2,3,4,5]).2.sendAll outcome
    ((List.range numPackets).map (fun i => ("Multicast data packet " ++ toString (i + 1),1000)))

/-- After n packets to the members; `ack` is the last outcome by position. -/
structure Serving (members : List Int) (n : Nat) (ack : Nat → Bool) (g : GnbSimulator) : Prop where
  keys : g.rrc.ues.keys = members
  ues : ∀ i u,members[i]? = some u → g.rrc.ues.get? u = some ⟨u,.connected,1000,ack i⟩
  gRnti : g.rrc.groupGRnti = 1000
  mac : g.mac = ⟨n,100⟩
  counter : g.packetCounter = n
  draws : g.draws = n * members.length

/-- The j-th packet, counted from 0: its number, its slot, one result for each
member in order, and the outcomes that belong to it. -/
structure Delivered (outcome : Nat → Bool) (members : List Int) (j : Nat) (packet : String × Int)
    (sent : Sent) : Prop where
  packet : sent.packet = some ⟨j + 1,packet.1,packet.2,j⟩
  keys : sent.results.keys = members
  entry : ∀ i u,members[i]? = some u →
    sent.results.get? u = some (outcome (j * members.length + i))

theorem setup_serving (ueIds : List Int) :
    Serving ueIds.eraseDups 0 (fun _ => false) (init.setupMulticastGroup ueIds).2 := by
  obtain ⟨hgroup,hkeys,hget⟩ := RrcLayer.setup_init ueIds
  refine ⟨hkeys,?_,hgroup,rfl,rfl,by simp [setupMulticastGroup,init]⟩
  intro i u hi
  have hu : u ∈ ueIds := List.mem_eraseDups.mp (List.mem_of_getElem? hi)
  exact (hget u).trans (if_pos hu)

theorem Serving.entry {members : List Int} {n : Nat} {ack : Nat → Bool} {g : GnbSimulator}
    (h : Serving members n ack g) {i : Nat} {e : Int × Ue} (hi : g.rrc.ues.entries[i]? = some e) :
    members[i]? = some e.1 ∧ e.2 = ⟨e.1,.connected,1000,ack i⟩ := by
  have hfst : members[i]? = some e.1 := by
    rw [← h.keys]
    simp [Dict.keys,hi]
  have hget : g.rrc.ues.get? e.1 = some e.2 :=
    Dict.get?_eq_some_iff.mpr (List.mem_of_getElem? hi)
  rw [h.ues i e.1 hfst] at hget
  exact ⟨hfst,(Option.some.inj hget).symm⟩

theorem Serving.multicastUes {members : List Int} {n : Nat} {ack : Nat → Bool} {g : GnbSimulator}
    (h : Serving members n ack g) : g.multicastUes = g.rrc.ues.entries := by
  unfold GnbSimulator.multicastUes
  refine List.filter_eq_self.mpr ?_
  intro e he
  obtain ⟨i,hi⟩ := List.mem_iff_getElem?.mp he
  simp [(h.entry hi).2,h.gRnti]

theorem Serving.send {members : List Int} {n : Nat} {ack : Nat → Bool} {g : GnbSimulator}
    (h : Serving members n ack g) (outcome : Nat → Bool) (packet : String × Int) :
    Delivered outcome members n packet (g.sendMulticastPacket outcome packet.1 packet.2).1 ∧
    Serving members (n + 1) (fun i => outcome (n * members.length + i))
      (g.sendMulticastPacket outcome packet.1 packet.2).2 := by
  have hblocks : g.mac.resourceBlocks = 100 := by rw [h.mac]
  have hentries : g.rrc.ues.entries.map Prod.fst = members := h.keys
  have hnodup := g.rrc.ues.nodup
  have hkeyed : ∀ e ∈ g.rrc.ues.entries,e.2.ueId = e.1 := by
    intro e he
    obtain ⟨i,hi⟩ := List.mem_iff_getElem?.mp he
    rw [(h.entry hi).2]
  have hmember : ∀ (i : Nat) (u : Int),members[i]? = some u →
      g.rrc.ues.entries[i]? = some (u,⟨u,.connected,1000,ack i⟩) := by
    intro i u hi
    rw [← hentries,List.getElem?_map,Option.map_eq_some_iff] at hi
    obtain ⟨e,he,rfl⟩ := hi
    rw [he,← (h.entry he).2]
  rw [sendMulticastPacket_eq outcome hblocks,h.multicastUes]
  simp only [PhyLayer.transmitMulticast,h.mac,h.counter]
  refine ⟨⟨rfl,?_,?_⟩,⟨?_,?_,h.gRnti,rfl,rfl,?_⟩⟩
  · have hkeys := PhyLayer.foldl_receive_result_keys outcome g.rrc.ues.entries
      ⟨∅,g.rrc.ues,g.draws⟩ hkeyed hnodup (fun e _ => Dict.not_mem_empty e.1)
    exact hkeys.trans hentries
  · intro i u hi
    rw [← h.draws]
    exact (PhyLayer.foldl_receive_nth outcome _ _ hkeyed hnodup (hmember i u hi)).1
  · have hkeys := PhyLayer.foldl_receive_ues_keys outcome g.rrc.ues.entries
      ⟨∅,g.rrc.ues,g.draws⟩ (fun e he => List.mem_map_of_mem he)
    exact hkeys.trans h.keys
  · intro i u hi
    rw [← h.draws]
    exact (PhyLayer.foldl_receive_nth outcome _ _ hkeyed hnodup (hmember i u hi)).2
  · have hlength : g.rrc.ues.entries.length = members.length := by
      rw [← hentries,List.length_map]
    rw [PhyLayer.foldl_receive_draws,hlength,h.draws,Nat.succ_mul]

def lastEntry (before : Bool) (u : Int) (sents : List Sent) : Option Bool :=
  match sents.getLast? with
  | some sent => sent.results.get? u
  | none => some before

theorem Serving.sendAll {members : List Int} {n : Nat} {ack : Nat → Bool} {g : GnbSimulator}
    (h : Serving members n ack g) (outcome : Nat → Bool) (packets : List (String × Int)) :
    (∀ j packet,packets[j]? = some packet → ∃ sent,(g.sendAll outcome packets).1[j]? = some sent ∧
      Delivered outcome members (n + j) packet sent) ∧
    (g.sendAll outcome packets).1.length = packets.length ∧
    ∃ ack',Serving members (n + packets.length) ack' (g.sendAll outcome packets).2 ∧
      ∀ i u,members[i]? = some u →
        some (ack' i) = lastEntry (ack i) u (g.sendAll outcome packets).1 := by
  induction packets generalizing n ack g with
  | nil => exact ⟨fun j packet hj => by simp at hj,rfl,ack,h,fun _ _ _ => rfl⟩
  | cons packet rest ih =>
    obtain ⟨hdelivered,hserving⟩ := h.send outcome packet
    obtain ⟨hlater,hlength,ack',hserving',hack⟩ := ih hserving
    refine ⟨?_,?_,ack',?_,?_⟩
    · intro j packet' hj
      cases j with
      | zero =>
        have hpacket : packet = packet' := by simpa using hj
        exact ⟨_,rfl,hpacket ▸ hdelivered⟩
      | succ j =>
        have hcount : n + (j + 1) = n + 1 + j := by omega
        rw [hcount]
        exact hlater j packet' (by simpa using hj)
    · simp [GnbSimulator.sendAll,hlength]
    · have hcount : n + (packet :: rest).length = n + 1 + rest.length := by
        simp only [List.length_cons]
        omega
      rw [hcount]
      exact hserving'
    · -- the last packet is a later one, or this one when it is the only one
      intro i u hi
      have hlast := hack i u hi
      simp only [lastEntry,GnbSimulator.sendAll,List.getLast?_cons] at hlast ⊢
      cases hsents : ((g.sendMulticastPacket outcome packet.1 packet.2).2.sendAll outcome
          rest).1.getLast? with
      | none =>
        rw [hsents] at hlast
        exact hlast.trans (hdelivered.entry i u hi).symm
      | some sent =>
        rw [hsents] at hlast
        exact hlast

/-- A fresh simulator that sets up a group and sends packets to it: the group is
the distinct ids and nobody else, every packet is delivered in a slot of its own
with one result for each member, every outcome is used once, and each member's
acknowledgement is its result for the last packet. -/
theorem simulation_accounts (outcome : Nat → Bool) (ueIds : List Int)
    (packets : List (String × Int)) :
    let run := (init.setupMulticastGroup ueIds).2.sendAll outcome packets
    (run.2.rrc.ues.keys = ueIds.eraseDups ∧
      ∀ u ∈ ueIds,run.2.rrc.connected u = true ∧ run.2.rrc.InGroup u) ∧
    (run.1.length = packets.length ∧ ∀ j packet,packets[j]? = some packet →
      ∃ sent,run.1[j]? = some sent ∧ Delivered outcome ueIds.eraseDups j packet sent) ∧
    run.2.draws = packets.length * ueIds.eraseDups.length ∧
    ∀ u ∈ ueIds,∃ ue,run.2.rrc.ues.get? u = some ue ∧ 
      some ue.lastAck = lastEntry false u run.1 := by
  intro run
  obtain ⟨hdelivered,hlength,ack,hserving,hack⟩ := (setup_serving ueIds).sendAll outcome packets
  simp only [Nat.zero_add] at hdelivered hserving
  have hposition : ∀ u ∈ ueIds,∃ i : Nat,ueIds.eraseDups[i]? = some u := by
    intro u hu
    exact List.mem_iff_getElem?.mp (List.mem_eraseDups.mpr hu)
  refine ⟨⟨hserving.keys,?_⟩,⟨hlength,hdelivered⟩,hserving.draws,?_⟩
  · intro u hu
    obtain ⟨i,hi⟩ := hposition u hu
    have hget := hserving.ues i u hi
    refine ⟨?_,_,hget,hserving.gRnti.symm⟩
    simp only [RrcLayer.connected]
    rw [hget]
    rfl
  · intro u hu
    obtain ⟨i,hi⟩ := hposition u hu
    exact ⟨_,hserving.ues i u hi,hack i u hi⟩

theorem runSimulation_delivers (outcome : Nat → Bool) (numPackets : Nat) :
    (∀ j < numPackets,∃ sent,(runSimulation outcome init numPackets).1[j]? = some sent ∧
      Delivered outcome [1,2,3,4,5] j ("Multicast data packet " ++ toString (j + 1),1000) sent) ∧
    (runSimulation outcome init numPackets).1.length = numPackets ∧
    ∃ ack,Serving [1,2,3,4,5] numPackets ack (runSimulation outcome init numPackets).2 := by
  have hserving : Serving [1,2,3,4,5] 0 (fun _ => false) (init.setupMulticastGroup [1,2,3,4,5]).2 :=
    setup_serving [1,2,3,4,5]
  obtain ⟨hdelivered,hlength,ack,hend,-⟩ := hserving.sendAll outcome
    ((List.range numPackets).map (fun i => ("Multicast data packet " ++ toString (i + 1),1000)))
  simp only [List.length_map,List.length_range,Nat.zero_add] at hdelivered hlength hend
  refine ⟨fun j hj => hdelivered j _ ?_,hlength,ack,hend⟩
  simp [hj]

example : (runSimulation (fun n => decide (n ≠ 7)) init 2).2.draws = 10 := by decide

end GnbSimulator
end GrpKeySec
