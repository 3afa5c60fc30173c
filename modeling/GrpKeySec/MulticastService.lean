import GrpKeySec.MulticastDelivery
set_option autoImplicit false

/-!
What the multicast simulator does, without its layers: a list of the UEs that have
connected, a list of those that packets go to, and two counters. The simulator answers every
sequence of calls as this service does.
-/

namespace GrpKeySec
open Serial

/-- The UEs in the order of their first connection; `draws` counts the outcomes used. -/
structure MulticastService where
  ues : List Int
  nodup : ues.Nodup
  group : List Int
  closed : Bool
  packets : Nat
  draws : Nat

namespace MulticastService

def init : MulticastService := ⟨[],List.nodup_nil,[],false,0,0⟩

def connect (m : MulticastService) (u : Int) : MulticastService :=
  if h : u ∈ m.ues then m
  else { m with
    ues := m.ues ++ [u]
    nodup := m.nodup.append (List.nodup_singleton u) (by simpa using h) }

/-- Until a configuration succeeds, each one adds the ids before its first unknown one. -/
def configure (m : MulticastService) (ueIds : List Int) : Bool × MulticastService :=
  if m.closed then (false,m)
  else (ueIds.all (fun u => decide (u ∈ m.ues)),
    { m with
      group := ueIds.takeWhile (fun u => decide (u ∈ m.ues)) ++ m.group
      closed := ueIds.all (fun u => decide (u ∈ m.ues)) })

def members (m : MulticastService) : List Int := m.ues.filter (fun u => decide (u ∈ m.group))

def results (outcome : Nat → Bool) (m : MulticastService) : Dict Int Bool where
  entries := (m.members.zipIdx m.draws).map (fun p => (p.1,outcome p.2))
  nodup := by
    rw [List.map_map]
    exact (List.zipIdx_map_fst m.draws m.members).symm ▸ m.nodup.filter _

def serve (outcome : Nat → Bool) (m : MulticastService) : GnbCall → GnbAnswer × MulticastService
  | .connectUe u => (.connected (decide (u ∉ m.ues)),m.connect u)
  | .configureMulticastGroup ueIds =>
      let out := m.configure ueIds
      (.configured out.1,out.2)
  | .setupMulticastGroup ueIds =>
      let out := (ueIds.foldl connect m).configure ueIds
      (.configured out.1,out.2)
  | .sendMulticastPacket data size =>
      (.sent ⟨some ⟨m.packets + 1,data,size,m.packets⟩,m.results outcome⟩,
       { m with packets := m.packets + 1, draws := m.draws + m.members.length })

@[simp] theorem connect_ues (m : MulticastService) (u : Int) :
    (m.connect u).ues = if u ∈ m.ues then m.ues else m.ues ++ [u] := by
  unfold connect
  split <;> rfl

@[simp] theorem connect_group (m : MulticastService) (u : Int) : (m.connect u).group = m.group := by
  unfold connect
  split <;> rfl

@[simp] theorem connect_closed (m : MulticastService) (u : Int) :
    (m.connect u).closed = m.closed := by
  unfold connect
  split <;> rfl

@[simp] theorem connect_packets (m : MulticastService) (u : Int) :
    (m.connect u).packets = m.packets := by
  unfold connect
  split <;> rfl

@[simp] theorem connect_draws (m : MulticastService) (u : Int) : (m.connect u).draws = m.draws := by
  unfold connect
  split <;> rfl

@[simp] theorem configure_packets (m : MulticastService) (ueIds : List Int) :
    (m.configure ueIds).2.packets = m.packets := by
  unfold configure
  split <;> rfl

@[simp] theorem configure_draws (m : MulticastService) (ueIds : List Int) :
    (m.configure ueIds).2.draws = m.draws := by
  unfold configure
  split <;> rfl

end MulticastService

namespace RrcLayer

/-- Every UE of the table is connected, and the group is given by the G-RNTIs. -/
structure Represents (rrc : RrcLayer) (m : MulticastService) : Prop where
  invariant : rrc.Invariant
  keys : rrc.ues.keys = m.ues
  connected : ∀ u, rrc.connected u = decide (u ∈ m.ues)
  group : ∀ u, rrc.InGroup u ↔ u ∈ m.group
  closed : rrc.multicastConfigured = m.closed

theorem connectUe_fst (rrc : RrcLayer) (u : Int) : (rrc.connectUe u).1 = !rrc.connected u := by
  unfold connectUe connected
  cases hu : rrc.ues.get? u with
  | none => simp
  | some ue => cases hs : ue.rrcState <;> simp [hs]

variable {rrc : RrcLayer} {m : MulticastService}

theorem Represents.connectUe (h : rrc.Represents m) (u : Int) :
    (rrc.connectUe u).2.Represents (m.connect u) where
  invariant := h.invariant.connectUe u
  keys := by
    simp only [connectUe_keys,MulticastService.connect_ues,Dict.mem_def,h.keys]
  connected := by
    intro k
    rw [connectUe_connected,h.connected,MulticastService.connect_ues]
    by_cases hu : u ∈ m.ues <;> by_cases hk : k = u <;> simp [hu,hk]
  group := by
    intro k
    rw [connectUe_inGroup (by simp [h.invariant.gRnti]),MulticastService.connect_group]
    exact h.group k
  closed := by
    rw [connectUe_multicastConfigured,MulticastService.connect_closed]
    exact h.closed

theorem Represents.connectAll (h : rrc.Represents m) (ueIds : List Int) :
    (rrc.connectAll ueIds).Represents (ueIds.foldl MulticastService.connect m) := by
  induction ueIds generalizing rrc m with
  | nil => exact h
  | cons u rest ih => exact ih (h.connectUe u)

theorem Represents.configure (h : rrc.Represents m) (ueIds : List Int) :
    (rrc.configureMulticastGroup ueIds).1 = (m.configure ueIds).1 ∧
      (rrc.configureMulticastGroup ueIds).2.Represents (m.configure ueIds).2 := by
  have hconnected : rrc.connected = fun u => decide (u ∈ m.ues) := funext h.connected
  unfold MulticastService.configure
  cases hflag : m.closed with
  | true =>
    rw [configureMulticastGroup_again (h.closed.trans hflag)]
    exact ⟨rfl,h⟩
  | false =>
    have hopen : rrc.multicastConfigured = false := h.closed.trans hflag
    have hinvariant := h.invariant.configureMulticastGroup ueIds
    have hgroup := configureMulticastGroup_inGroup hopen ueIds
    rw [configureMulticastGroup_eq hopen,hconnected] at hinvariant hgroup ⊢
    refine ⟨rfl,hinvariant,?_,?_,?_,rfl⟩
    · exact (foldl_keeps (fun r : RrcLayer => r.ues.keys) joinGroup_keys rrc _).trans h.keys
    · intro u
      have hkeep := foldl_keeps (fun r : RrcLayer => r.connected) joinGroup_connected rrc
        (ueIds.takeWhile (fun u => decide (u ∈ m.ues)))
      exact (congrFun hkeep u).trans (h.connected u)
    · intro u
      rw [hgroup u,h.group u]
      simp

theorem connected_congr {rrc' : RrcLayer}
    (h : ∀ k, (rrc'.ues.get? k).map Ue.forgetAck = (rrc.ues.get? k).map Ue.forgetAck) (k : Int) :
    rrc'.connected k = rrc.connected k := by
  have hsame : ∀ r : RrcLayer, r.connected k =
      ((r.ues.get? k).map Ue.forgetAck).any (fun ue => decide (ue.rrcState = .connected)) := by
    intro r
    unfold connected
    cases r.ues.get? k <;> rfl
  rw [hsame,hsame,h k]

end RrcLayer

namespace PhyLayer

theorem foldl_receive_entries (outcome : Nat → Bool) (entries : List (Int × Ue)) (f : Feedback)
    (hkeyed : ∀ entry ∈ entries, entry.2.ueId = entry.1)
    (hnodup : (entries.map Prod.fst).Nodup) (hnew : ∀ entry ∈ entries, entry.1 ∉ f.results) :
    (entries.foldl (receive outcome) f).results.entries =
      f.results.entries ++
        ((entries.map Prod.fst).zipIdx f.draws).map (fun p => (p.1,outcome p.2)) := by
  induction entries generalizing f with
  | nil => simp
  | cons entry rest ih =>
    rw [List.map_cons,List.nodup_cons] at hnodup
    have hid := hkeyed entry List.mem_cons_self
    have hentry := hnew entry List.mem_cons_self
    have hset : (receive outcome f entry).results.entries =
        f.results.entries ++ [(entry.1,outcome f.draws)] := by
      simp only [receive,hid]
      exact Dict.entries_set_of_notMem _ hentry
    rw [List.foldl_cons,ih _ (fun e he => hkeyed e (List.mem_cons_of_mem entry he)) hnodup.2,hset]
    · simp [receive]
    · intro e he
      have hne : e.1 ≠ entry.1 := fun heq => hnodup.1 (heq ▸ List.mem_map_of_mem he)
      simp [receive,hid,hne,hnew e (List.mem_cons_of_mem entry he)]

end PhyLayer

namespace GnbSimulator

structure Represents (g : GnbSimulator) (m : MulticastService) : Prop where
  rrc : g.rrc.Represents m
  blocks : g.mac.resourceBlocks = 100
  slot : g.mac.slotNumber = m.packets
  packets : g.packetCounter = m.packets
  draws : g.draws = m.draws

variable {g : GnbSimulator} {m : MulticastService}

theorem Represents.members (h : g.Represents m) : g.multicastUes.map Prod.fst = m.members := by
  rw [multicastUes,Dict.filter_entries_keys g.rrc.ues (fun ue => decide (ue.gRnti = g.rrc.groupGRnti)),
    h.rrc.keys]
  refine List.filter_congr ?_
  intro u _
  rw [Bool.eq_iff_iff,decide_eq_true_iff,← h.rrc.group u]
  simp [RrcLayer.InGroup,Option.any_eq_true]

theorem Represents.keyed (h : g.Represents m) : ∀ entry ∈ g.multicastUes, entry.2.ueId = entry.1 :=
  fun entry hentry => h.rrc.invariant.keyed entry.1 entry.2 (mem_multicastUes.mp hentry).1

theorem Represents.results (outcome : Nat → Bool) (h : g.Represents m) :
    (PhyLayer.transmitMulticast outcome g.rrc.ues g.draws g.multicastUes).results =
      m.results outcome := by
  have hentries := PhyLayer.foldl_receive_entries outcome g.multicastUes ⟨∅,g.rrc.ues,g.draws⟩
    h.keyed (h.members ▸ m.nodup.filter _) (fun _ _ => Dict.not_mem_empty _)
  rw [h.members,h.draws] at hentries
  unfold PhyLayer.transmitMulticast MulticastService.results
  rw [h.draws]
  generalize (g.multicastUes.foldl (PhyLayer.receive outcome) ⟨∅,g.rrc.ues,m.draws⟩).results =
    results at hentries
  obtain ⟨entries,_⟩ := results
  exact Dict.mk.injEq .. ▸ hentries

theorem Represents.send (outcome : Nat → Bool) (h : g.Represents m) (data : String) (size : Int) :
    (g.serve outcome (.sendMulticastPacket data size)).1 =
        (m.serve outcome (.sendMulticastPacket data size)).1 ∧
      (g.serve outcome (.sendMulticastPacket data size)).2.Represents
        (m.serve outcome (.sendMulticastPacket data size)).2 := by
  have hues := sendMulticastPacket_ues outcome g data size
  have hgRnti : (g.sendMulticastPacket outcome data size).2.rrc.groupGRnti = g.rrc.groupGRnti := by
    rw [sendMulticastPacket_rrc]
  have hgroup := RrcLayer.inGroup_congr hgRnti hues
  have hresults := h.results outcome
  have hkeys := PhyLayer.foldl_receive_ues_keys outcome g.multicastUes ⟨∅,g.rrc.ues,g.draws⟩
    (fun entry hentry => Dict.mem_of_get? (mem_multicastUes.mp hentry).1)
  have hdraws := PhyLayer.foldl_receive_draws outcome g.multicastUes ⟨∅,g.rrc.ues,g.draws⟩
  simp only [serve,MulticastService.serve]
  rw [sendMulticastPacket_eq outcome h.blocks] at hues hgroup ⊢
  refine ⟨by simp only [hresults,h.packets,h.slot],?_⟩
  refine ⟨⟨h.rrc.invariant.congr rfl hues,hkeys.trans h.rrc.keys,?_,?_,h.rrc.closed⟩,rfl,?_,?_,?_⟩
  · intro u
    exact (RrcLayer.connected_congr hues u).trans (h.rrc.connected u)
  · intro u
    exact (hgroup u).trans (h.rrc.group u)
  · simp only [h.slot]
  · simp only [h.packets]
  · refine hdraws.trans ?_
    rw [← h.members,List.length_map]
    simp only [h.draws]

theorem Represents.withRrc (h : g.Represents m) {rrc : RrcLayer} {m' : MulticastService}
    (hrrc : rrc.Represents m') (hpackets : m'.packets = m.packets) (hdraws : m'.draws = m.draws) :
    { g with rrc := rrc }.Represents m' where
  rrc := hrrc
  blocks := h.blocks
  slot := h.slot.trans hpackets.symm
  packets := h.packets.trans hpackets.symm
  draws := h.draws.trans hdraws.symm

theorem Represents.serve (outcome : Nat → Bool) (h : g.Represents m) (call : GnbCall) :
    (g.serve outcome call).1 = (m.serve outcome call).1 ∧
      (g.serve outcome call).2.Represents (m.serve outcome call).2 := by
  cases call with
  | connectUe u =>
    refine ⟨?_,h.withRrc (h.rrc.connectUe u) (m.connect_packets u) (m.connect_draws u)⟩
    simp [GnbSimulator.serve,MulticastService.serve,RrcLayer.connectUe_fst,h.rrc.connected]
  | configureMulticastGroup ueIds =>
    obtain ⟨hanswer,hrrc⟩ := h.rrc.configure ueIds
    exact ⟨congrArg GnbAnswer.configured hanswer,
      h.withRrc hrrc (m.configure_packets ueIds) (m.configure_draws ueIds)⟩
  | setupMulticastGroup ueIds =>
    obtain ⟨hanswer,hrrc⟩ := (h.rrc.connectAll ueIds).configure ueIds
    have hpackets := foldl_keeps MulticastService.packets MulticastService.connect_packets m ueIds
    have hdraws := foldl_keeps MulticastService.draws MulticastService.connect_draws m ueIds
    exact ⟨congrArg GnbAnswer.configured hanswer,
      h.withRrc hrrc ((MulticastService.configure_packets _ ueIds).trans hpackets)
        ((MulticastService.configure_draws _ ueIds).trans hdraws)⟩
  | sendMulticastPacket data size => exact h.send outcome data size

theorem init_represents : init.Represents .init where
  rrc := ⟨init_invariant.rrc,rfl,fun _ => rfl,by simp [init,RrcLayer.init,RrcLayer.InGroup,
    MulticastService.init],rfl⟩
  blocks := rfl
  slot := rfl
  packets := rfl
  draws := rfl

/-- Whatever is called, in whatever order and with whatever ids and channel outcomes, the
three layers of the simulator together answer as the service does. -/
theorem answers_as_service (outcome : Nat → Bool) (calls : List GnbCall) :
    answers (serve outcome) init calls = answers (MulticastService.serve outcome) .init calls :=
  (answers_eq_of_simulation (serve outcome) (fun h call => h.serve outcome call) init_represents
    calls).1

end GnbSimulator

namespace GnbAnswer

def acks : GnbAnswer → List Bool
  | .sent out => out.results.entries.map Prod.snd
  | _ => []

def packets : GnbAnswer → List (Nat × Nat)
  | .sent out => out.packet.toList.map (fun packet => (packet.packetId,packet.slot))
  | _ => []

end GnbAnswer

namespace MulticastService

theorem serve_acks (outcome : Nat → Bool) (m : MulticastService) (call : GnbCall) :
    (List.range m.draws).map outcome ++ (m.serve outcome call).1.acks =
      (List.range (m.serve outcome call).2.draws).map outcome := by
  cases call with
  | connectUe u => simp [serve,GnbAnswer.acks]
  | configureMulticastGroup ueIds => simp [serve,GnbAnswer.acks]
  | setupMulticastGroup ueIds =>
    simp [serve,GnbAnswer.acks,foldl_keeps draws connect_draws m ueIds]
  | sendMulticastPacket data size =>
    have hvalues : (m.results outcome).entries.map Prod.snd =
        (List.range' m.draws m.members.length).map outcome := by
      rw [← List.zipIdx_map_snd m.draws m.members,List.map_map]
      simp [results]
    simp only [serve,GnbAnswer.acks]
    rw [hvalues,← List.map_append,List.range_eq_range',List.range_eq_range',
      ← List.range'_append_1,Nat.zero_add]

theorem serve_packets (outcome : Nat → Bool) (m : MulticastService) (call : GnbCall) :
    (List.range m.packets).map (fun j => (j + 1,j)) ++ (m.serve outcome call).1.packets =
      (List.range (m.serve outcome call).2.packets).map (fun j => (j + 1,j)) := by
  cases call with
  | connectUe u => simp [serve,GnbAnswer.packets]
  | configureMulticastGroup ueIds => simp [serve,GnbAnswer.packets]
  | setupMulticastGroup ueIds =>
    simp [serve,GnbAnswer.packets,foldl_keeps packets connect_packets m ueIds]
  | sendMulticastPacket data size => simp [serve,GnbAnswer.packets,List.range_succ]

end MulticastService

/-- Over a whole run the channel outcomes are reported in the order they were drawn, none
twice and none left out, however the group changes between the packets; and the packets
number the slots without a gap. -/
theorem GnbSimulator.acks_in_order (outcome : Nat → Bool) (calls : List GnbCall) :
    (answers (serve outcome) init calls).flatMap GnbAnswer.acks =
        (List.range (after (serve outcome) init calls).draws).map outcome ∧
      (answers (serve outcome) init calls).flatMap GnbAnswer.packets =
        (List.range (after (serve outcome) init calls).packetCounter).map (fun j => (j + 1,j)) := by
  obtain ⟨hanswers,hend⟩ := answers_eq_of_simulation (serve outcome)
    (fun h call => h.serve outcome call) init_represents calls
  have hacks := log_append_answers (MulticastService.serve outcome) _ _
    (MulticastService.serve_acks outcome) MulticastService.init calls
  have hpackets := log_append_answers (MulticastService.serve outcome) _ _
    (MulticastService.serve_packets outcome) MulticastService.init calls
  rw [hanswers,hend.draws,hend.packets]
  exact ⟨hacks,hpackets⟩

def GnbAnswer.resultOf (u : Int) : GnbAnswer → Option Bool
  | .sent out => out.results.get? u
  | _ => none

/-- The last that was reported of `u`, and False before anything was. -/
def lastReported (u : Int) (log : List GnbAnswer) : Bool :=
  log.foldl (fun ack answer => (answer.resultOf u).getD ack) false

namespace RrcLayer

def lastAck (rrc : RrcLayer) (u : Int) : Bool := (rrc.ues.get? u).elim false Ue.lastAck

theorem connectUe_lastAck (rrc : RrcLayer) (u k : Int) :
    (rrc.connectUe u).2.lastAck k = rrc.lastAck k := by
  rw [lastAck,connectUe_get?,lastAck]
  by_cases hk : k = u
  · cases hu : rrc.ues.get? u <;> simp [hk,hu]
  · simp [hk]

theorem joinGroup_lastAck (rrc : RrcLayer) (u k : Int) :
    (rrc.joinGroup u).lastAck k = rrc.lastAck k := by
  rw [lastAck,joinGroup_get?,lastAck]
  by_cases hk : k = u
  · cases hu : rrc.ues.get? u <;> simp [hk,hu]
  · simp [hk]

theorem configureMulticastGroup_lastAck (rrc : RrcLayer) (ueIds : List Int) (k : Int) :
    (rrc.configureMulticastGroup ueIds).2.lastAck k = rrc.lastAck k := by
  cases hflag : rrc.multicastConfigured with
  | true => rw [configureMulticastGroup_again hflag]
  | false =>
    rw [configureMulticastGroup_eq hflag]
    exact foldl_keeps (fun r : RrcLayer => r.lastAck k) (fun r u => joinGroup_lastAck r u k) rrc _

end RrcLayer

namespace GnbSimulator

/-- A packet leaves in the table what it reports, and what it does not report alone. -/
theorem send_lastAck (outcome : Nat → Bool) {g : GnbSimulator} (h : g.Invariant) (data : String)
    (size : Int) (k : Int) :
    (g.sendMulticastPacket outcome data size).2.rrc.lastAck k =
      ((g.sendMulticastPacket outcome data size).1.results.get? k).getD (g.rrc.lastAck k) := by
  have hkeyed : ∀ entry ∈ g.multicastUes, entry.2.ueId = entry.1 :=
    fun entry hentry => h.rrc.keyed entry.1 entry.2 (mem_multicastUes.mp hentry).1
  rw [sendMulticastPacket_eq outcome h.blocks]
  by_cases hk : k ∈ g.multicastUes.map Prod.fst
  · obtain ⟨entry,hentry,rfl⟩ := List.mem_map.mp hk
    obtain ⟨i,hi⟩ := List.getElem?_of_mem hentry
    have hnodup : (g.multicastUes.map Prod.fst).Nodup := g.rrc.ues.nodup.sublist
      (List.filter_sublist.map Prod.fst)
    obtain ⟨hresult,hue⟩ := PhyLayer.foldl_receive_nth outcome g.multicastUes
      ⟨∅,g.rrc.ues,g.draws⟩ hkeyed hnodup hi
    simp only [PhyLayer.transmitMulticast,RrcLayer.lastAck,hresult,hue]
    rfl
  · have hother : ∀ entry ∈ g.multicastUes, k ≠ entry.2.ueId := by
      intro entry hentry heq
      rw [hkeyed entry hentry] at heq
      exact hk (heq ▸ List.mem_map_of_mem hentry)
    have hresult := PhyLayer.foldl_receive_result_other outcome g.multicastUes
      ⟨∅,g.rrc.ues,g.draws⟩ hother
    have hue := PhyLayer.foldl_receive_other outcome g.multicastUes ⟨∅,g.rrc.ues,g.draws⟩ hk
    simp only [PhyLayer.transmitMulticast,RrcLayer.lastAck,hresult,hue]
    rfl

theorem serve_lastAck (outcome : Nat → Bool) {g : GnbSimulator} (h : g.Invariant) (call : GnbCall)
    (k : Int) :
    (g.serve outcome call).2.rrc.lastAck k =
      ((g.serve outcome call).1.resultOf k).getD (g.rrc.lastAck k) := by
  cases call with
  | connectUe u => exact g.rrc.connectUe_lastAck u k
  | configureMulticastGroup ueIds => exact g.rrc.configureMulticastGroup_lastAck ueIds k
  | setupMulticastGroup ueIds =>
    have hconnect := foldl_keeps (fun r : RrcLayer => r.lastAck k)
      (fun r u => r.connectUe_lastAck u k) g.rrc ueIds
    exact ((g.rrc.connectAll ueIds).configureMulticastGroup_lastAck ueIds k).trans hconnect
  | sendMulticastPacket data size => exact send_lastAck outcome h data size k

/-- After any calls the last_ack of every UE is what was last reported of it. -/
theorem last_ack_is_last_result (outcome : Nat → Bool) (calls : List GnbCall) (u : Int) :
    (after (serve outcome) init calls).rrc.lastAck u =
      lastReported u (answers (serve outcome) init calls) :=
  observe_after (I := Invariant) (serve outcome) (fun g => g.rrc.lastAck u)
    (fun ack answer => (answer.resultOf u).getD ack)
    (fun _ call h => serve_invariant outcome h call)
    (fun _ call h => serve_lastAck outcome h call u) init_invariant calls

end GnbSimulator

end GrpKeySec
