import Mathlib.Data.List.TakeWhile
import GrpKeySec.Dict
import GrpKeySec.Runs
set_option autoImplicit false

/-!
The multicast simulator of gnb-multicast.py: RRC, MAC and PHY layer and the gNB
that drives them. Logging and sleeping are left out, and with them the transport
block size and the G-RNTI argument of the scheduler, which nothing else reads.
A list of UE objects is a list of table keys with their entries, so that what the
PHY writes to an object shows in the table.
-/

namespace GrpKeySec

inductive RrcState where
  | idle
  | connected
  deriving DecidableEq, Repr

structure Ue where
  ueId : Int
  rrcState : RrcState
  gRnti : Nat
  lastAck : Bool
  deriving DecidableEq, Repr

def Ue.forgetAck (ue : Ue) : Ue := { ue with lastAck := false }

structure MulticastPacket where
  packetId : Nat
  data : String
  size : Int
  slot : Nat
  deriving DecidableEq, Repr

structure RrcLayer where
  ues : Dict Int Ue
  groupGRnti : Nat
  multicastConfigured : Bool
  deriving DecidableEq

namespace RrcLayer

def init : RrcLayer := ⟨∅,1000,false⟩

def connectUe (rrc : RrcLayer) (ueId : Int) : Bool × RrcLayer :=
  let ue := (rrc.ues.get? ueId).getD ⟨ueId,.idle,0,false⟩
  let ues := if ueId ∈ rrc.ues then rrc.ues else rrc.ues.set ueId ue
  if ue.rrcState = .idle then
    (true,{ rrc with ues := ues.set ueId { ue with rrcState := .connected } })
  else (false,{ rrc with ues := ues })

/-- `ue_id in self.ues and self.ues[ue_id].rrc_state == "CONNECTED"` -/
def connected (rrc : RrcLayer) (ueId : Int) : Bool :=
  match rrc.ues.get? ueId with
  | some ue => decide (ue.rrcState = .connected)
  | none => false

def joinGroup (rrc : RrcLayer) (ueId : Int) : RrcLayer :=
  match rrc.ues.get? ueId with
  | some ue => { rrc with ues := rrc.ues.set ueId { ue with gRnti := rrc.groupGRnti } }
  | none => rrc

/-- The loop of configure_multicast_group. It stops at the first UE that is not
connected; the G-RNTIs assigned before it stay. -/
def assignGroup (rrc : RrcLayer) : List Int → Bool × RrcLayer
  | [] => (true,rrc)
  | ueId :: rest =>
      if rrc.connected ueId then (rrc.joinGroup ueId).assignGroup rest
      else (false,rrc)

def configureMulticastGroup (rrc : RrcLayer) (ueIds : List Int) : Bool × RrcLayer :=
  if rrc.multicastConfigured then (false,rrc)
  else
    match rrc.assignGroup ueIds with
    | (true,rrc') => (true,{ rrc' with multicastConfigured := true })
    | (false,rrc') => (false,rrc')

def connectAll (rrc : RrcLayer) (ueIds : List Int) : RrcLayer :=
  ueIds.foldl (fun rrc ueId => (rrc.connectUe ueId).2) rrc

def InGroup (rrc : RrcLayer) (ueId : Int) : Prop :=
  ∃ ue,rrc.ues.get? ueId = some ue ∧ ue.gRnti = rrc.groupGRnti

@[simp] theorem connectUe_groupGRnti (rrc : RrcLayer) (u : Int) :
    (rrc.connectUe u).2.groupGRnti = rrc.groupGRnti := by
  simp only [connectUe]
  split <;> rfl

@[simp] theorem connectUe_multicastConfigured (rrc : RrcLayer) (u : Int) :
    (rrc.connectUe u).2.multicastConfigured = rrc.multicastConfigured := by
  simp only [connectUe]
  split <;> rfl

theorem connectUe_get? (rrc : RrcLayer) (u k : Int) :
    (rrc.connectUe u).2.ues.get? k =
      if k = u then
        some { (rrc.ues.get? u).getD ⟨u,.idle,0,false⟩ with rrcState := .connected }
      else rrc.ues.get? k := by
  cases hu : rrc.ues.get? u with
  | none =>
    have hmem : u ∉ rrc.ues := by simp [Dict.mem_iff_get?,hu]
    simp only [connectUe,hu,Option.getD_none,hmem,if_true,if_false,Dict.get?_set]
    split <;> rfl
  | some ue =>
    have hmem : u ∈ rrc.ues := Dict.mem_of_get? hu
    simp only [connectUe,hu,Option.getD_some,hmem,if_true]
    cases hs : ue.rrcState with
    | idle => simp only [if_true,Dict.get?_set]
    | connected =>
      by_cases hk : k = u
      · have hue : { ue with rrcState := .connected } = ue := by rw [← hs]
        simp [hk,hu,hue]
      · simp [hk]

theorem connectUe_connected (rrc : RrcLayer) (u k : Int) :
    (rrc.connectUe u).2.connected k = (decide (k = u) || rrc.connected k) := by
  unfold connected
  rw [connectUe_get?]
  by_cases hk : k = u
  · simp [hk]
  · simp [hk]

/-- A connection brings nobody into the group: a new UE has G-RNTI 0. -/
theorem connectUe_inGroup {rrc : RrcLayer} (hg : rrc.groupGRnti ≠ 0) (u k : Int) :
    (rrc.connectUe u).2.InGroup k ↔ rrc.InGroup k := by
  unfold InGroup
  rw [connectUe_get?,connectUe_groupGRnti]
  by_cases hk : k = u
  · subst hk
    cases hu : rrc.ues.get? k with
    | none => simp [Ne.symm hg]
    | some ue => simp
  · simp [hk]

@[simp] theorem joinGroup_groupGRnti (rrc : RrcLayer) (u : Int) :
    (rrc.joinGroup u).groupGRnti = rrc.groupGRnti := by
  unfold joinGroup
  split <;> rfl

@[simp] theorem joinGroup_multicastConfigured (rrc : RrcLayer) (u : Int) :
    (rrc.joinGroup u).multicastConfigured = rrc.multicastConfigured := by
  unfold joinGroup
  split <;> rfl

theorem joinGroup_get? (rrc : RrcLayer) (u k : Int) :
    (rrc.joinGroup u).ues.get? k =
      if k = u then (rrc.ues.get? u).map (fun ue => { ue with gRnti := rrc.groupGRnti })
      else rrc.ues.get? k := by
  unfold joinGroup
  cases hu : rrc.ues.get? u with
  | none =>
    by_cases hk : k = u
    · simp [hk,hu]
    · simp [hk]
  | some ue => simp [Dict.get?_set]

theorem joinGroup_keys (rrc : RrcLayer) (u : Int) :
    (rrc.joinGroup u).ues.keys = rrc.ues.keys := by
  unfold joinGroup
  cases hu : rrc.ues.get? u with
  | none => rfl
  | some ue => simp [Dict.keys_set,Dict.mem_of_get? hu]

@[simp] theorem joinGroup_connected (rrc : RrcLayer) (u : Int) :
    (rrc.joinGroup u).connected = rrc.connected := by
  funext k
  unfold connected
  rw [joinGroup_get?]
  by_cases hk : k = u
  · cases hu : rrc.ues.get? u <;> simp [hk,hu]
  · simp [hk]

theorem joinGroup_inGroup {rrc : RrcLayer} {u : Int} (hu : rrc.connected u = true) (k : Int) :
    (rrc.joinGroup u).InGroup k ↔ k = u ∨ rrc.InGroup k := by
  unfold InGroup
  rw [joinGroup_get?,joinGroup_groupGRnti]
  by_cases hk : k = u
  · cases hget : rrc.ues.get? u with
    | none => simp [connected,hget] at hu
    | some ue => simp [hk]
  · simp [hk]

/-- The loop succeeds when all are connected, and in any case the UEs before the
first one that is not have joined the group. -/
theorem assignGroup_eq (rrc : RrcLayer) (ueIds : List Int) :
    rrc.assignGroup ueIds =
      (ueIds.all rrc.connected,(ueIds.takeWhile rrc.connected).foldl joinGroup rrc) := by
  induction ueIds generalizing rrc with
  | nil => rfl
  | cons u rest ih =>
    unfold assignGroup
    cases hu : rrc.connected u with
    | false => simp [hu]
    | true => simp [hu,ih]

theorem foldl_joinGroup_inGroup (ueIds : List Int) {rrc : RrcLayer}
    (h : ∀ u ∈ ueIds,rrc.connected u = true) (k : Int) :
    (ueIds.foldl joinGroup rrc).InGroup k ↔ k ∈ ueIds ∨ rrc.InGroup k := by
  induction ueIds generalizing rrc with
  | nil => simp
  | cons u rest ih =>
    have hu := h u List.mem_cons_self
    have hrest : ∀ v ∈ rest,(rrc.joinGroup u).connected v = true := by
      intro v hv
      rw [joinGroup_connected]
      exact h v (List.mem_cons_of_mem u hv)
    rw [List.foldl_cons,ih hrest,joinGroup_inGroup hu,List.mem_cons]
    tauto

theorem foldl_joinGroup_get? (ueIds : List Int) (rrc : RrcLayer) (k : Int) :
    (ueIds.foldl joinGroup rrc).ues.get? k =
      if k ∈ ueIds then (rrc.ues.get? k).map (fun ue => { ue with gRnti := rrc.groupGRnti })
      else rrc.ues.get? k := by
  induction ueIds generalizing rrc with
  | nil => simp
  | cons u rest ih =>
    rw [List.foldl_cons,ih,joinGroup_get?,joinGroup_groupGRnti]
    by_cases hk : k = u
    · cases hu : rrc.ues.get? u <;> simp [hk,hu]
    · simp [hk]

@[simp] theorem foldl_joinGroup_groupGRnti (ueIds : List Int) (rrc : RrcLayer) :
    (ueIds.foldl joinGroup rrc).groupGRnti = rrc.groupGRnti :=
  foldl_keeps groupGRnti joinGroup_groupGRnti rrc ueIds

@[simp] theorem foldl_joinGroup_multicastConfigured (ueIds : List Int) (rrc : RrcLayer) :
    (ueIds.foldl joinGroup rrc).multicastConfigured = rrc.multicastConfigured :=
  foldl_keeps multicastConfigured joinGroup_multicastConfigured rrc ueIds

theorem configureMulticastGroup_eq {rrc : RrcLayer} (h : rrc.multicastConfigured = false)
    (ueIds : List Int) :
    rrc.configureMulticastGroup ueIds = (ueIds.all rrc.connected,
      { (ueIds.takeWhile rrc.connected).foldl joinGroup rrc with
        multicastConfigured := ueIds.all rrc.connected }) := by
  unfold configureMulticastGroup
  rw [h,assignGroup_eq]
  cases hall : ueIds.all rrc.connected with
  | true => rfl
  | false =>
    have hflag := foldl_joinGroup_multicastConfigured (ueIds.takeWhile rrc.connected) rrc
    generalize (ueIds.takeWhile rrc.connected).foldl joinGroup rrc = joined at hflag ⊢
    rw [h] at hflag
    cases joined
    simpa using hflag

theorem configureMulticastGroup_again {rrc : RrcLayer} (h : rrc.multicastConfigured = true)
    (ueIds : List Int) : rrc.configureMulticastGroup ueIds = (false,rrc) := by
  simp [configureMulticastGroup,h]

theorem configureMulticastGroup_inGroup {rrc : RrcLayer} (h : rrc.multicastConfigured = false)
    (ueIds : List Int) (k : Int) :
    (rrc.configureMulticastGroup ueIds).2.InGroup k ↔
      k ∈ ueIds.takeWhile rrc.connected ∨ rrc.InGroup k := by
  have hjoined : ∀ u ∈ ueIds.takeWhile rrc.connected,rrc.connected u = true := by
    intro u hu
    exact List.mem_takeWhile_imp hu
  rw [configureMulticastGroup_eq h]
  exact foldl_joinGroup_inGroup _ hjoined k

theorem connectAll_groupGRnti (ueIds : List Int) (rrc : RrcLayer) :
    (rrc.connectAll ueIds).groupGRnti = rrc.groupGRnti :=
  foldl_keeps groupGRnti connectUe_groupGRnti rrc ueIds

theorem connectAll_multicastConfigured (ueIds : List Int) (rrc : RrcLayer) :
    (rrc.connectAll ueIds).multicastConfigured = rrc.multicastConfigured :=
  foldl_keeps multicastConfigured connectUe_multicastConfigured rrc ueIds

theorem connectAll_connected (ueIds : List Int) (rrc : RrcLayer) (k : Int) :
    (rrc.connectAll ueIds).connected k = (decide (k ∈ ueIds) || rrc.connected k) := by
  induction ueIds generalizing rrc with
  | nil => simp [connectAll]
  | cons u rest ih =>
    have hstep := ih (rrc.connectUe u).2
    rw [connectUe_connected] at hstep
    simp only [connectAll,List.foldl_cons] at hstep ⊢
    rw [hstep]
    by_cases hk : k = u <;> simp [hk]

theorem connectAll_get? (ueIds : List Int) (rrc : RrcLayer) (k : Int) :
    (rrc.connectAll ueIds).ues.get? k =
      if k ∈ ueIds then
        some { (rrc.ues.get? k).getD ⟨k,.idle,0,false⟩ with rrcState := .connected }
      else rrc.ues.get? k := by
  induction ueIds generalizing rrc with
  | nil => rfl
  | cons u rest ih =>
    have hrest := ih (rrc.connectUe u).2
    rw [connectUe_get?] at hrest
    simp only [connectAll,List.foldl_cons] at hrest ⊢
    rw [hrest]
    by_cases hk : k = u
    · subst hk
      simp
    · simp [hk]

theorem connectAll_inGroup (ueIds : List Int) {rrc : RrcLayer} (hg : rrc.groupGRnti ≠ 0) (k : Int) :
    (rrc.connectAll ueIds).InGroup k ↔ rrc.InGroup k := by
  induction ueIds generalizing rrc with
  | nil => rfl
  | cons u rest ih =>
    have hg' : (rrc.connectUe u).2.groupGRnti ≠ 0 := by rw [connectUe_groupGRnti]; exact hg
    exact (ih hg').trans (connectUe_inGroup hg u k)

def Keyed (rrc : RrcLayer) : Prop := rrc.ues.All (fun k ue => ue.ueId = k)

theorem Keyed.connectUe {rrc : RrcLayer} (h : rrc.Keyed) (u : Int) : (rrc.connectUe u).2.Keyed := by
  intro k ue hget
  rw [connectUe_get?] at hget
  by_cases hk : k = u
  · rw [if_pos hk] at hget
    rw [← Option.some.inj hget,hk]
    cases hu : rrc.ues.get? u with
    | none => rfl
    | some ue' => exact h u ue' hu
  · rw [if_neg hk] at hget
    exact h k ue hget

theorem Keyed.joinGroup {rrc : RrcLayer} (h : rrc.Keyed) (u : Int) : (rrc.joinGroup u).Keyed := by
  intro k ue hget
  rw [joinGroup_get?] at hget
  by_cases hk : k = u
  · rw [if_pos hk,Option.map_eq_some_iff] at hget
    obtain ⟨ue',hu,rfl⟩ := hget
    rw [hk]
    exact h u ue' hu
  · rw [if_neg hk] at hget
    exact h k ue hget

theorem Keyed.connectAll {rrc : RrcLayer} (h : rrc.Keyed) (ueIds : List Int) :
    (rrc.connectAll ueIds).Keyed :=
  List.foldlRecOn ueIds _ h (fun _ hr u _ => hr.connectUe u)

theorem Keyed.configureMulticastGroup {rrc : RrcLayer} (h : rrc.Keyed) (ueIds : List Int) :
    (rrc.configureMulticastGroup ueIds).2.Keyed := by
  cases hflag : rrc.multicastConfigured with
  | true =>
    rw [configureMulticastGroup_again hflag]
    exact h
  | false =>
    have hjoined : ((ueIds.takeWhile rrc.connected).foldl RrcLayer.joinGroup rrc).Keyed :=
      List.foldlRecOn _ _ h (fun _ hr u _ => hr.joinGroup u)
    rw [configureMulticastGroup_eq hflag]
    exact hjoined

theorem inGroup_congr {rrc rrc' : RrcLayer} (hg : rrc'.groupGRnti = rrc.groupGRnti)
    (h : ∀ k,(rrc'.ues.get? k).map Ue.forgetAck = (rrc.ues.get? k).map Ue.forgetAck) (k : Int) :
    rrc'.InGroup k ↔ rrc.InGroup k := by
  have hsame : ∀ {r : RrcLayer},r.InGroup k ↔
      ∃ ue,(r.ues.get? k).map Ue.forgetAck = some ue ∧ ue.gRnti = r.groupGRnti := by
    intro r
    simp [InGroup,Ue.forgetAck]
  rw [hsame,hsame,h k,hg]

theorem get?_congr {rrc rrc' : RrcLayer}
    (h : ∀ k,(rrc'.ues.get? k).map Ue.forgetAck = (rrc.ues.get? k).map Ue.forgetAck) {k : Int}
    {ue' : Ue} (hget : rrc'.ues.get? k = some ue') :
    ∃ ue,rrc.ues.get? k = some ue ∧ ue.forgetAck = ue'.forgetAck := by
  have hk := h k
  rwa [hget,Option.map_some,eq_comm,Option.map_eq_some_iff] at hk

theorem Keyed.congr {rrc rrc' : RrcLayer} (hkeyed : rrc.Keyed)
    (h : ∀ k,(rrc'.ues.get? k).map Ue.forgetAck = (rrc.ues.get? k).map Ue.forgetAck) :
    rrc'.Keyed := by
  intro k ue' hget
  obtain ⟨ue,hue,hforget⟩ := get?_congr h hget
  have hid : ue.forgetAck.ueId = ue'.forgetAck.ueId := congrArg Ue.ueId hforget
  exact hid.symm.trans (hkeyed k ue hue)

end RrcLayer

structure MacLayer where
  slotNumber : Nat
  resourceBlocks : Nat
  deriving DecidableEq, Repr

namespace MacLayer

def init : MacLayer := ⟨0,100⟩

def scheduleMulticast (mac : MacLayer) (packet : MulticastPacket) :
    Bool × MulticastPacket × MacLayer :=
  if 20 ≤ mac.resourceBlocks then
    -- 20 blocks are taken and all of them given back for the next slot
    (true,{ packet with slot := mac.slotNumber },⟨mac.slotNumber + 1,100⟩)
  else (false,packet,mac)

end MacLayer

namespace PhyLayer

structure Feedback where
  results : Dict Int Bool
  ues : Dict Int Ue
  draws : Nat
  deriving DecidableEq

def receive (outcome : Nat → Bool) (f : Feedback) (entry : Int × Ue) : Feedback :=
  let success := outcome f.draws
  ⟨f.results.set entry.2.ueId success,
   f.ues.set entry.1 { entry.2 with lastAck := success },
   f.draws + 1⟩

/-- The n-th comparison of random.random() with the channel reliability comes out
as `outcome n`; `draws` counts those made so far. -/
def transmitMulticast (outcome : Nat → Bool) (ues : Dict Int Ue) (draws : Nat)
    (multicastUes : List (Int × Ue)) : Feedback :=
  multicastUes.foldl (receive outcome) ⟨∅,ues,draws⟩

theorem foldl_receive_results (outcome : Nat → Bool) (entries : List (Int × Ue)) (f : Feedback)
    (u : Int) : u ∈ (entries.foldl (receive outcome) f).results ↔
      u ∈ f.results ∨ ∃ entry ∈ entries,entry.2.ueId = u := by
  induction entries generalizing f with
  | nil => simp
  | cons entry rest ih =>
    rw [List.foldl_cons,ih]
    simp only [receive,Dict.mem_set,List.mem_cons,exists_eq_or_imp,eq_comm (a := u)]
    tauto

theorem foldl_receive_ues (outcome : Nat → Bool) (entries : List (Int × Ue)) (f : Feedback)
    (h : ∀ entry ∈ entries,
      (f.ues.get? entry.1).map Ue.forgetAck = some entry.2.forgetAck) (k : Int) :
    ((entries.foldl (receive outcome) f).ues.get? k).map Ue.forgetAck =
      (f.ues.get? k).map Ue.forgetAck := by
  induction entries generalizing f with
  | nil => rfl
  | cons entry rest ih =>
    have hkeep : ∀ q,((receive outcome f entry).ues.get? q).map Ue.forgetAck =
        (f.ues.get? q).map Ue.forgetAck := by
      intro q
      simp only [receive,Dict.get?_set]
      by_cases hq : q = entry.1
      · rw [if_pos hq,hq,h entry List.mem_cons_self]
        rfl
      · rw [if_neg hq]
    rw [List.foldl_cons,ih _ ?_,hkeep]
    intro e he
    rw [hkeep]
    exact h e (List.mem_cons_of_mem entry he)

theorem foldl_receive_other (outcome : Nat → Bool) (entries : List (Int × Ue)) (f : Feedback)
    {k : Int} (hk : k ∉ entries.map Prod.fst) :
    (entries.foldl (receive outcome) f).ues.get? k = f.ues.get? k := by
  induction entries generalizing f with
  | nil => rfl
  | cons entry rest ih =>
    rw [List.map_cons,List.mem_cons,not_or] at hk
    rw [List.foldl_cons,ih _ hk.2]
    exact Dict.get?_set_ne f.ues _ hk.1

end PhyLayer

structure GnbSimulator where
  rrc : RrcLayer
  mac : MacLayer
  packetCounter : Nat
  draws : Nat
  deriving DecidableEq

structure Sent where
  packet : Option MulticastPacket
  results : Dict Int Bool
  deriving DecidableEq

namespace GnbSimulator

def init : GnbSimulator := ⟨.init,.init,0,0⟩

/-- The source drops what the configuration returned; here it is the result. -/
def setupMulticastGroup (g : GnbSimulator) (ueIds : List Int) : Bool × GnbSimulator :=
  let configured := (g.rrc.connectAll ueIds).configureMulticastGroup ueIds
  (configured.1,{ g with rrc := configured.2 })

def multicastUes (g : GnbSimulator) : List (Int × Ue) :=
  g.rrc.ues.entries.filter (fun entry => decide (entry.2.gRnti = g.rrc.groupGRnti))

def sendMulticastPacket (outcome : Nat → Bool) (g : GnbSimulator) (data : String) (size : Int) :
    Sent × GnbSimulator :=
  let counter := g.packetCounter + 1
  match g.mac.scheduleMulticast ⟨counter,data,size,0⟩ with
  | (false,_,mac) => (⟨none,∅⟩,{ g with mac := mac, packetCounter := counter })
  | (true,packet,mac) =>
      let feedback := PhyLayer.transmitMulticast outcome g.rrc.ues g.draws g.multicastUes
      (⟨some packet,feedback.results⟩,
       ⟨{ g.rrc with ues := feedback.ues },mac,counter,feedback.draws⟩)

theorem sendMulticastPacket_eq (outcome : Nat → Bool) {g : GnbSimulator}
    (h : g.mac.resourceBlocks = 100) (data : String) (size : Int) :
    g.sendMulticastPacket outcome data size =
      let feedback := PhyLayer.transmitMulticast outcome g.rrc.ues g.draws g.multicastUes
      (⟨some ⟨g.packetCounter + 1,data,size,g.mac.slotNumber⟩,feedback.results⟩,
       ⟨{ g.rrc with ues := feedback.ues },⟨g.mac.slotNumber + 1,100⟩,g.packetCounter + 1,
        feedback.draws⟩) := by
  simp [sendMulticastPacket,MacLayer.scheduleMulticast,h]

theorem sendMulticastPacket_rrc (outcome : Nat → Bool) (g : GnbSimulator) (data : String)
    (size : Int) : (g.sendMulticastPacket outcome data size).2.rrc =
      { g.rrc with ues := (g.sendMulticastPacket outcome data size).2.rrc.ues } := by
  unfold sendMulticastPacket MacLayer.scheduleMulticast
  by_cases hblocks : 20 ≤ g.mac.resourceBlocks
  · simp only [if_pos hblocks]
  · simp only [if_neg hblocks]

theorem sendMulticastPacket_blocks (outcome : Nat → Bool) {g : GnbSimulator}
    (h : g.mac.resourceBlocks = 100) (data : String) (size : Int) :
    (g.sendMulticastPacket outcome data size).2.mac.resourceBlocks = 100 := by
  simp [sendMulticastPacket,MacLayer.scheduleMulticast,h]

theorem mem_multicastUes {g : GnbSimulator} {k : Int} {ue : Ue} :
    (k,ue) ∈ g.multicastUes ↔
      g.rrc.ues.get? k = some ue ∧ ue.gRnti = g.rrc.groupGRnti := by
  simp [multicastUes,Dict.get?_eq_some_iff]

theorem sendMulticastPacket_ues (outcome : Nat → Bool) (g : GnbSimulator) (data : String)
    (size : Int) (k : Int) :
    ((g.sendMulticastPacket outcome data size).2.rrc.ues.get? k).map Ue.forgetAck =
      (g.rrc.ues.get? k).map Ue.forgetAck := by
  have hentries : ∀ entry ∈ g.multicastUes,
      (g.rrc.ues.get? entry.1).map Ue.forgetAck = some entry.2.forgetAck := by
    intro entry hentry
    rw [(mem_multicastUes.mp hentry).1]
    rfl
  unfold sendMulticastPacket MacLayer.scheduleMulticast
  by_cases hblocks : 20 ≤ g.mac.resourceBlocks
  · simp only [if_pos hblocks]
    exact PhyLayer.foldl_receive_ues outcome g.multicastUes ⟨∅,g.rrc.ues,g.draws⟩ hentries k
  · simp only [if_neg hblocks]

end GnbSimulator
end GrpKeySec
