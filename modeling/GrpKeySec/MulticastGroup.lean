import GrpKeySec.Multicast
import GrpKeySec.Runs
set_option autoImplicit false

/-!
Runs of the multicast simulator, and whom a packet reaches in them. The state is
watched together with the list of the configuration that was accepted, which the
simulator itself does not keep.
-/

namespace GrpKeySec
open Serial

inductive GnbCall where
  | connectUe (ueId : Int)
  | configureMulticastGroup (ueIds : List Int)
  | setupMulticastGroup (ueIds : List Int)
  | sendMulticastPacket (data : String) (size : Int)
  deriving DecidableEq, Repr

inductive GnbAnswer where
  | connected (changed : Bool)
  | configured (accepted : Bool)
  | sent (sent : Sent)
  deriving DecidableEq

def GnbSimulator.serve (outcome : Nat → Bool) (g : GnbSimulator) : GnbCall → GnbAnswer × GnbSimulator
  | .connectUe u =>
      let out := g.rrc.connectUe u
      (.connected out.1,{ g with rrc := out.2 })
  | .configureMulticastGroup ueIds =>
      let out := g.rrc.configureMulticastGroup ueIds
      (.configured out.1,{ g with rrc := out.2 })
  | .setupMulticastGroup ueIds =>
      let out := g.setupMulticastGroup ueIds
      (.configured out.1,out.2)
  | .sendMulticastPacket data size =>
      let out := g.sendMulticastPacket outcome data size
      (.sent out.1,out.2)

def RrcLayer.Members (rrc : RrcLayer) (group : Option (List Int)) : Prop :=
  ∀ u,rrc.InGroup u ↔ ∃ ueIds,group = some ueIds ∧ u ∈ ueIds

structure Watched where
  sim : GnbSimulator
  group : Option (List Int)

namespace Watched

def init : Watched := ⟨.init,none⟩

/-- The ids of a configuration that returned True, inside a setup or by itself. -/
def accepted : GnbCall → GnbAnswer → Option (List Int)
  | .configureMulticastGroup ueIds,.configured true => some ueIds
  | .setupMulticastGroup ueIds,.configured true => some ueIds
  | _,_ => none

def serve (outcome : Nat → Bool) (w : Watched) (call : GnbCall) : GnbAnswer × Watched :=
  let out := w.sim.serve outcome call
  (out.1,⟨out.2,(accepted call out.1).or w.group⟩)

/-- A packet sent now goes to the accepted group, and to nobody without one. -/
def ReachesGroup (outcome : Nat → Bool) (w : Watched) : Prop :=
  ∀ data size u,u ∈ (w.sim.sendMulticastPacket outcome data size).1.results ↔
    ∃ ueIds,w.group = some ueIds ∧ u ∈ ueIds

/-- After the call packets reach the group, and no group was accepted before one
that the call has accepted. -/
def Exact (outcome : Nat → Bool) (w : Watched) (call : GnbCall) : Prop :=
  ReachesGroup outcome (serve outcome w call).2 ∧
  (accepted call (serve outcome w call).1 = none ∨ w.group = none)

/-- A configuration that is not refused halfway: the group exists already, or all
UEs of the list are connected, or its first one is not. -/
def Clean (w : Watched) : GnbCall → Prop
  | .configureMulticastGroup ueIds =>
      w.sim.rrc.multicastConfigured = true ∨ (∀ u ∈ ueIds,w.sim.rrc.connected u = true) ∨
      ∃ u rest,ueIds = u :: rest ∧ w.sim.rrc.connected u = false
  | _ => True

structure Sound (w : Watched) : Prop where
  keyed : w.sim.rrc.Keyed
  gRnti : w.sim.rrc.groupGRnti = 1000
  blocks : w.sim.mac.resourceBlocks = 100
  flag : w.sim.rrc.multicastConfigured = w.group.isSome

end Watched

namespace GnbSimulator

theorem mem_sent_results {g : GnbSimulator} (hkeyed : g.rrc.Keyed)
    (hblocks : g.mac.resourceBlocks = 100) (outcome : Nat → Bool) (data : String) (size : Int)
    (u : Int) : u ∈ (g.sendMulticastPacket outcome data size).1.results ↔ g.rrc.InGroup u := by
  simp only [sendMulticastPacket,MacLayer.scheduleMulticast,hblocks,PhyLayer.transmitMulticast]
  simp only [show (20 : Nat) ≤ 100 by omega,if_true]
  rw [PhyLayer.foldl_receive_results]
  constructor
  · rintro (hempty | ⟨⟨k,ue⟩,hmem,hid⟩)
    · exact absurd hempty (Dict.not_mem_empty u)
    · obtain ⟨hget,hgroup⟩ := mem_multicastUes.mp hmem
      have hku : k = u := (hkeyed k ue hget).symm.trans hid
      exact ⟨ue,hku ▸ hget,hgroup⟩
  · rintro ⟨ue,hget,hgroup⟩
    exact .inr ⟨(u,ue),mem_multicastUes.mpr ⟨hget,hgroup⟩,hkeyed u ue hget⟩

end GnbSimulator

namespace Watched

theorem reachesGroup_iff {w : Watched} (h : Sound w) (outcome : Nat → Bool) :
    ReachesGroup outcome w ↔ w.sim.rrc.Members w.group := by
  unfold ReachesGroup RrcLayer.Members
  simp only [GnbSimulator.mem_sent_results h.keyed h.blocks]
  constructor
  · intro hr u
    exact hr "" 0 u
  · intro hm _ _ u
    exact hm u

theorem init_sound : Sound init where
  keyed := fun _ _ hget => nomatch hget
  gRnti := rfl
  blocks := rfl
  flag := rfl

end Watched

namespace RrcLayer

def grouped (ueIds : List Int) (b : Bool) (group : Option (List Int)) : Option (List Int) :=
  (if b then some ueIds else none).or group

theorem configure_flag {rrc : RrcLayer} {group : Option (List Int)}
    (hflag : rrc.multicastConfigured = group.isSome) (ueIds : List Int) :
    (rrc.configureMulticastGroup ueIds).2.multicastConfigured =
      (grouped ueIds (rrc.configureMulticastGroup ueIds).1 group).isSome ∧
    ((rrc.configureMulticastGroup ueIds).1 = false ∨ group = none) := by
  cases hg : group with
  | some ids =>
    rw [hg] at hflag
    rw [configureMulticastGroup_again hflag]
    exact ⟨hflag,.inl rfl⟩
  | none =>
    rw [hg] at hflag
    rw [configureMulticastGroup_eq hflag]
    refine ⟨?_,.inr rfl⟩
    cases hall : ueIds.all rrc.connected <;> rfl

theorem configure_groupGRnti (rrc : RrcLayer) (ueIds : List Int) :
    (rrc.configureMulticastGroup ueIds).2.groupGRnti = rrc.groupGRnti := by
  cases hflag : rrc.multicastConfigured with
  | true => rw [configureMulticastGroup_again hflag]
  | false =>
    rw [configureMulticastGroup_eq hflag]
    exact foldl_joinGroup_groupGRnti _ rrc

theorem takeWhile_stops_iff {p : Int → Bool} {l : List Int} (hall : l.all p = false) :
    (∀ u,u ∉ l.takeWhile p) ↔ ∃ u rest,l = u :: rest ∧ p u = false := by
  cases l with
  | nil => simp at hall
  | cons u rest =>
    cases hu : p u with
    | false => simp [hu]
    | true =>
      have hfirst : u ∈ (u :: rest).takeWhile p := by simp [hu]
      constructor
      · intro hnobody
        exact absurd hfirst (hnobody u)
      · rintro ⟨v,tail,heq,hv⟩
        simp [← (List.cons.inj heq).1,hu] at hv

theorem configure_members {rrc : RrcLayer} {group : Option (List Int)}
    (hflag : rrc.multicastConfigured = group.isSome) (hm : rrc.Members group) (ueIds : List Int) :
    (rrc.configureMulticastGroup ueIds).2.Members
        (grouped ueIds (rrc.configureMulticastGroup ueIds).1 group) ↔
      rrc.multicastConfigured = true ∨ (∀ u ∈ ueIds,rrc.connected u = true) ∨
      ∃ u rest,ueIds = u :: rest ∧ rrc.connected u = false := by
  cases hg : group with
  | some ids =>
    rw [hg] at hflag hm
    rw [configureMulticastGroup_again hflag]
    exact ⟨fun _ => .inl hflag,fun _ => hm⟩
  | none =>
    rw [hg] at hflag hm
    have hnone : ∀ u,¬ rrc.InGroup u := by
      intro u hu
      obtain ⟨ids,hids,_⟩ := (hm u).mp hu
      exact nomatch hids
    have hfirst : (rrc.configureMulticastGroup ueIds).1 = ueIds.all rrc.connected := by
      rw [configureMulticastGroup_eq hflag]
    unfold Members
    simp only [configureMulticastGroup_inGroup hflag,hnone,or_false,hfirst]
    cases hall : ueIds.all rrc.connected with
    | true =>
      have hconnected := List.all_eq_true.mp hall
      have htake := List.takeWhile_eq_self_iff.mpr hconnected
      constructor
      · intro _
        exact .inr (.inl hconnected)
      · intro _ u
        simp [grouped,htake]
    | false =>
      -- refused: the members must be nobody, so the loop must stop at once
      have hstops := takeWhile_stops_iff hall
      have hnotall : ¬ ∀ u ∈ ueIds,rrc.connected u = true := by
        rw [← List.all_eq_true,hall]
        simp
      simpa [grouped,hflag,hnotall] using hstops

end RrcLayer

namespace Watched

theorem accepted_configure (ueIds : List Int) (b : Bool) (group : Option (List Int)) :
    (accepted (.configureMulticastGroup ueIds) (.configured b)).or group =
      RrcLayer.grouped ueIds b group := by
  cases b <;> rfl

theorem accepted_setup (ueIds : List Int) (b : Bool) (group : Option (List Int)) :
    (accepted (.setupMulticastGroup ueIds) (.configured b)).or group =
      RrcLayer.grouped ueIds b group := by
  cases b <;> rfl

theorem serve_sound {w : Watched} (h : Sound w) (outcome : Nat → Bool) (call : GnbCall) :
    Sound (serve outcome w call).2 ∧
      (accepted call (serve outcome w call).1 = none ∨ w.group = none) := by
  cases call with
  | connectUe u =>
    refine ⟨⟨h.keyed.connectUe u,?_,h.blocks,?_⟩,.inl rfl⟩
    · exact (RrcLayer.connectUe_groupGRnti _ u).trans h.gRnti
    · exact (RrcLayer.connectUe_multicastConfigured _ u).trans h.flag
  | configureMulticastGroup ueIds =>
    obtain ⟨hflag,honce⟩ := RrcLayer.configure_flag h.flag ueIds
    refine ⟨⟨h.keyed.configureMulticastGroup ueIds,?_,h.blocks,?_⟩,?_⟩
    · exact (RrcLayer.configure_groupGRnti _ ueIds).trans h.gRnti
    · simp only [serve,GnbSimulator.serve,accepted_configure]
      exact hflag
    · refine honce.imp_left (fun hrefused => ?_)
      simp [serve,GnbSimulator.serve,hrefused,accepted]
  | setupMulticastGroup ueIds =>
    have hflag₁ := (RrcLayer.connectAll_multicastConfigured ueIds w.sim.rrc).trans h.flag
    obtain ⟨hflag,honce⟩ := RrcLayer.configure_flag hflag₁ ueIds
    refine ⟨⟨(h.keyed.connectAll ueIds).configureMulticastGroup ueIds,?_,h.blocks,?_⟩,?_⟩
    · exact ((RrcLayer.configure_groupGRnti _ ueIds).trans
        (RrcLayer.connectAll_groupGRnti ueIds _)).trans h.gRnti
    · simp only [serve,GnbSimulator.serve,GnbSimulator.setupMulticastGroup,accepted_setup]
      exact hflag
    · refine honce.imp_left (fun hrefused => ?_)
      simp [serve,GnbSimulator.serve,GnbSimulator.setupMulticastGroup,hrefused,accepted]
  | sendMulticastPacket data size =>
    have hrrc := GnbSimulator.sendMulticastPacket_rrc outcome w.sim data size
    refine ⟨⟨?_,?_,?_,?_⟩,.inl rfl⟩
    · exact h.keyed.congr (GnbSimulator.sendMulticastPacket_ues outcome w.sim data size)
    · exact (congrArg RrcLayer.groupGRnti hrrc).trans h.gRnti
    · exact GnbSimulator.sendMulticastPacket_blocks outcome h.blocks data size
    · exact (congrArg RrcLayer.multicastConfigured hrrc).trans h.flag

/-- Of all calls only a configuration refused halfway leaves strangers in the group. -/
theorem serve_members {w : Watched} (h : Sound w) (hm : w.sim.rrc.Members w.group)
    (outcome : Nat → Bool) (call : GnbCall) :
    (serve outcome w call).2.sim.rrc.Members (serve outcome w call).2.group ↔ Clean w call := by
  have hg : w.sim.rrc.groupGRnti ≠ 0 := by
    rw [h.gRnti]
    omega
  cases call with
  | connectUe u =>
    refine ⟨fun _ => trivial,fun _ k => ?_⟩
    exact (RrcLayer.connectUe_inGroup hg u k).trans (hm k)
  | configureMulticastGroup ueIds =>
    simp only [serve,GnbSimulator.serve,accepted_configure]
    exact RrcLayer.configure_members h.flag hm ueIds
  | setupMulticastGroup ueIds =>
    refine ⟨fun _ => trivial,fun _ => ?_⟩
    have hflag := (RrcLayer.connectAll_multicastConfigured ueIds w.sim.rrc).trans h.flag
    have hconnected : ∀ u ∈ ueIds,(w.sim.rrc.connectAll ueIds).connected u = true := by
      intro u hu
      simp [RrcLayer.connectAll_connected,hu]
    have hm' : (w.sim.rrc.connectAll ueIds).Members w.group :=
      fun k => (RrcLayer.connectAll_inGroup ueIds hg k).trans (hm k)
    simp only [serve,GnbSimulator.serve,GnbSimulator.setupMulticastGroup,accepted_setup]
    exact (RrcLayer.configure_members hflag hm' ueIds).mpr (.inr (.inl hconnected))
  | sendMulticastPacket data size =>
    refine ⟨fun _ => trivial,fun _ k => ?_⟩
    have hgroup : (w.sim.sendMulticastPacket outcome data size).2.rrc.groupGRnti =
        w.sim.rrc.groupGRnti := by
      rw [GnbSimulator.sendMulticastPacket_rrc]
    have hues := GnbSimulator.sendMulticastPacket_ues outcome w.sim data size
    exact (RrcLayer.inGroup_congr hgroup hues k).trans (hm k)

theorem exact_iff {w : Watched} (h : Sound w) (hm : w.sim.rrc.Members w.group)
    (outcome : Nat → Bool) (call : GnbCall) : Exact outcome w call ↔ Clean w call := by
  obtain ⟨hsound,honce⟩ := serve_sound h outcome call
  unfold Exact
  rw [reachesGroup_iff hsound outcome,serve_members h hm outcome call]
  exact and_iff_left honce

theorem init_members : init.sim.rrc.Members init.group := by
  intro u
  constructor
  · rintro ⟨ue,hget,_⟩
    exact nomatch hget
  · rintro ⟨ueIds,hids,_⟩
    exact nomatch hids

/-- The runs in which packets always go to exactly the accepted group are those
without a configuration that is refused halfway. -/
theorem reaches_group_iff_clean (outcome : Nat → Bool) (calls : List GnbCall) :
    (ReachesGroup outcome init ∧ EveryCall (serve outcome) (Exact outcome) init calls) ↔
      EveryCall (serve outcome) Clean init calls := by
  have hinit := (reachesGroup_iff init_sound outcome).mpr init_members
  rw [and_iff_right hinit]
  refine everyCall_congr (serve outcome)
    (I := fun w => Sound w ∧ w.sim.rrc.Members w.group) ?_ ?_ ⟨init_sound,init_members⟩ calls
  · intro w call hw
    exact exact_iff hw.1 hw.2 outcome call
  · intro w call hw hclean
    exact ⟨(serve_sound hw.1 outcome call).1,(serve_members hw.1 hw.2 outcome call).mpr hclean⟩

theorem refused_configuration_reaches_ue :
    ¬ ∀ (outcome : Nat → Bool) (calls : List GnbCall),
      EveryCall (serve outcome) (Exact outcome) init calls := by
  intro h
  obtain ⟨_,⟨hreach,_⟩,_⟩ := h (fun _ => true) [.connectUe 1,.configureMulticastGroup [1,2]]
  obtain ⟨ueIds,hgroup,_⟩ := (hreach "" 0 1).mp (by decide +kernel)
  exact nomatch hgroup

end Watched
end GrpKeySec
