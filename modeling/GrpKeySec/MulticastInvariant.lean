import GrpKeySec.MulticastGroup
set_option autoImplicit false

/-!
What holds of the multicast simulator after any calls in any order: the table and
the counters fit together, and no call takes back a connection, a G-RNTI or the
configuration.
-/

namespace GrpKeySec
open Serial

def Ue.Fits (groupGRnti : Nat) (ue : Ue) : Prop :=
  (ue.gRnti = 0 ∨ ue.gRnti = groupGRnti) ∧ (ue.gRnti = groupGRnti → ue.rrcState = .connected)

theorem Ue.Fits.forgetAck {groupGRnti : Nat} {ue ue' : Ue} (h : ue.Fits groupGRnti)
    (hforget : ue.forgetAck = ue'.forgetAck) : ue'.Fits groupGRnti := by
  have hrnti : ue.forgetAck.gRnti = ue'.forgetAck.gRnti := congrArg Ue.gRnti hforget
  have hstate : ue.forgetAck.rrcState = ue'.forgetAck.rrcState := congrArg Ue.rrcState hforget
  simp only [Ue.forgetAck] at hrnti hstate
  unfold Ue.Fits at h ⊢
  rwa [← hrnti,← hstate]

namespace RrcLayer

structure Invariant (rrc : RrcLayer) : Prop where
  keyed : rrc.Keyed
  gRnti : rrc.groupGRnti = 1000
  fits : rrc.ues.All (fun _ ue => ue.Fits rrc.groupGRnti)

theorem Invariant.connectUe {rrc : RrcLayer} (h : rrc.Invariant) (u : Int) :
    (rrc.connectUe u).2.Invariant := by
  refine ⟨h.keyed.connectUe u,(connectUe_groupGRnti rrc u).trans h.gRnti,?_⟩
  intro k ue hget
  rw [connectUe_groupGRnti]
  rw [connectUe_get?] at hget
  by_cases hk : k = u
  · rw [if_pos hk] at hget
    rw [← Option.some.inj hget]
    refine ⟨?_,fun _ => rfl⟩
    cases hu : rrc.ues.get? u with
    | none => exact .inl rfl
    | some ue' => exact (h.fits u ue' hu).1
  · rw [if_neg hk] at hget
    exact h.fits k ue hget

theorem Invariant.joinGroup {rrc : RrcLayer} (h : rrc.Invariant) {u : Int}
    (hu : rrc.connected u = true) : (rrc.joinGroup u).Invariant := by
  refine ⟨h.keyed.joinGroup u,(joinGroup_groupGRnti rrc u).trans h.gRnti,?_⟩
  intro k ue hget
  rw [joinGroup_groupGRnti]
  rw [joinGroup_get?] at hget
  by_cases hk : k = u
  · rw [if_pos hk,Option.map_eq_some_iff] at hget
    obtain ⟨ue',hue,rfl⟩ := hget
    have hconnected : ue'.rrcState = .connected := by simpa [connected,hue] using hu
    exact ⟨.inr rfl,fun _ => hconnected⟩
  · rw [if_neg hk] at hget
    exact h.fits k ue hget

theorem Invariant.connectAll {rrc : RrcLayer} (h : rrc.Invariant) (ueIds : List Int) :
    (rrc.connectAll ueIds).Invariant :=
  List.foldlRecOn ueIds _ h (fun _ hr u _ => hr.connectUe u)

theorem Invariant.joinAll {rrc : RrcLayer} (h : rrc.Invariant) (ueIds : List Int)
    (hconnected : ∀ u ∈ ueIds,rrc.connected u = true) :
    (ueIds.foldl RrcLayer.joinGroup rrc).Invariant := by
  -- joining changes nobody's connection, so the check made before the loop lasts
  have hall : (ueIds.foldl RrcLayer.joinGroup rrc).Invariant ∧
      (ueIds.foldl RrcLayer.joinGroup rrc).connected = rrc.connected := by
    refine List.foldlRecOn (motive := fun r : RrcLayer => r.Invariant ∧ r.connected = rrc.connected)
      ueIds _ ⟨h,rfl⟩ ?_
    rintro r ⟨hr,hsame⟩ u hu
    have hru : r.connected u = true := by
      rw [hsame]
      exact hconnected u hu
    exact ⟨hr.joinGroup hru,(joinGroup_connected r u).trans hsame⟩
  exact hall.1

theorem Invariant.configureMulticastGroup {rrc : RrcLayer} (h : rrc.Invariant)
    (ueIds : List Int) : (rrc.configureMulticastGroup ueIds).2.Invariant := by
  cases hflag : rrc.multicastConfigured with
  | true =>
    rw [configureMulticastGroup_again hflag]
    exact h
  | false =>
    have hjoined := h.joinAll (ueIds.takeWhile rrc.connected)
      (fun u hu => List.mem_takeWhile_imp hu)
    rw [configureMulticastGroup_eq hflag]
    exact ⟨hjoined.keyed,hjoined.gRnti,hjoined.fits⟩

theorem Invariant.congr {rrc rrc' : RrcLayer} (h : rrc.Invariant)
    (hgroup : rrc'.groupGRnti = rrc.groupGRnti)
    (hues : ∀ k,(rrc'.ues.get? k).map Ue.forgetAck = (rrc.ues.get? k).map Ue.forgetAck) :
    rrc'.Invariant := by
  refine ⟨h.keyed.congr hues,hgroup.trans h.gRnti,?_⟩
  intro k ue' hget
  obtain ⟨ue,hue,hforget⟩ := get?_congr hues hget
  rw [hgroup]
  exact (h.fits k ue hue).forgetAck hforget

/-- Nothing of the first state is taken back in the second. -/
structure Kept (rrc rrc' : RrcLayer) : Prop where
  gRnti : rrc'.groupGRnti = rrc.groupGRnti
  configured : rrc.multicastConfigured = true → rrc'.multicastConfigured = true
  ues : ∀ k ue,rrc.ues.get? k = some ue → ∃ ue',rrc'.ues.get? k = some ue' ∧
    (ue.rrcState = .connected → ue'.rrcState = .connected) ∧
    (ue.gRnti = rrc.groupGRnti → ue'.gRnti = rrc.groupGRnti)

theorem Kept.refl (rrc : RrcLayer) : rrc.Kept rrc :=
  ⟨rfl,id,fun _ ue hget => ⟨ue,hget,id,id⟩⟩

theorem Kept.trans {r₁ r₂ r₃ : RrcLayer} (h : r₁.Kept r₂) (h' : r₂.Kept r₃) : r₁.Kept r₃ := by
  refine ⟨h'.gRnti.trans h.gRnti,h'.configured ∘ h.configured,?_⟩
  intro k ue hget
  obtain ⟨ue₂,hget₂,hstate₂,hrnti₂⟩ := h.ues k ue hget
  obtain ⟨ue₃,hget₃,hstate₃,hrnti₃⟩ := h'.ues k ue₂ hget₂
  rw [h.gRnti] at hrnti₃
  exact ⟨ue₃,hget₃,hstate₃ ∘ hstate₂,hrnti₃ ∘ hrnti₂⟩

theorem connectUe_kept (rrc : RrcLayer) (u : Int) : rrc.Kept (rrc.connectUe u).2 := by
  refine ⟨connectUe_groupGRnti rrc u,?_,?_⟩
  · rw [connectUe_multicastConfigured]
    exact id
  · intro k ue hget
    rw [connectUe_get?]
    by_cases hk : k = u
    · subst hk
      rw [if_pos rfl,hget]
      exact ⟨_,rfl,fun _ => rfl,id⟩
    · rw [if_neg hk]
      exact ⟨ue,hget,id,id⟩

theorem joinGroup_kept (rrc : RrcLayer) (u : Int) : rrc.Kept (rrc.joinGroup u) := by
  refine ⟨joinGroup_groupGRnti rrc u,?_,?_⟩
  · rw [joinGroup_multicastConfigured]
    exact id
  · intro k ue hget
    rw [joinGroup_get?]
    by_cases hk : k = u
    · subst hk
      rw [if_pos rfl,hget]
      exact ⟨_,rfl,id,fun _ => rfl⟩
    · rw [if_neg hk]
      exact ⟨ue,hget,id,id⟩

theorem foldl_kept {step : RrcLayer → Int → RrcLayer}
    (hstep : ∀ (rrc : RrcLayer) (u : Int),rrc.Kept (step rrc u)) (ueIds : List Int) (rrc : RrcLayer) : rrc.Kept (ueIds.foldl step rrc) :=
  List.foldlRecOn (motive := rrc.Kept) ueIds step (Kept.refl rrc)
    (fun r h u _ => h.trans (hstep r u))

theorem configureMulticastGroup_kept (rrc : RrcLayer) (ueIds : List Int) :
    rrc.Kept (rrc.configureMulticastGroup ueIds).2 := by
  cases hflag : rrc.multicastConfigured with
  | true =>
    rw [configureMulticastGroup_again hflag]
    exact Kept.refl rrc
  | false =>
    have hjoined := foldl_kept joinGroup_kept (ueIds.takeWhile rrc.connected) rrc
    rw [configureMulticastGroup_eq hflag]
    refine ⟨hjoined.gRnti,?_,hjoined.ues⟩
    intro htrue
    rw [hflag] at htrue
    exact nomatch htrue

theorem Kept.of_forgetAck {rrc rrc' : RrcLayer} (hgroup : rrc'.groupGRnti = rrc.groupGRnti)
    (hflag : rrc'.multicastConfigured = rrc.multicastConfigured)
    (hues : ∀ k,(rrc'.ues.get? k).map Ue.forgetAck = (rrc.ues.get? k).map Ue.forgetAck) :
    rrc.Kept rrc' := by
  refine ⟨hgroup,?_,?_⟩
  · rw [hflag]
    exact id
  · intro k ue hget
    obtain ⟨ue',hget',hforget⟩ := get?_congr (fun q => (hues q).symm) hget
    have hrnti : ue'.forgetAck.gRnti = ue.forgetAck.gRnti := congrArg Ue.gRnti hforget
    have hstate : ue'.forgetAck.rrcState = ue.forgetAck.rrcState := congrArg Ue.rrcState hforget
    exact ⟨ue',hget',hstate.trans,hrnti.trans⟩

end RrcLayer

namespace GnbSimulator

structure Invariant (g : GnbSimulator) : Prop where
  rrc : g.rrc.Invariant
  blocks : g.mac.resourceBlocks = 100
  slot : g.mac.slotNumber = g.packetCounter

theorem init_invariant : init.Invariant where
  rrc := ⟨fun _ _ hget => (nomatch hget),rfl,fun _ _ hget => (nomatch hget)⟩
  blocks := rfl
  slot := rfl

theorem serve_invariant (outcome : Nat → Bool) {g : GnbSimulator} (h : g.Invariant)
    (call : GnbCall) : (g.serve outcome call).2.Invariant := by
  cases call with
  | connectUe u => exact ⟨h.rrc.connectUe u,h.blocks,h.slot⟩
  | configureMulticastGroup ueIds =>
    exact ⟨h.rrc.configureMulticastGroup ueIds,h.blocks,h.slot⟩
  | setupMulticastGroup ueIds =>
    exact ⟨(h.rrc.connectAll ueIds).configureMulticastGroup ueIds,h.blocks,h.slot⟩
  | sendMulticastPacket data size =>
    have hgroup : (g.sendMulticastPacket outcome data size).2.rrc.groupGRnti =
        g.rrc.groupGRnti := by rw [sendMulticastPacket_rrc]
    have hues := sendMulticastPacket_ues outcome g data size
    have hsend := sendMulticastPacket_eq outcome h.blocks data size
    refine ⟨h.rrc.congr hgroup hues,?_,?_⟩
    · exact sendMulticastPacket_blocks outcome h.blocks data size
    · simp only [serve,hsend,h.slot]

theorem serve_kept (outcome : Nat → Bool) (g : GnbSimulator) (call : GnbCall) :
    g.rrc.Kept (g.serve outcome call).2.rrc := by
  cases call with
  | connectUe u => exact RrcLayer.connectUe_kept g.rrc u
  | configureMulticastGroup ueIds => exact RrcLayer.configureMulticastGroup_kept g.rrc ueIds
  | setupMulticastGroup ueIds =>
    have hconnected := RrcLayer.foldl_kept RrcLayer.connectUe_kept ueIds g.rrc
    exact hconnected.trans (RrcLayer.configureMulticastGroup_kept _ ueIds)
  | sendMulticastPacket data size =>
    refine RrcLayer.Kept.of_forgetAck ?_ ?_ (sendMulticastPacket_ues outcome g data size)
    · exact congrArg (fun rrc => rrc.groupGRnti) (sendMulticastPacket_rrc outcome g data size)
    · exact congrArg (fun rrc => rrc.multicastConfigured)
        (sendMulticastPacket_rrc outcome g data size)

theorem inGroup_connected {g : GnbSimulator} (h : g.Invariant) {u : Int} (hu : g.rrc.InGroup u) :
    g.rrc.connected u = true := by
  obtain ⟨ue,hget,hgroup⟩ := hu
  have hstate := (h.rrc.fits u ue hget).2 hgroup
  simp [RrcLayer.connected,hget,hstate]

theorem send_other (outcome : Nat → Bool) {g : GnbSimulator} (h : g.Invariant) (data : String)
    (size : Int) {u : Int} (hu : ¬ g.rrc.InGroup u) :
    (g.sendMulticastPacket outcome data size).2.rrc.ues.get? u = g.rrc.ues.get? u := by
  rw [sendMulticastPacket_eq outcome h.blocks]
  refine PhyLayer.foldl_receive_other outcome g.multicastUes ⟨∅,g.rrc.ues,g.draws⟩ ?_
  intro hmem
  obtain ⟨⟨k,ue⟩,hentry,rfl⟩ := List.mem_map.mp hmem
  exact hu ⟨ue,mem_multicastUes.mp hentry⟩

/-- After any calls the state is sound, the MAC has room for every packet, later
calls take nothing back, and a packet goes to connected UEs and leaves the entries
of all others as they are. -/
theorem reachable_invariant (outcome : Nat → Bool) (before later : List GnbCall) :
    let g := after (serve outcome) init before
    g.Invariant ∧ (∀ packet,(g.mac.scheduleMulticast packet).1 = true) ∧
    g.rrc.Kept (after (serve outcome) g later).rrc ∧
    ∀ data size,
      let sent := g.sendMulticastPacket outcome data size
      sent.1.packet.isSome = true ∧
      (∀ u ∈ sent.1.results,g.rrc.connected u = true) ∧
      ∀ u,¬ g.rrc.InGroup u → sent.2.rrc.ues.get? u = g.rrc.ues.get? u := by
  intro g
  have hg : g.Invariant := after_inv (I := Invariant) (serve outcome)
    (fun _ call h => serve_invariant outcome h call) init_invariant before
  have hkept : g.rrc.Kept (after (serve outcome) g later).rrc :=
    after_rel (R := fun s s' => s.rrc.Kept s'.rrc) (serve outcome)
      (fun s => RrcLayer.Kept.refl s.rrc) RrcLayer.Kept.trans (serve_kept outcome) g later
  refine ⟨hg,?_,hkept,?_⟩
  · intro packet
    simp [MacLayer.scheduleMulticast,hg.blocks]
  · intro data size
    refine ⟨?_,?_,?_⟩
    · rw [sendMulticastPacket_eq outcome hg.blocks]
      rfl
    · intro u hu
      exact inGroup_connected hg
        ((mem_sent_results hg.rrc.keyed hg.blocks outcome data size u).mp hu)
    · intro u hu
      exact send_other outcome hg data size hu

end GnbSimulator
end GrpKeySec
