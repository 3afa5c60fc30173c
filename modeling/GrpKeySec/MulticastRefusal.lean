import GrpKeySec.Multicast
set_option autoImplicit false

/-! What a group configuration that is refused leaves behind, by itself and inside a setup. -/

namespace GrpKeySec

def Ue.forgetGRnti (ue : Ue) : Ue := { ue with gRnti := 0 }

namespace RrcLayer

/-- The states differ in the G-RNTIs of the given UEs at most. -/
structure SameBut (ueIds : List Int) (rrc rrc' : RrcLayer) : Prop where
  keys : rrc'.ues.keys = rrc.ues.keys
  ues : ∀ k,(rrc'.ues.get? k).map Ue.forgetGRnti = (rrc.ues.get? k).map Ue.forgetGRnti
  others : ∀ k,k ∉ ueIds → rrc'.ues.get? k = rrc.ues.get? k
  groupGRnti : rrc'.groupGRnti = rrc.groupGRnti
  multicastConfigured : rrc'.multicastConfigured = rrc.multicastConfigured

theorem SameBut.refl {ueIds : List Int} {rrc : RrcLayer} : SameBut ueIds rrc rrc where
  keys := Eq.refl _
  ues := fun _ => Eq.refl _
  others := fun _ _ => Eq.refl _
  groupGRnti := Eq.refl _
  multicastConfigured := Eq.refl _

theorem foldl_joinGroup_sameBut (ueIds : List Int) (rrc : RrcLayer) :
    SameBut ueIds rrc (ueIds.foldl joinGroup rrc) where
  keys := foldl_keeps (fun rrc => rrc.ues.keys) joinGroup_keys rrc ueIds
  ues := by
    intro k
    rw [foldl_joinGroup_get?]
    by_cases hk : k ∈ ueIds
    · rw [if_pos hk,Option.map_map]
      rfl
    · rw [if_neg hk]
  others := fun k hk => (foldl_joinGroup_get? ueIds rrc k).trans (if_neg hk)
  groupGRnti := foldl_joinGroup_groupGRnti ueIds rrc
  multicastConfigured := foldl_joinGroup_multicastConfigured ueIds rrc

theorem configureMulticastGroup_refused {rrc : RrcLayer} {ueIds : List Int}
    (h : rrc.multicastConfigured = false) (hrefused : (rrc.configureMulticastGroup ueIds).1 = false) :
    (rrc.configureMulticastGroup ueIds).2 = (ueIds.takeWhile rrc.connected).foldl joinGroup rrc := by
  have hflag := foldl_joinGroup_multicastConfigured (ueIds.takeWhile rrc.connected) rrc
  rw [configureMulticastGroup_eq h] at hrefused ⊢
  simp only at hrefused ⊢
  rw [hrefused,← h,← hflag]

theorem configureMulticastGroup_sameBut {rrc : RrcLayer} {ueIds : List Int}
    (hrefused : (rrc.configureMulticastGroup ueIds).1 = false) :
    SameBut (ueIds.takeWhile rrc.connected) rrc (rrc.configureMulticastGroup ueIds).2 := by
  cases hflag : rrc.multicastConfigured with
  | true =>
    rw [configureMulticastGroup_again hflag]
    exact .refl
  | false =>
    rw [configureMulticastGroup_refused hflag hrefused]
    exact foldl_joinGroup_sameBut _ rrc

theorem configureMulticastGroup_unchanged {rrc : RrcLayer} {ueIds : List Int}
    (hrefused : (rrc.configureMulticastGroup ueIds).1 = false)
    (h : rrc.multicastConfigured = true ∨ ueIds.takeWhile rrc.connected = []) :
    (rrc.configureMulticastGroup ueIds).2 = rrc := by
  cases hflag : rrc.multicastConfigured with
  | true => rw [configureMulticastGroup_again hflag]
  | false =>
    rw [hflag] at h
    obtain hset | hfirst := h
    · exact nomatch hset
    · rw [configureMulticastGroup_refused hflag hrefused,hfirst]
      rfl

theorem connectUe_of_connected {rrc : RrcLayer} {u : Int} (h : rrc.connected u = true) :
    (rrc.connectUe u).2 = rrc := by
  cases hu : rrc.ues.get? u with
  | none => simp [connected,hu] at h
  | some ue =>
    have hstate : ue.rrcState = .connected := by simpa [connected,hu] using h
    simp [connectUe,hu,hstate,Dict.mem_of_get? hu]

theorem connectAll_of_connected (ueIds : List Int) {rrc : RrcLayer}
    (h : ∀ u ∈ ueIds,rrc.connected u = true) : rrc.connectAll ueIds = rrc := by
  induction ueIds with
  | nil => rfl
  | cons u rest ih =>
    have hu := connectUe_of_connected (h u List.mem_cons_self)
    have hrest := ih (fun v hv => h v (List.mem_cons_of_mem u hv))
    unfold connectAll at hrest ⊢
    rw [List.foldl_cons,hu,hrest]

theorem connectAll_eq_self_iff (ueIds : List Int) (rrc : RrcLayer) :
    rrc.connectAll ueIds = rrc ↔ ∀ u ∈ ueIds,rrc.connected u = true := by
  constructor
  · intro h u hu
    have hconnected := connectAll_connected ueIds rrc u
    simpa [h,hu] using hconnected
  · exact connectAll_of_connected ueIds

end RrcLayer

namespace GnbSimulator

/-- All listed UEs are connected by then, so only an existing group is in the way. -/
theorem setupMulticastGroup_eq (g : GnbSimulator) (ueIds : List Int) :
    (g.setupMulticastGroup ueIds).1 = !g.rrc.multicastConfigured ∧
    (g.rrc.multicastConfigured = true →
      (g.setupMulticastGroup ueIds).2 = { g with rrc := g.rrc.connectAll ueIds }) := by
  have hkeep := RrcLayer.connectAll_multicastConfigured ueIds g.rrc
  unfold setupMulticastGroup
  cases hflag : g.rrc.multicastConfigured with
  | true =>
    rw [hflag] at hkeep
    simp [RrcLayer.configureMulticastGroup_again hkeep]
  | false =>
    rw [hflag] at hkeep
    have hall : ueIds.all (g.rrc.connectAll ueIds).connected = true := by
      rw [List.all_eq_true]
      intro u hu
      simp [RrcLayer.connectAll_connected,hu]
    simp [RrcLayer.configureMulticastGroup_eq hkeep,hall]

/-- A refused configuration touches the G-RNTIs of listed UEs at most, and nothing when
the group exists. A refused setup has connected the listed UEs, and done no more. -/
theorem refused_keeps (g : GnbSimulator) (ueIds : List Int) :
    ((g.rrc.configureMulticastGroup ueIds).1 = false →
      g.rrc.SameBut (ueIds.takeWhile g.rrc.connected) (g.rrc.configureMulticastGroup ueIds).2 ∧
      (g.rrc.multicastConfigured = true ∨ ueIds.takeWhile g.rrc.connected = [] →
        (g.rrc.configureMulticastGroup ueIds).2 = g.rrc)) ∧
    ((g.setupMulticastGroup ueIds).1 = false →
      g.rrc.multicastConfigured = true ∧
      (∀ k,(g.setupMulticastGroup ueIds).2.rrc.ues.get? k =
        if k ∈ ueIds then
          some { (g.rrc.ues.get? k).getD ⟨k,.idle,0,false⟩ with rrcState := .connected }
        else g.rrc.ues.get? k) ∧
      (g.setupMulticastGroup ueIds).2 =
        { g with rrc := { g.rrc with ues := (g.setupMulticastGroup ueIds).2.rrc.ues } } ∧
      ((g.setupMulticastGroup ueIds).2 = g ↔ ∀ u ∈ ueIds,g.rrc.connected u = true)) := by
  constructor
  · intro hrefused
    exact ⟨RrcLayer.configureMulticastGroup_sameBut hrefused,
      RrcLayer.configureMulticastGroup_unchanged hrefused⟩
  · intro hrefused
    obtain ⟨hresult,hstate⟩ := g.setupMulticastGroup_eq ueIds
    have hflag : g.rrc.multicastConfigured = true := by simpa [hresult] using hrefused
    rw [hstate hflag]
    refine ⟨hflag,RrcLayer.connectAll_get? ueIds g.rrc,?_,?_⟩
    · have hgroup := RrcLayer.connectAll_groupGRnti ueIds g.rrc
      have hconfigured := RrcLayer.connectAll_multicastConfigured ueIds g.rrc
      simp only [← hgroup,← hconfigured]
    · rw [← RrcLayer.connectAll_eq_self_iff]
      cases g
      simp

theorem refused_setup_connects :
    (((init.setupMulticastGroup [1]).2.setupMulticastGroup [2]).1 = false ∧
      ((init.setupMulticastGroup [1]).2.setupMulticastGroup [2]).2 ≠
        (init.setupMulticastGroup [1]).2) ∧
    ((RrcLayer.init.connectUe 1).2.configureMulticastGroup [1,2]).1 = false ∧
      ((RrcLayer.init.connectUe 1).2.configureMulticastGroup [1,2]).2 ≠
        (RrcLayer.init.connectUe 1).2 := by
  decide

end GnbSimulator
end GrpKeySec
