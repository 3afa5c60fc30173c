import GrpKeySec.CellSimulation
set_option autoImplicit false

/-!
What the script of physicalLayerModeling.m says about its runs, for every draw of its random
numbers, with the real functions: who is served, the range of its figures, and when its
report follows from the parameters alone.
-/

namespace GrpKeySec.PhysicalLayer
open UniMulBro

theorem calculatePathLoss_mono (p : CellParams Real) :
    Monotone (calculatePathLoss CellMaths.real p) := by
  intro d d' h
  have hpos : (0 : Real) < max (d / 1000) 0.001 := lt_max_of_lt_right (by norm_num)
  have hle : max (d / 1000) (0.001 : Real) ≤ max (d' / 1000) 0.001 :=
    max_le_max (by linarith) le_rfl
  have hlog := Real.logb_le_logb_of_le (b := 10) (by norm_num) hpos hle
  simp only [calculatePathLoss,CellMaths.real,Maths.real]
  linarith

theorem calculateSINR_mono {K : Type} [Field K] [LinearOrder K] [IsStrictOrderedRing K]
    (f : Maths K) (p : SimParams K) : Monotone (calculateSINR f p) := by
  intro g g' h
  simp only [calculateSINR]
  linarith

theorem Demand.bitratePerRB_pos {p : SimParams Real} (q : Demand Maths.real p) :
    0 < q.bitratePerRB :=
  mul_pos (spectralEfficiency_real_pos q.sinr) (rbBandwidth_pos p)

theorem Demand.requiredRBs_mono {p : SimParams Real} {q q' : Demand Maths.real p}
    (hsinr : q'.sinr ≤ q.sinr) (hrate : q.bitrate ≤ q'.bitrate) :
    q.requiredRBs ≤ q'.requiredRBs := by
  have hle : q'.bitratePerRB ≤ q.bitratePerRB :=
    mul_le_mul_of_nonneg_right (spectralEfficiency_real_monotone hsinr) (rbBandwidth_pos p).le
  have hpos := q'.bitratePerRB_pos
  refine max_le_max le_rfl ?_
  by_cases hneg : q.bitrate ≤ 0
  · rw [Nat.ceil_eq_zero.mpr (div_nonpos_of_nonpos_of_nonneg hneg (hpos.le.trans hle))]
    exact Nat.zero_le _
  · refine Nat.ceil_le_ceil ?_
    exact div_le_div₀ (by linarith) hrate hpos hle

namespace Draws

variable (p : CellParams Real) {numUEs : Nat} (w : Draws Real numUEs)

theorem distance_mono {ue ue' : Fin numUEs} (h : w.radius ue ≤ w.radius ue') :
    w.distance CellMaths.real p ue ≤ w.distance CellMaths.real p ue' := by
  have hle := mul_le_mul_of_nonneg_right (Real.sqrt_le_sqrt h) (sub_nonneg.mpr p.distance_le)
  simp only [distance,CellMaths.real]
  linarith

theorem distance_le (ue : Fin numUEs) : w.distance CellMaths.real p ue ≤ p.maxDistance := by
  have hsqrt : Real.sqrt (w.radius ue) ≤ 1 := Real.sqrt_le_one.mpr (w.radius_mem ue).2.le
  have hle := mul_le_mul_of_nonneg_right hsqrt (sub_nonneg.mpr p.distance_le)
  simp only [distance,CellMaths.real]
  linarith

theorem requiredBitrate_le (ue : Fin numUEs) : w.requiredBitrate p ue ≤ p.maxBitrate := by
  have hle := mul_le_mul_of_nonneg_left (w.bitrate_mem ue).2.le (sub_nonneg.mpr p.bitrate_le)
  simp only [requiredBitrate]
  linarith

end Draws

section OneBlock

variable {K : Type} [Field K] [LinearOrder K] [FloorRing K] {f : Maths K} {p : SimParams K}

namespace Schedule

variable {ι : Type} {S : Schedule f p ι}

def OneBlock (S : Schedule f p ι) : Prop := ∀ i ∈ S.order,S.Eligible i ∧ S.cost i = 1

theorem OneBlock.served_eq (h : S.OneBlock) : S.served = S.order.take p.numResourceBlocks := by
  have hall : S.eligible = S.order := List.filter_eq_self.mpr (by simpa using fun i hi => (h i hi).1)
  rw [S.served_eq_greedy,hall,Greedy.served_const _ one_pos _ _ (fun i hi => (h i hi).2),Nat.div_one]

theorem OneBlock.rbsUsed_eq (h : S.OneBlock) :
    S.run.rbsUsed = min p.numResourceBlocks S.order.length := by
  have hcost : ∀ i ∈ S.served,S.cost i = 1 := fun i hi => (h i (S.served_sublist.subset hi)).2
  rw [S.run_rbsUsed,Greedy.total_const _ _ hcost,mul_one,h.served_eq,List.length_take]

end Schedule

variable {d : UeData K}

theorem simulateUnicast_of_oneBlock (h : (unicast d f p).OneBlock) :
    (simulateUnicast d f p).rbsUsed = min p.numResourceBlocks d.numUEs ∧
      (simulateUnicast d f p).servedUEs = min p.numResourceBlocks d.numUEs := by
  have hlen : (unicast d f p).order.length = d.numUEs := List.length_finRange
  refine ⟨h.rbsUsed_eq.trans (by rw [hlen]),(Schedule.run_servedUEs _).trans ?_⟩
  rw [total_unicast_size,h.served_eq,List.length_take,hlen]

theorem simulateMulticast_of_oneBlock (h : (multicast d f p).OneBlock) :
    (simulateMulticast d f p).rbsUsed = min p.numResourceBlocks d.uniqueGroups.length ∧
      (d.uniqueGroups.length ≤ p.numResourceBlocks →
        (simulateMulticast d f p).servedUEs = d.numUEs) := by
  refine ⟨h.rbsUsed_eq,fun hfit => (multicast_serves_all_iff d f p).mpr ?_⟩
  rw [h.served_eq]
  exact List.take_of_length_le hfit

def UeData.Within (d : UeData K) (q : Demand f p) : Prop :=
  ∀ ue,q.sinr ≤ d.sinr f p ue ∧ d.requiredBitrate ue ≤ q.bitrate

end OneBlock

/-- The UE at the rim of the cell, with the largest bitrate and the given fading. -/
def CellParams.edge {K : Type} [Field K] [LinearOrder K] (f : CellMaths K) (p : CellParams K)
    (fading : K) : Demand f.toMaths p.toSimParams where
  sinr := calculateSINR f.toMaths p.toSimParams (-calculatePathLoss f p p.maxDistance + fading)
  bitrate := p.maxBitrate
  members := 1

section Edge

variable {p : SimParams Real} {q : Demand Maths.real p} (hq : q.Eligible) (hone : q.requiredRBs = 1)
include hq hone

theorem Demand.oneBlock_of_better (q' : Demand Maths.real p) (hsinr : q.sinr ≤ q'.sinr)
    (hrate : q'.bitrate ≤ q.bitrate) : q'.Eligible ∧ q'.requiredRBs = 1 := by
  have hle := Demand.requiredRBs_mono hsinr hrate
  have hpos := q'.requiredRBs_pos
  exact ⟨not_lt.mpr ((not_lt.mp hq).trans hsinr),by omega⟩

variable {d : UeData Real} (hd : d.Within q)
include hd

theorem unicast_oneBlock : (unicast d Maths.real p).OneBlock := by
  intro ue _
  obtain ⟨hsinr,hrate⟩ := hd ue
  obtain ⟨he,hcost⟩ := Demand.oneBlock_of_better hq hone ⟨d.sinr Maths.real p ue,_,1⟩ hsinr hrate
  exact ⟨⟨_,rfl,he⟩,hcost⟩

theorem multicast_oneBlock : (multicast d Maths.real p).OneBlock := by
  intro group hgroup
  obtain ⟨q',hq'⟩ := exists_multicast_demand d Maths.real p hgroup
  obtain ⟨hworst,hmax,-⟩ := (multicast_demand_eq_some d Maths.real p).mp hq'
  obtain ⟨ue,-,hsinr⟩ := ((d.worstSINR_eq_some Maths.real p).mp hworst).1
  obtain ⟨ue',-,hrate⟩ := (d.maxRequiredBitrate_eq_some.mp hmax).1
  obtain ⟨he,hcost⟩ := Demand.oneBlock_of_better hq hone q' (hsinr ▸ (hd ue).1) (hrate ▸ (hd ue').2)
  exact ⟨⟨q',hq',he⟩,(Schedule.cost_of_mem _ hq').trans hcost⟩

end Edge

theorem mean_eq {n : Nat} (hn : 0 < n) {v : Fin n → Real} {c : Real} (h : ∀ i,v i = c) :
    mean v = c := by
  rw [funext h,mean_const hn]

/-- The figures of a point where every UE, and so every group, takes one block. -/
structure Point.OneBlockEach (pt : Point Real) (p : CellParams Real) : Prop where
  unicastRBs : pt.unicast.bandwidth = (min p.numResourceBlocks pt.numUEs : Nat)
  unicastUEs : pt.unicast.servedUEs = (min p.numResourceBlocks pt.numUEs : Nat)
  multicastRBs : pt.multicast.bandwidth =
    (min p.numResourceBlocks (numGroups p.toSimParams pt.numUEs) : Nat)
  multicastUEs : numGroups p.toSimParams pt.numUEs ≤ p.numResourceBlocks →
    pt.multicast.servedUEs = pt.numUEs

section Strong

variable {p : CellParams Real} {fading : Real} (hedge : (p.edge CellMaths.real fading).Eligible)
  (hone : (p.edge CellMaths.real fading).requiredRBs = 1)

theorem Draws.within_edge {numUEs : Nat} (w : Draws Real numUEs)
    (hw : ∀ ue,fading ≤ p.shadowFading * w.fading ue) :
    (w.scenario CellMaths.real p).Within (p.edge CellMaths.real fading) := by
  intro ue
  refine ⟨calculateSINR_mono Maths.real p.toSimParams ?_,w.requiredBitrate_le p ue⟩
  have hloss := calculatePathLoss_mono p (w.distance_le p ue)
  have hf := hw ue
  simp only [Draws.scenario,generateUEScenario,Draws.channelGain]
  linarith

include hedge hone

theorem simulatePoint_oneBlockEach {numUEs : Nat} (hn : 1 ≤ numUEs)
    (draws : Fin p.numIterations → Draws Real numUEs)
    (hdraws : ∀ iter ue,fading ≤ p.shadowFading * (draws iter).fading ue) :
    (simulatePoint CellMaths.real p draws).OneBlockEach p := by
  have hunicast := fun iter =>
    simulateUnicast_of_oneBlock (unicast_oneBlock hedge hone ((draws iter).within_edge (hdraws iter)))
  have hmulticast := fun iter => simulateMulticast_of_oneBlock
    (multicast_oneBlock hedge hone ((draws iter).within_edge (hdraws iter)))
  have hgroups : ∀ iter,((draws iter).scenario CellMaths.real p).uniqueGroups.length =
      numGroups p.toSimParams numUEs := fun iter =>
    (scenario_dealt p.toSimParams numUEs _ _).length_uniqueGroups (numGroups_pos p.toSimParams numUEs)
      (numGroups_le p.toSimParams hn)
  constructor
  · exact mean_eq p.iterations_pos (fun iter => congrArg Nat.cast (hunicast iter).1)
  · exact mean_eq p.iterations_pos (fun iter => congrArg Nat.cast (hunicast iter).2)
  · refine mean_eq p.iterations_pos (fun iter => congrArg Nat.cast ?_)
    exact (hgroups iter) ▸ (hmulticast iter).1
  · intro hfit
    refine mean_eq p.iterations_pos (fun iter => congrArg Nat.cast ?_)
    exact (hmulticast iter).2 ((hgroups iter).trans_le hfit)

end Strong

theorem log10_le_of_le {x y : Real} (hx : 0 < x) (h : x ≤ 10 ^ y) : Maths.real.log10 x ≤ y :=
  (Real.logb_le_iff_le_rpow (by norm_num) hx).mpr h

theorem cell_edge_sinr : 40 ≤ ((cellParams Real).edge CellMaths.real (-55)).sinr := by
  have hcarrier : Maths.real.log10 (3.5e9 / 1e9) ≤ 1 := log10_le_of_le (by norm_num) (by norm_num)
  have hrim : Maths.real.log10 (max (500 / 1000) 0.001) ≤ 0 :=
    log10_le_of_le (lt_max_of_lt_right (by norm_num)) (by norm_num)
  have hnoise : Maths.real.log10 (15e3 * (12 : Nat)) ≤ 6 :=
    log10_le_of_le (by norm_num) (by norm_num)
  simp only [CellParams.edge,calculateSINR,calculatePathLoss,rbBandwidth,cellParams,scriptParams,
    CellMaths.real]
  linarith

theorem cell_edge_eligible : ((cellParams Real).edge CellMaths.real (-55)).Eligible := by
  have hsinr := cell_edge_sinr
  refine not_lt.mpr ?_
  linarith

theorem le_spectralEfficiency_real {sinr : Real} (h : 40 ≤ sinr) :
    13 ≤ calculateSpectralEfficiency Maths.real sinr := by
  have hpow : (10 : Real) ^ (4 : Real) ≤ 10 ^ (sinr / 10) :=
    Real.rpow_le_rpow_of_exponent_le (by norm_num) (by linarith)
  have hthousands : (10 : Real) ^ (4 : Real) = 10000 := by norm_num
  have htwo : (2 : Real) ^ (13 : Real) = 8192 := by norm_num
  simp only [calculateSpectralEfficiency,Maths.real]
  rw [Real.le_logb_iff_rpow_le one_lt_two (by linarith),htwo]
  linarith

theorem cell_edge_one_block :
    ((cellParams Real).edge CellMaths.real (-55)).requiredRBs = 1 := by
  have heff : 13 ≤ ((cellParams Real).edge CellMaths.real (-55)).spectralEff :=
    le_spectralEfficiency_real cell_edge_sinr
  have hpos := Demand.bitratePerRB_pos ((cellParams Real).edge CellMaths.real (-55))
  have hrate : (2e6 : Real) ≤ ((cellParams Real).edge CellMaths.real (-55)).bitratePerRB := by
    have hband : rbBandwidth (cellParams Real).toSimParams = 180000 := by
      norm_num [rbBandwidth,cellParams,scriptParams]
    rw [Demand.bitratePerRB,hband]
    norm_num
    linarith
  refine max_eq_left (Nat.ceil_le.mpr ?_)
  rw [Nat.cast_one]
  exact (div_le_one hpos).mpr hrate

noncomputable def spreadDraws (numUEs : Nat) : Draws Real numUEs where
  radius ue := (ue.val + 1) / (numUEs + 1)
  fading _ := 0
  bitrate _ := 0.5
  radius_mem ue := by
    have hlt : (ue.val : Real) < numUEs := Nat.cast_lt.mpr ue.isLt
    have hpos : (0 : Real) < numUEs + 1 := by positivity
    exact ⟨by positivity,(div_lt_one hpos).mpr (by linarith)⟩
  bitrate_mem _ := by norm_num

theorem spreadDraws_within (numUEs : Nat) :
    ((spreadDraws numUEs).scenario CellMaths.real (cellParams Real)).Within
      ((cellParams Real).edge CellMaths.real (-55)) :=
  (spreadDraws numUEs).within_edge (by norm_num [spreadDraws])

theorem unicast_served_of_earlier (d : UeData Real) (p : SimParams Real) {ue ue' : Fin d.numUEs}
    (hbefore : ue ≤ ue') (hsinr : d.sinr Maths.real p ue' ≤ d.sinr Maths.real p ue)
    (hrate : d.requiredBitrate ue ≤ d.requiredBitrate ue')
    (hserved : ue' ∈ (unicast d Maths.real p).served) :
    ue ∈ (unicast d Maths.real p).served ∧
      (unicast d Maths.real p).cost ue ≤ (unicast d Maths.real p).cost ue' := by
  have hcost : (unicast d Maths.real p).cost ue ≤ (unicast d Maths.real p).cost ue' :=
    Demand.requiredRBs_mono hsinr hrate
  have he := (unicast d Maths.real p).eligible_of_served hserved
  rw [unicast_eligible_iff] at he
  have hmem : ue ∈ (unicast d Maths.real p).eligible :=
    (Schedule.mem_eligible _).mpr ⟨List.mem_finRange ue,
      (unicast_eligible_iff d Maths.real p ue).mpr (he.trans hsinr)⟩
  have horder : (unicast d Maths.real p).eligible.Pairwise (· < ·) :=
    (List.pairwise_lt_finRange d.numUEs).filter _
  rw [Schedule.served_eq_greedy] at hserved ⊢
  exact ⟨Greedy.mem_served_of_earlier _ horder hmem (not_lt.mpr hbefore) hcost hserved,hcost⟩

/-- No UE is passed over for one that comes after it, is farther away, fades no less and asks
for no less: if unicast serves the other, it serves this one too, with no more blocks. -/
theorem nearer_ue_served (p : CellParams Real) {numUEs : Nat} (w : Draws Real numUEs)
    {ue ue' : Fin numUEs} (hbefore : ue ≤ ue')
    (hdistance : w.distance CellMaths.real p ue ≤ w.distance CellMaths.real p ue')
    (hfading : p.shadowFading * w.fading ue' ≤ p.shadowFading * w.fading ue)
    (hrate : w.requiredBitrate p ue ≤ w.requiredBitrate p ue')
    (hserved : ue' ∈ (unicast (w.scenario CellMaths.real p) Maths.real p.toSimParams).served) :
    ue ∈ (unicast (w.scenario CellMaths.real p) Maths.real p.toSimParams).served ∧
      (unicast (w.scenario CellMaths.real p) Maths.real p.toSimParams).cost ue ≤
        (unicast (w.scenario CellMaths.real p) Maths.real p.toSimParams).cost ue' := by
  have hgain : w.channelGain CellMaths.real p ue' ≤ w.channelGain CellMaths.real p ue := by
    have hloss := calculatePathLoss_mono p hdistance
    simp only [Draws.channelGain]
    linarith
  exact unicast_served_of_earlier (w.scenario CellMaths.real p) p.toSimParams hbefore
    (calculateSINR_mono Maths.real p.toSimParams hgain) hrate hserved

theorem nearer_ue_served_two :
    (1 : Fin 2) ∈ (unicast ((spreadDraws 2).scenario CellMaths.real (cellParams Real)) Maths.real
        (cellParams Real).toSimParams).served ∧
      (0 : Fin 2) ∈ (unicast ((spreadDraws 2).scenario CellMaths.real (cellParams Real)) Maths.real
        (cellParams Real).toSimParams).served := by
  have hserved : (1 : Fin 2) ∈ (unicast ((spreadDraws 2).scenario CellMaths.real (cellParams Real))
      Maths.real (cellParams Real).toSimParams).served := by
    rw [(unicast_oneBlock cell_edge_eligible cell_edge_one_block (spreadDraws_within 2)).served_eq]
    exact List.mem_cons_of_mem _ List.mem_cons_self
  have hradius : (spreadDraws 2).radius 0 ≤ (spreadDraws 2).radius 1 := by norm_num [spreadDraws]
  have hbefore : (0 : Fin 2) ≤ 1 := by decide
  exact ⟨hserved,(nearer_ue_served (cellParams Real) (spreadDraws 2) hbefore
    ((spreadDraws 2).distance_mono (cellParams Real) hradius) le_rfl le_rfl hserved).1⟩

namespace CellParams

variable {K : Type} [Field K] [LinearOrder K] (p : CellParams K)

def lastUEs : Nat := p.maxUEs / p.ueStep * p.ueStep

variable {p}

theorem mem_numUERange {numUEs : Nat} (h : numUEs ∈ p.numUERange) :
    1 ≤ numUEs ∧ numUEs ≤ p.lastUEs := by
  obtain ⟨idx,hidx,rfl⟩ := List.mem_map.mp h
  rw [List.mem_range] at hidx
  have hstep : 0 < p.ueStep := by
    by_contra hzero
    simp [Nat.eq_zero_of_not_pos hzero] at hidx
  exact ⟨Nat.mul_pos idx.succ_pos hstep,Nat.mul_le_mul_right _ hidx⟩

theorem lastUEs_mem (h : p.numUERange ≠ []) : p.lastUEs ∈ p.numUERange := by
  have hlen : 0 < p.maxUEs / p.ueStep := by
    by_contra hzero
    exact h (by simp [numUERange,Nat.eq_zero_of_not_pos hzero])
  refine List.mem_map.mpr ⟨p.maxUEs / p.ueStep - 1,List.mem_range.mpr (by omega),?_⟩
  rw [Nat.sub_add_cancel hlen]
  rfl

end CellParams

theorem mem_simulate {K : Type} [Field K] [LinearOrder K] [FloorRing K] {f : CellMaths K}
    {p : CellParams K} {draws : (numUEs : Nat) → Fin p.numIterations → Draws K numUEs}
    {pt : Point K} :
    pt ∈ simulate f p draws ↔
      ∃ numUEs ∈ p.numUERange,simulatePoint f p (draws numUEs) = pt :=
  List.mem_map

theorem numGroups_mono {K : Type} [Field K] [LinearOrder K] [IsStrictOrderedRing K] [FloorRing K]
    (p : SimParams K) : Monotone (numGroups p) := by
  intro n n' h
  refine max_le_max le_rfl (Nat.ceil_le_ceil ?_)
  exact div_le_div_of_nonneg_right (Nat.cast_le.mpr h) (groupSize_pos p).le

theorem max?_map_of_le {α : Type} {l : List α} (value : α → Real) {a : α} (ha : a ∈ l)
    (h : ∀ b ∈ l,value b ≤ value a) : (l.map value).max? = some (value a) := by
  rw [List.max?_eq_some_iff,List.forall_mem_map]
  exact ⟨List.mem_map_of_mem ha,h⟩

/-- When even the UE at the rim of the cell needs only one block, the draws do not matter:
each UE and each group takes one block as long as there are any, and the report follows from
the parameters. -/
theorem report_of_one_block {p : CellParams Real} {fading : Real}
    (hedge : (p.edge CellMaths.real fading).Eligible)
    (hone : (p.edge CellMaths.real fading).requiredRBs = 1) (hrange : p.numUERange ≠ [])
    (draws : (numUEs : Nat) → Fin p.numIterations → Draws Real numUEs)
    (hdraws : ∀ numUEs ∈ p.numUERange,∀ iter ue,
      fading ≤ p.shadowFading * (draws numUEs iter).fading ue) :
    (∀ pt ∈ simulate CellMaths.real p draws,pt.OneBlockEach p) ∧
      generateSummaryReport p (simulate CellMaths.real p draws) =
        some (summary p (simulate CellMaths.real p draws) (min p.numResourceBlocks p.lastUEs : Nat)
          (min p.numResourceBlocks (numGroups p.toSimParams p.lastUEs) : Nat)) := by
  have hpoints : ∀ pt ∈ simulate CellMaths.real p draws,pt.OneBlockEach p := by
    intro pt hpt
    obtain ⟨numUEs,hn,rfl⟩ := mem_simulate.mp hpt
    exact simulatePoint_oneBlockEach hedge hone (CellParams.mem_numUERange hn).1 _ (hdraws numUEs hn)
  have hle : ∀ pt ∈ simulate CellMaths.real p draws,pt.numUEs ≤ p.lastUEs := by
    intro pt hpt
    obtain ⟨numUEs,hn,rfl⟩ := mem_simulate.mp hpt
    exact (CellParams.mem_numUERange hn).2
  have hlast : simulatePoint CellMaths.real p (draws p.lastUEs) ∈ simulate CellMaths.real p draws :=
    mem_simulate.mpr ⟨_,CellParams.lastUEs_mem hrange,rfl⟩
  have hunicast := max?_map_of_le (fun pt : Point Real => pt.unicast.bandwidth) hlast (by
    intro pt hpt
    rw [(hpoints pt hpt).unicastRBs,(hpoints _ hlast).unicastRBs,Nat.cast_le]
    exact min_le_min_left _ (hle pt hpt))
  have hmulticast := max?_map_of_le (fun pt : Point Real => pt.multicast.bandwidth) hlast (by
    intro pt hpt
    rw [(hpoints pt hpt).multicastRBs,(hpoints _ hlast).multicastRBs,Nat.cast_le]
    exact min_le_min_left _ (numGroups_mono p.toSimParams (hle pt hpt)))
  refine ⟨hpoints,?_⟩
  rw [generateSummaryReport,hunicast,hmulticast,(hpoints _ hlast).unicastRBs,
    (hpoints _ hlast).multicastRBs]
  rfl

/-- With the script's parameters this is the report that comes with it: 100 blocks against
10, a saving of 90 %. -/
theorem report_of_one_block_script :
    (∀ pt ∈ simulate CellMaths.real (cellParams Real) (fun n _ => spreadDraws n),
      pt.OneBlockEach (cellParams Real)) ∧
    ∃ report,generateSummaryReport (cellParams Real)
        (simulate CellMaths.real (cellParams Real) (fun n _ => spreadDraws n)) = some report ∧
      report.maxUnicastRB = 100 ∧ report.maxMulticastRB = 10 ∧
      report.bandwidthSavingsPct = some 90 := by
  obtain ⟨hpoints,hreport⟩ := report_of_one_block cell_edge_eligible cell_edge_one_block (by decide)
    (fun n _ => spreadDraws n) (by norm_num [cellParams,spreadDraws])
  have hlast : (cellParams Real).lastUEs = 100 := rfl
  have hceil : ⌈((100 : Nat) : Real) / (10 : Nat)⌉₊ = 10 := by norm_num
  have hgroups : numGroups (cellParams Real).toSimParams 100 = 10 := by
    simp only [numGroups,cellParams,scriptParams,hceil]
    rfl
  have hblocks : (cellParams Real).numResourceBlocks = 100 := rfl
  rw [hlast,hgroups,hblocks] at hreport
  refine ⟨hpoints,_,hreport,by norm_num [summary],by norm_num [summary],
    by norm_num [summary,percent]⟩

theorem mean_lt_mean {n : Nat} (hn : 0 < n) {v w : Fin n → Real} (h : ∀ i,v i < w i) :
    mean v < mean w := by
  have hne : (Finset.univ : Finset (Fin n)).Nonempty := ⟨⟨0,hn⟩,Finset.mem_univ _⟩
  exact div_lt_div_of_pos_right (Finset.sum_lt_sum_of_nonempty hne (fun i _ => h i))
    (Nat.cast_pos.mpr hn)

theorem mean_mem {n : Nat} (hn : 0 < n) {v : Fin n → Nat} {c : Nat} (h : ∀ i,v i ≤ c) :
    0 ≤ mean (fun i => (v i : Real)) ∧ mean (fun i => (v i : Real)) ≤ c := by
  have hle := mean_mono (v := fun i => (v i : Real)) (w := fun _ => (c : Real))
    (fun i => Nat.cast_le.mpr (h i))
  rw [mean_const hn] at hle
  exact ⟨le_mean hn (fun i => (v i).cast_nonneg),hle⟩

theorem latency_real_pos (numUEs : Nat) (mode : Mode) :
    0 < calculateLatency Maths.real numUEs mode := by
  cases mode with
  | unicast =>
    have hpow : (0 : Real) ≤ (numUEs : Real) ^ (1.5 : Real) := by positivity
    simp only [calculateLatency,Maths.real]
    positivity
  | multicast =>
    simp only [calculateLatency,Maths.real]
    positivity

theorem latencyGroups_le {numUEs : Nat} (hn : 1 ≤ numUEs) : latencyGroups Real numUEs ≤ numUEs := by
  refine max_le hn (Nat.ceil_le.mpr ?_)
  have hnonneg : (0 : Real) ≤ numUEs := numUEs.cast_nonneg
  linarith

theorem multicast_latency_lt {numUEs : Nat} (hn : 1 ≤ numUEs) :
    calculateLatency Maths.real numUEs .multicast < calculateLatency Maths.real numUEs .unicast := by
  have hle : (latencyGroups Real numUEs : Real) ≤ numUEs := Nat.cast_le.mpr (latencyGroups_le hn)
  have hone : (1 : Real) ≤ numUEs := Nat.one_le_cast.mpr hn
  have hpow : (latencyGroups Real numUEs : Real) ^ (1.2 : Real) ≤ (numUEs : Real) ^ (1.5 : Real) :=
    calc (latencyGroups Real numUEs : Real) ^ (1.2 : Real)
        ≤ (numUEs : Real) ^ (1.2 : Real) := Real.rpow_le_rpow (Nat.cast_nonneg _) hle (by norm_num)
      _ ≤ (numUEs : Real) ^ (1.5 : Real) := Real.rpow_le_rpow_of_exponent_le hone (by norm_num)
  have hpos : (0 : Real) < (numUEs : Real) ^ (1.5 : Real) := Real.rpow_pos_of_pos (by linarith) _
  change 1.5 + 0.1 * (latencyGroups Real numUEs : Real) +
      0.02 * (latencyGroups Real numUEs : Real) ^ (1.2 : Real) <
    1.5 + 0.1 * (numUEs : Real) + 0.05 * (numUEs : Real) ^ (1.5 : Real)
  linarith

section Served

variable {K : Type} [Field K] [LinearOrder K] [FloorRing K] (d : UeData K) (f : Maths K)
  (p : SimParams K)

theorem simulateUnicast_servedUEs_le : (simulateUnicast d f p).servedUEs ≤ d.numUEs := by
  refine (Schedule.run_servedUEs _).trans_le ?_
  rw [total_unicast_size]
  exact (Schedule.served_sublist _).length_le.trans_eq List.length_finRange

theorem simulateMulticast_servedUEs_le : (simulateMulticast d f p).servedUEs ≤ d.numUEs := by
  refine (Schedule.run_servedUEs _).trans_le ?_
  rw [total_multicast_size]
  exact d.length_flatMap_le ((Schedule.served_sublist _).nodup d.uniqueGroups_nodup)

theorem simulateUnicast_servedUEs_le_rbsUsed :
    (simulateUnicast d f p).servedUEs ≤ (simulateUnicast d f p).rbsUsed := by
  refine (Schedule.run_servedUEs _).trans_le ?_
  rw [total_unicast_size]
  refine le_of_le_of_eq (Greedy.length_le_total _ ?_) (Schedule.run_rbsUsed _).symm
  exact fun ue hue => Schedule.cost_pos _ (Schedule.eligible_of_served _ hue)

end Served

structure Averages.InRange (a : Averages Real) (p : CellParams Real) (numUEs : Nat) : Prop where
  bandwidth : 0 ≤ a.bandwidth
  utilization : 0 ≤ a.utilization p ∧ a.utilization p ≤ 100
  successRatio : 0 ≤ a.successRatio numUEs ∧ a.successRatio numUEs ≤ 1

structure Point.InRange (pt : Point Real) (p : CellParams Real) : Prop where
  unicast : pt.unicast.InRange p pt.numUEs
  multicast : pt.multicast.InRange p pt.numUEs
  served : pt.unicast.servedUEs ≤ pt.unicast.bandwidth
  savings : 0 ≤ pt.bandwidthSavings ∧ pt.bandwidthSavings ≤ 100
  latency : 0 < pt.multicast.latency ∧ pt.multicast.latency < pt.unicast.latency

structure Report.InRange (report : Report Real) : Prop where
  unicastUtilization : 0 ≤ report.unicastUtilization ∧ report.unicastUtilization ≤ 100
  multicastUtilization : 0 ≤ report.multicastUtilization ∧ report.multicastUtilization ≤ 100
  savings : ∀ pct ∈ report.bandwidthSavingsPct,pct ≤ 100
  latency : 0 < report.latencyImprovementPct ∧ report.latencyImprovementPct < 100

theorem percent_cast : (percent : Real) = 100 := by norm_num [percent]

theorem averages_inRange (p : CellParams Real) {numUEs : Nat}
    {r : Fin p.numIterations → Result Real} (hrbs : ∀ iter,(r iter).rbsUsed ≤ p.numResourceBlocks)
    (hues : ∀ iter,(r iter).servedUEs ≤ numUEs) : (averages r).InRange p numUEs := by
  obtain ⟨hrbs₀,hrbs⟩ := mean_mem p.iterations_pos hrbs
  obtain ⟨hues₀,hues⟩ := mean_mem p.iterations_pos hues
  have hpos : (0 : Real) < p.numResourceBlocks := Nat.cast_pos.mpr p.blocks_pos
  have hutil : mean (fun iter => ((r iter).rbsUsed : Real)) / p.numResourceBlocks ≤ 1 :=
    (div_le_one hpos).mpr hrbs
  refine ⟨hrbs₀,⟨by simp only [Averages.utilization,averages]; positivity,?_⟩,
    div_nonneg hues₀ numUEs.cast_nonneg,div_le_one_of_le₀ hues numUEs.cast_nonneg⟩
  simp only [Averages.utilization,averages,percent_cast]
  linarith

theorem savings_le {m u : Real} (hm : 0 ≤ m) (hu : 0 ≤ u) : (1 - m / u) * percent ≤ 100 := by
  have hshare : 0 ≤ m / u := div_nonneg hm hu
  rw [percent_cast]
  linarith

theorem simulatePoint_inRange (p : CellParams Real) {numUEs : Nat} (hn : 1 ≤ numUEs)
    (draws : Fin p.numIterations → Draws Real numUEs) :
    (simulatePoint CellMaths.real p draws).InRange p := by
  have hunicast : (simulatePoint CellMaths.real p draws).unicast.InRange p numUEs :=
    averages_inRange p (fun _ => Schedule.run_rbsUsed_le _)
      (fun _ => simulateUnicast_servedUEs_le _ _ _)
  have hmulticast : (simulatePoint CellMaths.real p draws).multicast.InRange p numUEs :=
    averages_inRange p (fun _ => Schedule.run_rbsUsed_le _)
      (fun _ => simulateMulticast_servedUEs_le _ _ _)
  have hlatency : ∀ mode, mean (fun _ : Fin p.numIterations =>
      calculateLatency Maths.real numUEs mode) = calculateLatency Maths.real numUEs mode :=
    fun mode => mean_const p.iterations_pos _
  refine ⟨hunicast,hmulticast,?_,?_,?_⟩
  · exact mean_mono (fun _ => Nat.cast_le.mpr (simulateUnicast_servedUEs_le_rbsUsed _ _ _))
  · unfold Point.bandwidthSavings
    split
    · refine ⟨le_max_left _ _,max_le (by norm_num) ?_⟩
      exact savings_le hmulticast.bandwidth hunicast.bandwidth
    · norm_num
  · have hpos := latency_real_pos numUEs .multicast
    have hlt := multicast_latency_lt hn
    rw [← hlatency .multicast] at hpos hlt
    rw [← hlatency .unicast] at hlt
    exact ⟨hpos,hlt⟩

theorem exists_max? {α : Type} {l : List α} (value : α → Real) (hne : l ≠ []) :
    ∃ a ∈ l,(l.map value).max? = some (value a) := by
  cases hmax : (l.map value).max? with
  | none =>
    rw [List.max?_eq_none_iff,List.map_eq_nil_iff] at hmax
    exact absurd hmax hne
  | some top =>
    obtain ⟨a,ha,rfl⟩ := List.mem_map.mp (List.max?_eq_some_iff.mp hmax).1
    exact ⟨a,ha,rfl⟩

theorem summary_inRange {p : CellParams Real} {results : List (Point Real)}
    (h : ∀ pt ∈ results,pt.InRange p) {top top' : Point Real} (htop : top ∈ results)
    (htop' : top' ∈ results) :
    (summary p results top.unicast.bandwidth top'.multicast.bandwidth).InRange := by
  have hlen : 0 < results.length := List.length_pos_of_mem htop
  have hlatency := fun idx => (h (results.get idx) (List.get_mem results idx)).latency
  have hlt : mean (fun idx => (results.get idx).multicast.latency) <
      mean (fun idx => (results.get idx).unicast.latency) :=
    mean_lt_mean hlen (fun idx => (hlatency idx).2)
  have hpos : 0 < mean (fun idx => (results.get idx).multicast.latency) :=
    mean_pos (fun idx => (hlatency idx).1.le) (hlatency ⟨0,hlen⟩).1
  refine ⟨(h top htop).unicast.utilization,(h top' htop').multicast.utilization,?_,?_⟩
  · intro pct hpct
    simp only [summary] at hpct
    split at hpct
    · simp at hpct
    · rw [← Option.some.inj hpct]
      exact savings_le (h top' htop').multicast.bandwidth (h top htop).unicast.bandwidth
  · have hshare := div_pos hpos (hpos.trans hlt)
    have hshare' := (div_lt_one (hpos.trans hlt)).mpr hlt
    simp only [summary,percent_cast]
    constructor <;> linarith

/-- Whatever is drawn, every figure that the script plots or reports is in its range, there
is a report as soon as there is a point, and multicast is reported faster than unicast. -/
theorem figures_in_range (p : CellParams Real)
    (draws : (numUEs : Nat) → Fin p.numIterations → Draws Real numUEs) :
    (∀ pt ∈ simulate CellMaths.real p draws,pt.InRange p) ∧
      (p.numUERange ≠ [] → ∃ report,
        generateSummaryReport p (simulate CellMaths.real p draws) = some report ∧ report.InRange) := by
  have hpoints : ∀ pt ∈ simulate CellMaths.real p draws,pt.InRange p := by
    intro pt hpt
    obtain ⟨numUEs,hn,rfl⟩ := mem_simulate.mp hpt
    exact simulatePoint_inRange p (CellParams.mem_numUERange hn).1 _
  refine ⟨hpoints,fun hrange => ?_⟩
  have hne : simulate CellMaths.real p draws ≠ [] := by simpa [simulate] using hrange
  obtain ⟨top,htop,hunicast⟩ := exists_max? (fun pt : Point Real => pt.unicast.bandwidth) hne
  obtain ⟨top',htop',hmulticast⟩ := exists_max? (fun pt : Point Real => pt.multicast.bandwidth) hne
  refine ⟨_,?_,summary_inRange hpoints htop htop'⟩
  rw [generateSummaryReport,hunicast,hmulticast]
  rfl

end GrpKeySec.PhysicalLayer
