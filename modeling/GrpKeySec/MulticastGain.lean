import GrpKeySec.ResourceBlocks
set_option autoImplicit false

/-!
Multicast against unicast on one scenario. A group is charged its largest bitrate
at its worst SINR, once; unicast charges every UE its own bitrate at its own SINR.
-/

namespace GrpKeySec.PhysicalLayer

variable {K : Type} [Field K] [LinearOrder K] [FloorRing K] {f : Maths K} {p : SimParams K}

namespace Schedule

variable {ι : Type} (S : Schedule f p ι)

theorem served_eq_order_iff :
    S.served = S.order ↔
      (∀ i ∈ S.order,S.Eligible i) ∧ Greedy.total S.cost S.order ≤ p.numResourceBlocks := by
  constructor
  · intro h
    have hle := S.run_rbsUsed_le
    rw [S.run_rbsUsed,h] at hle
    exact ⟨fun i hi => S.eligible_of_served (h ▸ hi),hle⟩
  · intro h
    have hall : S.eligible = S.order := List.filter_eq_self.mpr (by simpa using h.1)
    rw [S.served_eq_greedy,hall]
    exact (Greedy.served_eq_self_iff _ _ _).mpr h.2

theorem run_of_fits (he : ∀ i ∈ S.order,S.Eligible i)
    (hfits : Greedy.total S.cost S.order ≤ p.numResourceBlocks) :
    S.run.servedUEs = Greedy.total S.size S.order ∧
      S.run.rbsUsed = Greedy.total S.cost S.order := by
  rw [S.run_servedUEs,S.run_rbsUsed,S.served_eq_order_iff.mpr ⟨he,hfits⟩]
  exact ⟨rfl,rfl⟩

theorem servedUEs_eq_iff (hpos : ∀ i ∈ S.order,0 < S.size i) :
    S.run.servedUEs = Greedy.total S.size S.order ↔ S.served = S.order := by
  rw [S.run_servedUEs]
  constructor
  · intro h
    exact Greedy.eq_of_sublist_of_total_le _ S.served_sublist hpos h.ge
  · intro h
    rw [h]

end Schedule

section Loops

variable (d : UeData K) (f : Maths K) (p : SimParams K)

theorem unicast_serves_all_iff :
    (simulateUnicast d f p).servedUEs = d.numUEs ↔
      (unicast d f p).served = (unicast d f p).order := by
  have hpos : ∀ ue ∈ (unicast d f p).order,0 < (unicast d f p).size ue := fun _ _ => one_pos
  have htotal : Greedy.total (unicast d f p).size (unicast d f p).order = d.numUEs := by
    rw [total_unicast_size]
    exact List.length_finRange
  rw [← (unicast d f p).servedUEs_eq_iff hpos,htotal]
  rfl

theorem multicast_serves_all_iff :
    (simulateMulticast d f p).servedUEs = d.numUEs ↔
      (multicast d f p).served = (multicast d f p).order := by
  have hpos : ∀ group ∈ (multicast d f p).order,0 < (multicast d f p).size group :=
    fun _ hgroup => multicast_size_pos d f p hgroup
  rw [← (multicast d f p).servedUEs_eq_iff hpos]
  exact (total_size_uniqueGroups d f p).symm ▸ Iff.rfl

/-- The UE has the worst SINR of the group and its largest bitrate. -/
def UeData.Leads (ue : Fin d.numUEs) (group : Nat) : Prop :=
  ∀ v ∈ d.groupUEs group,d.sinr f p ue ≤ d.sinr f p v ∧ d.requiredBitrate v ≤ d.requiredBitrate ue

theorem multicast_cost_eq {group : Nat} {ue : Fin d.numUEs} (hue : ue ∈ d.groupUEs group)
    (h : d.Leads f p ue group) :
    (multicast d f p).cost group = (unicast d f p).cost ue := by
  have hworst : d.worstSINR f p group = some (d.sinr f p ue) :=
    (d.worstSINR_eq_some f p).mpr ⟨⟨ue,hue,rfl⟩,fun v hv => (h v hv).1⟩
  have hrate : d.maxRequiredBitrate group = some (d.requiredBitrate ue) :=
    d.maxRequiredBitrate_eq_some.mpr ⟨⟨ue,hue,rfl⟩,fun v hv => (h v hv).2⟩
  have hq : (multicast d f p).demand group =
      some ⟨d.sinr f p ue,d.requiredBitrate ue,(d.groupUEs group).length⟩ :=
    (multicast_demand_eq_some d f p).mpr ⟨hworst,hrate,rfl⟩
  rw [(multicast d f p).cost_of_mem hq]
  rfl

theorem total_multicast_cost_le
    (h : ∀ group ∈ d.uniqueGroups,∃ ue ∈ d.groupUEs group,d.Leads f p ue group) :
    Greedy.total (multicast d f p).cost d.uniqueGroups ≤
      Greedy.total (unicast d f p).cost (List.finRange d.numUEs) := by
  rw [← Greedy.total_perm _ d.flatMap_groupUEs_perm,Greedy.total_flatMap]
  apply Greedy.total_mono
  intro group hgroup
  obtain ⟨ue,hue,hleads⟩ := h group hgroup
  rw [multicast_cost_eq d f p hue hleads]
  exact Greedy.cost_le_total _ hue

end Loops

section Exact

theorem Demand.requiredRBs_eq [IsStrictOrderedRing K] {q : Demand f p} {c : Nat}
    (hpos : 0 < q.bitratePerRB) (hlt : c * q.bitratePerRB < q.bitrate)
    (hle : q.bitrate ≤ (c + 1 : Nat) * q.bitratePerRB) : q.requiredRBs = c + 1 := by
  have hceil : ⌈q.bitrate / q.bitratePerRB⌉₊ = c + 1 :=
    (Nat.ceil_eq_iff (Nat.succ_ne_zero c)).mpr
      ⟨(lt_div_iff₀ hpos).mpr hlt,(div_le_iff₀ hpos).mpr hle⟩
  rw [Demand.requiredRBs,hceil]
  exact max_eq_right (Nat.succ_pos c)

theorem nine_mul_logb_bounds {x : Real} (hx : 0 < x) {a b : Nat} (ha : (2 : Real) ^ a ≤ x ^ 9)
    (hb : x ^ 9 < (2 : Real) ^ b) :
    a ≤ (9 : Nat) * Real.logb 2 x ∧ (9 : Nat) * Real.logb 2 x < b := by
  have hpow : Real.logb 2 (x ^ 9) = (9 : Nat) * Real.logb 2 x := Real.logb_pow 2 x 9
  have hx9 : 0 < x ^ 9 := pow_pos hx 9
  rw [← hpow]
  constructor
  · rw [Real.le_logb_iff_rpow_le one_lt_two hx9,Real.rpow_natCast]
    exact ha
  · rw [Real.logb_lt_iff_lt_rpow one_lt_two hx9,Real.rpow_natCast]
    exact hb

theorem rbBandwidth_script : rbBandwidth (scriptParams Real) = 180000 := by
  norm_num [rbBandwidth,scriptParams]

theorem sinr_script (gain : Real) :
    calculateSINR Maths.real (scriptParams Real) gain =
      gain + 208 - 10 * Real.logb 10 180000 := by
  simp only [calculateSINR,rbBandwidth_script]
  simp only [scriptParams,Maths.real]
  ring

theorem spectralEfficiency_script (gain : Real) :
    calculateSpectralEfficiency Maths.real (calculateSINR Maths.real (scriptParams Real) gain) =
      Real.logb 2 (1 + 10 ^ ((gain + 208) / 10) / 180000) := by
  have hexp : (gain + 208 - 10 * Real.logb 10 180000) / 10 =
      (gain + 208) / 10 - Real.logb 10 180000 := by ring
  rw [sinr_script]
  simp only [calculateSpectralEfficiency,Maths.real]
  rw [hexp,Real.rpow_sub (by norm_num),Real.rpow_logb (by norm_num) (by norm_num) (by norm_num)]

/-- The script's spectral efficiency at a channel gain, in ninths of a bit. -/
noncomputable def ninths (gain : Real) : Real :=
  (9 : Nat) *
    calculateSpectralEfficiency Maths.real (calculateSINR Maths.real (scriptParams Real) gain)

theorem ninths_weak : 24 ≤ ninths (-148) ∧ ninths (-148) < 25 := by
  have hpow : 1 + (10 : Real) ^ ((-148 + 208) / 10 : Real) / 180000 = 59 / 9 := by norm_num
  rw [ninths,spectralEfficiency_script,hpow]
  exact nine_mul_logb_bounds (a := 24) (b := 25) (by norm_num) (by norm_num) (by norm_num)

theorem ninths_strong : 82 ≤ ninths (-128) ∧ ninths (-128) < 83 := by
  have hpow : 1 + (10 : Real) ^ ((-128 + 208) / 10 : Real) / 180000 = 5009 / 9 := by norm_num
  rw [ninths,spectralEfficiency_script,hpow]
  exact nine_mul_logb_bounds (a := 82) (b := 83) (by norm_num) (by norm_num) (by norm_num)

theorem requiredRBs_script {gain rate : Real} {c : Nat} (members : Nat)
    (hlt : c * (20000 * ninths gain) < rate) (hle : rate ≤ (c + 1 : Nat) * (20000 * ninths gain)) :
    (⟨calculateSINR Maths.real (scriptParams Real) gain,rate,members⟩ :
      Demand Maths.real (scriptParams Real)).requiredRBs = c + 1 := by
  have hrate : (⟨calculateSINR Maths.real (scriptParams Real) gain,rate,members⟩ :
      Demand Maths.real (scriptParams Real)).bitratePerRB = 20000 * ninths gain := by
    rw [Demand.bitratePerRB,rbBandwidth_script]
    simp only [Demand.spectralEff,ninths]
    ring
  refine Demand.requiredRBs_eq (mul_pos (spectralEfficiency_real_pos _) (rbBandwidth_pos _)) ?_ ?_
  · rw [hrate]
    exact hlt
  · rw [hrate]
    exact hle

theorem mixed_groupRNTI (ue : Fin (mixed (scriptParams Real)).numUEs) :
    (mixed (scriptParams Real)).groupRNTI ue = 1 := by
  have hone : max 1 ⌈((2 : Nat) : Real) / (scriptParams Real).groupSize⌉₊ = 1 := by
    norm_num [scriptParams]
  simp only [mixed,generateUEScenario,hone,Nat.mod_one]

theorem mixed_uniqueGroups : (mixed (scriptParams Real)).uniqueGroups = [1] := by
  rw [UeData.uniqueGroups,funext mixed_groupRNTI]
  decide

theorem mixed_ues {P : Fin (mixed (scriptParams Real)).numUEs → Prop} (h₀ : P (0 : Fin 2))
    (h₁ : P (1 : Fin 2)) (ue : Fin (mixed (scriptParams Real)).numUEs) : P ue :=
  Fin.forall_fin_two.mpr ⟨h₀,h₁⟩ ue

theorem mixed_unicast_costs :
    (unicast (mixed (scriptParams Real)) Maths.real (scriptParams Real)).cost (0 : Fin 2) = 2 ∧
    (unicast (mixed (scriptParams Real)) Maths.real (scriptParams Real)).cost (1 : Fin 2) = 2 := by
  obtain ⟨hlow,hhigh⟩ := ninths_weak
  obtain ⟨hlow',hhigh'⟩ := ninths_strong
  have hweak : (1 : Nat) * (20000 * ninths (-148)) < (500000 : Real) ∧
      (500000 : Real) ≤ (1 + 1 : Nat) * (20000 * ninths (-148)) := by
    constructor <;> norm_num <;> linarith
  have hstrong : (1 : Nat) * (20000 * ninths (-128)) < (2000000 : Real) ∧
      (2000000 : Real) ≤ (1 + 1 : Nat) * (20000 * ninths (-128)) := by
    constructor <;> norm_num <;> linarith
  exact ⟨requiredRBs_script 1 hweak.1 hweak.2,requiredRBs_script 1 hstrong.1 hstrong.2⟩

theorem mixed_multicast_cost :
    (multicast (mixed (scriptParams Real)) Maths.real (scriptParams Real)).cost 1 = 5 := by
  have hmem : ∀ ue,ue ∈ (mixed (scriptParams Real)).groupUEs 1 := by
    intro ue
    rw [UeData.mem_groupUEs]
    exact mixed_groupRNTI ue
  have hsinr : calculateSINR Maths.real (scriptParams Real) (-148) ≤
      calculateSINR Maths.real (scriptParams Real) (-128) := by
    rw [sinr_script,sinr_script]
    norm_num
  have hrate : (500000 : Real) ≤ 2000000 := by norm_num
  have hq : (multicast (mixed (scriptParams Real)) Maths.real (scriptParams Real)).demand 1 =
      some ⟨calculateSINR Maths.real (scriptParams Real) (-148),2000000,
        ((mixed (scriptParams Real)).groupUEs 1).length⟩ := by
    refine (multicast_demand_eq_some _ _ _).mpr ⟨?_,?_,rfl⟩
    · exact (UeData.worstSINR_eq_some _ _ _).mpr ⟨⟨(0 : Fin 2),hmem _,rfl⟩,
        mixed_ues (fun _ => le_rfl) (fun _ => hsinr)⟩
    · exact (UeData.maxRequiredBitrate_eq_some _).mpr ⟨⟨(1 : Fin 2),hmem _,rfl⟩,
        mixed_ues (fun _ => hrate) (fun _ => le_rfl)⟩
  obtain ⟨hlow,hhigh⟩ := ninths_weak
  have hfour : (4 : Nat) * (20000 * ninths (-148)) < (2000000 : Real) ∧
      (2000000 : Real) ≤ (4 + 1 : Nat) * (20000 * ninths (-148)) := by
    constructor <;> norm_num <;> linarith
  exact (Schedule.cost_of_mem _ hq).trans (requiredRBs_script _ hfour.1 hfour.2)

theorem mixed_eligible (ue : Fin (mixed (scriptParams Real)).numUEs) :
    (unicast (mixed (scriptParams Real)) Maths.real (scriptParams Real)).Eligible ue := by
  have hlog : Real.logb 10 180000 ≤ 6 :=
    (Real.logb_le_iff_le_rpow (by norm_num) (by norm_num)).mpr (by norm_num)
  have hgain : ∀ {gain : Real},-148 ≤ gain →
      -3 ≤ calculateSINR Maths.real (scriptParams Real) gain := by
    intro gain hle
    rw [sinr_script]
    linarith
  have hstrong : (-148 : Real) ≤ -128 := by norm_num
  rw [unicast_eligible_iff]
  exact mixed_ues (P := fun ue => -3 ≤ UeData.sinr _ _ _ ue) (hgain le_rfl) (hgain hstrong) ue

end Exact

section Results

variable (d : UeData K) (f : Maths K) (p : SimParams K)

/-- Multicast serves every UE, with no more blocks than unicast uses. -/
def MulticastSaves : Prop :=
  (simulateMulticast d f p).servedUEs = d.numUEs ∧
    (simulateMulticast d f p).rbsUsed ≤ (simulateUnicast d f p).rbsUsed

theorem multicast_saves_iff (hall : (simulateUnicast d f p).servedUEs = d.numUEs) :
    (MulticastSaves d f p ↔ Greedy.total (multicast d f p).cost d.uniqueGroups ≤
      Greedy.total (unicast d f p).cost (List.finRange d.numUEs)) ∧
    ((∀ group ∈ d.uniqueGroups,∃ ue ∈ d.groupUEs group,d.Leads f p ue group) →
      MulticastSaves d f p) := by
  have huni := (unicast_serves_all_iff d f p).mp hall
  have hunicost : (simulateUnicast d f p).rbsUsed =
      Greedy.total (unicast d f p).cost (List.finRange d.numUEs) := by
    have hrun := (unicast d f p).run_rbsUsed
    rw [huni] at hrun
    exact hrun
  obtain ⟨helig,hfits⟩ := (unicast d f p).served_eq_order_iff.mp huni
  have hmulticost : (multicast d f p).served = d.uniqueGroups →
      (simulateMulticast d f p).rbsUsed = Greedy.total (multicast d f p).cost d.uniqueGroups := by
    intro h
    rw [← h]
    exact (multicast d f p).run_rbsUsed
  have hsaves : MulticastSaves d f p ↔ Greedy.total (multicast d f p).cost d.uniqueGroups ≤
      Greedy.total (unicast d f p).cost (List.finRange d.numUEs) := by
    constructor
    · rintro ⟨hserved,hle⟩
      rwa [hmulticost ((multicast_serves_all_iff d f p).mp hserved),hunicost] at hle
    · intro hle
      have hserved : (multicast d f p).served = d.uniqueGroups :=
        (multicast d f p).served_eq_order_iff.mpr
          ⟨fun group => multicast_eligible_of_unicast d f p
            (fun ue => helig ue (List.mem_finRange ue)),hle.trans hfits⟩
      refine ⟨(multicast_serves_all_iff d f p).mpr hserved,?_⟩
      rwa [hmulticost hserved,hunicost]
  exact ⟨hsaves,fun h => hsaves.mpr (total_multicast_cost_le d f p h)⟩

theorem multicast_needs_more_mixed :
    (∀ sinr,0 < calculateSpectralEfficiency Maths.real sinr) ∧
    Monotone (calculateSpectralEfficiency Maths.real) ∧
    (∀ ue,0 < (mixed (scriptParams Real)).requiredBitrate ue) ∧
    (simulateUnicast (mixed (scriptParams Real)) Maths.real (scriptParams Real)).servedUEs = 2 ∧
    (simulateUnicast (mixed (scriptParams Real)) Maths.real (scriptParams Real)).rbsUsed = 4 ∧
    (simulateMulticast (mixed (scriptParams Real)) Maths.real (scriptParams Real)).rbsUsed = 5 := by
  have hblocks : (scriptParams Real).numResourceBlocks = 100 := rfl
  have hlittle : (0 : Real) < 500000 := by norm_num
  have hmuch : (0 : Real) < 2000000 := by norm_num
  have hpos : ∀ ue,0 < (mixed (scriptParams Real)).requiredBitrate ue :=
    mixed_ues hlittle hmuch
  have huni : Greedy.total (unicast (mixed (scriptParams Real)) Maths.real (scriptParams Real)).cost
      (unicast (mixed (scriptParams Real)) Maths.real (scriptParams Real)).order = 4 := by
    obtain ⟨hweak,hstrong⟩ := mixed_unicast_costs
    exact (congrArg₂ (fun a b => a + (b + 0)) hweak hstrong)
  have hmulti : Greedy.total
      (multicast (mixed (scriptParams Real)) Maths.real (scriptParams Real)).cost
      (multicast (mixed (scriptParams Real)) Maths.real (scriptParams Real)).order = 5 := by
    simp [multicast,mixed_uniqueGroups]
    exact mixed_multicast_cost
  have hserved := (unicast (mixed (scriptParams Real)) Maths.real (scriptParams Real)).run_of_fits
    (fun ue _ => mixed_eligible ue) (by omega)
  have hgroup := (multicast (mixed (scriptParams Real)) Maths.real (scriptParams Real)).run_of_fits
    (fun group hgroup => multicast_eligible_of_unicast _ _ _ mixed_eligible hgroup) (by omega)
  exact ⟨spectralEfficiency_real_pos,spectralEfficiency_real_monotone,hpos,hserved.1,
    hserved.2.trans huni,hgroup.2.trans hmulti⟩

def alike : UeData Rat := generateUEScenario simParams 2 ![-148,-148] ![500000,2000000]

theorem multicast_saves_alike :
    (simulateUnicast alike Maths.rounded simParams).servedUEs = 2 ∧
    MulticastSaves alike Maths.rounded simParams := by
  have hall : (simulateUnicast alike Maths.rounded simParams).servedUEs = 2 := by decide +kernel
  exact ⟨hall,(multicast_saves_iff alike Maths.rounded simParams hall).1.mpr (by decide +kernel)⟩

end Results

namespace Schedule

variable {ι : Type} {S : Schedule f p ι} {sinr rate : K}

/-- Everyone the loop goes through has one SINR and one bitrate. -/
def Uniform (S : Schedule f p ι) (sinr rate : K) : Prop :=
  ∀ i ∈ S.order,∃ q ∈ S.demand i,q.sinr = sinr ∧ q.bitrate = rate

def commonRBs (f : Maths K) (p : SimParams K) (sinr rate : K) : Nat :=
  (⟨sinr,rate,1⟩ : Demand f p).requiredRBs

theorem Uniform.cost_eq (h : S.Uniform sinr rate) {i : ι} (hi : i ∈ S.order) :
    S.cost i = commonRBs f p sinr rate := by
  obtain ⟨q,hq,rfl,rfl⟩ := h i hi
  rw [S.cost_of_mem hq]
  rfl

omit [FloorRing K] in
theorem Uniform.spectralEff_eq (h : S.Uniform sinr rate) {i : ι} (hi : i ∈ S.order) :
    S.spectralEff i = calculateSpectralEfficiency f sinr := by
  obtain ⟨q,hq,rfl,-⟩ := h i hi
  exact S.spectralEff_of_mem hq

omit [FloorRing K] in
theorem Uniform.eligible_iff (h : S.Uniform sinr rate) {i : ι} (hi : i ∈ S.order) :
    S.Eligible i ↔ -3 ≤ sinr := by
  obtain ⟨q,hq,rfl,-⟩ := h i hi
  have hq : S.demand i = some q := hq
  simp [Eligible,hq,Demand.Eligible]

theorem Uniform.served_eq (h : S.Uniform sinr rate) (hsinr : -3 ≤ sinr) :
    S.served = S.order.take (p.numResourceBlocks / commonRBs f p sinr rate) := by
  have hall : S.eligible = S.order := by
    refine List.filter_eq_self.mpr (fun i hi => ?_)
    simpa using (h.eligible_iff hi).mpr hsinr
  rw [S.served_eq_greedy,hall]
  exact Greedy.served_const _ (Demand.requiredRBs_pos _) _ _ (fun i hi => h.cost_eq hi)

theorem Uniform.served_eq_nil (h : S.Uniform sinr rate) (hsinr : ¬ -3 ≤ sinr) :
    S.served = [] := by
  rw [List.eq_nil_iff_forall_not_mem]
  intro i hi
  exact hsinr ((h.eligible_iff (S.served_sublist.subset hi)).mp (S.eligible_of_served hi))

theorem Uniform.rbsUsed_eq (h : S.Uniform sinr rate) :
    S.run.rbsUsed = S.served.length * commonRBs f p sinr rate := by
  rw [S.run_rbsUsed]
  exact Greedy.total_const _ _ (fun i hi => h.cost_eq (S.served_sublist.subset hi))

theorem Uniform.totalBitrate_eq (h : S.Uniform sinr rate) :
    S.run.totalBitrate =
      S.run.servedUEs * (commonRBs f p sinr rate *
        (calculateSpectralEfficiency f sinr * rbBandwidth p)) := by
  rw [S.run_totalBitrate,S.run_servedUEs,Greedy.total,Nat.cast_list_sum,List.map_map,
    ← List.sum_map_mul_right]
  refine congrArg List.sum (List.map_congr_left (fun i hi => ?_))
  have horder := S.served_sublist.subset hi
  rw [bitrate,h.cost_eq horder,h.spectralEff_eq horder,mul_comm]
  rfl

end Schedule

section EqualUes

variable (d : UeData K) (f : Maths K) (p : SimParams K)

def UeData.Equal (channelGain requiredBitrate : K) : Prop :=
  ∀ ue,d.channelGain ue = channelGain ∧ d.requiredBitrate ue = requiredBitrate

variable {d} {channelGain requiredBitrate : K} (hd : d.Equal channelGain requiredBitrate)
include hd

omit [FloorRing K] in
theorem unicast_uniform :
    (unicast d f p).Uniform (calculateSINR f p channelGain) requiredBitrate := by
  intro ue _
  obtain ⟨hgain,hrate⟩ := hd ue
  exact ⟨_,rfl,congrArg (calculateSINR f p) hgain,hrate⟩

omit [FloorRing K] in
theorem multicast_uniform :
    (multicast d f p).Uniform (calculateSINR f p channelGain) requiredBitrate := by
  intro group hgroup
  obtain ⟨q,hq⟩ := exists_multicast_demand d f p hgroup
  obtain ⟨hworst,hrate,-⟩ := (multicast_demand_eq_some d f p).mp hq
  obtain ⟨ue,-,hsinr⟩ := ((d.worstSINR_eq_some f p).mp hworst).1
  obtain ⟨ue',-,hbitrate⟩ := (d.maxRequiredBitrate_eq_some.mp hrate).1
  refine ⟨q,hq,?_,?_⟩
  · rw [← hsinr,UeData.sinr,(hd ue).1]
  · rw [← hbitrate,(hd ue').2]

theorem equal_servedUEs_le :
    (unicast d f p).run.servedUEs ≤ (multicast d f p).run.servedUEs := by
  have huni := unicast_uniform f p hd
  have hmulti := multicast_uniform f p hd
  rw [Schedule.run_servedUEs,Schedule.run_servedUEs,total_unicast_size]
  by_cases hsinr : -3 ≤ calculateSINR f p channelGain
  · rw [huni.served_eq hsinr,hmulti.served_eq hsinr,List.length_take]
    refine le_trans (min_le_min_left _ ?_) (min_le_total_size_take d f p _)
    exact List.length_finRange.le
  · rw [huni.served_eq_nil hsinr]
    exact Nat.zero_le _

theorem equal_served_length_le :
    (multicast d f p).served.length ≤ (unicast d f p).served.length := by
  have huni := unicast_uniform f p hd
  have hmulti := multicast_uniform f p hd
  by_cases hsinr : -3 ≤ calculateSINR f p channelGain
  · rw [huni.served_eq hsinr,hmulti.served_eq hsinr,List.length_take,List.length_take]
    refine min_le_min_left _ (d.length_uniqueGroups_le.trans ?_)
    exact List.length_finRange.ge
  · rw [hmulti.served_eq_nil hsinr]
    exact Nat.zero_le _

theorem equal_rbsUsed_le : (multicast d f p).run.rbsUsed ≤ (unicast d f p).run.rbsUsed := by
  rw [(multicast_uniform f p hd).rbsUsed_eq,(unicast_uniform f p hd).rbsUsed_eq]
  exact Nat.mul_le_mul_right _ (equal_served_length_le f p hd)

variable [IsStrictOrderedRing K]

theorem equal_totalBitrate_le
    (heff : ∀ sinr,-3 ≤ sinr → 0 < calculateSpectralEfficiency f sinr) :
    (unicast d f p).run.totalBitrate ≤ (multicast d f p).run.totalBitrate := by
  have huni := unicast_uniform f p hd
  have hmulti := multicast_uniform f p hd
  by_cases hsinr : -3 ≤ calculateSINR f p channelGain
  · have hpos := heff _ hsinr
    have hband := rbBandwidth_pos p
    have hserved := equal_servedUEs_le f p hd
    rw [huni.totalBitrate_eq,hmulti.totalBitrate_eq]
    gcongr
  · rw [Schedule.run_totalBitrate,Schedule.run_totalBitrate,huni.served_eq_nil hsinr,
      hmulti.served_eq_nil hsinr]
    exact le_rfl

theorem multicast_dominates_equal
    (heff : ∀ sinr,-3 ≤ sinr → 0 < calculateSpectralEfficiency f sinr) :
    (simulateUnicast d f p).servedUEs ≤ (simulateMulticast d f p).servedUEs ∧
    (simulateMulticast d f p).rbsUsed ≤ (simulateUnicast d f p).rbsUsed ∧
    (simulateUnicast d f p).totalBitrate ≤ (simulateMulticast d f p).totalBitrate ∧
    (simulateUnicast d f p).efficiency ≤ (simulateMulticast d f p).efficiency := by
  have htotal := equal_totalBitrate_le f p hd heff
  have hband := rbBandwidth_pos p
  refine ⟨equal_servedUEs_le f p hd,equal_rbsUsed_le f p hd,htotal,?_⟩
  rw [simulateUnicast,simulateMulticast,Schedule.efficiency_eq,Schedule.efficiency_eq]
  exact div_le_div_of_nonneg_right htotal (by positivity)

end EqualUes

def threeEqual : UeData Rat :=
  generateUEScenario fewBlocks 3 (fun _ => -148) (fun _ => 500000)

/-- A UE takes 3 blocks, and so does the group: one UE is served, or all three. -/
theorem multicast_dominates_equal_three :
    (simulateUnicast threeEqual Maths.rounded fewBlocks).servedUEs = 1 ∧
    (simulateMulticast threeEqual Maths.rounded fewBlocks).servedUEs = 3 ∧
    (simulateUnicast threeEqual Maths.rounded fewBlocks).efficiency ≤
      (simulateMulticast threeEqual Maths.rounded fewBlocks).efficiency := by
  have hd : threeEqual.Equal (-148) 500000 := fun _ => ⟨rfl,rfl⟩
  exact ⟨by decide +kernel,by decide +kernel,(multicast_dominates_equal Maths.rounded fewBlocks hd
    (fun sinr _ => spectralEfficiency_rounded_pos sinr)).2.2.2⟩

end GrpKeySec.PhysicalLayer
