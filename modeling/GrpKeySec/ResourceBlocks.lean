import Mathlib.Data.Finset.Max
import GrpKeySec.Greedy
import GrpKeySec.UeGroups
set_option autoImplicit false

/-!
What the two loops of the schedulers do with the resource blocks. Both are greedy
allocations: what is served is what the allocation of `Greedy` serves of the
eligible ones, and the accumulators are sums over it.
-/

namespace GrpKeySec.PhysicalLayer

variable {K : Type} [Field K] [LinearOrder K] {f : Maths K} {p : SimParams K}

def Allocation.Balanced (a : Allocation K) (p : SimParams K) : Prop :=
  a.rbsUsed + a.availableRBs = p.numResourceBlocks ∧ 0 ≤ a.availableRBs

def AtMostLargest {ι : Type} (e : K) (served : List ι) (value : ι → K) : Prop :=
  (served = [] ∧ e = 0) ∨ ∃ i ∈ served,(∀ j ∈ served,value j ≤ value i) ∧ e ≤ value i

theorem Demand.requiredRBs_pos [FloorRing K] (q : Demand f p) : 0 < q.requiredRBs :=
  lt_max_of_lt_left one_pos

theorem rbBandwidth_pos [IsStrictOrderedRing K] (p : SimParams K) : 0 < rbBandwidth p :=
  mul_pos p.spacing_pos (by exact_mod_cast p.subcarriers_pos)

namespace Schedule

variable {ι : Type} (S : Schedule f p ι)

def Eligible (i : ι) : Prop := ∃ q ∈ S.demand i,q.Eligible

instance (i : ι) : Decidable (S.Eligible i) := inferInstanceAs (Decidable (∃ q ∈ S.demand i,_))

def eligible : List ι := S.order.filter (fun i => S.Eligible i)

theorem mem_eligible {i : ι} : i ∈ S.eligible ↔ i ∈ S.order ∧ S.Eligible i := by
  simp [eligible]

def size (i : ι) : Nat := (S.demand i).elim 0 Demand.members

def spectralEff (i : ι) : K := (S.demand i).elim 0 Demand.spectralEff

theorem spectralEff_of_mem {i : ι} {q : Demand f p} (h : q ∈ S.demand i) :
    S.spectralEff i = q.spectralEff := by
  rw [spectralEff,Option.mem_def.mp h,Option.elim_some]

theorem spectralEff_pos (heff : ∀ sinr,-3 ≤ sinr → 0 < calculateSpectralEfficiency f sinr)
    {i : ι} (h : S.Eligible i) : 0 < S.spectralEff i := by
  obtain ⟨q,hq,he⟩ := h
  rw [S.spectralEff_of_mem hq]
  exact heff q.sinr (not_lt.mp he)

variable [FloorRing K]

def cost (i : ι) : Nat := (S.demand i).elim 0 Demand.requiredRBs

def bitrate (i : ι) : K := S.cost i * (S.spectralEff i * rbBandwidth p) * S.size i

theorem cost_of_mem {i : ι} {q : Demand f p} (h : q ∈ S.demand i) :
    S.cost i = q.requiredRBs := by
  rw [cost,Option.mem_def.mp h,Option.elim_some]

theorem cost_pos {i : ι} (h : S.Eligible i) : 0 < S.cost i := by
  obtain ⟨q,hq,_⟩ := h
  rw [S.cost_of_mem hq]
  exact q.requiredRBs_pos

theorem accepts_iff (a : Allocation K) (i : ι) :
    S.Accepts a i ↔ S.Eligible i ∧ (S.cost i : Int) ≤ a.availableRBs := by
  cases h : S.demand i with
  | none => simp [Accepts,Eligible,h]
  | some q => simp [Accepts,Eligible,cost,Demand.Fits,h]

theorem step_of_accepts {a : Allocation K} {i : ι} (h : S.Accepts a i) :
    S.step a i =
      { rbsUsed := a.rbsUsed + S.cost i
        servedUEs := a.servedUEs + S.size i
        totalBitrate := a.totalBitrate + S.bitrate i
        availableRBs := a.availableRBs - S.cost i } := by
  obtain ⟨q,hq,hfits⟩ := h
  have hq : S.demand i = some q := hq
  simp [step,cost,size,spectralEff,bitrate,hq,Allocation.consider,Allocation.serve,hfits,
    Demand.bitratePerRB]

theorem step_of_not_accepts {a : Allocation K} {i : ι} (h : ¬ S.Accepts a i) :
    S.step a i = a := by
  cases hq : S.demand i with
  | none => simp [step,hq]
  | some q =>
    have hfits : ¬ q.Fits a := fun hfits => h ⟨q,hq,hfits⟩
    simp [step,hq,Allocation.consider,hfits]

theorem step_balanced {a : Allocation K} (h : a.Balanced p) (i : ι) :
    (S.step a i).Balanced p := by
  obtain ⟨hsum,hfree⟩ := h
  by_cases ha : S.Accepts a i
  · have hfit := ((S.accepts_iff a i).mp ha).2
    rw [S.step_of_accepts ha]
    simp only [Allocation.Balanced,Nat.cast_add]
    omega
  · rw [S.step_of_not_accepts ha]
    exact ⟨hsum,hfree⟩

theorem after_balanced (passes : Nat) : (S.after passes).Balanced p := by
  have hstart : (Allocation.start p).Balanced p := by
    simp [Allocation.Balanced,Allocation.start]
  exact List.foldlRecOn (motive := fun a => a.Balanced p) _ S.step hstart
    (fun a h i _ => S.step_balanced h i)

/-- The accumulators are sums over those the loop serves. -/
theorem foldl_step (a : Allocation K) (l : List ι) :
    l.foldl S.step a =
      { rbsUsed := a.rbsUsed + Greedy.total S.cost (S.servedFrom a l)
        servedUEs := a.servedUEs + Greedy.total S.size (S.servedFrom a l)
        totalBitrate := a.totalBitrate + ((S.servedFrom a l).map S.bitrate).sum
        availableRBs := a.availableRBs - Greedy.total S.cost (S.servedFrom a l) } := by
  induction l generalizing a with
  | nil => simp [servedFrom]
  | cons i l ih =>
    rw [List.foldl_cons,ih]
    by_cases ha : S.Accepts a i
    · simp only [servedFrom,if_pos ha,Greedy.total_cons,List.map_cons,List.sum_cons,
        S.step_of_accepts ha,Nat.cast_add,add_assoc,sub_sub]
    · simp only [servedFrom,if_neg ha,S.step_of_not_accepts ha]

/-- The loop is the greedy allocation of the eligible ones. -/
theorem servedFrom_eq_greedy (a : Allocation K) (free : Nat) (hfree : a.availableRBs = free)
    (l : List ι) :
    S.servedFrom a l = Greedy.served S.cost free (l.filter (fun i => S.Eligible i)) := by
  induction l generalizing a free with
  | nil => rfl
  | cons i l ih =>
    have hacc := S.accepts_iff a i
    rw [hfree] at hacc
    by_cases he : S.Eligible i
    · by_cases hfit : S.cost i ≤ free
      · have ha : S.Accepts a i := hacc.mpr ⟨he,by exact_mod_cast hfit⟩
        have hstep : (S.step a i).availableRBs = (free - S.cost i : Nat) := by
          rw [S.step_of_accepts ha]
          simp only
          omega
        simp [servedFrom,Greedy.served,ha,he,hfit,ih _ _ hstep]
      · have ha : ¬ S.Accepts a i := fun ha => hfit (by exact_mod_cast (hacc.mp ha).2)
        simp [servedFrom,Greedy.served,ha,he,hfit,S.step_of_not_accepts ha,ih a free hfree]
    · have ha : ¬ S.Accepts a i := fun ha => he (hacc.mp ha).1
      simp [servedFrom,ha,he,S.step_of_not_accepts ha,ih a free hfree]

theorem served_eq_greedy : S.served = Greedy.served S.cost p.numResourceBlocks S.eligible :=
  S.servedFrom_eq_greedy _ _ rfl S.order

theorem run_rbsUsed : S.run.rbsUsed = Greedy.total S.cost S.served := by
  simp [run,served,foldl_step,Allocation.start]

theorem run_servedUEs : S.run.servedUEs = Greedy.total S.size S.served := by
  simp [run,served,foldl_step,Allocation.start]

theorem run_totalBitrate : S.run.totalBitrate = (S.served.map S.bitrate).sum := by
  simp [run,served,foldl_step,Allocation.start]

theorem run_rbsUsed_le : S.run.rbsUsed ≤ p.numResourceBlocks := by
  rw [S.run_rbsUsed,S.served_eq_greedy]
  exact Greedy.total_served_le _ _ _

theorem served_sublist_eligible : S.served.Sublist S.eligible := by
  rw [S.served_eq_greedy]
  exact Greedy.served_sublist _ _ _

theorem served_sublist : S.served.Sublist S.order :=
  S.served_sublist_eligible.trans List.filter_sublist

theorem eligible_of_served {i : ι} (h : i ∈ S.served) : S.Eligible i :=
  (S.mem_eligible.mp (S.served_sublist_eligible.subset h)).2

theorem lt_cost_of_not_served {i : ι} (hi : i ∈ S.order) (he : S.Eligible i)
    (hnot : i ∉ S.served) : p.numResourceBlocks - S.run.rbsUsed < S.cost i := by
  rw [S.run_rbsUsed]
  rw [S.served_eq_greedy] at hnot ⊢
  exact Greedy.lt_cost_of_not_served _ (S.mem_eligible.mpr ⟨hi,he⟩) hnot

theorem efficiency_eq (latency : K) :
    (S.run.result p latency).efficiency =
      S.run.totalBitrate / (p.numResourceBlocks * rbBandwidth p) := by
  by_cases hused : S.run.rbsUsed > 0
  · simp [Allocation.result,hused]
  · have hnil : S.served = [] := by
      rw [List.eq_nil_iff_forall_not_mem]
      intro i hi
      have hcost := S.cost_pos (S.eligible_of_served hi)
      have hle := Greedy.cost_le_total S.cost hi
      rw [S.run_rbsUsed] at hused
      omega
    simp [Allocation.result,hused,S.run_totalBitrate,hnil]

variable [IsStrictOrderedRing K]

theorem efficiency_le {m : K} (hm : 0 ≤ m) (h : ∀ i ∈ S.served,S.size i * S.spectralEff i ≤ m)
    (latency : K) : (S.run.result p latency).efficiency ≤ m := by
  have hband := rbBandwidth_pos p
  have hrate : ∀ i ∈ S.served,S.bitrate i ≤ S.cost i * (m * rbBandwidth p) := by
    intro i hi
    calc S.bitrate i
        = S.cost i * (S.size i * S.spectralEff i * rbBandwidth p) := by rw [bitrate]; ring
      _ ≤ S.cost i * (m * rbBandwidth p) := by gcongr; exact h i hi
  have hsum : S.run.totalBitrate ≤ S.run.rbsUsed * (m * rbBandwidth p) := by
    rw [S.run_totalBitrate,S.run_rbsUsed]
    calc (S.served.map S.bitrate).sum
        ≤ (S.served.map (fun i => (S.cost i : K) * (m * rbBandwidth p))).sum :=
          List.sum_le_sum hrate
      _ = Greedy.total S.cost S.served * (m * rbBandwidth p) := by
          rw [List.sum_map_mul_right,Greedy.total,Nat.cast_list_sum,List.map_map]; rfl
  have hle : (S.run.rbsUsed : K) ≤ p.numResourceBlocks := by exact_mod_cast S.run_rbsUsed_le
  rw [S.efficiency_eq]
  refine div_le_of_le_mul₀ (by positivity) hm ?_
  calc S.run.totalBitrate
      ≤ S.run.rbsUsed * (m * rbBandwidth p) := hsum
    _ ≤ p.numResourceBlocks * (m * rbBandwidth p) := by gcongr
    _ = m * (p.numResourceBlocks * rbBandwidth p) := by ring

theorem efficiency_atMostLargest
    (heff : ∀ sinr,-3 ≤ sinr → 0 < calculateSpectralEfficiency f sinr) (latency : K) :
    AtMostLargest (S.run.result p latency).efficiency S.served
      (fun i => S.size i * S.spectralEff i) := by
  by_cases hnil : S.served = []
  · left
    simp [hnil,S.efficiency_eq,S.run_totalBitrate]
  · right
    obtain ⟨i,hi,hmax⟩ := Set.exists_max_image _ (fun i => S.size i * S.spectralEff i)
      (List.finite_toSet S.served) (List.exists_mem_of_ne_nil _ hnil)
    have hpos := S.spectralEff_pos heff (S.eligible_of_served hi)
    exact ⟨i,hi,hmax,S.efficiency_le (by positivity) hmax latency⟩

end Schedule

section Loops

variable (d : UeData K) (f : Maths K) (p : SimParams K)

theorem unicast_size (ue : Fin d.numUEs) : (unicast d f p).size ue = 1 := rfl

theorem total_unicast_size (ues : List (Fin d.numUEs)) :
    Greedy.total (unicast d f p).size ues = ues.length := by
  rw [Greedy.total_const (c := 1) _ _ (fun ue _ => unicast_size d f p ue),mul_one]

theorem unicast_eligible_iff (ue : Fin d.numUEs) :
    (unicast d f p).Eligible ue ↔ -3 ≤ d.sinr f p ue := by
  simp [Schedule.Eligible,unicast,Demand.Eligible]

theorem multicast_demand_eq_some {group : Nat} {q : Demand f p} :
    (multicast d f p).demand group = some q ↔
      d.worstSINR f p group = some q.sinr ∧ d.maxRequiredBitrate group = some q.bitrate ∧
        q.members = (d.groupUEs group).length := by
  obtain ⟨sinr,bitrate,members⟩ := q
  simp only [multicast,Option.bind_eq_bind,Option.bind_eq_some_iff,Option.pure_def,
    Option.some.injEq,Demand.mk.injEq]
  constructor
  · rintro ⟨_,hworst,_,hrate,rfl,rfl,rfl⟩
    exact ⟨hworst,hrate,rfl⟩
  · rintro ⟨hworst,hrate,hmembers⟩
    exact ⟨sinr,hworst,bitrate,hrate,rfl,rfl,hmembers.symm⟩

theorem multicast_demand_eq_none {group : Nat} :
    (multicast d f p).demand group = none ↔ d.groupUEs group = [] := by
  cases hg : d.groupUEs group with
  | nil => simp [multicast,UeData.worstSINR,hg]
  | cons ue l => simp [multicast,UeData.worstSINR,UeData.maxRequiredBitrate,hg]

theorem multicast_size (group : Nat) :
    (multicast d f p).size group = (d.groupUEs group).length := by
  cases hq : (multicast d f p).demand group with
  | none => simp [Schedule.size,hq,(multicast_demand_eq_none d f p).mp hq]
  | some q => simpa [Schedule.size,hq] using ((multicast_demand_eq_some d f p).mp hq).2.2

theorem total_multicast_size (groups : List Nat) :
    Greedy.total (multicast d f p).size groups = (groups.flatMap d.groupUEs).length := by
  have hsize : (multicast d f p).size = fun group => (d.groupUEs group).length :=
    funext (multicast_size d f p)
  rw [hsize,Greedy.total,List.length_flatMap]

theorem multicast_size_pos {group : Nat} (h : group ∈ d.uniqueGroups) :
    0 < (multicast d f p).size group := by
  rw [multicast_size]
  exact List.length_pos_of_ne_nil (d.groupUEs_ne_nil h)

theorem total_size_uniqueGroups :
    Greedy.total (multicast d f p).size d.uniqueGroups = d.numUEs := by
  rw [total_multicast_size,d.flatMap_groupUEs_perm.length_eq,List.length_finRange]

theorem min_le_total_size_take (k : Nat) :
    min k d.numUEs ≤ Greedy.total (multicast d f p).size (d.uniqueGroups.take k) := by
  by_cases hk : d.uniqueGroups.length ≤ k
  · rw [List.take_of_length_le hk,total_size_uniqueGroups]
    exact min_le_right _ _
  · have hpos : ∀ group ∈ d.uniqueGroups.take k,0 < (multicast d f p).size group :=
      fun group hgroup => multicast_size_pos d f p (List.mem_of_mem_take hgroup)
    have hlen := Greedy.length_le_total _ hpos
    rw [List.length_take] at hlen
    omega

theorem exists_multicast_demand {group : Nat} (h : group ∈ d.uniqueGroups) :
    ∃ q,(multicast d f p).demand group = some q := by
  rw [← Option.ne_none_iff_exists']
  intro hnone
  exact d.groupUEs_ne_nil h ((multicast_demand_eq_none d f p).mp hnone)

theorem multicast_eligible_iff (group : Nat) :
    (multicast d f p).Eligible group ↔ ∃ worst ∈ d.worstSINR f p group,-3 ≤ worst := by
  constructor
  · rintro ⟨q,hq,he⟩
    exact ⟨q.sinr,((multicast_demand_eq_some d f p).mp hq).1,not_lt.mp he⟩
  · rintro ⟨worst,hworst,hle⟩
    cases hq : (multicast d f p).demand group with
    | none =>
      have hnil := (multicast_demand_eq_none d f p).mp hq
      simp [UeData.worstSINR,hnil] at hworst
    | some q =>
      have hsinr := ((multicast_demand_eq_some d f p).mp hq).1
      rw [Option.mem_def,hsinr,Option.some.injEq] at hworst
      subst hworst
      exact ⟨q,hq,not_lt.mpr hle⟩

/-- A group of eligible UEs is eligible: its worst SINR is that of one of them. -/
theorem multicast_eligible_of_unicast (h : ∀ ue,(unicast d f p).Eligible ue) {group : Nat}
    (hgroup : group ∈ d.uniqueGroups) : (multicast d f p).Eligible group := by
  obtain ⟨q,hq⟩ := exists_multicast_demand d f p hgroup
  obtain ⟨ue,-,hue⟩ := ((d.worstSINR_eq_some f p).mp ((multicast_demand_eq_some d f p).mp hq).1).1
  have hsinr := (unicast_eligible_iff d f p ue).mp (h ue)
  rw [hue] at hsinr
  exact ⟨q,hq,not_lt.mpr hsinr⟩

variable [FloorRing K]

end Loops

/-- Two UEs of one group: one with a weak channel that asks for little, one with a
strong channel that asks for much. -/
def mixed {K : Type} [Field K] [LinearOrder K] [FloorRing K] (p : SimParams K) : UeData K :=
  generateUEScenario p 2 ![-148,-128] ![500000,2000000]

def strongUe (p : SimParams Rat) : Fin (mixed p).numUEs := (1 : Fin 2)

def fewBlocks : SimParams Rat := { simParams with numResourceBlocks := 4 }

section Results

-- The scenario is any: the results hold for every assignment of groups, that of
-- `generateUEScenario` among them.
variable [FloorRing K] (d : UeData K) (f : Maths K) (p : SimParams K)

/-- A request is refused against the blocks left at its turn, and still does not fit
into those left at the end. -/
theorem allocation_maximal :
    (∀ ue,-3 ≤ d.sinr f p ue → ue ∉ (unicast d f p).served →
      p.numResourceBlocks - (simulateUnicast d f p).rbsUsed < (unicast d f p).cost ue ∧
      p.numResourceBlocks < (simulateUnicast d f p).rbsUsed + (unicast d f p).cost ue) ∧
    ∀ group ∈ d.uniqueGroups,∀ worst ∈ d.worstSINR f p group,-3 ≤ worst →
      group ∉ (multicast d f p).served →
      p.numResourceBlocks - (simulateMulticast d f p).rbsUsed < (multicast d f p).cost group ∧
      p.numResourceBlocks < (simulateMulticast d f p).rbsUsed + (multicast d f p).cost group := by
  constructor
  · intro ue hsinr hnot
    have he := (unicast_eligible_iff d f p ue).mpr hsinr
    have hlt := (unicast d f p).lt_cost_of_not_served (List.mem_finRange ue) he hnot
    simp only [simulateUnicast,Allocation.result]
    omega
  · intro group hgroup worst hworst hle hnot
    have he := (multicast_eligible_iff d f p group).mpr ⟨worst,hworst,hle⟩
    have hlt := (multicast d f p).lt_cost_of_not_served hgroup he hnot
    simp only [simulateMulticast,Allocation.result]
    omega

theorem allocation_maximal_mixed :
    (strongUe fewBlocks ∉ (unicast (mixed fewBlocks) Maths.rounded fewBlocks).served ∧
      4 < (simulateUnicast (mixed fewBlocks) Maths.rounded fewBlocks).rbsUsed +
        (unicast (mixed fewBlocks) Maths.rounded fewBlocks).cost (strongUe fewBlocks)) ∧
    1 ∉ (multicast (mixed fewBlocks) Maths.rounded fewBlocks).served ∧
      4 < (simulateMulticast (mixed fewBlocks) Maths.rounded fewBlocks).rbsUsed +
        (multicast (mixed fewBlocks) Maths.rounded fewBlocks).cost 1 := by
  have hmax := allocation_maximal (mixed fewBlocks) Maths.rounded fewBlocks
  have huni : strongUe fewBlocks ∉ (unicast (mixed fewBlocks) Maths.rounded fewBlocks).served := by
    decide +kernel
  have hmulti : 1 ∉ (multicast (mixed fewBlocks) Maths.rounded fewBlocks).served := by
    decide +kernel
  have hworst : (mixed fewBlocks).worstSINR Maths.rounded fewBlocks 1 = some 0 := by
    decide +kernel
  exact ⟨⟨huni,(hmax.1 (strongUe fewBlocks) (by decide +kernel) huni).2⟩,hmulti,
    (hmax.2 1 (by decide +kernel) 0 hworst (by norm_num) hmulti).2⟩

variable [IsStrictOrderedRing K]

/-- The two halves are the two loops. A pass of a loop that serves nobody leaves the
blocks as they are. -/
theorem resource_blocks_conserved
    (heff : ∀ sinr,-3 ≤ sinr → 0 < calculateSpectralEfficiency f sinr) :
    ((∀ passes,((unicast d f p).after passes).Balanced p) ∧
      (simulateUnicast d f p).rbsUsed = Greedy.total (unicast d f p).cost (unicast d f p).served ∧
      (unicast d f p).served.Nodup ∧
      (simulateUnicast d f p).servedUEs = (unicast d f p).served.length ∧
      (simulateUnicast d f p).servedUEs ≤ d.numUEs ∧
      (simulateUnicast d f p).servedUEs ≤ (simulateUnicast d f p).rbsUsed ∧
      AtMostLargest (simulateUnicast d f p).efficiency (unicast d f p).served
        (fun ue => calculateSpectralEfficiency f (d.sinr f p ue))) ∧
    ((∀ passes,((multicast d f p).after passes).Balanced p) ∧
      (simulateMulticast d f p).rbsUsed =
        Greedy.total (multicast d f p).cost (multicast d f p).served ∧
      ((multicast d f p).served.flatMap d.groupUEs).Nodup ∧
      (simulateMulticast d f p).servedUEs =
        ((multicast d f p).served.flatMap d.groupUEs).length ∧
      (simulateMulticast d f p).servedUEs ≤ d.numUEs ∧
      AtMostLargest (simulateMulticast d f p).efficiency (multicast d f p).served
        (fun group => (d.groupUEs group).length * (multicast d f p).spectralEff group)) := by
  constructor
  · let uni := unicast d f p
    have hnodup : uni.served.Nodup := uni.served_sublist.nodup (List.nodup_finRange _)
    have hcount : uni.run.servedUEs = uni.served.length := by
      rw [uni.run_servedUEs,total_unicast_size]
    have hlen : uni.served.length ≤ d.numUEs := by
      simpa [uni,unicast] using uni.served_sublist.length_le
    have hblocks : uni.served.length ≤ Greedy.total uni.cost uni.served :=
      Greedy.length_le_total _ (fun ue hue => uni.cost_pos (uni.eligible_of_served hue))
    have hlargest := uni.efficiency_atMostLargest heff (calculateLatency f d.numUEs .unicast)
    simp only [uni,unicast_size,Nat.cast_one,one_mul] at hlargest
    refine ⟨uni.after_balanced,uni.run_rbsUsed,hnodup,hcount,hcount.trans_le hlen,?_,hlargest⟩
    exact (hcount.trans_le hblocks).trans_eq uni.run_rbsUsed.symm
  · let multi := multicast d f p
    have hnodup : multi.served.Nodup := multi.served_sublist.nodup d.uniqueGroups_nodup
    have hcount : multi.run.servedUEs = (multi.served.flatMap d.groupUEs).length := by
      rw [multi.run_servedUEs,total_multicast_size]
    have hlargest := multi.efficiency_atMostLargest heff (calculateLatency f d.numUEs .multicast)
    simp only [multi,multicast_size] at hlargest
    exact ⟨multi.after_balanced,multi.run_rbsUsed,d.flatMap_groupUEs_nodup hnodup,hcount,
      hcount.trans_le (d.length_flatMap_le hnodup),hlargest⟩

theorem resource_blocks_conserved_mixed :
    (∀ passes,
      ((multicast (mixed simParams) Maths.rounded simParams).after passes).Balanced simParams) ∧
    (simulateMulticast (mixed simParams) Maths.rounded simParams).rbsUsed = 12 ∧
    AtMostLargest (simulateMulticast (mixed simParams) Maths.rounded simParams).efficiency
      (multicast (mixed simParams) Maths.rounded simParams).served
      (fun group => ((mixed simParams).groupUEs group).length *
        (multicast (mixed simParams) Maths.rounded simParams).spectralEff group) := by
  have hall := resource_blocks_conserved (mixed simParams) Maths.rounded simParams
    (fun sinr _ => spectralEfficiency_rounded_pos sinr)
  exact ⟨hall.2.1,by decide +kernel,hall.2.2.2.2.2.2⟩

end Results

section Capacity

variable (d : UeData K) (f : Maths K) (p : SimParams K)

def SimParams.withBlocks (numResourceBlocks : Nat) : SimParams K :=
  { p with numResourceBlocks := numResourceBlocks }

theorem multicast_withBlocks (N : Nat) {group : Nat} {q : Demand f p}
    (hq : (multicast d f p).demand group = some q) :
    (multicast d f (p.withBlocks N)).demand group = some ⟨q.sinr,q.bitrate,q.members⟩ := by
  obtain ⟨hworst,hrate,hmembers⟩ := (multicast_demand_eq_some d f p).mp hq
  exact (multicast_demand_eq_some d f (p.withBlocks N)).mpr ⟨hworst,hrate,hmembers⟩

theorem unicast_eligible_withBlocks (N : Nat) :
    (unicast d f (p.withBlocks N)).eligible = (unicast d f p).eligible := by
  refine List.filter_congr (fun ue _ => ?_)
  simp only [unicast_eligible_iff]
  rfl

theorem multicast_eligible_withBlocks (N : Nat) :
    (multicast d f (p.withBlocks N)).eligible = (multicast d f p).eligible := by
  refine List.filter_congr (fun group _ => ?_)
  simp only [multicast_eligible_iff]
  rfl

variable [FloorRing K]

theorem multicast_cost_withBlocks (N : Nat) :
    (multicast d f (p.withBlocks N)).cost = (multicast d f p).cost := by
  funext group
  cases hq : (multicast d f p).demand group with
  | none =>
    have hnil := (multicast_demand_eq_none d f p).mp hq
    have hq' := (multicast_demand_eq_none d f (p.withBlocks N)).mpr hnil
    simp [Schedule.cost,hq,hq']
  | some q =>
    rw [(multicast d f p).cost_of_mem hq,Schedule.cost_of_mem _ (multicast_withBlocks d f p N hq)]
    rfl

/-- A schedule that goes through the same requests at the same costs whatever the number
of blocks uses no fewer of them when there are more. -/
theorem rbsUsed_mono_of_same {ι : Type} {cost : ι → Nat} {requests : List ι}
    (S : (N : Nat) → Schedule f (p.withBlocks N) ι) (hcost : ∀ N,(S N).cost = cost)
    (hrequests : ∀ N,(S N).eligible = requests) {N N' : Nat} (h : N ≤ N') :
    (S N).run.rbsUsed ≤ (S N').run.rbsUsed := by
  have hused : ∀ N,(S N).run.rbsUsed = Greedy.total cost (Greedy.served cost N requests) := by
    intro N
    rw [(S N).run_rbsUsed,(S N).served_eq_greedy,hcost,hrequests]
    rfl
  rw [hused,hused]
  exact Greedy.total_served_mono cost h requests

theorem rbsUsed_monotone {N N' : Nat} (h : N ≤ N') :
    (simulateUnicast d f (p.withBlocks N)).rbsUsed ≤
      (simulateUnicast d f (p.withBlocks N')).rbsUsed ∧
    (simulateMulticast d f (p.withBlocks N)).rbsUsed ≤
      (simulateMulticast d f (p.withBlocks N')).rbsUsed := by
  constructor
  · have hcost : ∀ N,(unicast d f (p.withBlocks N)).cost = (unicast d f p).cost := fun _ => rfl
    exact rbsUsed_mono_of_same f p (fun N => unicast d f (p.withBlocks N)) hcost
      (unicast_eligible_withBlocks d f p) h
  · exact rbsUsed_mono_of_same f p (fun N => multicast d f (p.withBlocks N))
      (multicast_cost_withBlocks d f p) (multicast_eligible_withBlocks d f p) h

/-- The weak UE takes 3 blocks and the strong one 2: with 2 blocks only the strong one
is served, with 3 only the weak one. -/
theorem rbsUsed_monotone_mixed :
    ((unicast (mixed simParams) Maths.rounded (simParams.withBlocks 2)).served.map Fin.val = [1] ∧
      (unicast (mixed simParams) Maths.rounded (simParams.withBlocks 3)).served.map Fin.val = [0]) ∧
    (simulateUnicast (mixed simParams) Maths.rounded (simParams.withBlocks 2)).rbsUsed ≤
      (simulateUnicast (mixed simParams) Maths.rounded (simParams.withBlocks 3)).rbsUsed :=
  ⟨by decide +kernel,(rbsUsed_monotone (mixed simParams) Maths.rounded simParams (by decide)).1⟩

end Capacity

end GrpKeySec.PhysicalLayer
