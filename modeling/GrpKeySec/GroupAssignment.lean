import Mathlib.Data.Int.CardIntervalMod
import GrpKeySec.UeGroups
set_option autoImplicit false

/-!
The groups that generateUEScenario deals its UEs into, one after the other, and the
number of them that calculateLatency charges.
-/

namespace GrpKeySec.PhysicalLayer

/-- The UEs are dealt into groups in turn. -/
def UeData.Dealt {K : Type} (d : UeData K) (groups : Nat) : Prop :=
  ∀ ue,d.groupRNTI ue = ue.val % groups + 1

namespace UeData.Dealt

variable {K : Type} {d : UeData K} {groups : Nat} (h : d.Dealt groups) (hpos : 0 < groups)
include h

include hpos in
theorem mem_uniqueGroups_iff (hle : groups ≤ d.numUEs) (group : Nat) :
    group ∈ d.uniqueGroups ↔ 1 ≤ group ∧ group ≤ groups := by
  rw [d.mem_uniqueGroups]
  constructor
  · rintro ⟨ue,rfl⟩
    have hlt := Nat.mod_lt ue.val hpos
    rw [h ue]
    omega
  · rintro ⟨hone,hlast⟩
    have hlt : group - 1 < d.numUEs := by omega
    refine ⟨⟨group - 1,hlt⟩,?_⟩
    have hlabel : d.groupRNTI ⟨group - 1,hlt⟩ = (group - 1) % groups + 1 := h _
    rw [hlabel,Nat.mod_eq_of_lt (by omega)]
    omega

include hpos in
theorem length_uniqueGroups (hle : groups ≤ d.numUEs) : d.uniqueGroups.length = groups := by
  have hperm : d.uniqueGroups.Perm (List.range' 1 groups) := by
    rw [List.perm_ext_iff_of_nodup d.uniqueGroups_nodup List.nodup_range']
    intro group
    rw [h.mem_uniqueGroups_iff hpos hle,List.mem_range'_1]
    omega
  rw [hperm.length_eq,List.length_range']

include hpos in
theorem length_groupUEs {k : Nat} (hk : k < groups) :
    (d.groupUEs (k + 1)).length =
      d.numUEs / groups + if k < d.numUEs % groups then 1 else 0 := by
  have hcount := Nat.count_modEq_card d.numUEs hpos k
  rw [Nat.mod_eq_of_lt hk,Nat.count,← List.map_coe_finRange_eq_range,List.countP_map] at hcount
  rw [UeData.groupUEs,← List.countP_eq_length_filter,← hcount]
  refine List.countP_congr (fun ue _ => ?_)
  simp [h ue,Nat.ModEq,Nat.mod_eq_of_lt hk]

include hpos in
theorem length_groupUEs_le {size : Nat} (hfits : d.numUEs ≤ groups * size) {k : Nat}
    (hk : k < groups) : (d.groupUEs (k + 1)).length ≤ size := by
  have hdiv := Nat.div_add_mod d.numUEs groups
  have hle : groups * (d.numUEs / groups) ≤ groups * size := by omega
  have hquot : d.numUEs / groups ≤ size := Nat.le_of_mul_le_mul_left hle hpos
  rw [h.length_groupUEs hpos hk]
  by_cases hfirst : k < d.numUEs % groups
  · -- a remainder leaves no room for full groups
    have hne : d.numUEs / groups ≠ size := by
      rintro rfl
      omega
    rw [if_pos hfirst]
    omega
  · rw [if_neg hfirst]
    exact hquot

include hpos in
theorem length_groupUEs_close {k k' : Nat} (hk : k < groups) (hk' : k' < groups) :
    (d.groupUEs (k + 1)).length ≤ (d.groupUEs (k' + 1)).length + 1 := by
  rw [h.length_groupUEs hpos hk,h.length_groupUEs hpos hk']
  split <;> omega

end UeData.Dealt

variable {K : Type} [Field K] [LinearOrder K] [FloorRing K]

def numGroups (p : SimParams K) (numUEs : Nat) : Nat := max 1 ⌈(numUEs : K) / p.groupSize⌉₊

theorem numGroups_pos (p : SimParams K) (n : Nat) : 0 < numGroups p n :=
  lt_max_of_lt_left one_pos

theorem scenario_dealt (p : SimParams K) (numUEs : Nat)
    (channelGain requiredBitrate : Fin numUEs → K) :
    (generateUEScenario p numUEs channelGain requiredBitrate).Dealt (numGroups p numUEs) :=
  fun _ => rfl

theorem groupSize_pos (p : SimParams K) : 0 < p.groupSize :=
  lt_of_lt_of_le one_pos p.one_le_groupSize

variable [IsStrictOrderedRing K]

theorem numGroups_le (p : SimParams K) {n : Nat} (hn : 1 ≤ n) : numGroups p n ≤ n := by
  have hle : (n : K) / p.groupSize ≤ n := div_le_self n.cast_nonneg p.one_le_groupSize
  exact max_le hn (Nat.ceil_le.mpr hle)

theorem le_numGroups_mul (p : SimParams K) (n : Nat) : (n : K) ≤ numGroups p n * p.groupSize := by
  have hceil : (n : K) / p.groupSize ≤ ⌈(n : K) / p.groupSize⌉₊ := Nat.le_ceil _
  have hmax : (⌈(n : K) / p.groupSize⌉₊ : K) ≤ numGroups p n := by
    exact_mod_cast le_max_right 1 _
  exact (div_le_iff₀ (groupSize_pos p)).mp (hceil.trans hmax)

theorem groups_balanced (p : SimParams K) {size : Nat} (hsize : p.groupSize = size) {numUEs : Nat}
    (hn : 1 ≤ numUEs) (channelGain requiredBitrate : Fin numUEs → K) {d : UeData K}
    (hd : d = generateUEScenario p numUEs channelGain requiredBitrate) :
    (∀ group,(∃ ue,d.groupRNTI ue = group) ↔
      1 ≤ group ∧ group ≤ max 1 ⌈(numUEs : K) / size⌉₊) ∧
    d.uniqueGroups.Pairwise (fun g g' => (d.groupUEs g).Disjoint (d.groupUEs g')) ∧
    (∀ ue,∃ group ∈ d.uniqueGroups,ue ∈ d.groupUEs group) ∧
    (∀ group ∈ d.uniqueGroups,(d.groupUEs group).length ≤ size) ∧
    ∀ g ∈ d.uniqueGroups,∀ g' ∈ d.uniqueGroups,
      (d.groupUEs g).length ≤ (d.groupUEs g').length + 1 := by
  have hdealt : d.Dealt (numGroups p numUEs) := by
    rw [hd]
    exact scenario_dealt p numUEs channelGain requiredBitrate
  have hues : d.numUEs = numUEs := by rw [hd]; rfl
  have hpos := numGroups_pos p numUEs
  have hgroups : numGroups p numUEs ≤ d.numUEs := by
    rw [hues]
    exact numGroups_le p hn
  have hlabels := hdealt.mem_uniqueGroups_iff hpos hgroups
  have hfits : d.numUEs ≤ numGroups p numUEs * size := by
    have hle := le_numGroups_mul p numUEs
    rw [hsize] at hle
    rw [hues]
    exact_mod_cast hle
  -- a label of the loop is one more than a residue
  have hresidue : ∀ {group},group ∈ d.uniqueGroups →
      ∃ k,k < numGroups p numUEs ∧ group = k + 1 := by
    intro group hgroup
    have hrange := (hlabels group).mp hgroup
    exact ⟨group - 1,by omega,by omega⟩
  refine ⟨?_,?_,?_,?_,?_⟩
  · intro group
    rw [← d.mem_uniqueGroups,hlabels,numGroups,hsize]
  · exact (List.nodup_flatMap.mp (d.flatMap_groupUEs_nodup d.uniqueGroups_nodup)).2
  · intro ue
    exact ⟨d.groupRNTI ue,d.mem_uniqueGroups.mpr ⟨ue,rfl⟩,d.mem_groupUEs.mpr rfl⟩
  · intro group hgroup
    obtain ⟨k,hk,rfl⟩ := hresidue hgroup
    exact hdealt.length_groupUEs_le hpos hfits hk
  · intro g hg g' hg'
    obtain ⟨k,hk,rfl⟩ := hresidue hg
    obtain ⟨k',hk',rfl⟩ := hresidue hg'
    exact hdealt.length_groupUEs_close hpos hk hk'

def twentyFive : UeData Rat := generateUEScenario simParams 25 (fun _ => 0) (fun _ => 1)

theorem groups_balanced_twentyFive :
    (twentyFive.uniqueGroups.map (fun group => (twentyFive.groupUEs group).length) = [9,8,8]) ∧
    (∀ group ∈ twentyFive.uniqueGroups,(twentyFive.groupUEs group).length ≤ 10) ∧
    ∀ g ∈ twentyFive.uniqueGroups,∀ g' ∈ twentyFive.uniqueGroups,
      (twentyFive.groupUEs g).length ≤ (twentyFive.groupUEs g').length + 1 := by
  have hsize : simParams.groupSize = ((10 : Nat) : Rat) := by norm_num [simParams,scriptParams]
  have hbalanced := groups_balanced simParams hsize (by decide : 1 ≤ 25) (fun _ => 0) (fun _ => 1)
    (rfl : twentyFive = _)
  exact ⟨by decide +kernel,hbalanced.2.2.2⟩

/-- With groups of 10 and with groups of the group size, k groups are too few for the
UEs and k + 1 are enough. -/
@[mk_iff]
structure NeedsOneMore (p : SimParams K) (numUEs k : Nat) : Prop where
  few : k * max 10 p.groupSize < (numUEs : K)
  enough : (numUEs : K) ≤ (k + 1) * min 10 p.groupSize

def SameGroups (p : SimParams K) (numUEs : Nat) : Prop := ∃ k,NeedsOneMore p numUEs k

theorem ceil_div_eq_succ_iff {s : K} (hs : 0 < s) (n k : Nat) :
    ⌈(n : K) / s⌉₊ = k + 1 ↔ k * s < (n : K) ∧ (n : K) ≤ (k + 1) * s := by
  rw [Nat.ceil_eq_iff k.succ_ne_zero,lt_div_iff₀ hs,div_le_iff₀ hs]
  simp

theorem one_le_ceil_div_iff {s : K} (hs : 0 < s) (n : Nat) : 1 ≤ ⌈(n : K) / s⌉₊ ↔ 1 ≤ n := by
  rw [Nat.one_le_ceil_iff,div_pos_iff_of_pos_right hs,Nat.cast_pos]
  rfl

theorem sameGroups_iff (p : SimParams K) (n : Nat) :
    SameGroups p n ↔ 1 ≤ n ∧ ⌈(n : K) / 10⌉₊ = ⌈(n : K) / p.groupSize⌉₊ := by
  have hten : (0 : K) < 10 := by norm_num
  have hsize := groupSize_pos p
  have hboth : SameGroups p n ↔
      ∃ k : Nat,⌈(n : K) / 10⌉₊ = k + 1 ∧ ⌈(n : K) / p.groupSize⌉₊ = k + 1 := by
    unfold SameGroups
    refine exists_congr (fun k => ?_)
    have hk : (0 : K) ≤ k := k.cast_nonneg
    have hk' : (0 : K) ≤ k + 1 := by linarith
    rw [needsOneMore_iff,ceil_div_eq_succ_iff hten,ceil_div_eq_succ_iff hsize,
      mul_max_of_nonneg _ _ hk,max_lt_iff,mul_min_of_nonneg _ _ hk',le_min_iff]
    exact and_and_and_comm
  have hone := one_le_ceil_div_iff hten n
  rw [hboth,← hone]
  constructor
  · rintro ⟨k,hk,hk'⟩
    omega
  · rintro ⟨hpos,heq⟩
    exact ⟨⌈(n : K) / 10⌉₊ - 1,by omega,by omega⟩

/-- The numGroups of calculateLatency is the number of groups of the loop for those
numbers of UEs only. -/
theorem latency_groups_iff (f : Maths K) (p : SimParams K) {numUEs : Nat}
    (channelGain requiredBitrate : Fin numUEs → K) :
    calculateLatency f numUEs .multicast =
      1.5 + 0.1 * (latencyGroups K numUEs : K) + 0.02 * f.pow (latencyGroups K numUEs) 1.2 ∧
    (latencyGroups K numUEs =
        (multicast (generateUEScenario p numUEs channelGain requiredBitrate) f p).order.length ↔
      SameGroups p numUEs) := by
  refine ⟨rfl,?_⟩
  have hdealt := scenario_dealt p numUEs channelGain requiredBitrate
  have horder : (multicast (generateUEScenario p numUEs channelGain requiredBitrate) f p).order =
      (generateUEScenario p numUEs channelGain requiredBitrate).uniqueGroups := rfl
  rw [sameGroups_iff,horder]
  by_cases hn : 1 ≤ numUEs
  · have hten := (one_le_ceil_div_iff (show (0 : K) < 10 by norm_num) numUEs).mpr hn
    have hsize := (one_le_ceil_div_iff (groupSize_pos p) numUEs).mpr hn
    rw [hdealt.length_uniqueGroups (numGroups_pos p numUEs) (numGroups_le p hn),latencyGroups,
      numGroups,max_eq_right hten,max_eq_right hsize]
    exact (and_iff_right hn).symm
  · -- no UE, no group, and latency for one
    have hlen : (generateUEScenario p numUEs channelGain requiredBitrate).uniqueGroups.length ≤
        numUEs := UeData.length_uniqueGroups_le _
    have hone : 1 ≤ latencyGroups K numUEs := le_max_left _ _
    constructor
    · intro h
      omega
    · intro h
      exact absurd h.1 hn

theorem latency_groups_twentyFive :
    SameGroups simParams 25 ∧
    latencyGroups Rat 25 = (multicast twentyFive Maths.rounded simParams).order.length := by
  have hsame : SameGroups simParams 25 :=
    ⟨2,by norm_num [simParams,scriptParams],by norm_num [simParams,scriptParams]⟩
  exact ⟨hsame,(latency_groups_iff Maths.rounded simParams (fun _ => 0) (fun _ => 1)).2.mpr hsame⟩

def groupsOfFive : SimParams Rat :=
  { simParams with groupSize := 5, one_le_groupSize := by norm_num }

theorem latency_for_one_group_of_two :
    latencyGroups Rat 10 = 1 ∧
    (multicast (generateUEScenario groupsOfFive 10 (fun _ => 0) (fun _ => 1)) Maths.rounded
      groupsOfFive).order.length = 2 := by
  decide +kernel

end GrpKeySec.PhysicalLayer
