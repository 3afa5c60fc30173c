import Mathlib.Algebra.Order.Floor.Semiring
import Mathlib.Algebra.Order.Floor.Ring
import Mathlib.Analysis.SpecialFunctions.Log.Base
import Mathlib.Analysis.SpecialFunctions.Pow.Real
import Mathlib.Data.Int.Log
import Mathlib.Data.List.Dedup
import Mathlib.Data.List.FinRange
import Mathlib.Data.List.Sort
import Mathlib.Data.Rat.Floor
set_option autoImplicit false

/-!
The two schedulers of physicalLayerModeling.m and the scenario they run on. Numbers
are in an ordered field with a floor. What the random draws of a scenario give
(channel gains and bitrates) is an input, and so are logarithms and powers.
-/

namespace GrpKeySec.PhysicalLayer

structure Maths (K : Type) where
  log10 : K → K
  log2 : K → K
  pow : K → K → K

variable {K : Type} [Field K] [LinearOrder K] [IsStrictOrderedRing K]

structure SimParams (K : Type) [Field K] [LinearOrder K] where
  subcarrierSpacing : K
  numResourceBlocks : Nat
  numSubcarriers : Nat
  transmitPower : K
  noiseFigure : K
  thermalNoise : K
  groupSize : K
  spacing_pos : 0 < subcarrierSpacing
  subcarriers_pos : 0 < numSubcarriers
  one_le_groupSize : 1 ≤ groupSize

structure UeData (K : Type) where
  numUEs : Nat
  channelGain : Fin numUEs → K
  requiredBitrate : Fin numUEs → K
  groupRNTI : Fin numUEs → Nat

section Formulas

variable (f : Maths K) (p : SimParams K)

def rbBandwidth : K := p.subcarrierSpacing * p.numSubcarriers

def calculateSINR (channelGain : K) : K :=
  let noisePerRB := p.thermalNoise + 10 * f.log10 (rbBandwidth p) + p.noiseFigure
  let receivedPower := p.transmitPower + channelGain
  receivedPower - noisePerRB

def calculateSpectralEfficiency (sinrDb : K) : K := f.log2 (1 + f.pow 10 (sinrDb / 10))

def UeData.sinr (d : UeData K) (ue : Fin d.numUEs) : K := calculateSINR f p (d.channelGain ue)

end Formulas

section Scenario

variable [FloorRing K]

def generateUEScenario (p : SimParams K) (numUEs : Nat)
    (channelGain requiredBitrate : Fin numUEs → K) : UeData K :=
  let numGroups := max 1 ⌈(numUEs : K) / p.groupSize⌉₊
  { numUEs := numUEs
    channelGain := channelGain
    requiredBitrate := requiredBitrate
    groupRNTI := fun ue => ue.val % numGroups + 1 }

inductive Mode where
  | unicast
  | multicast
  deriving DecidableEq, Repr

/-- The number of groups is taken from groups of 10, whatever the group size is. -/
def calculateLatency (f : Maths K) (numUEs : Nat) : Mode → K
  | .unicast =>
    let schedulingDelay : K := 0.1 * numUEs
    let queuingDelay : K := 0.05 * f.pow numUEs 1.5
    1.5 + schedulingDelay + queuingDelay
  | .multicast =>
    let numGroups : Nat := max 1 ⌈(numUEs : K) / 10⌉₊
    let schedulingDelay : K := 0.1 * numGroups
    let queuingDelay : K := 0.02 * f.pow numGroups 1.2
    1.5 + schedulingDelay + queuingDelay

def latencyGroups (K : Type) [Field K] [LinearOrder K] [FloorRing K] (numUEs : Nat) : Nat :=
  max 1 ⌈(numUEs : K) / 10⌉₊

end Scenario

section Loop

variable [FloorRing K]

/-- What one pass of a loop asks for: for one UE, or for a group. -/
structure Demand (f : Maths K) (p : SimParams K) where
  sinr : K
  bitrate : K
  members : Nat

variable {f : Maths K} {p : SimParams K}

namespace Demand

variable (q : Demand f p)

def spectralEff : K := calculateSpectralEfficiency f q.sinr

def bitratePerRB : K := q.spectralEff * rbBandwidth p

def requiredRBs : Nat := max 1 ⌈q.bitrate / q.bitratePerRB⌉₊

def Eligible : Prop := ¬ q.sinr < -3

instance : Decidable q.Eligible := inferInstanceAs (Decidable (¬ _))

end Demand

/-- The accumulators of a loop. That the blocks left are never below zero is proved,
so they are an integer here. -/
structure Allocation (K : Type) where
  rbsUsed : Nat
  servedUEs : Nat
  totalBitrate : K
  availableRBs : Int

def Allocation.start (p : SimParams K) : Allocation K := ⟨0,0,0,p.numResourceBlocks⟩

def Allocation.serve (a : Allocation K) (q : Demand f p) : Allocation K :=
  { rbsUsed := a.rbsUsed + q.requiredRBs
    servedUEs := a.servedUEs + q.members
    totalBitrate := a.totalBitrate + q.requiredRBs * q.bitratePerRB * q.members
    availableRBs := a.availableRBs - q.requiredRBs }

def Demand.Fits (q : Demand f p) (a : Allocation K) : Prop :=
  q.Eligible ∧ (q.requiredRBs : Int) ≤ a.availableRBs

instance (q : Demand f p) (a : Allocation K) : Decidable (q.Fits a) :=
  inferInstanceAs (Decidable (_ ∧ _))

def Allocation.consider (a : Allocation K) (q : Demand f p) : Allocation K :=
  if q.Fits a then a.serve q else a

/-- What a loop goes through, in its order. There is no demand where the loop
continues on an empty group. -/
structure Schedule (f : Maths K) (p : SimParams K) (ι : Type) where
  demand : ι → Option (Demand f p)
  order : List ι

namespace Schedule

variable {ι : Type} (S : Schedule f p ι)

def step (a : Allocation K) (i : ι) : Allocation K := (S.demand i).elim a a.consider

def after (passes : Nat) : Allocation K := (S.order.take passes).foldl S.step (.start p)

def run : Allocation K := S.order.foldl S.step (.start p)

def Accepts (a : Allocation K) (i : ι) : Prop := ∃ q ∈ S.demand i,q.Fits a

instance (a : Allocation K) (i : ι) : Decidable (S.Accepts a i) :=
  inferInstanceAs (Decidable (∃ q ∈ S.demand i,_))

def servedFrom : Allocation K → List ι → List ι
  | _,[] => []
  | a,i :: l =>
    if S.Accepts a i then i :: servedFrom (S.step a i) l else servedFrom (S.step a i) l

def served : List ι := S.servedFrom (.start p) S.order

end Schedule

structure Result (K : Type) where
  rbsUsed : Nat
  servedUEs : Nat
  totalBitrate : K
  latency : K
  efficiency : K

def Allocation.result (a : Allocation K) (p : SimParams K) (latency : K) : Result K :=
  { rbsUsed := a.rbsUsed
    servedUEs := a.servedUEs
    totalBitrate := a.totalBitrate
    latency := latency
    efficiency :=
      if a.rbsUsed > 0 then a.totalBitrate / (p.numResourceBlocks * rbBandwidth p) else 0 }

end Loop

section Groups

variable (d : UeData K)

def UeData.uniqueGroups : List Nat := (List.ofFn d.groupRNTI).dedup.insertionSort (· ≤ ·)

def UeData.groupUEs (group : Nat) : List (Fin d.numUEs) :=
  (List.finRange d.numUEs).filter (fun ue => d.groupRNTI ue = group)

variable (f : Maths K) (p : SimParams K)

def UeData.worstSINR (group : Nat) : Option K := ((d.groupUEs group).map (d.sinr f p)).min?

def UeData.maxRequiredBitrate (group : Nat) : Option K :=
  ((d.groupUEs group).map d.requiredBitrate).max?

variable [FloorRing K]

def unicast : Schedule f p (Fin d.numUEs) where
  demand ue := some ⟨d.sinr f p ue,d.requiredBitrate ue,1⟩
  order := List.finRange d.numUEs

/-- Every member of a group gets the bitrate of its blocks. -/
def multicast : Schedule f p Nat where
  demand group := do
    let worstSINR ← d.worstSINR f p group
    let maxRequiredBitrate ← d.maxRequiredBitrate group
    return ⟨worstSINR,maxRequiredBitrate,(d.groupUEs group).length⟩
  order := d.uniqueGroups

def simulateUnicast : Result K :=
  (unicast d f p).run.result p (calculateLatency f d.numUEs .unicast)

def simulateMulticast : Result K :=
  (multicast d f p).run.result p (calculateLatency f d.numUEs .multicast)

end Groups

def scriptParams (K : Type) [Field K] [LinearOrder K] [IsStrictOrderedRing K] : SimParams K where
  subcarrierSpacing := 15e3
  numResourceBlocks := 100
  numSubcarriers := 12
  transmitPower := 43
  noiseFigure := 9
  thermalNoise := -174
  groupSize := (10 : Nat)
  spacing_pos := by norm_num
  subcarriers_pos := Nat.succ_pos 11
  one_le_groupSize := by norm_num

def simParams : SimParams Rat := scriptParams Rat

/-- Logarithms rounded up and exponents rounded down to whole numbers, so that a
scenario can be evaluated. -/
def Maths.rounded : Maths Rat where
  log10 x := Int.clog 10 x
  log2 x := Int.clog 2 x
  pow x y := x ^ ⌊y⌋

noncomputable def Maths.real : Maths Real where
  log10 := Real.logb 10
  log2 := Real.logb 2
  pow x y := x ^ y

theorem spectralEfficiency_real_pos (sinr : Real) :
    0 < calculateSpectralEfficiency Maths.real sinr := by
  have hpow : (0 : Real) < 10 ^ (sinr / 10) := Real.rpow_pos_of_pos (by norm_num) _
  exact Real.logb_pos one_lt_two (by simpa [Maths.real] using hpow)

theorem spectralEfficiency_real_monotone : Monotone (calculateSpectralEfficiency Maths.real) := by
  intro s t hst
  have hpow : (0 : Real) < 10 ^ (s / 10) := Real.rpow_pos_of_pos (by norm_num) _
  have hle : (10 : Real) ^ (s / 10) ≤ 10 ^ (t / 10) :=
    Real.rpow_le_rpow_of_exponent_le (by norm_num) (by linarith)
  simp only [calculateSpectralEfficiency,Maths.real]
  exact Real.logb_le_logb_of_le one_lt_two (by linarith) (by linarith)

theorem spectralEfficiency_rounded_pos (sinr : Rat) :
    0 < calculateSpectralEfficiency Maths.rounded sinr := by
  have hpow : (0 : Rat) < 10 ^ ⌊sinr / 10⌋ := zpow_pos (by norm_num) _
  have hlog : 0 < Int.clog 2 (1 + (10 : Rat) ^ ⌊sinr / 10⌋) :=
    (Int.zpow_lt_iff_lt_clog one_lt_two (by linarith)).mp (by simpa using hpow)
  exact Int.cast_pos.mpr hlog

end GrpKeySec.PhysicalLayer
