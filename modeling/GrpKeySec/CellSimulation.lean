import GrpKeySec.GroupAssignment
import GrpKeySec.MulticastGain
import GrpKeySec.UniMulBro
set_option autoImplicit false

/-!
The whole script around the two schedulers of physicalLayerModeling.m: how a scenario is
drawn, the averages over the iterations, and the figures of the plots and of the report.
What `rand` and `randn` return is an input.
-/

namespace GrpKeySec.PhysicalLayer
open UniMulBro

structure CellMaths (K : Type) extends Maths K where
  sqrt : K → K

section Definitions

variable {K : Type} [Field K] [LinearOrder K]

structure CellParams (K : Type) [Field K] [LinearOrder K] extends SimParams K where
  carrierFreq : K
  shadowFading : K
  minBitrate : K
  maxBitrate : K
  minDistance : K
  maxDistance : K
  maxUEs : Nat
  ueStep : Nat
  numIterations : Nat
  bitrate_le : minBitrate ≤ maxBitrate
  distance_le : minDistance ≤ maxDistance
  blocks_pos : 0 < numResourceBlocks
  iterations_pos : 0 < numIterations

/-- What `rand` gives for the radii and the bitrates and `randn` for the fading. -/
structure Draws (K : Type) [Field K] [LinearOrder K] (numUEs : Nat) where
  radius : Fin numUEs → K
  fading : Fin numUEs → K
  bitrate : Fin numUEs → K
  radius_mem : ∀ ue,0 < radius ue ∧ radius ue < 1
  bitrate_mem : ∀ ue,0 < bitrate ue ∧ bitrate ue < 1

variable (f : CellMaths K) (p : CellParams K)

def calculatePathLoss (distance : K) : K :=
  let fcGHz := p.carrierFreq / 1e9
  let dKm := max (distance / 1000) 0.001
  32.4 + 20 * f.log10 fcGHz + 30 * f.log10 dKm

namespace Draws

variable {numUEs : Nat} (w : Draws K numUEs)

def distance (ue : Fin numUEs) : K :=
  f.sqrt (w.radius ue) * (p.maxDistance - p.minDistance) + p.minDistance

def channelGain (ue : Fin numUEs) : K :=
  -calculatePathLoss f p (w.distance f p ue) + p.shadowFading * w.fading ue

def requiredBitrate (ue : Fin numUEs) : K :=
  p.minBitrate + (p.maxBitrate - p.minBitrate) * w.bitrate ue

def scenario [FloorRing K] : UeData K :=
  generateUEScenario p.toSimParams numUEs (w.channelGain f p) (w.requiredBitrate p)

end Draws

structure Averages (K : Type) where
  bandwidth : K
  latency : K
  efficiency : K
  servedUEs : K
  totalBitrate : K

def averages {n : Nat} (r : Fin n → Result K) : Averages K where
  bandwidth := mean (fun iter => ((r iter).rbsUsed : K))
  latency := mean (fun iter => (r iter).latency)
  efficiency := mean (fun iter => (r iter).efficiency)
  servedUEs := mean (fun iter => ((r iter).servedUEs : K))
  totalBitrate := mean (fun iter => (r iter).totalBitrate)

structure Point (K : Type) where
  numUEs : Nat
  unicast : Averages K
  multicast : Averages K

def CellParams.numUERange : List Nat :=
  (List.range (p.maxUEs / p.ueStep)).map (fun idx => (idx + 1) * p.ueStep)

variable [FloorRing K]

def simulatePoint {numUEs : Nat} (draws : Fin p.numIterations → Draws K numUEs) : Point K where
  numUEs := numUEs
  unicast := averages (fun iter =>
    simulateUnicast ((draws iter).scenario f p) f.toMaths p.toSimParams)
  multicast := averages (fun iter =>
    simulateMulticast ((draws iter).scenario f p) f.toMaths p.toSimParams)

def simulate (draws : (numUEs : Nat) → Fin p.numIterations → Draws K numUEs) : List (Point K) :=
  p.numUERange.map (fun numUEs => simulatePoint f p (draws numUEs))

end Definitions

section Figures

variable {K : Type} [Field K] [LinearOrder K]

def percent : Nat := 100

def Point.bandwidthSavings (pt : Point K) : K :=
  if pt.unicast.bandwidth > 0 then
    max 0 ((1 - pt.multicast.bandwidth / pt.unicast.bandwidth) * percent)
  else 0

def Averages.utilization (a : Averages K) (p : CellParams K) : K :=
  a.bandwidth / p.numResourceBlocks * percent

def Averages.successRatio (a : Averages K) (numUEs : Nat) : K := a.servedUEs / numUEs

/-- No savings where unicast used no block: the script divides by zero there. -/
structure Report (K : Type) where
  maxUnicastRB : K
  maxMulticastRB : K
  bandwidthSavingsPct : Option K
  avgUnicastLatency : K
  avgMulticastLatency : K
  latencyImprovementPct : K
  unicastUtilization : K
  multicastUtilization : K

def summary (p : CellParams K) (results : List (Point K)) (maxUnicastRB maxMulticastRB : K) :
    Report K :=
  let avgUnicastLatency := mean (fun idx => (results.get idx).unicast.latency)
  let avgMulticastLatency := mean (fun idx => (results.get idx).multicast.latency)
  { maxUnicastRB := maxUnicastRB
    maxMulticastRB := maxMulticastRB
    bandwidthSavingsPct :=
      if maxUnicastRB = 0 then none else some ((1 - maxMulticastRB / maxUnicastRB) * percent)
    avgUnicastLatency := avgUnicastLatency
    avgMulticastLatency := avgMulticastLatency
    latencyImprovementPct := (1 - avgMulticastLatency / avgUnicastLatency) * percent
    unicastUtilization := maxUnicastRB / p.numResourceBlocks * percent
    multicastUtilization := maxMulticastRB / p.numResourceBlocks * percent }

/-- There is no report on no point: the script stops at the index 0. -/
def generateSummaryReport (p : CellParams K) (results : List (Point K)) : Option (Report K) := do
  let maxUnicastRB ← (results.map (fun pt => pt.unicast.bandwidth)).max?
  let maxMulticastRB ← (results.map (fun pt => pt.multicast.bandwidth)).max?
  return summary p results maxUnicastRB maxMulticastRB

end Figures

def cellParams (K : Type) [Field K] [LinearOrder K] [IsStrictOrderedRing K] : CellParams K where
  toSimParams := scriptParams K
  carrierFreq := 3.5e9
  shadowFading := 8
  minBitrate := 0.5e6
  maxBitrate := 2e6
  minDistance := 50
  maxDistance := 500
  maxUEs := 100
  ueStep := 10
  numIterations := 10
  bitrate_le := by norm_num
  distance_le := by norm_num
  blocks_pos := Nat.succ_pos 99
  iterations_pos := Nat.succ_pos 9

noncomputable def CellMaths.real : CellMaths Real where
  toMaths := Maths.real
  sqrt := Real.sqrt

end GrpKeySec.PhysicalLayer
