import GrpKeySec.CellSimulation
import GrpKeySec.UniMulBroMatlab
set_option autoImplicit false

/-!
Where the SINRs of UniMulBro come from, and both scripts from the draws on. The MATLAB script
takes the distance of a UE from its position and the Python script from its radius alone; a
UE that the MATLAB script counts as served in every slot gets a draw for each slot in the
Python script.
-/

namespace GrpKeySec.UniMulBro

structure CircleMaths (K : Type) extends PhysicalLayer.CellMaths K where
  cos : K → K
  sin : K → K
  pi : K

noncomputable def CircleMaths.real : CircleMaths Real where
  toCellMaths := PhysicalLayer.CellMaths.real
  cos := Real.cos
  sin := Real.sin
  pi := Real.pi

structure Cell (K : Type) [Field K] [LinearOrder K] where
  cellRadius : K
  txPower : K
  noisePower : K
  radius_pos : 0 < cellRadius

structure Placement (K : Type) [Field K] [LinearOrder K] (numUE : Nat) where
  angle : Fin numUE → K
  radius : Fin numUE → K
  radius_mem : ∀ ue,0 < radius ue ∧ radius ue < 1

section Definitions

variable {K : Type} [Field K] [LinearOrder K] (f : CircleMaths K) (c : Cell K) {numUE : Nat}
  (w : Placement K numUE)

def theta (ue : Fin numUE) : K := (2 : Nat) * f.pi * w.angle ue

def radii (ue : Fin numUE) : K := c.cellRadius * f.sqrt (w.radius ue)

def Python.distances (ue : Fin numUE) : K := f.sqrt (radii f c w ue ^ 2)

def Matlab.uePositions (ue : Fin numUE) : K × K :=
  (radii f c w ue * f.cos (theta f w ue),radii f c w ue * f.sin (theta f w ue))

def Matlab.distances (ue : Fin numUE) : K :=
  f.sqrt ((Matlab.uePositions f c w ue).1 ^ 2 + (Matlab.uePositions f c w ue).2 ^ 2)

def sinrAt (distance : K) : K :=
  let pathLoss := 32.45 + (20 : Nat) * f.log10 (distance / (1000 : Nat)) +
    (20 : Nat) * f.log10 (3.5e9 / 1e6)
  let receivedPower := c.txPower - pathLoss
  receivedPower - c.noisePower

def Python.sinr (ue : Fin numUE) : K := sinrAt f c (Python.distances f c w ue)

def Matlab.sinr (ue : Fin numUE) : K := sinrAt f c (Matlab.distances f c w ue)

end Definitions

def scriptCell (K : Type) [Field K] [LinearOrder K] [IsStrictOrderedRing K] : Cell K :=
  ⟨(500 : Nat),40,-90,by norm_num⟩

section Distances

variable (c : Cell Real) {numUE : Nat} (w : Placement Real numUE)

theorem radii_pos (ue : Fin numUE) : 0 < radii CircleMaths.real c w ue :=
  mul_pos c.radius_pos (Real.sqrt_pos.mpr (w.radius_mem ue).1)

theorem radii_le (ue : Fin numUE) : radii CircleMaths.real c w ue ≤ c.cellRadius := by
  have hsqrt : Real.sqrt (w.radius ue) ≤ 1 := Real.sqrt_le_one.mpr (w.radius_mem ue).2.le
  exact mul_le_of_le_one_right c.radius_pos.le hsqrt

theorem python_distances_eq (ue : Fin numUE) :
    Python.distances CircleMaths.real c w ue = radii CircleMaths.real c w ue :=
  Real.sqrt_sq (radii_pos c w ue).le

theorem matlab_distances_eq (ue : Fin numUE) :
    Matlab.distances CircleMaths.real c w ue = radii CircleMaths.real c w ue := by
  have hcircle := Real.cos_sq_add_sin_sq (theta CircleMaths.real w ue)
  have hsum : (Matlab.uePositions CircleMaths.real c w ue).1 ^ 2 +
      (Matlab.uePositions CircleMaths.real c w ue).2 ^ 2 = radii CircleMaths.real c w ue ^ 2 := by
    simp only [Matlab.uePositions,CircleMaths.real,mul_pow,← mul_add] at hcircle ⊢
    rw [hcircle,mul_one]
  exact (congrArg Real.sqrt hsum).trans (Real.sqrt_sq (radii_pos c w ue).le)

theorem sinr_agree : Matlab.sinr CircleMaths.real c w = Python.sinr CircleMaths.real c w := by
  funext ue
  rw [Matlab.sinr,Python.sinr,matlab_distances_eq,python_distances_eq]

theorem sinr_rim_le (ue : Fin numUE) :
    sinrAt CircleMaths.real c c.cellRadius ≤ Python.sinr CircleMaths.real c w ue := by
  have hpos : 0 < radii CircleMaths.real c w ue / 1000 := div_pos (radii_pos c w ue) (by norm_num)
  have hle : radii CircleMaths.real c w ue / 1000 ≤ c.cellRadius / 1000 :=
    div_le_div_of_nonneg_right (radii_le c w ue) (by norm_num)
  have hlog := Real.logb_le_logb_of_le (b := 10) (by norm_num) hpos hle
  rw [Python.sinr,python_distances_eq]
  simp only [sinrAt,CircleMaths.real,PhysicalLayer.CellMaths.real,PhysicalLayer.Maths.real] at hlog ⊢
  linarith

end Distances

section Rows

variable {K : Type} [Field K] [LinearOrder K] {p : Params K} {numUE : Nat}
  {rows : Fin numUE → Python.Row p.numSlots K} {success : Fin numUE × Fin p.numSlots → Bool}

omit [LinearOrder K] in
theorem mean_comm {n m : Nat} (v : Fin n → Fin m → K) :
    mean (fun i => mean (v i)) = mean (fun j => mean (fun i => v i j)) := by
  simp only [mean]
  rw [← Finset.sum_div,← Finset.sum_div,Finset.sum_comm,div_right_comm]

theorem python_reliability_eq (rows : Fin numUE → Python.Row p.numSlots K) (usage : K) :
    Python.reliability rows =
      (Matlab.results p usage (fun i => (rows i.1).success i.2)).reliability := by
  simp only [Python.reliability,Matlab.results]
  rw [mean_comm]

theorem python_throughput_eq [IsStrictOrderedRing K] (rows : Fin numUE → Python.Row p.numSlots K)
    (usage : K) :
    Python.throughput rows * mega =
      (Matlab.results p usage (fun i => (rows i.1).success i.2)).throughput := by
  simp only [Python.throughput_mul,Matlab.results,Python.successes]
  rw [Finset.sum_comm,div_mul_eq_mul_div]

variable {rand : Python.Draws K} {eligible : Fin numUE → Prop}
  (h : Python.Received p rand eligible rows)
  (hs : ∀ ue slot,success (ue,slot) = true ↔ eligible ue)
include h hs

theorem success_of_row {i : Fin numUE × Fin p.numSlots} (hi : (rows i.1).success i.2 = true) :
    success i = true := by
  rw [hs i.1 i.2]
  by_contra hlost
  simp [h.lost i.1 hlost,Python.Row.zeros] at hi

theorem row_of_success (habove : ∀ k,p.blerTarget < rand.value k) {i : Fin numUE × Fin p.numSlots}
    (hi : success i = true) : (rows i.1).success i.2 = true := by
  obtain ⟨k,hk⟩ := h.served i.1 ((hs i.1 i.2).mp hi)
  rw [hk]
  exact decide_eq_true (habove _)

end Rows

/-- The Python figures, in MATLAB's units, are at most the MATLAB ones. -/
structure Below (py : Python.Results Real) (m : Matlab.Results Real) : Prop where
  reliability : py.reliability ≤ m.reliability
  throughput : py.throughput * mega ≤ m.throughput

structure Same (py : Python.Results Real) (m : Matlab.Results Real) : Prop where
  reliability : py.reliability = m.reliability
  throughput : py.throughput * mega = m.throughput

section Results

variable {p : Params Real} {numUE : Nat} {rows : Fin numUE → Python.Row p.numSlots Real}
  {success : Fin numUE × Fin p.numSlots → Bool} {py : Python.Results Real} {usage : Real}
  (hrel : py.reliability = Python.reliability rows) (hthr : py.throughput = Python.throughput rows)
include hrel hthr

theorem below_of_rows (h : ∀ i : Fin numUE × Fin p.numSlots,
    (rows i.1).success i.2 = true → success i = true) :
    Below py (Matlab.results p usage success) := by
  obtain ⟨hreliability,hthroughput⟩ := Matlab.results_mono p h usage usage
  constructor
  · rw [hrel,python_reliability_eq rows usage]
    exact hreliability
  · rw [hthr,python_throughput_eq rows usage]
    exact hthroughput

theorem same_of_rows (h : ∀ i : Fin numUE × Fin p.numSlots,
    (rows i.1).success i.2 = true ↔ success i = true) :
    Same py (Matlab.results p usage success) := by
  have heq : (fun i : Fin numUE × Fin p.numSlots => (rows i.1).success i.2) = success :=
    funext (fun i => Bool.eq_iff_iff.mpr (h i))
  constructor
  · rw [hrel,python_reliability_eq rows usage,heq]
  · rw [hthr,python_throughput_eq rows usage,heq]

end Results

/-- From the same positions both scripts compute the same SINRs and give unicast the same
blocks, and the Python script reports at most the reliability and the throughput of the MATLAB
script, in unicast and in multicast. Where no draw is at or below the BLER target the reports are the same. -/
theorem scripts_agree (c : Cell Real) (p : Params Real) (t : Tables Real) {numUE : Nat}
    (h : 0 < numUE) (w : Placement Real numUE) (rand : Python.Draws Real) (drawn : Nat)
    (fixedMCS : Fin t.size) :
    Matlab.sinr CircleMaths.real c w = Python.sinr CircleMaths.real c w ∧
      (Python.simulate p t rand h (Python.sinr CircleMaths.real c w) drawn).1.rbUsage =
        (Matlab.unicast t (Matlab.sinr CircleMaths.real c w) p).resourceUsage ∧
      Below (Python.simulate p t rand h (Python.sinr CircleMaths.real c w) drawn).1
        (Matlab.unicast t (Matlab.sinr CircleMaths.real c w) p) ∧
      Below (Python.simulate p t rand h (Python.sinr CircleMaths.real c w) drawn).2
        (Matlab.multicast t (Matlab.sinr CircleMaths.real c w) p h fixedMCS) ∧
      ((∀ k,p.blerTarget < rand.value k) →
        Same (Python.simulate p t rand h (Python.sinr CircleMaths.real c w) drawn).1
            (Matlab.unicast t (Matlab.sinr CircleMaths.real c w) p) ∧
          Same (Python.simulate p t rand h (Python.sinr CircleMaths.real c w) drawn).2
            (Matlab.multicast t (Matlab.sinr CircleMaths.real c w) p h fixedMCS)) := by
  refine ⟨sinr_agree c w,?_⟩
  rw [sinr_agree]
  generalize Python.sinr CircleMaths.real c w = sinr
  have hunicast := Python.unicastRows_received p t rand sinr drawn
  have hmulticast := Python.multicastRows_received p t rand h sinr
    (Python.unicastLoop p t rand sinr drawn).2
  have hmarks : ∀ ue (slot : Fin p.numSlots),
      Matlab.unicastSuccess t sinr (ue,slot) = true ↔ t.lowest ≤ sinr ue :=
    Matlab.unicastSuccess_iff t sinr
  have hgroup : ∀ ue (slot : Fin p.numSlots),
      Matlab.multicastSuccess t sinr h (ue,slot) = true ↔ t.lowest ≤ minSINR h sinr :=
    fun ue slot => Matlab.multicastSuccess_iff t sinr ue slot h
  refine ⟨rfl,below_of_rows rfl rfl (fun _ => success_of_row hunicast hmarks),
    below_of_rows rfl rfl (fun _ => success_of_row hmulticast hgroup),fun habove => ⟨?_,?_⟩⟩
  · exact same_of_rows rfl rfl (fun _ =>
      ⟨success_of_row hunicast hmarks,row_of_success hunicast hmarks habove⟩)
  · exact same_of_rows rfl rfl (fun _ =>
      ⟨success_of_row hmulticast hgroup,row_of_success hmulticast hgroup habove⟩)

noncomputable def halfWay (numUE : Nat) : Placement Real numUE :=
  ⟨fun _ => 0,fun _ => 1 / 4,fun _ => by norm_num⟩

theorem scripts_agree_above :
    Same (Python.simulate (scriptParams Real) (scriptTables Real) (.above (scriptParams Real)) three_pos
        (Python.sinr CircleMaths.real (scriptCell Real) (halfWay 3)) 0).2
      (Matlab.multicast (scriptTables Real) (Matlab.sinr CircleMaths.real (scriptCell Real) (halfWay 3))
        (scriptParams Real) three_pos (3 : Fin 10)) := by
  have hagree := scripts_agree (scriptCell Real) (scriptParams Real) (scriptTables Real) three_pos
    (halfWay 3) (.above (scriptParams Real)) 0 (3 : Fin 10)
  refine (hagree.2.2.2.2 ?_).2
  norm_num [Python.Draws.above,scriptParams]

structure Full (p : Params Real) (numUE : Nat) (m : Matlab.Results Real) : Prop where
  reliability : m.reliability = 100
  throughput : m.throughput = numUE * p.dataRate

theorem full_of_success {p : Params Real} {numUE : Nat} (hn : 0 < numUE) {usage : Real}
    {success : Fin numUE × Fin p.numSlots → Bool} (h : ∀ i,success i = true) :
    Full p numUE (Matlab.results p usage success) := by
  have hone : success = fun _ => true := funext h
  have hslots : (p.numSlots : Real) ≠ 0 := Nat.cast_ne_zero.mpr p.numSlots_pos.ne'
  constructor
  · simp [Matlab.results,hone,mean_const hn,mean_const p.numSlots_pos]
  · simp only [Matlab.results,hone,Bool.toNat_true,Nat.cast_one,Finset.sum_const,Finset.card_univ,
      Fintype.card_fin,nsmul_eq_mul]
    field_simp

/-- If the rim of the cell has the SINR of the fixed MCS, the positions do not matter: the
three modes of the MATLAB script report the same full reliability and throughput, and block
error rate and reliability of the Python script add up to 100. -/
theorem modes_equal_in_covered_cell (c : Cell Real) (p : Params Real) (t : Tables Real)
    (fixedMCS : Fin t.size) (hrim : t.sinrThresholds fixedMCS ≤ sinrAt CircleMaths.real c c.cellRadius)
    {numUE : Nat} (h : 0 < numUE) (w : Placement Real numUE) :
    Full p numUE (Matlab.unicast t (Matlab.sinr CircleMaths.real c w) p) ∧
      Full p numUE (Matlab.broadcast t (Matlab.sinr CircleMaths.real c w) p fixedMCS) ∧
      Full p numUE (Matlab.multicast t (Matlab.sinr CircleMaths.real c w) p h fixedMCS) ∧
      ∀ rand drawn,
        (Python.simulate p t rand h (Python.sinr CircleMaths.real c w) drawn).1.bler +
            (Python.simulate p t rand h (Python.sinr CircleMaths.real c w) drawn).1.reliability = 100 ∧
          (Python.simulate p t rand h (Python.sinr CircleMaths.real c w) drawn).2.bler +
            (Python.simulate p t rand h (Python.sinr CircleMaths.real c w) drawn).2.reliability =
              100 := by
  have hfixed : ∀ ue,t.sinrThresholds fixedMCS ≤ Python.sinr CircleMaths.real c w ue :=
    fun ue => hrim.trans (sinr_rim_le c w ue)
  rw [sinr_agree]
  generalize Python.sinr CircleMaths.real c w = sinr at hfixed
  have hlowest : ∀ ue,t.lowest ≤ sinr ue := fun ue => (t.lowest_le fixedMCS).trans (hfixed ue)
  have hmin : t.lowest ≤ minSINR h sinr := (le_minSINR_iff h sinr _).mpr hlowest
  refine ⟨?_,?_,?_,fun rand drawn => ⟨?_,?_⟩⟩
  · exact full_of_success h (fun i => (Matlab.unicastSuccess_iff t sinr i.1 i.2).mpr (hlowest i.1))
  · exact full_of_success h (fun i =>
      (Matlab.broadcastSuccess_iff t sinr i.1 i.2 fixedMCS).mpr (hfixed i.1))
  · exact full_of_success h (fun i => (Matlab.multicastSuccess_iff t sinr i.1 i.2 h).mpr hmin)
  · exact (Python.complement_iff h (Python.unicastRows_received p t rand sinr drawn)).mpr hlowest
  · exact (Python.complement_iff h (Python.multicastRows_received p t rand h sinr _)).mpr
      (fun _ => hmin)

theorem script_rim : (15 : Real) ≤ sinrAt CircleMaths.real (scriptCell Real) 500 := by
  have hrim : Real.logb 10 (500 / 1000) ≤ 0 :=
    (Real.logb_le_iff_le_rpow (by norm_num) (by norm_num)).mpr (by norm_num)
  have hcarrier : Real.logb 10 (3.5e9 / 1e6) ≤ 4 :=
    (Real.logb_le_iff_le_rpow (by norm_num) (by norm_num)).mpr (by norm_num)
  simp only [sinrAt,scriptCell,CircleMaths.real,PhysicalLayer.CellMaths.real,PhysicalLayer.Maths.real]
  linarith

theorem modes_equal_in_covered_cell_script :
    Full (scriptParams Real) 60 (Matlab.unicast (scriptTables Real)
        (Matlab.sinr CircleMaths.real (scriptCell Real) (halfWay 60)) (scriptParams Real)) ∧
      Full (scriptParams Real) 60 (Matlab.broadcast (scriptTables Real)
        (Matlab.sinr CircleMaths.real (scriptCell Real) (halfWay 60)) (scriptParams Real)
        (3 : Fin 10)) := by
  have hrim : (scriptTables Real).sinrThresholds (3 : Fin 10) ≤
      sinrAt CircleMaths.real (scriptCell Real) (scriptCell Real).cellRadius := by
    have hthreshold : ((5 * 3 : Nat) : Real) = 15 := by norm_num
    exact hthreshold.trans_le script_rim
  have hfull := modes_equal_in_covered_cell (scriptCell Real) (scriptParams Real) (scriptTables Real)
    (3 : Fin 10) hrim (show 0 < 60 by decide) (halfWay 60)
  exact ⟨hfull.1,hfull.2.1⟩

end GrpKeySec.UniMulBro
