import Mathlib.Algebra.BigOperators.Fin
import Mathlib.Algebra.Order.BigOperators.Group.Finset
import Mathlib.Algebra.Order.Floor.Semiring
import Mathlib.Data.Fin.VecNotation
import Mathlib.Data.Rat.Floor
import Mathlib.Tactic.FieldSimp
import Mathlib.Tactic.Linarith
import GrpKeySec.FillLoop
import GrpKeySec.TableSearch
set_option autoImplicit false

/-!
The simulations of UniMulBro for one cell: unimulbro.py with unicast and multicast, and
unimulbro.m with unicast, broadcast and multicast. Numbers are in an ordered field with
a floor. The SINR of the UEs is an input; where it comes from (positions and path loss)
is left out, and so are the plots.
-/

namespace GrpKeySec.UniMulBro
open FillLoop TableSearch

section Mean

variable {K : Type} [Field K]

def mean {n : Nat} (v : Fin n → K) : K := (∑ i,v i) / n

theorem mean_add {n : Nat} (v w : Fin n → K) : mean (fun i => v i + w i) = mean v + mean w := by
  rw [mean,Finset.sum_add_distrib,add_div]
  rfl

def ueCount {numUE : Nat} (eligible : Fin numUE → Prop) [DecidablePred eligible] : Nat :=
  (Finset.univ.filter eligible).card

theorem ueCount_mono {numUE : Nat} {a b : Fin numUE → Prop} [DecidablePred a] [DecidablePred b]
    (h : ∀ ue,a ue → b ue) : ueCount a ≤ ueCount b :=
  Finset.card_le_card (Finset.monotone_filter_right _ (fun ue _ => h ue))

theorem sum_ite_ueCount {numUE : Nat} {eligible : Fin numUE → Prop} [DecidablePred eligible] (c : K) :
    (∑ ue,if eligible ue then c else 0) = ueCount eligible * c := by
  rw [← Finset.sum_filter,Finset.sum_const,nsmul_eq_mul]
  rfl

variable [LinearOrder K] [IsStrictOrderedRing K]

theorem mean_mono {n : Nat} {v w : Fin n → K} (h : ∀ i,v i ≤ w i) : mean v ≤ mean w :=
  div_le_div_of_nonneg_right (Finset.sum_le_sum (fun i _ => h i)) n.cast_nonneg

theorem mean_const {n : Nat} (hn : 0 < n) (c : K) : mean (fun _ : Fin n => c) = c := by
  have hcast : (n : K) ≠ 0 := Nat.cast_ne_zero.mpr hn.ne'
  simp [mean,hcast]

theorem mean_pos {n : Nat} {v : Fin n → K} (h : ∀ i,0 ≤ v i) {i : Fin n} (hi : 0 < v i) :
    0 < mean v := by
  have hn : (0 : K) < n := Nat.cast_pos.mpr i.pos
  exact div_pos (Finset.sum_pos' (fun j _ => h j) ⟨i,Finset.mem_univ i,hi⟩) hn

theorem le_mean {n : Nat} (hn : 0 < n) {v : Fin n → K} {c : K} (h : ∀ i,c ≤ v i) : c ≤ mean v := by
  have hle := mean_mono h
  rwa [mean_const hn] at hle

end Mean

section Tables

variable {K : Type} [LinearOrder K]

structure Tables (K : Type) [LinearOrder K] where
  size : Nat
  sinrThresholds : Fin size → K
  mcsTable : Fin size → K
  size_pos : 0 < size
  sorted : Monotone sinrThresholds

namespace Tables

variable (t : Tables K)

def lowest : K := t.sinrThresholds ⟨0,t.size_pos⟩

/-- `np.searchsorted(sinrThresholds, x, side='right') - 1` -/
def mcsIdx (x : K) : Int := (searchsorted t.sinrThresholds x : Int) - 1

/-- The entry at a Python index, where -1 is the last one. -/
def entry (i : Int) : Fin t.size :=
  ⟨(i % t.size).toNat,by
    have hsize : (0 : Int) < t.size := Int.natCast_pos.mpr t.size_pos
    have hlt := Int.emod_lt_of_pos i hsize
    have hnonneg := Int.emod_nonneg i hsize.ne'
    omega⟩

/-- `find(x >= sinrThresholds, 1, 'last')` -/
def lastReached (x : K) : Option (Fin t.size) :=
  findLast (fun k => decide (t.sinrThresholds k ≤ x))

theorem lowest_le (k : Fin t.size) : t.lowest ≤ t.sinrThresholds k :=
  t.sorted (Nat.zero_le k.val)

theorem mcsIdx_nonneg_iff (x : K) : 0 ≤ t.mcsIdx x ↔ t.lowest ≤ x := by
  rw [lowest,← lt_searchsorted_iff t.sorted]
  simp only [mcsIdx]
  omega

theorem neg_one_le_mcsIdx (x : K) : -1 ≤ t.mcsIdx x := by
  unfold mcsIdx
  omega

theorem mcsIdx_lt (x : K) : t.mcsIdx x < t.size := by
  have hle := searchsorted_le t.sorted x
  unfold mcsIdx
  omega

theorem mcsIdx_mono {x y : K} (h : x ≤ y) : t.mcsIdx x ≤ t.mcsIdx y := by
  have hle := searchsorted_mono t.sorted h
  unfold mcsIdx
  omega

theorem entry_val {i : Int} (hi : 0 ≤ i) (hlt : i < t.size) : (t.entry i).val = i.toNat := by
  simp only [entry,Int.emod_eq_of_lt hi hlt]

theorem threshold_entry_le {x : K} (h : 0 ≤ t.mcsIdx x) :
    t.sinrThresholds (t.entry (t.mcsIdx x)) ≤ x := by
  rw [← lt_searchsorted_iff t.sorted,t.entry_val h (t.mcsIdx_lt x)]
  unfold mcsIdx at h ⊢
  omega

theorem lastReached_isSome_iff (x : K) : (t.lastReached x).isSome = true ↔ t.lowest ≤ x := by
  unfold lastReached
  simp only [findLast_isSome_iff,decide_eq_true_eq]
  constructor
  · rintro ⟨k,hk⟩
    exact (t.lowest_le k).trans hk
  · intro h
    exact ⟨_,h⟩

theorem of_lastReached {x : K} {k : Fin t.size} (h : t.lastReached x = some k) :
    t.sinrThresholds k ≤ x := of_decide_eq_true (of_findLast h)

theorem le_of_lastReached {x : K} {j k : Fin t.size} (h : t.lastReached x = some k)
    (hj : t.sinrThresholds j ≤ x) : j ≤ k := le_of_findLast h (decide_eq_true hj)

theorem mcsIdx_of_lastReached {x : K} {k : Fin t.size} (h : t.lastReached x = some k) :
    t.mcsIdx x = k.val := by
  have hreached := (lt_searchsorted_iff t.sorted x k).mpr (t.of_lastReached h)
  have hnext : searchsorted t.sinrThresholds x ≤ k.val + 1 := by
    by_contra hlt
    have hsize := searchsorted_le t.sorted x
    have hk : k.val + 1 < t.size := by omega
    have hj := (lt_searchsorted_iff t.sorted x ⟨k.val + 1,hk⟩).mp (Nat.lt_of_not_le hlt)
    have hle : k.val + 1 ≤ k.val := t.le_of_lastReached h hj
    omega
  unfold mcsIdx
  omega

theorem lastReached_eq_none_iff (x : K) : t.lastReached x = none ↔ t.mcsIdx x = -1 := by
  have hsome := t.lastReached_isSome_iff x
  rw [← t.mcsIdx_nonneg_iff] at hsome
  have hge := t.neg_one_le_mcsIdx x
  rw [← Option.not_isSome_iff_eq_none,hsome]
  omega

theorem lastReached_eq_some_iff (x : K) (k : Fin t.size) :
    t.lastReached x = some k ↔ t.mcsIdx x = k.val := by
  refine ⟨t.mcsIdx_of_lastReached,fun h => ?_⟩
  cases hlast : t.lastReached x with
  | none =>
    rw [t.lastReached_eq_none_iff] at hlast
    omega
  | some j =>
    have hj := t.mcsIdx_of_lastReached hlast
    have hjk : j = k := by
      apply Fin.ext
      omega
    rw [hjk]

/-- The Python and the MATLAB script choose one entry, the last one that the SINR
reaches. -/
theorem selectors_agree (x : K) :
    (t.lastReached x = none ↔ t.mcsIdx x = -1) ∧
    (∀ k,t.lastReached x = some k ↔ (k.val : Int) + 1 = t.mcsIdx x + 1) ∧
    (∀ k,t.lastReached x = some k → t.entry (t.mcsIdx x) = k ∧
      IsGreatest (Set.range t.sinrThresholds ∩ Set.Iic x) (t.sinrThresholds k)) ∧
    (-1 ≤ t.mcsIdx x ∧ t.mcsIdx x < t.size) ∧
    (∀ y,x ≤ y → t.mcsIdx x ≤ t.mcsIdx y) := by
  refine ⟨t.lastReached_eq_none_iff x,fun k => ?_,fun k hk => ⟨?_,?_⟩,
    ⟨t.neg_one_le_mcsIdx x,t.mcsIdx_lt x⟩,fun y hxy => t.mcsIdx_mono hxy⟩
  · rw [t.lastReached_eq_some_iff]
    omega
  · have hidx := t.mcsIdx_of_lastReached hk
    have hval := t.entry_val (i := t.mcsIdx x) (by omega) (t.mcsIdx_lt x)
    apply Fin.ext
    omega
  · refine ⟨⟨⟨k,rfl⟩,t.of_lastReached hk⟩,?_⟩
    rintro _ ⟨⟨j,rfl⟩,hj⟩
    exact t.sorted (t.le_of_lastReached hk hj)

end Tables

def minSINR {numUE : Nat} (h : 0 < numUE) (sinr : Fin numUE → K) : K :=
  Finset.univ.inf' (Finset.univ_nonempty_iff.mpr ⟨⟨0,h⟩⟩) sinr

theorem minSINR_le {numUE : Nat} (h : 0 < numUE) (sinr : Fin numUE → K) (ue : Fin numUE) :
    minSINR h sinr ≤ sinr ue :=
  Finset.inf'_le sinr (Finset.mem_univ ue)

theorem le_minSINR_iff {numUE : Nat} (h : 0 < numUE) (sinr : Fin numUE → K) (x : K) :
    x ≤ minSINR h sinr ↔ ∀ ue,x ≤ sinr ue := by
  rw [minSINR,Finset.le_inf'_iff]
  simp

theorem exists_sinr_eq_minSINR {numUE : Nat} (h : 0 < numUE) (sinr : Fin numUE → K) :
    ∃ ue,minSINR h sinr = sinr ue := by
  obtain ⟨ue,_,hue⟩ := Finset.exists_mem_eq_inf' (Finset.univ_nonempty_iff.mpr ⟨⟨0,h⟩⟩) sinr
  exact ⟨ue,hue⟩

end Tables

variable {K : Type} [Field K] [LinearOrder K]

structure Params (K : Type) [Field K] [LinearOrder K] where
  bandwidth : K
  numRBs : K
  dataRate : K
  numSlots : Nat
  blerTarget : K
  bandwidth_pos : 0 < bandwidth
  numRBs_pos : 0 < numRBs
  dataRate_pos : 0 < dataRate
  numSlots_pos : 0 < numSlots
  blerTarget_lt_one : blerTarget < 1

variable [FloorRing K]

def rbsPerUE (p : Params K) (t : Tables K) : Nat :=
  ⌈p.dataRate / (p.bandwidth / p.numRBs * mean t.mcsTable)⌉₊

def mega : Nat := 1000000

def unicastUsage (p : Params K) (t : Tables K) (numUE : Nat) : K :=
  min (rbsPerUE p t * numUE) p.numRBs

namespace Python

structure Draws (K : Type) [Field K] [LinearOrder K] where
  value : Nat → K
  nonneg : ∀ n,0 ≤ value n
  lt_one : ∀ n,value n < 1

structure Row (numSlots : Nat) (K : Type) where
  success : Fin numSlots → Bool
  bler : K

def Row.zeros {numSlots : Nat} : Row numSlots K := ⟨fun _ => false,0⟩

def Row.ofSuccess {numSlots : Nat} (success : Fin numSlots → Bool) : Row numSlots K :=
  ⟨success,1 - mean (fun slot => ((success slot).toNat : K))⟩

/-- One row of fresh draws; `drawn` counts those made so far. -/
def drawRow (p : Params K) (rand : Draws K) (drawn : Nat) : Row p.numSlots K × Nat :=
  (.ofSuccess (fun slot => decide (p.blerTarget < rand.value (drawn + slot))),drawn + p.numSlots)

def dataRateAt (p : Params K) (t : Tables K) (mcsIdx : Int) : K :=
  if 0 ≤ mcsIdx then t.mcsTable (t.entry mcsIdx) * (p.bandwidth / p.numRBs) * rbsPerUE p t else 0

variable (p : Params K) (t : Tables K) (rand : Draws K) {numUE : Nat}

/-- The entries of ueDataRates with the rows of success and ueBLER. -/
def unicastLoop (sinr : Fin numUE → K) (drawn : Nat) :
    (Fin numUE → K × Row p.numSlots K) × Nat :=
  fill (fun ue => decide (0 ≤ t.mcsIdx (sinr ue)))
    (fun ue drawn =>
      ((dataRateAt p t (t.mcsIdx (sinr ue)),(drawRow p rand drawn).1),(drawRow p rand drawn).2))
    (List.finRange numUE) (fun _ => (0,.zeros),drawn)

def ueDataRates (sinr : Fin numUE → K) (drawn : Nat) (ue : Fin numUE) : K :=
  ((unicastLoop p t rand sinr drawn).1 ue).1

def unicastRows (sinr : Fin numUE → K) (drawn : Nat) (ue : Fin numUE) : Row p.numSlots K :=
  ((unicastLoop p t rand sinr drawn).1 ue).2

def groupDataRate (h : 0 < numUE) (sinr : Fin numUE → K) : K :=
  dataRateAt p t (t.mcsIdx (minSINR h sinr))

def multicastRows (h : 0 < numUE) (sinr : Fin numUE → K) (drawn : Nat) :
    Fin numUE → Row p.numSlots K :=
  let mcsIdx := t.mcsIdx (minSINR h sinr)
  (fill (fun ue => decide (t.sinrThresholds (t.entry mcsIdx) ≤ sinr ue) && decide (0 ≤ mcsIdx))
    (fun _ drawn => drawRow p rand drawn) (List.finRange numUE) (fun _ => .zeros,drawn)).1

section Metrics

variable {p} (rows : Fin numUE → Row p.numSlots K)

def successes : K := ∑ ue,∑ slot,(((rows ue).success slot).toNat : K)

def reliability : K := mean (fun ue => mean (fun slot => (((rows ue).success slot).toNat : K))) * 100

def throughput : K := successes rows * p.dataRate / p.numSlots / mega

def bler : K := mean (fun ue => (rows ue).bler) * 100

end Metrics

structure Results (K : Type) where
  perUEDataRate : K
  reliability : K
  rbUsage : K
  throughput : K
  bler : K

def unicast (sinr : Fin numUE → K) (drawn : Nat) : Results K where
  perUEDataRate := mean (ueDataRates p t rand sinr drawn) / mega
  reliability := reliability (unicastRows p t rand sinr drawn)
  rbUsage := unicastUsage p t numUE
  throughput := throughput (unicastRows p t rand sinr drawn)
  bler := bler (unicastRows p t rand sinr drawn)

def multicast (h : 0 < numUE) (sinr : Fin numUE → K) (drawn : Nat) : Results K where
  perUEDataRate := groupDataRate p t h sinr / mega
  reliability := reliability (multicastRows p t rand h sinr drawn)
  rbUsage := rbsPerUE p t
  throughput := throughput (multicastRows p t rand h sinr drawn)
  bler := bler (multicastRows p t rand h sinr drawn)

/-- One pass of the loop over numUEs; the multicast part goes on with the draws. -/
def simulate (h : 0 < numUE) (sinr : Fin numUE → K) (drawn : Nat) : Results K × Results K :=
  (unicast p t rand sinr drawn,multicast p t rand h sinr (unicastLoop p t rand sinr drawn).2)

end Python

namespace Matlab

variable {numUE numSlots : Nat}

def markUes (test : Fin numUE → Bool) (slot : Fin numSlots) (success : Fin numUE × Fin numSlots → Bool) :
    Fin numUE × Fin numSlots → Bool :=
  mark (fun i => test i.1) ((List.finRange numUE).map (fun ue => (ue,slot))) success

variable (t : Tables K) (sinr : Fin numUE → K)

def unicastSuccess : Fin numUE × Fin numSlots → Bool :=
  (List.finRange numSlots).foldl
    (fun success slot => markUes (fun ue => (t.lastReached (sinr ue)).isSome) slot success)
    (fun _ => false)

def broadcastSuccess (fixedMCS : Fin t.size) : Fin numUE × Fin numSlots → Bool :=
  (List.finRange numSlots).foldl
    (fun success slot => markUes (fun ue => decide (t.sinrThresholds fixedMCS ≤ sinr ue)) slot success)
    (fun _ => false)

def multicastSuccess (h : 0 < numUE) : Fin numUE × Fin numSlots → Bool :=
  (List.finRange numSlots).foldl
    (fun success slot =>
      match t.lastReached (minSINR h sinr) with
      | none => success
      | some mcsIdx =>
        markUes (fun ue => decide (t.sinrThresholds mcsIdx ≤ sinr ue)) slot success)
    (fun _ => false)

structure Results (K : Type) where
  resourceUsage : K
  reliability : K
  throughput : K

def results (p : Params K) (resourceUsage : K) (success : Fin numUE × Fin p.numSlots → Bool) :
    Results K where
  resourceUsage := resourceUsage
  reliability := mean (fun slot => mean (fun ue => ((success (ue,slot)).toNat : K))) * 100
  throughput := (∑ slot,∑ ue,((success (ue,slot)).toNat : K)) * p.dataRate / p.numSlots

variable (p : Params K)

def fixedUsage (fixedMCS : Fin t.size) : K :=
  ⌈p.dataRate / (p.bandwidth / p.numRBs * t.mcsTable fixedMCS)⌉₊

def unicast : Results K := results p (unicastUsage p t numUE) (unicastSuccess t sinr)

def broadcast (fixedMCS : Fin t.size) : Results K :=
  results p (fixedUsage t p fixedMCS) (broadcastSuccess t sinr fixedMCS)

def multicast (h : 0 < numUE) (fixedMCS : Fin t.size) : Results K :=
  results p (fixedUsage t p fixedMCS) (multicastSuccess t sinr h)

end Matlab

section Values

variable (K : Type) [Field K] [LinearOrder K] [IsStrictOrderedRing K]

def scriptParams : Params K where
  bandwidth := 20e6
  numRBs := (100 : Nat)
  dataRate := 4e6
  numSlots := 100
  blerTarget := 0.1
  bandwidth_pos := by norm_num
  numRBs_pos := by norm_num
  dataRate_pos := by norm_num
  numSlots_pos := by norm_num
  blerTarget_lt_one := by norm_num

/-- Thresholds from 0 dB in steps of 5, and 2 bits more for each. -/
def scriptTables : Tables K where
  size := 10
  sinrThresholds k := (5 * k.val : Nat)
  mcsTable k := (2 * (k.val + 1) : Nat)
  size_pos := by norm_num
  sorted _ _ h := Nat.cast_le.mpr (Nat.mul_le_mul_left 5 h)

end Values

def simParams : Params Rat := scriptParams Rat

def simTables : Tables Rat := scriptTables Rat

end GrpKeySec.UniMulBro
