import GrpKeySec.UniMulBro
set_option autoImplicit false

/-!
What unimulbro.py reports: the block error rate against the reliability, the throughput
against the data rates, and the rate of the group against those of the UEs.
-/

namespace GrpKeySec.UniMulBro.Python
open FillLoop

variable {K : Type} [Field K] [LinearOrder K]

/-- The eligible UEs have a row of draws each, and the others the zeros they started with. -/
structure Received (p : Params K) (rand : Draws K) {numUE : Nat} (eligible : Fin numUE → Prop)
    (rows : Fin numUE → Row p.numSlots K) : Prop where
  served : ∀ ue,eligible ue → ∃ drawn,rows ue = (drawRow p rand drawn).1
  lost : ∀ ue,¬ eligible ue → rows ue = .zeros

section Rows

variable {p : Params K} {rand : Draws K} {numUE : Nat} {eligible : Fin numUE → Prop}
  [DecidablePred eligible] {rows : Fin numUE → Row p.numSlots K}

theorem bler_add_reliability (h : Received p rand eligible rows) :
    bler rows + reliability rows = mean (fun ue => if eligible ue then 1 else 0) * 100 := by
  rw [bler,reliability,← add_mul,← mean_add]
  congr 2
  funext ue
  by_cases hue : eligible ue
  · obtain ⟨k,hk⟩ := h.served ue hue
    simp [hk,hue,drawRow,Row.ofSuccess]
  · simp [h.lost ue hue,hue,Row.zeros,mean]

variable [IsStrictOrderedRing K]

theorem mean_indicator_eq_one_iff (hn : 0 < numUE) :
    mean (fun ue => if eligible ue then (1 : K) else 0) = 1 ↔ ∀ ue,eligible ue := by
  have hcast : (numUE : K) ≠ 0 := Nat.cast_ne_zero.mpr hn.ne'
  rw [mean,Finset.sum_boole,div_eq_one_iff_eq hcast,Nat.cast_inj]
  constructor
  · intro h ue
    have hall := Finset.filter_card_eq (h.trans (Finset.card_fin numUE).symm)
    exact hall ue (Finset.mem_univ ue)
  · intro h
    rw [Finset.filter_true_of_mem (fun ue _ => h ue),Finset.card_fin]

theorem complement_iff (hn : 0 < numUE) (h : Received p rand eligible rows) :
    bler rows + reliability rows = 100 ↔ ∀ ue,eligible ue := by
  rw [bler_add_reliability h,← mean_indicator_eq_one_iff (K := K) hn]
  constructor
  · intro heq
    linarith
  · intro heq
    rw [heq,one_mul]

def Draws.above (p : Params K) : Draws K where
  value _ := (max 0 p.blerTarget + 1) / (1 + 1)
  nonneg _ := by
    have hmax := le_max_left 0 p.blerTarget
    linarith
  lt_one _ := by
    have hmax := max_lt one_pos p.blerTarget_lt_one
    linarith

theorem drawRow_above (drawn : Nat) (slot : Fin p.numSlots) :
    (drawRow p (.above p) drawn).1.success slot = true := by
  have hlt := p.blerTarget_lt_one
  have hzero := max_lt one_pos hlt
  have hmax := le_max_right 0 p.blerTarget
  refine decide_eq_true ?_
  simp only [Draws.above]
  linarith

theorem successes_le (h : Received p rand eligible rows) :
    successes rows ≤ ueCount eligible * p.numSlots := by
  rw [← sum_ite_ueCount]
  refine Finset.sum_le_sum (fun ue _ => ?_)
  by_cases hue : eligible ue
  · have hslot : ∀ slot,(((rows ue).success slot).toNat : K) ≤ 1 := by
      intro slot
      exact_mod_cast Bool.toNat_le ((rows ue).success slot)
    have hsum := Finset.sum_le_sum (fun slot (_ : slot ∈ Finset.univ) => hslot slot)
    simpa [hue] using hsum
  · simp [h.lost ue hue,hue,Row.zeros]

theorem successes_above (h : Received p (.above p) eligible rows) :
    successes rows = ueCount eligible * p.numSlots := by
  rw [← sum_ite_ueCount]
  refine Finset.sum_congr rfl (fun ue _ => ?_)
  by_cases hue : eligible ue
  · obtain ⟨k,hk⟩ := h.served ue hue
    simp [hk,hue,drawRow_above]
  · simp [h.lost ue hue,hue,Row.zeros]

theorem throughput_mul (rows : Fin numUE → Row p.numSlots K) :
    throughput rows * mega = successes rows / p.numSlots * p.dataRate := by
  have hslots : (p.numSlots : K) ≠ 0 := Nat.cast_ne_zero.mpr p.numSlots_pos.ne'
  have hmega : ((mega : Nat) : K) ≠ 0 := by norm_num [mega]
  unfold throughput
  field_simp

theorem carried_iff {rowsOf : Draws K → Nat → Fin numUE → Row p.numSlots K}
    (h : ∀ rand drawn,Received p rand eligible (rowsOf rand drawn)) (c : K) :
    (∀ rand drawn,throughput (rowsOf rand drawn) * mega ≤ c) ↔
      ueCount eligible * p.dataRate ≤ c := by
  have hslots : (0 : K) < p.numSlots := Nat.cast_pos.mpr p.numSlots_pos
  constructor
  · intro hle
    have hbest := hle (.above p) 0
    rwa [throughput_mul,successes_above (h _ _),mul_div_cancel_right₀ _ hslots.ne'] at hbest
  · intro hle rand drawn
    rw [throughput_mul]
    refine le_trans (mul_le_mul_of_nonneg_right ?_ p.dataRate_pos.le) hle
    rw [div_le_iff₀ hslots]
    exact successes_le (h rand drawn)

end Rows

section Loops

variable [FloorRing K] (p : Params K) (t : Tables K) (rand : Draws K) {numUE : Nat}

theorem unicastLoop_served (sinr : Fin numUE → K) (drawn : Nat) {ue : Fin numUE}
    (h : 0 ≤ t.mcsIdx (sinr ue)) :
    ∃ k,(unicastLoop p t rand sinr drawn).1 ue =
      (dataRateAt p t (t.mcsIdx (sinr ue)),(drawRow p rand k).1) :=
  fill_written _ _ (List.nodup_finRange numUE) _ (List.mem_finRange ue) (decide_eq_true h)

theorem unicastLoop_lost (sinr : Fin numUE → K) (drawn : Nat) {ue : Fin numUE}
    (h : ¬ 0 ≤ t.mcsIdx (sinr ue)) : (unicastLoop p t rand sinr drawn).1 ue = (0,.zeros) :=
  fill_other _ _ _ _ (.inr (decide_eq_false h))

theorem ueDataRates_eq (sinr : Fin numUE → K) (drawn : Nat) (ue : Fin numUE) :
    ueDataRates p t rand sinr drawn ue = dataRateAt p t (t.mcsIdx (sinr ue)) := by
  unfold ueDataRates
  by_cases h : 0 ≤ t.mcsIdx (sinr ue)
  · obtain ⟨k,hk⟩ := unicastLoop_served p t rand sinr drawn h
    rw [hk]
  · rw [unicastLoop_lost p t rand sinr drawn h,dataRateAt,if_neg h]

theorem unicastRows_received (sinr : Fin numUE → K) (drawn : Nat) :
    Received p rand (fun ue => t.lowest ≤ sinr ue) (unicastRows p t rand sinr drawn) where
  served ue h := by
    rw [← t.mcsIdx_nonneg_iff] at h
    obtain ⟨k,hk⟩ := unicastLoop_served p t rand sinr drawn h
    exact ⟨k,congrArg Prod.snd hk⟩
  lost ue h := by
    rw [← t.mcsIdx_nonneg_iff] at h
    exact congrArg Prod.snd (unicastLoop_lost p t rand sinr drawn h)

omit [FloorRing K] in
/-- The worst UE decides for all: its threshold is reached by everyone. -/
theorem multicastRows_received (h : 0 < numUE) (sinr : Fin numUE → K) (drawn : Nat) :
    Received p rand (fun _ => t.lowest ≤ minSINR h sinr)
      (multicastRows p t rand h sinr drawn) where
  served ue hmin := by
    rw [← t.mcsIdx_nonneg_iff] at hmin
    have hreached := (t.threshold_entry_le hmin).trans (minSINR_le h sinr ue)
    exact fill_written _ _ (List.nodup_finRange numUE) _ (List.mem_finRange ue)
      (by simp [hmin,hreached])
  lost ue hmin := by
    rw [← t.mcsIdx_nonneg_iff] at hmin
    exact fill_other _ _ _ _ (.inr (by simp [hmin]))

end Loops

variable [IsStrictOrderedRing K] [FloorRing K] (p : Params K) (t : Tables K) (rand : Draws K)
  {numUE : Nat}

/-- The two rates add up to 100 exactly where every UE reaches the lowest threshold. -/
theorem bler_complements_reliability_iff (h : 0 < numUE) (sinr : Fin numUE → K) (drawn : Nat) :
    ((simulate p t rand h sinr drawn).1.bler + (simulate p t rand h sinr drawn).1.reliability = 100 ↔
      ∀ ue,t.lowest ≤ sinr ue) ∧
    ((simulate p t rand h sinr drawn).2.bler + (simulate p t rand h sinr drawn).2.reliability = 100 ↔
      ∀ ue,t.lowest ≤ sinr ue) := by
  constructor
  · exact complement_iff h (unicastRows_received p t rand sinr drawn)
  · have hgroup := complement_iff h
      (multicastRows_received p t rand h sinr (unicastLoop p t rand sinr drawn).2)
    refine hgroup.trans ?_
    rw [← le_minSINR_iff h sinr]
    exact ⟨fun hall => hall ⟨0,h⟩,fun hmin _ => hmin⟩

theorem bler_complements_reliability_two :
    (∀ ue,simTables.lowest ≤ (![3,22] : Fin 2 → Rat) ue) ∧
    ∀ rand drawn,
      (simulate simParams simTables rand two_pos ![3,22] drawn).1.bler +
        (simulate simParams simTables rand two_pos ![3,22] drawn).1.reliability = 100 ∧
      (simulate simParams simTables rand two_pos ![3,22] drawn).2.bler +
        (simulate simParams simTables rand two_pos ![3,22] drawn).2.reliability = 100 := by
  have hreach : ∀ ue,simTables.lowest ≤ (![3,22] : Fin 2 → Rat) ue := by decide +kernel
  refine ⟨hreach,fun rand drawn => ?_⟩
  have hiff := bler_complements_reliability_iff simParams simTables rand two_pos ![3,22] drawn
  exact ⟨hiff.1.mpr hreach,hiff.2.mpr hreach⟩

theorem lost_ue_without_errors :
    (simulate simParams simTables (.above simParams) one_pos (![-1] : Fin 1 → Rat) 0).1.bler +
      (simulate simParams simTables (.above simParams) one_pos (![-1] : Fin 1 → Rat) 0).1.reliability
        ≠ 100 ∧
    (simulate simParams simTables (.above simParams) one_pos (![-1] : Fin 1 → Rat) 0).2.bler +
      (simulate simParams simTables (.above simParams) one_pos (![-1] : Fin 1 → Rat) 0).2.reliability
        ≠ 100 := by
  decide +kernel

theorem dataRate_le_dataRateAt (hpos : ∀ k,0 < t.mcsTable k) {i : Int} (hi : 0 ≤ i)
    (hmean : mean t.mcsTable ≤ t.mcsTable (t.entry i)) : p.dataRate ≤ dataRateAt p t i := by
  have hband : 0 < p.bandwidth / p.numRBs := div_pos p.bandwidth_pos p.numRBs_pos
  have hfirst : 0 < mean t.mcsTable := mean_pos (fun k => (hpos k).le) (hpos ⟨0,t.size_pos⟩)
  have hceil : p.dataRate ≤ rbsPerUE p t * (p.bandwidth / p.numRBs * mean t.mcsTable) :=
    (div_le_iff₀ (mul_pos hband hfirst)).mp (Nat.le_ceil _)
  rw [dataRateAt,if_pos hi]
  calc p.dataRate
      ≤ rbsPerUE p t * (p.bandwidth / p.numRBs * mean t.mcsTable) := hceil
    _ ≤ rbsPerUE p t * (p.bandwidth / p.numRBs * t.mcsTable (t.entry i)) := by gcongr
    _ = t.mcsTable (t.entry i) * (p.bandwidth / p.numRBs) * rbsPerUE p t := by ring

theorem offered_le_sum {sinr : Fin numUE → K}
    (hcarry : ∀ ue,t.lowest ≤ sinr ue → p.dataRate ≤ dataRateAt p t (t.mcsIdx (sinr ue))) :
    ueCount (fun ue => t.lowest ≤ sinr ue) * p.dataRate ≤
      ∑ ue,dataRateAt p t (t.mcsIdx (sinr ue)) := by
  rw [← sum_ite_ueCount]
  refine Finset.sum_le_sum (fun ue _ => ?_)
  by_cases hue : t.lowest ≤ sinr ue
  · rw [if_pos hue]
    exact hcarry ue hue
  · have hneg : ¬ 0 ≤ t.mcsIdx (sinr ue) := by rwa [t.mcsIdx_nonneg_iff]
    rw [if_neg hue,dataRateAt,if_neg hneg]

theorem unicast_carried_iff (h : 0 < numUE) (sinr : Fin numUE → K) :
    (∀ rand drawn,(simulate p t rand h sinr drawn).1.throughput * mega ≤
        ∑ ue,ueDataRates p t rand sinr drawn ue) ↔
      ueCount (fun ue => t.lowest ≤ sinr ue) * p.dataRate ≤
        ∑ ue,dataRateAt p t (t.mcsIdx (sinr ue)) := by
  simp only [ueDataRates_eq]
  exact carried_iff (fun rand drawn => unicastRows_received p t rand sinr drawn) _

theorem group_carried_iff (h : 0 < numUE) (sinr : Fin numUE → K) :
    (∀ rand drawn,(simulate p t rand h sinr drawn).2.throughput * mega ≤
        numUE * groupDataRate p t h sinr) ↔
      (t.lowest ≤ minSINR h sinr → p.dataRate ≤ groupDataRate p t h sinr) := by
  have hues : (0 : K) < numUE := Nat.cast_pos.mpr h
  have hcarried := carried_iff (fun rand drawn =>
    multicastRows_received p t rand h sinr (unicastLoop p t rand sinr drawn).2)
    (numUE * groupDataRate p t h sinr)
  refine hcarried.trans ?_
  by_cases hmin : t.lowest ≤ minSINR h sinr
  · have hcount : ueCount (fun _ : Fin numUE => t.lowest ≤ minSINR h sinr) = numUE := by
      simp [ueCount,hmin]
    rw [hcount,mul_le_mul_iff_right₀ hues]
    exact ⟨fun hle _ => hle,fun hle => hle hmin⟩
  · have hcount : ueCount (fun _ : Fin numUE => t.lowest ≤ minSINR h sinr) = 0 := by
      simp [ueCount,hmin]
    have hneg : ¬ 0 ≤ t.mcsIdx (minSINR h sinr) := by rwa [t.mcsIdx_nonneg_iff]
    rw [hcount]
    simp [hmin,groupDataRate,dataRateAt,hneg]

/-- Over all draws the throughput stays within the data rates exactly where the offered
rate of the served UEs does; and it does where no UE is served below the average MCS. -/
theorem throughput_carried_iff (hpos : ∀ k,0 < t.mcsTable k) (h : 0 < numUE)
    (sinr : Fin numUE → K) :
    ((∀ rand drawn,(simulate p t rand h sinr drawn).1.throughput * mega ≤
        ∑ ue,ueDataRates p t rand sinr drawn ue) ↔
      ueCount (fun ue => t.lowest ≤ sinr ue) * p.dataRate ≤
        ∑ ue,dataRateAt p t (t.mcsIdx (sinr ue))) ∧
    ((∀ rand drawn,(simulate p t rand h sinr drawn).2.throughput * mega ≤
        numUE * groupDataRate p t h sinr) ↔
      (t.lowest ≤ minSINR h sinr → p.dataRate ≤ groupDataRate p t h sinr)) ∧
    ((∀ ue,t.lowest ≤ sinr ue → mean t.mcsTable ≤ t.mcsTable (t.entry (t.mcsIdx (sinr ue)))) →
      ∀ rand drawn,
        (simulate p t rand h sinr drawn).1.throughput * mega ≤
          ∑ ue,ueDataRates p t rand sinr drawn ue ∧
        (simulate p t rand h sinr drawn).2.throughput * mega ≤
          numUE * groupDataRate p t h sinr) := by
  have hunicast := unicast_carried_iff p t h sinr
  have hgroup := group_carried_iff p t h sinr
  refine ⟨hunicast,hgroup,fun hmean => ?_⟩
  have hcarry : ∀ ue,t.lowest ≤ sinr ue → p.dataRate ≤ dataRateAt p t (t.mcsIdx (sinr ue)) := by
    intro ue hue
    exact dataRate_le_dataRateAt p t hpos ((t.mcsIdx_nonneg_iff _).mpr hue) (hmean ue hue)
  have hmin : t.lowest ≤ minSINR h sinr → p.dataRate ≤ groupDataRate p t h sinr := by
    obtain ⟨ue,hue⟩ := exists_sinr_eq_minSINR h sinr
    rw [groupDataRate,hue]
    exact hcarry ue
  intro rand drawn
  exact ⟨hunicast.mpr (offered_le_sum p t hcarry) rand drawn,hgroup.mpr hmin rand drawn⟩

theorem throughput_carried_two :
    (∀ ue,simTables.lowest ≤ (![26,37] : Fin 2 → Rat) ue → mean simTables.mcsTable ≤
      simTables.mcsTable (simTables.entry (simTables.mcsIdx ((![26,37] : Fin 2 → Rat) ue)))) ∧
    ∀ rand drawn,
      (simulate simParams simTables rand two_pos ![26,37] drawn).1.throughput * mega ≤
        ∑ ue,ueDataRates simParams simTables rand ![26,37] drawn ue ∧
      (simulate simParams simTables rand two_pos ![26,37] drawn).2.throughput * mega ≤
        (2 : Nat) * groupDataRate simParams simTables two_pos ![26,37] := by
  have hmean : ∀ ue,simTables.lowest ≤ (![26,37] : Fin 2 → Rat) ue → mean simTables.mcsTable ≤
      simTables.mcsTable (simTables.entry (simTables.mcsIdx ((![26,37] : Fin 2 → Rat) ue))) := by
    decide +kernel
  have hcarried := throughput_carried_iff simParams simTables (by decide +kernel) two_pos ![26,37]
  exact ⟨hmean,hcarried.2.2 hmean⟩

/-- At an SINR of 3 dB the link carries 0.8 Mbit/s and 4 Mbit/s are counted. -/
theorem throughput_above_data_rate :
    ¬ (simulate simParams simTables (.above simParams) one_pos (![3] : Fin 1 → Rat) 0).1.throughput *
        mega ≤ ∑ ue,ueDataRates simParams simTables (.above simParams) (![3] : Fin 1 → Rat) 0 ue ∧
    ¬ (simulate simParams simTables (.above simParams) one_pos (![3] : Fin 1 → Rat) 0).2.throughput *
        mega ≤ (1 : Nat) * groupDataRate simParams simTables one_pos (![3] : Fin 1 → Rat) := by
  decide +kernel

end GrpKeySec.UniMulBro.Python
