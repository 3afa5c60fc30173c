import GrpKeySec.UniMulBroPython
set_option autoImplicit false

/-!
Whom the three modes of unimulbro.m reach, and what that makes of their results. Then
the unicast parts of both scripts against the RBs of a slot.
-/

namespace GrpKeySec.UniMulBro
open FillLoop

namespace Matlab

section Loops

variable {numUE numSlots : Nat}

theorem markUes_apply (test : Fin numUE → Bool) (slot : Fin numSlots)
    (success : Fin numUE × Fin numSlots → Bool) (ue : Fin numUE) (s : Fin numSlots) :
    markUes test slot success (ue,s) = (success (ue,s) || (decide (s = slot) && test ue)) := by
  rw [markUes,mark_apply]
  by_cases hs : s = slot
  · simp [hs]
  · simp [hs,Ne.symm hs]

theorem foldl_markUes (test : Fin numUE → Bool) (slots : List (Fin numSlots))
    (success : Fin numUE × Fin numSlots → Bool) (ue : Fin numUE) (s : Fin numSlots) :
    slots.foldl (fun success slot => markUes test slot success) success (ue,s) =
      (success (ue,s) || (decide (s ∈ slots) && test ue)) := by
  induction slots generalizing success with
  | nil => simp
  | cons slot slots ih =>
    rw [List.foldl_cons,ih,markUes_apply]
    by_cases hs : s = slot
    · cases htest : test ue <;> simp [hs]
    · simp [hs]

variable {K : Type} [LinearOrder K] (t : Tables K) (sinr : Fin numUE → K) (ue : Fin numUE)
  (slot : Fin numSlots)

theorem unicastSuccess_iff : unicastSuccess t sinr (ue,slot) = true ↔ t.lowest ≤ sinr ue := by
  rw [unicastSuccess,foldl_markUes]
  simp [t.lastReached_isSome_iff]

theorem broadcastSuccess_iff (fixedMCS : Fin t.size) :
    broadcastSuccess t sinr fixedMCS (ue,slot) = true ↔ t.sinrThresholds fixedMCS ≤ sinr ue := by
  rw [broadcastSuccess,foldl_markUes]
  simp

theorem multicastSuccess_iff (h : 0 < numUE) :
    multicastSuccess t sinr h (ue,slot) = true ↔ t.lowest ≤ minSINR h sinr := by
  have hsome := t.lastReached_isSome_iff (minSINR h sinr)
  unfold multicastSuccess
  cases hlast : t.lastReached (minSINR h sinr) with
  | none =>
    rw [hlast] at hsome
    simpa using hsome
  | some mcsIdx =>
    rw [hlast] at hsome
    have hreached := (t.of_lastReached hlast).trans (minSINR_le h sinr ue)
    simp only [foldl_markUes]
    simpa [hreached] using hsome

omit ue slot in
theorem multicastSuccess_none (h : 0 < numUE) (hmin : ¬ t.lowest ≤ minSINR h sinr)
    (i : Fin numUE × Fin numSlots) : multicastSuccess t sinr h i = false := by
  rw [← Bool.not_eq_true,multicastSuccess_iff]
  exact hmin

variable {i : Fin numUE × Fin numSlots}

theorem unicast_of_multicast (h : 0 < numUE) (hi : multicastSuccess t sinr h i = true) :
    unicastSuccess t sinr i = true := by
  rw [multicastSuccess_iff] at hi
  rw [unicastSuccess_iff]
  exact hi.trans (minSINR_le h sinr i.1)

theorem unicast_of_broadcast {fixedMCS : Fin t.size}
    (hi : broadcastSuccess t sinr fixedMCS i = true) : unicastSuccess t sinr i = true := by
  rw [broadcastSuccess_iff] at hi
  rw [unicastSuccess_iff]
  exact (t.lowest_le fixedMCS).trans hi

end Loops

variable {K : Type} [Field K] [LinearOrder K] [IsStrictOrderedRing K]

theorem results_mono (p : Params K) {numUE : Nat} {success success' : Fin numUE × Fin p.numSlots → Bool}
    (h : ∀ i,success i = true → success' i = true) (usage usage' : K) :
    (results p usage success).reliability ≤ (results p usage' success').reliability ∧
    (results p usage success).throughput ≤ (results p usage' success').throughput := by
  have hnat : ∀ i,(success i).toNat ≤ (success' i).toNat := fun i => Bool.toNat_le_toNat (h i)
  have hdata := p.dataRate_pos.le
  constructor
  · have hmean := mean_mono (fun slot => mean_mono (fun ue =>
      (Nat.cast_le (α := K)).mpr (hnat (ue,slot))))
    simp only [results]
    linarith
  · simp only [results]
    gcongr with slot _ ue _
    exact hnat (ue,slot)

theorem reliability_pos (p : Params K) {numUE : Nat} {success : Fin numUE × Fin p.numSlots → Bool}
    {ue : Fin numUE} (h : ∀ slot,success (ue,slot) = true) (usage : K) :
    0 < (results p usage success).reliability := by
  have hslot : ∀ slot,0 < mean (fun ue => ((success (ue,slot)).toNat : K)) := by
    intro slot
    refine mean_pos (fun _ => Nat.cast_nonneg _) (i := ue) ?_
    simp [h slot]
  have hmean := mean_pos (fun slot => (hslot slot).le) (hslot ⟨0,p.numSlots_pos⟩)
  simp only [results]
  linarith

variable [FloorRing K] (p : Params K) (t : Tables K) {numUE : Nat} (h : 0 < numUE)
  (sinr : Fin numUE → K) (fixedMCS : Fin t.size)

theorem broadcast_le_multicast_iff :
    (broadcast t sinr p fixedMCS).reliability ≤ (multicast t sinr p h fixedMCS).reliability ↔
      t.lowest ≤ minSINR h sinr ∨ ∀ ue,sinr ue < t.sinrThresholds fixedMCS := by
  constructor
  · intro hle
    by_contra hneither
    simp only [not_or,not_forall,not_lt] at hneither
    obtain ⟨hmin,ue,hue⟩ := hneither
    have hpos : 0 < (broadcast t sinr p fixedMCS).reliability :=
      reliability_pos p (fun slot => (broadcastSuccess_iff t sinr ue slot fixedMCS).mpr hue) _
    have hzero : (multicast t sinr p h fixedMCS).reliability = 0 := by
      simp [multicast,results,multicastSuccess_none t sinr h hmin,mean]
    linarith
  · intro heither
    refine (results_mono p (fun i hi => ?_) _ _).1
    rw [broadcastSuccess_iff] at hi
    rw [multicastSuccess_iff]
    obtain hmin | hfew := heither
    · exact hmin
    · exact absurd hi (not_le.mpr (hfew i.1))

/-- Unicast covers the other two modes. Multicast covers all UEs or none, and falls behind
broadcast where the worst UE is out of reach and some UE has the fixed MCS. -/
theorem coverage_ordering :
    (∀ (ue : Fin numUE) (slot slot' : Fin p.numSlots),
      unicastSuccess t sinr (ue,slot) = unicastSuccess t sinr (ue,slot') ∧
      broadcastSuccess t sinr fixedMCS (ue,slot) = broadcastSuccess t sinr fixedMCS (ue,slot') ∧
      multicastSuccess t sinr h (ue,slot) = multicastSuccess t sinr h (ue,slot')) ∧
    ((∀ i : Fin numUE × Fin p.numSlots,multicastSuccess t sinr h i = true) ∨
      ∀ i : Fin numUE × Fin p.numSlots,multicastSuccess t sinr h i = false) ∧
    ((∀ i : Fin numUE × Fin p.numSlots,multicastSuccess t sinr h i = true) ↔
      t.lowest ≤ minSINR h sinr) ∧
    (∀ i : Fin numUE × Fin p.numSlots,
      (multicastSuccess t sinr h i = true → unicastSuccess t sinr i = true) ∧
      (broadcastSuccess t sinr fixedMCS i = true → unicastSuccess t sinr i = true)) ∧
    ((multicast t sinr p h fixedMCS).reliability ≤ (unicast t sinr p).reliability ∧
      (multicast t sinr p h fixedMCS).throughput ≤ (unicast t sinr p).throughput) ∧
    ((broadcast t sinr p fixedMCS).reliability ≤ (unicast t sinr p).reliability ∧
      (broadcast t sinr p fixedMCS).throughput ≤ (unicast t sinr p).throughput) ∧
    ((broadcast t sinr p fixedMCS).reliability ≤ (multicast t sinr p h fixedMCS).reliability ↔
      t.lowest ≤ minSINR h sinr ∨ ∀ ue,sinr ue < t.sinrThresholds fixedMCS) := by
  refine ⟨?_,?_,?_,?_,?_,?_,broadcast_le_multicast_iff p t h sinr fixedMCS⟩
  · intro ue slot slot'
    refine ⟨?_,?_,?_⟩
    · rw [Bool.eq_iff_iff,unicastSuccess_iff,unicastSuccess_iff]
    · rw [Bool.eq_iff_iff,broadcastSuccess_iff,broadcastSuccess_iff]
    · rw [Bool.eq_iff_iff,multicastSuccess_iff,multicastSuccess_iff]
  · by_cases hmin : t.lowest ≤ minSINR h sinr
    · exact .inl (fun i => (multicastSuccess_iff t sinr i.1 i.2 h).mpr hmin)
    · exact .inr (fun i => multicastSuccess_none t sinr h hmin i)
  · constructor
    · intro hall
      exact (multicastSuccess_iff t sinr _ _ h).mp (hall (⟨0,h⟩,⟨0,p.numSlots_pos⟩))
    · intro hmin i
      exact (multicastSuccess_iff t sinr i.1 i.2 h).mpr hmin
  · intro i
    exact ⟨unicast_of_multicast t sinr h,unicast_of_broadcast t sinr⟩
  · exact results_mono p (fun _ => unicast_of_multicast t sinr h) _ _
  · exact results_mono p (fun _ => unicast_of_broadcast t sinr) _ _

theorem coverage_ordering_flips :
    (¬ (broadcast simTables (![-1,22] : Fin 2 → Rat) simParams (3 : Fin 10)).reliability ≤
      (multicast simTables ![-1,22] simParams two_pos (3 : Fin 10)).reliability) ∧
    (broadcast simTables (![3,22] : Fin 2 → Rat) simParams (3 : Fin 10)).reliability ≤
      (multicast simTables ![3,22] simParams two_pos (3 : Fin 10)).reliability := by
  have hout := coverage_ordering simParams simTables two_pos ![-1,22] (3 : Fin 10)
  have hin := coverage_ordering simParams simTables two_pos ![3,22] (3 : Fin 10)
  exact ⟨hout.2.2.2.2.2.2.not.mpr (by decide +kernel),hin.2.2.2.2.2.2.mpr (by decide +kernel)⟩

end Matlab

section Slot

variable {K : Type} [Field K] [LinearOrder K] [FloorRing K] (p : Params K) (t : Tables K)
  {numUE : Nat} (sinr : Fin numUE → K)

theorem python_ueCount_le (rand : Python.Draws K) (drawn : Nat) (slot : Fin p.numSlots) :
    ueCount (fun ue => (Python.unicastRows p t rand sinr drawn ue).success slot = true) ≤
      ueCount (fun ue => t.lowest ≤ sinr ue) := by
  refine ueCount_mono (fun ue hue => ?_)
  by_contra hlost
  rw [(Python.unicastRows_received p t rand sinr drawn).lost ue hlost] at hue
  exact nomatch hue

variable [IsStrictOrderedRing K]

theorem python_ueCount_above (drawn : Nat) (slot : Fin p.numSlots) :
    ueCount (fun ue => t.lowest ≤ sinr ue) ≤
      ueCount (fun ue => (Python.unicastRows p t (.above p) sinr drawn ue).success slot = true) := by
  refine ueCount_mono (fun ue hue => ?_)
  obtain ⟨k,hk⟩ := (Python.unicastRows_received p t (.above p) sinr drawn).served ue hue
  rw [hk]
  exact Python.drawRow_above k slot

/-- The UEs marked successful in a slot fit into its RBs, for every draw, exactly where
all UEs that reach the lowest threshold do. -/
theorem unicast_fits_iff :
    ((∀ (rand : Python.Draws K) (drawn : Nat) (slot : Fin p.numSlots),
      (ueCount (fun ue => (Python.unicastRows p t rand sinr drawn ue).success slot = true) : K) *
        rbsPerUE p t ≤ p.numRBs) ↔
      (ueCount (fun ue => t.lowest ≤ sinr ue) : K) * rbsPerUE p t ≤ p.numRBs) ∧
    ((∀ slot : Fin p.numSlots,
      (ueCount (fun ue => Matlab.unicastSuccess t sinr (ue,slot) = true) : K) * rbsPerUE p t ≤
        p.numRBs) ↔
      (ueCount (fun ue => t.lowest ≤ sinr ue) : K) * rbsPerUE p t ≤ p.numRBs) := by
  constructor
  · constructor
    · intro hfits
      refine le_trans ?_ (hfits (.above p) 0 ⟨0,p.numSlots_pos⟩)
      gcongr
      exact python_ueCount_above p t sinr 0 _
    · intro hfits rand drawn slot
      refine le_trans ?_ hfits
      gcongr
      exact python_ueCount_le p t sinr rand drawn slot
  · simp only [Matlab.unicastSuccess_iff]
    exact ⟨fun hfits => hfits ⟨0,p.numSlots_pos⟩,fun hfits _ => hfits⟩

end Slot

theorem rbsPerUE_simParams : rbsPerUE simParams simTables = 2 := by decide +kernel

theorem ueCount_reached (numUE : Nat) :
    ueCount (fun _ : Fin numUE => simTables.lowest ≤ (35 : Rat)) = numUE := by
  have hreached : simTables.lowest ≤ (35 : Rat) := by decide +kernel
  simp [ueCount,hreached]

theorem unicast_fits_fifty :
    (∀ (rand : Python.Draws Rat) (drawn : Nat) (slot : Fin simParams.numSlots),
      (ueCount (fun ue => (Python.unicastRows simParams simTables rand
        (fun _ : Fin 50 => (35 : Rat)) drawn ue).success slot = true) : Rat) *
        rbsPerUE simParams simTables ≤ simParams.numRBs) ∧
    ∀ slot : Fin simParams.numSlots,
      (ueCount (fun ue => Matlab.unicastSuccess simTables
        (fun _ : Fin 50 => (35 : Rat)) (ue,slot) = true) : Rat) *
        rbsPerUE simParams simTables ≤ simParams.numRBs := by
  have hiff := unicast_fits_iff simParams simTables (fun _ : Fin 50 => (35 : Rat))
  have hfits : (ueCount (fun _ : Fin 50 => simTables.lowest ≤ (35 : Rat)) : Rat) *
      rbsPerUE simParams simTables ≤ simParams.numRBs := by
    rw [ueCount_reached,rbsPerUE_simParams]
    norm_num [simParams,scriptParams]
  exact ⟨hiff.1.mpr hfits,hiff.2.mpr hfits⟩

/-- 60 UEs at 2 RBs each are all served in a slot of 100 RBs. -/
theorem sixty_ues_do_not_fit :
    ¬ (ueCount (fun ue => (Python.unicastRows simParams simTables (.above simParams)
        (fun _ : Fin 60 => (35 : Rat)) 0 ue).success ⟨0,simParams.numSlots_pos⟩ = true) : Rat) *
        rbsPerUE simParams simTables ≤ simParams.numRBs ∧
    ¬ (ueCount (fun ue => Matlab.unicastSuccess simTables (fun _ : Fin 60 => (35 : Rat))
        (ue,(⟨0,simParams.numSlots_pos⟩ : Fin simParams.numSlots)) = true) : Rat) *
        rbsPerUE simParams simTables ≤ simParams.numRBs := by
  have hblocks : simParams.numRBs = 100 := rfl
  constructor
  · have hcount := python_ueCount_above simParams simTables (fun _ : Fin 60 => (35 : Rat)) 0
      ⟨0,simParams.numSlots_pos⟩
    rw [ueCount_reached] at hcount
    have hcast := (Nat.cast_le (α := Rat)).mpr hcount
    rw [Nat.cast_ofNat] at hcast
    rw [rbsPerUE_simParams,hblocks,Nat.cast_ofNat]
    intro hle
    linarith
  · simp only [Matlab.unicastSuccess_iff]
    rw [ueCount_reached,rbsPerUE_simParams,hblocks]
    norm_num

end GrpKeySec.UniMulBro
