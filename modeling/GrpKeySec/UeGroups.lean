import GrpKeySec.PhysicalLayer
set_option autoImplicit false

/-! The groups of a scenario share out its UEs. -/

namespace GrpKeySec.PhysicalLayer.UeData

variable {K : Type} (d : UeData K)

theorem mem_groupUEs {group : Nat} {ue : Fin d.numUEs} :
    ue ∈ d.groupUEs group ↔ d.groupRNTI ue = group := by
  simp [groupUEs]

theorem mem_uniqueGroups {group : Nat} :
    group ∈ d.uniqueGroups ↔ ∃ ue,d.groupRNTI ue = group := by
  simp [uniqueGroups,List.mem_ofFn]

theorem uniqueGroups_nodup : d.uniqueGroups.Nodup :=
  (List.perm_insertionSort _ _).nodup_iff.mpr (List.nodup_dedup _)

theorem length_uniqueGroups_le : d.uniqueGroups.length ≤ d.numUEs := by
  have hle := (List.dedup_sublist (List.ofFn d.groupRNTI)).length_le
  rwa [List.length_ofFn,← (List.perm_insertionSort (· ≤ ·) _).length_eq] at hle

theorem groupUEs_ne_nil {group : Nat} (h : group ∈ d.uniqueGroups) : d.groupUEs group ≠ [] := by
  obtain ⟨ue,hue⟩ := d.mem_uniqueGroups.mp h
  exact List.ne_nil_of_mem (d.mem_groupUEs.mpr hue)

theorem flatMap_groupUEs_nodup {groups : List Nat} (h : groups.Nodup) :
    (groups.flatMap d.groupUEs).Nodup := by
  rw [List.nodup_flatMap]
  refine ⟨fun group _ => (List.nodup_finRange _).filter _,h.imp ?_⟩
  intro g g' hne ue hg hg'
  rw [mem_groupUEs] at hg hg'
  exact hne (hg.symm.trans hg')

theorem flatMap_groupUEs_perm :
    (d.uniqueGroups.flatMap d.groupUEs).Perm (List.finRange d.numUEs) := by
  rw [List.perm_ext_iff_of_nodup (d.flatMap_groupUEs_nodup d.uniqueGroups_nodup)
    (List.nodup_finRange _)]
  intro ue
  simp [mem_uniqueGroups,mem_groupUEs]

theorem length_flatMap_le {groups : List Nat} (h : groups.Nodup) :
    (groups.flatMap d.groupUEs).length ≤ d.numUEs := by
  have hle := (d.flatMap_groupUEs_nodup h).length_le_card
  rwa [Fintype.card_fin] at hle

variable [LinearOrder K]

theorem maxRequiredBitrate_eq_some {group : Nat} {rate : K} :
    d.maxRequiredBitrate group = some rate ↔
      (∃ ue ∈ d.groupUEs group,d.requiredBitrate ue = rate) ∧
        ∀ ue ∈ d.groupUEs group,d.requiredBitrate ue ≤ rate := by
  simp [maxRequiredBitrate,List.max?_eq_some_iff]

variable [Field K] (f : Maths K) (p : SimParams K)

theorem worstSINR_eq_some {group : Nat} {worst : K} :
    d.worstSINR f p group = some worst ↔
      (∃ ue ∈ d.groupUEs group,d.sinr f p ue = worst) ∧
        ∀ ue ∈ d.groupUEs group,worst ≤ d.sinr f p ue := by
  simp [worstSINR,List.min?_eq_some_iff]

end GrpKeySec.PhysicalLayer.UeData
