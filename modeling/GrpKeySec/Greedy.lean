import Mathlib.Algebra.BigOperators.Group.List.Basic
import Mathlib.Algebra.Order.BigOperators.Group.List
import Mathlib.Algebra.Order.Ring.Nat
import Mathlib.Data.List.Nodup
set_option autoImplicit false

/-!
Greedy allocation: requests come in a fixed order and each is served when its cost
fits into what is left.
-/

namespace GrpKeySec.Greedy

variable {α : Type} (cost : α → Nat)

def total (l : List α) : Nat := (l.map cost).sum

def served : Nat → List α → List α
  | _,[] => []
  | free,a :: l => if cost a ≤ free then a :: served (free - cost a) l else served free l

@[simp] theorem total_nil : total cost [] = 0 := rfl

@[simp] theorem total_cons (a : α) (l : List α) : total cost (a :: l) = cost a + total cost l := by
  simp [total]

theorem total_append (l l' : List α) : total cost (l ++ l') = total cost l + total cost l' := by
  simp [total]

theorem cost_le_total {l : List α} {a : α} (ha : a ∈ l) : cost a ≤ total cost l :=
  List.single_le_sum (by simp) _ (List.mem_map_of_mem ha)

theorem length_le_total {l : List α} (h : ∀ a ∈ l,0 < cost a) : l.length ≤ total cost l := by
  have hle := List.length_le_sum_of_one_le (l.map cost) (List.forall_mem_map.mpr h)
  rwa [List.length_map] at hle

theorem total_perm {l l' : List α} (h : l.Perm l') : total cost l = total cost l' :=
  (h.map cost).sum_eq

theorem total_flatMap {β : Type} (part : β → List α) (l : List β) :
    total cost (l.flatMap part) = total (fun b => total cost (part b)) l := by
  induction l with
  | nil => simp
  | cons b l ih =>
    simp only [List.flatMap_cons,total_append,total_cons,ih]

theorem total_mono {cost' : α → Nat} {l : List α} (h : ∀ a ∈ l,cost a ≤ cost' a) :
    total cost l ≤ total cost' l := List.sum_le_sum h

theorem eq_of_sublist_of_total_le {l l' : List α} (h : l.Sublist l') (hpos : ∀ a ∈ l',0 < cost a)
    (hle : total cost l' ≤ total cost l) : l = l' := by
  induction h with
  | slnil => rfl
  | @cons l l' a hsub ih =>
    have ha := hpos a List.mem_cons_self
    have hpart : total cost l ≤ total cost l' := (hsub.map cost).sum_le_sum (by simp)
    rw [total_cons] at hle
    omega
  | @cons_cons l l' a _ ih =>
    simp only [total_cons] at hle
    rw [ih (fun b hb => hpos b (List.mem_cons_of_mem a hb)) (by omega)]

theorem served_sublist (free : Nat) (l : List α) : (served cost free l).Sublist l := by
  induction l generalizing free with
  | nil => exact List.Sublist.refl []
  | cons a l ih =>
    by_cases h : cost a ≤ free
    · simp only [served,if_pos h]
      exact (ih (free - cost a)).cons_cons a
    · simp only [served,if_neg h]
      exact (ih free).cons a

theorem total_served_le (free : Nat) (l : List α) : total cost (served cost free l) ≤ free := by
  induction l generalizing free with
  | nil => simp [served]
  | cons a l ih =>
    by_cases h : cost a ≤ free
    · have hrest := ih (free - cost a)
      simp only [served,if_pos h,total_cons]
      omega
    · simp only [served,if_neg h]
      exact ih free

/-- With more to give no less is given: the first request that only the larger budget
serves costs more than all of the smaller one. -/
theorem total_served_mono {free free' : Nat} (hle : free ≤ free') (l : List α) :
    total cost (served cost free l) ≤ total cost (served cost free' l) := by
  induction l generalizing free free' with
  | nil => simp [served]
  | cons a l ih =>
    by_cases hfit : cost a ≤ free
    · have hfit' : cost a ≤ free' := by omega
      have hrest := ih (show free - cost a ≤ free' - cost a by omega)
      simp only [served,if_pos hfit,if_pos hfit',total_cons]
      omega
    · by_cases hfit' : cost a ≤ free'
      · -- the runs part here
        have hsmall := total_served_le cost free l
        simp only [served,if_neg hfit,if_pos hfit',total_cons]
        omega
      · simp only [served,if_neg hfit,if_neg hfit']
        exact ih hle

theorem lt_cost_of_not_served {free : Nat} {l : List α} {a : α} (ha : a ∈ l)
    (hnot : a ∉ served cost free l) : free - total cost (served cost free l) < cost a := by
  induction l generalizing free with
  | nil => simp at ha
  | cons b l ih =>
    by_cases h : cost b ≤ free
    · simp only [served,if_pos h,List.mem_cons,not_or,total_cons] at hnot ⊢
      obtain rfl | ha := List.mem_cons.mp ha
      · exact absurd rfl hnot.1
      · have hrest := ih ha hnot.2
        omega
    · simp only [served,if_neg h] at hnot ⊢
      obtain rfl | ha := List.mem_cons.mp ha
      · omega
      · exact ih ha hnot

/-- Whoever comes before a request that is served, and costs no more, is served as well. -/
theorem mem_served_of_earlier {before : α → α → Prop} {free : Nat} {l : List α} {a b : α}
    (hl : l.Pairwise before) (ha : a ∈ l) (hba : ¬ before b a) (hcost : cost a ≤ cost b)
    (hb : b ∈ served cost free l) : a ∈ served cost free l := by
  induction l generalizing free with
  | nil => simp at ha
  | cons c l ih =>
    obtain ⟨hc,hl⟩ := List.pairwise_cons.mp hl
    by_cases hfit : cost c ≤ free
    · simp only [served,if_pos hfit,List.mem_cons] at hb ⊢
      obtain rfl | hal := List.mem_cons.mp ha
      · exact .inl rfl
      · obtain rfl | hb := hb
        · exact absurd (hc a hal) hba
        · exact .inr (ih hl hal hb)
    · simp only [served,if_neg hfit] at hb ⊢
      obtain rfl | ha := List.mem_cons.mp ha
      · have hle := (cost_le_total cost hb).trans (total_served_le cost free l)
        omega
      · exact ih hl ha hb

theorem served_eq_self_iff (free : Nat) (l : List α) :
    served cost free l = l ↔ total cost l ≤ free := by
  constructor
  · intro h
    have hle := total_served_le cost free l
    rwa [h] at hle
  · intro h
    induction l generalizing free with
    | nil => rfl
    | cons a l ih =>
      rw [total_cons] at h
      have ha : cost a ≤ free := by omega
      simp only [served,if_pos ha]
      rw [ih (free - cost a) (by omega)]

/-- Requests of one cost are served in order until nothing is left. -/
theorem served_const {c : Nat} (hc : 0 < c) (free : Nat) (l : List α)
    (h : ∀ a ∈ l,cost a = c) : served cost free l = l.take (free / c) := by
  induction l generalizing free with
  | nil => simp [served]
  | cons a l ih =>
    have ha := h a List.mem_cons_self
    have hl : ∀ b ∈ l,cost b = c := fun b hb => h b (List.mem_cons_of_mem a hb)
    by_cases hfit : c ≤ free
    · have hdiv : free / c = (free - c) / c + 1 := by
        rw [Nat.div_eq_sub_div hc hfit]
      simp only [served,ha,if_pos hfit,ih (free - c) hl,hdiv,List.take_succ_cons]
    · have hdiv : free / c = 0 := Nat.div_eq_of_lt (by omega)
      have hrest := ih free hl
      simp only [served,ha,if_neg hfit,hrest,hdiv,List.take_zero]

theorem total_const {c : Nat} (l : List α) (h : ∀ a ∈ l,cost a = c) :
    total cost l = l.length * c := by
  rw [total,List.sum_eq_card_nsmul _ c (List.forall_mem_map.mpr h),List.length_map,
    nsmul_eq_mul,Nat.cast_id]

end GrpKeySec.Greedy
