import Mathlib.Algebra.BigOperators.Fin
import Mathlib.Data.List.FinRange
set_option autoImplicit false

/-!
Counting the entries of a list by a key: the counts of all keys add up to the whole, also
where the entries that pass a test are counted by one key and the others by another. The
lists of nested loops are counted loop by loop.
-/

namespace GrpKeySec.Tally

variable {α β ι κ : Type}

theorem sum_countP_key [Fintype ι] [DecidableEq ι] (p : α → Bool) (key : α → ι) (l : List α) :
    ∑ x,l.countP (fun a => p a && decide (key a = x)) = l.countP p := by
  induction l with
  | nil => simp
  | cons a l ih =>
    simp only [List.countP_cons,Finset.sum_add_distrib,ih]
    cases p a <;> simp

theorem countP_not (p : α → Bool) (l : List α) :
    l.countP p + l.countP (fun a => !p a) = l.length := by
  induction l with
  | nil => simp
  | cons a l ih =>
    simp only [List.countP_cons,List.length_cons]
    cases p a <;> simp <;> omega

/-- What passes is counted by one key and what fails by the other; nothing is missed and
nothing is counted twice. -/
theorem sum_passed_add_sum_failed [Fintype ι] [DecidableEq ι] [Fintype κ] [DecidableEq κ]
    (p : α → Bool) (key : α → ι) (key' : α → κ) (l : List α) :
    ∑ x,l.countP (fun a => p a && decide (key a = x)) +
      ∑ y,l.countP (fun a => !p a && decide (key' a = y)) = l.length := by
  rw [sum_countP_key,sum_countP_key (fun a => !p a),countP_not]

theorem countP_loop {n : Nat} (p : β → Bool) (f : Fin n → List β) :
    ((List.finRange n).flatMap f).countP p = ∑ i,(f i).countP p := by
  rw [List.countP_flatMap,Fin.sum_univ_def]
  rfl

theorem countP_last_loop {n : Nat} (p : β → Bool) (f : Fin n → β) :
    ((List.finRange n).map f).countP p = ∑ i,if p (f i) then 1 else 0 := by
  rw [List.countP_map,Fin.sum_univ_def]
  induction List.finRange n with
  | nil => rfl
  | cons i l ih => simp [List.countP_cons,ih,Nat.add_comm]

theorem sum_ite_get [DecidableEq α] {l : List α} (hl : l.Nodup) (x : α) (a : Nat) :
    (∑ idx,if l.get idx = x then a else 0) = if x ∈ l then a else 0 := by
  by_cases hx : x ∈ l
  · obtain ⟨j,rfl⟩ := List.get_of_mem hx
    simp only [(List.nodup_iff_injective_get.mp hl).eq_iff,Finset.sum_ite_eq',Finset.mem_univ,
      if_true,hx]
  · have hne : ∀ idx,l.get idx ≠ x := by
      intro idx hidx
      exact hx (hidx ▸ List.get_mem l idx)
    simp only [hne,hx,if_false,Finset.sum_const_zero]

end GrpKeySec.Tally
