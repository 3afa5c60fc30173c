import Mathlib.Data.List.FinRange
import Mathlib.Order.Fin.Basic
set_option autoImplicit false

/-!
Searching a table: the binary search for the end of the entries that are at most a
given value, and the scan for the last entry that passes a test.
-/

namespace GrpKeySec.TableSearch

/-- Halve the interval from `lo` to `hi` until it is empty, to the right of its middle
where the test holds there and to the left where it does not. -/
def bisect (p : Nat → Bool) : Nat → Nat → Nat → Nat
  | 0,lo,_ => lo
  | fuel + 1,lo,hi =>
    if lo < hi then
      let mid := lo + (hi - lo) / 2
      if p mid then bisect p fuel (mid + 1) hi else bisect p fuel lo mid
    else lo

theorem lt_bisect_iff {p : Nat → Bool} (hp : ∀ i j,i ≤ j → p j = true → p i = true)
    (fuel lo hi : Nat) (hfuel : hi - lo ≤ fuel) (hlo : ∀ i,i < lo → p i = true)
    (hhi : ∀ i,p i = true → i < hi) (i : Nat) : i < bisect p fuel lo hi ↔ p i = true := by
  induction fuel generalizing lo hi with
  | zero =>
    refine ⟨hlo i,fun h => ?_⟩
    have hlt := hhi i h
    simp only [bisect]
    omega
  | succ fuel ih =>
    unfold bisect
    by_cases hlt : lo < hi
    · simp only [if_pos hlt]
      cases hmid : p (lo + (hi - lo) / 2) with
      | true =>
        refine ih _ _ (by omega) (fun j hj => ?_) hhi
        exact hp j _ (by omega) hmid
      | false =>
        refine ih _ _ (by omega) hlo (fun j hj => ?_)
        by_contra hge
        have htrue := hp (lo + (hi - lo) / 2) j (by omega) hj
        simp [hmid] at htrue
    · simp only [if_neg hlt]
      refine ⟨hlo i,fun h => ?_⟩
      have hend := hhi i h
      omega

section Searchsorted

variable {α : Type} [LinearOrder α] {n : Nat}

def entryLe (a : Fin n → α) (x : α) (i : Nat) : Bool :=
  if h : i < n then decide (a ⟨i,h⟩ ≤ x) else false

/-- Where `x` would go behind all entries that are at most `x`. -/
def searchsorted (a : Fin n → α) (x : α) : Nat := bisect (entryLe a x) n 0 n

variable {a : Fin n → α}

theorem lt_searchsorted_iff_entryLe (ha : Monotone a) (x : α) (i : Nat) :
    i < searchsorted a x ↔ entryLe a x i = true := by
  refine lt_bisect_iff ?_ n 0 n (by omega) (fun i hi => by omega) ?_ i
  · intro i j hij hj
    by_cases hjn : j < n
    · have hin : i < n := by omega
      have hle : a ⟨i,hin⟩ ≤ a ⟨j,hjn⟩ := ha hij
      simp only [entryLe,dif_pos hjn,decide_eq_true_eq] at hj
      simpa only [entryLe,dif_pos hin,decide_eq_true_eq] using hle.trans hj
    · simp [entryLe,hjn] at hj
  · intro j hj
    by_contra hjn
    simp [entryLe,hjn] at hj

theorem lt_searchsorted_iff (ha : Monotone a) (x : α) (i : Fin n) :
    i.val < searchsorted a x ↔ a i ≤ x := by
  rw [lt_searchsorted_iff_entryLe ha]
  simp [entryLe]

theorem searchsorted_le (ha : Monotone a) (x : α) : searchsorted a x ≤ n := by
  by_contra hlt
  have hentry := (lt_searchsorted_iff_entryLe ha x n).mp (by omega)
  simp [entryLe] at hentry

theorem searchsorted_mono (ha : Monotone a) {x y : α} (h : x ≤ y) :
    searchsorted a x ≤ searchsorted a y := by
  by_contra hlt
  have hxn := searchsorted_le ha x
  have hyn : searchsorted a y < n := by omega
  have hx := (lt_searchsorted_iff ha x ⟨searchsorted a y,hyn⟩).mp (Nat.lt_of_not_le hlt)
  have hy := (lt_searchsorted_iff ha y ⟨searchsorted a y,hyn⟩).mpr (hx.trans h)
  exact absurd hy (lt_irrefl _)

end Searchsorted

section FindLast

variable {n : Nat} {p : Fin n → Bool}

def findLast (p : Fin n → Bool) : Option (Fin n) := (List.finRange n).reverse.find? p

theorem findLast_isSome_iff : (findLast p).isSome = true ↔ ∃ i,p i = true := by
  simp [findLast,List.find?_isSome]

theorem of_findLast {i : Fin n} (h : findLast p = some i) : p i = true := List.find?_some h

theorem le_of_findLast {i j : Fin n} (h : findLast p = some i) (hj : p j = true) : j ≤ i := by
  obtain ⟨-,above,below,hsplit,habove⟩ := List.find?_eq_some_iff_append.mp h
  have hdesc : (above ++ i :: below).Pairwise (fun a b => b < a) := by
    rw [← hsplit,List.pairwise_reverse]
    exact List.pairwise_lt_finRange n
  have hmem : j ∈ above ++ i :: below := by
    rw [← hsplit]
    simp
  simp only [List.mem_append,List.mem_cons] at hmem
  rcases hmem with hj' | rfl | hj'
  · have hfalse := habove j hj'
    simp [hj] at hfalse
  · exact le_rfl
  · have hcons := (List.pairwise_append.mp hdesc).2.1
    exact (List.rel_of_pairwise_cons hcons hj').le

end FindLast
end GrpKeySec.TableSearch
