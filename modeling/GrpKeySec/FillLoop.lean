import Mathlib.Data.List.FinRange
import Mathlib.Logic.Function.Basic
set_option autoImplicit false

/-!
Loops over the indices of an array that write the entry of the index they are at, and
only where a test holds. What is written may be taken from a running state, such as
the place in a stream of random numbers.
-/

namespace GrpKeySec.FillLoop

variable {ι ρ τ : Type} [DecidableEq ι]

section Fill

variable (test : ι → Bool) (produce : ι → τ → ρ × τ)

def step (s : (ι → ρ) × τ) (i : ι) : (ι → ρ) × τ :=
  if test i then (Function.update s.1 i (produce i s.2).1,(produce i s.2).2) else s

def fill (l : List ι) (s : (ι → ρ) × τ) : (ι → ρ) × τ := l.foldl (step test produce) s

theorem step_other (s : (ι → ρ) × τ) {i j : ι} (h : j ≠ i ∨ test j = false) :
    (step test produce s i).1 j = s.1 j := by
  unfold step
  by_cases hij : j = i
  · subst hij
    simp [h.resolve_left (fun hne => hne rfl)]
  · split
    · exact Function.update_of_ne hij _ _
    · rfl

theorem fill_other (l : List ι) (s : (ι → ρ) × τ) {j : ι} (h : j ∉ l ∨ test j = false) :
    (fill test produce l s).1 j = s.1 j := by
  induction l generalizing s with
  | nil => rfl
  | cons i l ih =>
    have hl : j ∉ l ∨ test j = false := h.imp_left (fun hj hmem => hj (List.mem_cons_of_mem i hmem))
    have hi : j ≠ i ∨ test j = false := h.imp_left (fun hj heq => hj (heq ▸ List.mem_cons_self))
    exact (ih _ hl).trans (step_other test produce s hi)

/-- An entry that passes the test is written once, from the state reached by then. -/
theorem fill_written {l : List ι} (hl : l.Nodup) (s : (ι → ρ) × τ) {j : ι} (hj : j ∈ l)
    (htest : test j = true) : ∃ t,(fill test produce l s).1 j = (produce j t).1 := by
  induction l generalizing s with
  | nil => exact nomatch hj
  | cons i l ih =>
    obtain ⟨hi,hl⟩ := List.nodup_cons.mp hl
    by_cases hij : j = i
    · subst hij
      refine ⟨s.2,?_⟩
      have hrest := fill_other test produce l (step test produce s j) (.inl hi)
      simpa [fill,step,htest] using hrest
    · exact ih hl _ (List.mem_of_ne_of_mem hij hj)

end Fill

def mark (test : ι → Bool) (l : List ι) (a : ι → Bool) : ι → Bool :=
  l.foldl (fun a i => if test i then Function.update a i true else a) a

theorem mark_apply (test : ι → Bool) (l : List ι) (a : ι → Bool) (j : ι) :
    mark test l a j = (a j || (decide (j ∈ l) && test j)) := by
  induction l generalizing a with
  | nil => simp [mark]
  | cons i l ih =>
    have hrest := ih (if test i then Function.update a i true else a)
    unfold mark at hrest ⊢
    rw [List.foldl_cons,hrest]
    by_cases hij : j = i
    · subst hij
      cases htest : test j <;> simp
    · cases htest : test i <;> simp [hij]

end GrpKeySec.FillLoop
