import Mathlib.Data.List.Basic
set_option autoImplicit false

/-!
MATLAB's struct arrays as far as their building goes, with indices from 0. A struct call
with a cell array among its values gives one element for each cell, an assignment behind
the end makes the array grow, and what it does not assign is left blank.
-/

namespace GrpKeySec.MatlabArray

variable {α β : Type}

/-- `struct(.., name, cells)` -/
def structOf (make : β → α) (cells : List β) : List α := cells.map make

def repmat (a : List α) (n : Nat) : List α := (List.replicate n a).flatten

@[simp] theorem repmat_nil (n : Nat) : repmat ([] : List α) n = [] := by
  simp [repmat]

def setAt (blank : α) (a : List α) (i : Nat) (f : α → α) : List α :=
  (a ++ List.replicate (i + 1 - a.length) blank).modify i f

theorem setAt_length (blank : α) (a : List α) (f : α → α) :
    setAt blank a a.length f = a ++ [f blank] := by
  have hpad : a.length + 1 - a.length = 1 := by omega
  rw [setAt,hpad,List.replicate_one]
  clear hpad
  induction a with
  | nil => rfl
  | cons b a ih => simp [ih]

theorem foldl_setAt (blank : α) (f : Nat → α → α) (n : Nat) :
    (List.range n).foldl (fun a i => setAt blank a i (f i)) [] =
      (List.range n).map (fun i => f i blank) := by
  induction n with
  | zero => rfl
  | succ n ih =>
    have hnext := setAt_length blank ((List.range n).map (fun i => f i blank)) (f n)
    rw [List.length_map,List.length_range] at hnext
    simp only [List.range_succ,List.foldl_append,List.foldl_cons,List.foldl_nil,ih,hnext,
      List.map_append,List.map_cons,List.map_nil]

end GrpKeySec.MatlabArray
