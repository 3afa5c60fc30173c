import Mathlib.Data.List.Basic
set_option autoImplicit false

/-!
Words joined by a separator. The separator may occur in the words themselves; where the
second word is short, the joined word still has one reading only, provided that the
separator does not meet itself when it is moved by as many places.
-/

namespace GrpKeySec.Separator

variable {α : Type}

/-- Moved by one to `m` places, `w` disagrees with itself somewhere. -/
def ClearUpTo (w : List α) (m : Nat) : Prop := ∀ d,d < m → ¬ w.drop (d + 1) <+: w

instance [DecidableEq α] (w : List α) (m : Nat) : Decidable (ClearUpTo w m) :=
  inferInstanceAs (Decidable (∀ d,d < m → ¬ w.drop (d + 1) <+: w))

/-- Two readings of one word put the separator over itself. -/
theorem drop_meets {w y a b : List α} (h : w ++ a = y ++ (w ++ b)) : w.drop y.length <+: w := by
  rcases Nat.le_total w.length y.length with hle | hle
  · rw [List.drop_eq_nil_of_le hle]
    exact List.nil_prefix
  · have hdrop : w.drop y.length ++ a = w ++ b := by
      rw [← List.drop_append_of_le_length hle,h,List.drop_left]
    have ha : w.drop y.length <+: w ++ b := hdrop ▸ List.prefix_append _ a
    refine List.prefix_of_prefix_length_le ha (List.prefix_append w b) ?_
    simp

theorem left_eq_of_le {w x y a b : List α} {m : Nat} (hw : ClearUpTo w m) (ha : a.length ≤ m)
    (hle : x.length ≤ y.length) (h : x ++ (w ++ a) = y ++ (w ++ b)) : x = y := by
  obtain ⟨z,rfl⟩ : x <+: y :=
    List.prefix_of_prefix_length_le (List.prefix_append x _) (h ▸ List.prefix_append y _) hle
  cases z with
  | nil => simp
  | cons c z =>
    rw [List.append_assoc,List.append_cancel_left_eq] at h
    have hlen := congrArg List.length h
    simp only [List.length_append,List.length_cons] at hlen
    have hmove := hw z.length (by omega)
    exact absurd (drop_meets h) hmove

theorem join_eq_iff {w : List α} {m : Nat} (hw : ClearUpTo w m) {x y a b : List α}
    (ha : a.length ≤ m) (hb : b.length ≤ m) :
    x ++ (w ++ a) = y ++ (w ++ b) ↔ x = y ∧ a = b := by
  constructor
  · intro h
    have hxy : x = y := by
      rcases Nat.le_total x.length y.length with hle | hle
      · exact left_eq_of_le hw ha hle h
      · exact (left_eq_of_le hw hb hle h.symm).symm
    subst hxy
    simpa using h
  · rintro ⟨rfl,rfl⟩
    rfl

end GrpKeySec.Separator
