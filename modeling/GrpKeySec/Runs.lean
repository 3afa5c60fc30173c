import Mathlib.Tactic.Common
set_option autoImplicit false

/-!
Loops and sequential runs. A component serves one call after another; each call
gives an output and the next state. A property of a run is a property of its
calls, each at the state it finds.
-/

namespace GrpKeySec

theorem foldl_keeps {α β γ : Type} {g : α → β → α} (f : α → γ) (h : ∀ a b, f (g a b) = f a)
    (a : α) (l : List β) : f (l.foldl g a) = f a :=
  List.foldlRecOn (motive := fun a' => f a' = f a) l g rfl (fun a' ha b _ => (h a' b).trans ha)

namespace Serial

variable {σ κ ο : Type} (serve : σ → κ → ο × σ)

def after (s : σ) (calls : List κ) : σ := calls.foldl (fun s c => (serve s c).2) s

@[simp] theorem after_cons (s : σ) (c : κ) (calls : List κ) :
    after serve s (c :: calls) = after serve (serve s c).2 calls := rfl

@[simp] theorem after_append (s : σ) (before later : List κ) :
    after serve s (before ++ later) = after serve (after serve s before) later :=
  List.foldl_append

def EveryCall (P : σ → κ → Prop) : σ → List κ → Prop
  | _, [] => True
  | s, c :: calls => P s c ∧ EveryCall P (serve s c).2 calls

instance everyCallDecidable {P : σ → κ → Prop} [∀ s c, Decidable (P s c)] :
    (s : σ) → (calls : List κ) → Decidable (EveryCall serve P s calls)
  | _, [] => isTrue trivial
  | s, c :: calls => @instDecidableAnd _ _ _ (everyCallDecidable (serve s c).2 calls)

def SomeCall (P : σ → κ → Prop) : σ → List κ → Prop
  | _, [] => False
  | s, c :: calls => P s c ∨ SomeCall P (serve s c).2 calls

theorem after_inv {I : σ → Prop} (hstep : ∀ s c, I s → I (serve s c).2) {s : σ} (hs : I s)
    (calls : List κ) : I (after serve s calls) :=
  List.foldlRecOn calls _ hs (fun s h c _ => hstep s c h)

def answers : σ → List κ → List ο
  | _, [] => []
  | s, c :: calls => (serve s c).1 :: answers (serve s c).2 calls

/-- Components in related states answer every run alike and end in related states, when each
call does. -/
theorem answers_eq_of_simulation {τ : Type} {serve' : τ → κ → ο × τ} {R : σ → τ → Prop}
    (hstep : ∀ {s t}, R s t → ∀ c, (serve s c).1 = (serve' t c).1 ∧ R (serve s c).2 (serve' t c).2)
    {s : σ} {t : τ} (h : R s t) (calls : List κ) :
    answers serve s calls = answers serve' t calls ∧
      R (after serve s calls) (after serve' t calls) := by
  induction calls generalizing s t with
  | nil => exact ⟨rfl,h⟩
  | cons c calls ih =>
    obtain ⟨hanswer,hnext⟩ := hstep h c
    obtain ⟨hrest,hend⟩ := ih hnext
    exact ⟨by rw [answers,answers,hanswer,hrest],hend⟩

/-- What can be seen of the state follows from the outputs, when it does in each call. -/
theorem observe_after {ω : Type} {I : σ → Prop} (observe : σ → ω) (update : ω → ο → ω)
    (hkeep : ∀ s c, I s → I (serve s c).2)
    (hstep : ∀ s c, I s → observe (serve s c).2 = update (observe s) (serve s c).1) {s : σ}
    (hs : I s) (calls : List κ) :
    observe (after serve s calls) = (answers serve s calls).foldl update (observe s) := by
  induction calls generalizing s with
  | nil => rfl
  | cons c calls ih => rw [after_cons,ih (hkeep s c hs),hstep s c hs,answers,List.foldl_cons]

/-- When each call appends to a log what its output says, the outputs of a run are what the
run appended. -/
theorem log_append_answers {ε : Type} (log : σ → List ε) (note : ο → List ε)
    (hstep : ∀ s c, log s ++ note (serve s c).1 = log (serve s c).2) (s : σ) (calls : List κ) :
    log s ++ (answers serve s calls).flatMap note = log (after serve s calls) := by
  induction calls generalizing s with
  | nil => exact List.append_nil _
  | cons c calls ih =>
    rw [answers,List.flatMap_cons,← List.append_assoc,hstep]
    exact ih (serve s c).2

theorem after_rel {R : σ → σ → Prop} (hrefl : ∀ s, R s s)
    (htrans : ∀ {s₁ s₂ s₃}, R s₁ s₂ → R s₂ s₃ → R s₁ s₃) (hstep : ∀ s c, R s (serve s c).2)
    (s : σ) (calls : List κ) : R s (after serve s calls) :=
  List.foldlRecOn (motive := fun s' => R s s') calls _ (hrefl s)
    (fun s' h c _ => htrans h (hstep s' c))

theorem everyCall_and {P Q : σ → κ → Prop} (s : σ) (calls : List κ) :
    EveryCall serve (fun s c => P s c ∧ Q s c) s calls ↔
      EveryCall serve P s calls ∧ EveryCall serve Q s calls := by
  induction calls generalizing s with
  | nil => simp [EveryCall]
  | cons c calls ih =>
    simp only [EveryCall,ih]
    exact and_and_and_comm

/-- Where `Q` is equivalent to `P` in every state with the invariant, and `P` keeps
the invariant, the runs whose calls all have `Q` are those whose calls all have `P`. -/
theorem everyCall_congr {I : σ → Prop} {P Q : σ → κ → Prop}
    (hiff : ∀ s c, I s → (Q s c ↔ P s c)) (hkeep : ∀ s c, I s → P s c → I (serve s c).2)
    {s : σ} (hs : I s) (calls : List κ) :
    EveryCall serve Q s calls ↔ EveryCall serve P s calls := by
  induction calls generalizing s with
  | nil => rfl
  | cons c calls ih =>
    constructor
    · rintro ⟨hq,hrest⟩
      have hp := (hiff s c hs).mp hq
      exact ⟨hp,(ih (hkeep s c hs hp)).mp hrest⟩
    · rintro ⟨hp,hrest⟩
      exact ⟨(hiff s c hs).mpr hp,(ih (hkeep s c hs hp)).mpr hrest⟩

end Serial
end GrpKeySec
