import GrpKeySec.Handler
set_option autoImplicit false

/-!
Concurrent runs of request handlers. A segment of a handler, from one outgoing
request to the next, is one step; between two segments any other handler may
act. A request in flight is a handler that has not started. A request may raise
in its sender at any time, before or after the receiver acted, and the receiver
may still act later.

Properties of all runs follow from a contract: an invariant, what the rest of
the system may do between two segments, and a pre- and postcondition for each
request. Each handler is then checked on its own.
-/

namespace GrpKeySec

inductive Event (ρ β ε : Type) where
  | posted (src r : ρ)
  | answered (src r : ρ) (o : Except ε β)
  | returned (src : ρ) (o : Except ε β)
  deriving DecidableEq

/-- The state of all services and the log of what was sent, newest event first. -/
structure World (σ ρ β ε : Type) where
  state : σ
  log : List (Event ρ β ε)

inductive Phase (σ ρ β ε : Type) where
  | queued
  | waiting (r : ρ) (child : Option Nat) (k : Except ε β → Handler σ ρ β ε β)
  | finished (o : Except ε β)

structure Task (σ ρ β ε : Type) where
  req : ρ
  phase : Phase σ ρ β ε

structure Net (σ ρ β ε : Type) where
  world : World σ ρ β ε
  tasks : List (Task σ ρ β ε)

/-- `serve` gives the handler of a request, or none when the request goes to the
environment. `legal` says which replies the environment may give and which
exceptions a request may raise; `client` which requests come from outside. -/
structure System (σ ρ β ε : Type) where
  serve : ρ → Option (Handler σ ρ β ε β)
  legal : ρ → Except ε β → Bool
  client : ρ → Bool

inductive Action (ρ β ε : Type) where
  | client (r : ρ)
  | start (i : Nat)
  | reply (i : Nat)
  | answer (i : Nat) (b : β)
  | fail (i : Nat) (e : ε)

def Action.task {ρ β ε : Type} : Action ρ β ε → Option Nat
  | .client _ => none
  | .start i | .reply i | .answer i _ | .fail i _ => some i

variable {σ ρ β ε : Type}

def World.record (w : World σ ρ β ε) (e : Event ρ β ε) : World σ ρ β ε :=
  { w with log := e :: w.log }

@[simp] theorem World.record_state (w : World σ ρ β ε) (e : Event ρ β ε) :
    (w.record e).state = w.state := rfl

@[simp] theorem World.record_log (w : World σ ρ β ε) (e : Event ρ β ε) :
    (w.record e).log = e :: w.log := rfl

def Event.ofStop (src : ρ) : Handler.Stop σ ρ β ε β → Event ρ β ε
  | .done o => .returned src o
  | .calling r _ => .posted src r

namespace System

/-- Run the next segment `h` of task `i`, which serves `src`, from world `w`. -/
def settle (S : System σ ρ β ε) (tasks : List (Task σ ρ β ε)) (i : Nat) (src : ρ)
    (h : Handler σ ρ β ε β) (w : World σ ρ β ε) : Net σ ρ β ε :=
  match h.advance w.state with
  | (s,.done o) =>
      ⟨⟨s,.returned src o :: w.log⟩,tasks.set i ⟨src,.finished o⟩⟩
  | (s,.calling r k) =>
      match S.serve r with
      | some _ =>
          ⟨⟨s,.posted src r :: w.log⟩,
            tasks.set i ⟨src,.waiting r (some tasks.length) k⟩ ++ [⟨r,.queued⟩]⟩
      | none => ⟨⟨s,.posted src r :: w.log⟩,tasks.set i ⟨src,.waiting r none k⟩⟩

theorem settle_log (S : System σ ρ β ε) (tasks : List (Task σ ρ β ε)) (i : Nat) (src : ρ)
    (h : Handler σ ρ β ε β) (w : World σ ρ β ε) :
    (S.settle tasks i src h w).world.log = .ofStop src (h.advance w.state).2 :: w.log := by
  unfold settle
  cases hs : h.advance w.state with
  | mk s stop =>
    cases stop with
    | done o => rfl
    | calling r k => cases hr : S.serve r <;> simp only [hr,Event.ofStop]

/-- What one segment leaves: its task at an end, or waiting for a new task, or waiting for
the environment. -/
inductive Settled (S : System σ ρ β ε) (tasks : List (Task σ ρ β ε)) (i : Nat) (src : ρ)
    (h : Handler σ ρ β ε β) (w : World σ ρ β ε) : Net σ ρ β ε → Prop where
  | done {s : σ} {o : Except ε β} : h.advance w.state = (s,.done o) →
      Settled S tasks i src h w ⟨⟨s,.returned src o :: w.log⟩,tasks.set i ⟨src,.finished o⟩⟩
  | served {s : σ} {r : ρ} {k : Except ε β → Handler σ ρ β ε β} {g : Handler σ ρ β ε β} :
      h.advance w.state = (s,.calling r k) → S.serve r = some g →
      Settled S tasks i src h w ⟨⟨s,.posted src r :: w.log⟩,
        tasks.set i ⟨src,.waiting r (some tasks.length) k⟩ ++ [⟨r,.queued⟩]⟩
  | asked {s : σ} {r : ρ} {k : Except ε β → Handler σ ρ β ε β} :
      h.advance w.state = (s,.calling r k) → S.serve r = none →
      Settled S tasks i src h w ⟨⟨s,.posted src r :: w.log⟩,
        tasks.set i ⟨src,.waiting r none k⟩⟩

theorem settle_settled (S : System σ ρ β ε) (tasks : List (Task σ ρ β ε)) (i : Nat) (src : ρ)
    (h : Handler σ ρ β ε β) (w : World σ ρ β ε) :
    S.Settled tasks i src h w (S.settle tasks i src h w) := by
  unfold settle
  cases ha : h.advance w.state with
  | mk s stop =>
    cases stop with
    | done o => exact .done ha
    | calling r k =>
      cases hr : S.serve r with
      | none =>
        simp only [hr]
        exact .asked ha hr
      | some g =>
        simp only [hr]
        exact .served ha hr

def step (S : System σ ρ β ε) (n : Net σ ρ β ε) : Action ρ β ε → Option (Net σ ρ β ε)
  | .client r => if S.client r then some { n with tasks := n.tasks ++ [⟨r,.queued⟩] } else none
  | .start i =>
      match n.tasks[i]? with
      | some ⟨src,.queued⟩ => (S.serve src).map (fun h => S.settle n.tasks i src h n.world)
      | _ => none
  | .reply i =>
      match n.tasks[i]? with
      | some ⟨src,.waiting r (some j) k⟩ =>
          match n.tasks[j]? with
          | some ⟨_,.finished (.ok b)⟩ =>
              some (S.settle n.tasks i src (k (.ok b)) (n.world.record (.answered src r (.ok b))))
          | _ => none
      | _ => none
  | .answer i b =>
      match n.tasks[i]? with
      | some ⟨src,.waiting r none k⟩ =>
          if S.legal r (.ok b) then
            some (S.settle n.tasks i src (k (.ok b)) (n.world.record (.answered src r (.ok b))))
          else none
      | _ => none
  | .fail i e =>
      match n.tasks[i]? with
      | some ⟨src,.waiting r _ k⟩ =>
          if S.legal r (.error e) then
            some (S.settle n.tasks i src (k (.error e))
              (n.world.record (.answered src r (.error e))))
          else none
      | _ => none

/-- How action `a` of task `i` ends its request `r`, which task `child` serves: with the
reply of that task, with one of the environment, or with an exception. -/
inductive Ended (S : System σ ρ β ε) (n : Net σ ρ β ε) (i : Nat) (r : ρ) :
    Action ρ β ε → Option Nat → Except ε β → Prop where
  | reply {j : Nat} {b : β} {t : Task σ ρ β ε} : n.tasks[j]? = some t →
      t.phase = .finished (.ok b) → Ended S n i r (.reply i) (some j) (.ok b)
  | answer {b : β} : S.legal r (.ok b) = true → Ended S n i r (.answer i b) none (.ok b)
  | fail {child : Option Nat} {e : ε} : S.legal r (.error e) = true →
      Ended S n i r (.fail i e) child (.error e)

theorem Ended.task {S : System σ ρ β ε} {n : Net σ ρ β ε} {i : Nat} {r : ρ}
    {a : Action ρ β ε} {child : Option Nat} {o : Except ε β} (h : S.Ended n i r a child o) :
    a.task = some i := by cases h <;> rfl

/-- All a step can do: let a client request in, start a queued handler, or
resume a waiting one. The last two name the task that acts. -/
inductive Steps (S : System σ ρ β ε) (n : Net σ ρ β ε) :
    Action ρ β ε → Net σ ρ β ε → Prop where
  | client {r : ρ} : S.client r = true →
      Steps S n (.client r) { n with tasks := n.tasks ++ [⟨r,.queued⟩] }
  | start {i : Nat} {src : ρ} {h : Handler σ ρ β ε β} : n.tasks[i]? = some ⟨src,.queued⟩ →
      S.serve src = some h → Steps S n (.start i) (S.settle n.tasks i src h n.world)
  | resume {a : Action ρ β ε} {i : Nat} {src r : ρ} {child : Option Nat}
      {k : Except ε β → Handler σ ρ β ε β} {o : Except ε β} :
      n.tasks[i]? = some ⟨src,.waiting r child k⟩ → Ended S n i r a child o →
      Steps S n a (S.settle n.tasks i src (k o) (n.world.record (.answered src r o)))

theorem steps_of_step {S : System σ ρ β ε} {n n' : Net σ ρ β ε} {a : Action ρ β ε}
    (h : S.step n a = some n') : S.Steps n a n' := by
  cases a with
  | client r =>
    by_cases hr : S.client r = true
    · simp only [step,hr,if_true,Option.some.injEq] at h
      subst n'
      exact .client hr
    · simp [step,hr] at h
  | start i =>
    simp only [step] at h
    split at h
    · rename_i src hi
      obtain ⟨g,hg,rfl⟩ := Option.map_eq_some_iff.mp h
      exact .start hi hg
    · simp at h
  | reply i =>
    simp only [step] at h
    split at h
    · rename_i src r j k hi
      split at h
      · rename_i r' b hj
        obtain rfl := Option.some.inj h
        exact .resume hi (.reply hj rfl)
      · simp at h
    · simp at h
  | answer i b =>
    simp only [step] at h
    split at h
    · rename_i src r k hi
      split at h
      · rename_i hl
        obtain rfl := Option.some.inj h
        exact .resume hi (.answer hl)
      · simp at h
    · simp at h
  | fail i e =>
    simp only [step] at h
    split at h
    · rename_i src r child k hi
      split at h
      · rename_i hl
        obtain rfl := Option.some.inj h
        exact .resume hi (.fail hl)
      · simp at h
    · simp at h

end System

abbrev StartCondition (σ ρ β ε : Type) := ρ → World σ ρ β ε → Prop

def StartsUnder (cond : StartCondition σ ρ β ε) (n : Net σ ρ β ε) (a : Action ρ β ε) : Prop :=
  ∀ i t, a = .start i → n.tasks[i]? = some t → cond t.req n.world

/-- Nets reached from `w₀` with no handler running, by steps that all meet `cond`. -/
inductive System.Reachable (S : System σ ρ β ε) (cond : StartCondition σ ρ β ε)
    (w₀ : World σ ρ β ε) : Net σ ρ β ε → Prop where
  | init : Reachable S cond w₀ ⟨w₀,[]⟩
  | step {n n' : Net σ ρ β ε} {a : Action ρ β ε} : Reachable S cond w₀ n →
      StartsUnder cond n a → S.step n a = some n' → Reachable S cond w₀ n'

abbrev anyStart : StartCondition σ ρ β ε := fun _ _ => True

section Exec

variable {cond : StartCondition σ ρ β ε} [∀ r w, Decidable (cond r w)]

def startsUnder (cond : StartCondition σ ρ β ε) [∀ r w, Decidable (cond r w)] (n : Net σ ρ β ε) :
    Action ρ β ε → Bool
  | .start i =>
      match n.tasks[i]? with
      | some t => decide (cond t.req n.world)
      | none => true
  | _ => true

theorem startsUnder_sound {n : Net σ ρ β ε} {a : Action ρ β ε}
    (h : startsUnder cond n a = true) : StartsUnder cond n a := by
  intro i t ha ht
  subst ha
  simp only [startsUnder,ht,decide_eq_true_eq] at h
  exact h

/-- Execute a list of actions, none when one is not possible or its start is
outside the condition. -/
def System.exec (S : System σ ρ β ε) (cond : StartCondition σ ρ β ε)
    [∀ r w, Decidable (cond r w)] (n : Net σ ρ β ε) :
    List (Action ρ β ε) → Option (Net σ ρ β ε)
  | [] => some n
  | a :: as => if startsUnder cond n a then (S.step n a).bind (fun n' => S.exec cond n' as) else none

theorem System.Reachable.exec {S : System σ ρ β ε} {w₀ : World σ ρ β ε}
    {n n' : Net σ ρ β ε} (as : List (Action ρ β ε)) (h : S.Reachable cond w₀ n)
    (he : S.exec cond n as = some n') : S.Reachable cond w₀ n' := by
  induction as generalizing n with
  | nil =>
    simp only [System.exec,Option.some.injEq] at he
    subst n'
    exact h
  | cons a as ih =>
    by_cases ha : startsUnder cond n a = true
    · simp only [System.exec,ha,if_true,Option.bind_eq_some_iff] at he
      obtain ⟨m,hm,hrest⟩ := he
      exact ih (h.step (startsUnder_sound ha) hm) hrest
    · simp [System.exec,ha] at he

end Exec

theorem System.Reachable.any {S : System σ ρ β ε} {cond : StartCondition σ ρ β ε}
    {w₀ : World σ ρ β ε} {n : Net σ ρ β ε} (h : S.Reachable cond w₀ n) :
    S.Reachable anyStart w₀ n := by
  induction h with
  | init => exact .init
  | step _ _ hs ih => exact ih.step (fun _ _ _ _ => trivial) hs

/-- A whole run: the nets it went through, each with the action taken there. -/
inductive System.Run (S : System σ ρ β ε) (w₀ : World σ ρ β ε) :
    List (Net σ ρ β ε × Action ρ β ε) → Net σ ρ β ε → Prop where
  | nil : Run S w₀ [] ⟨w₀,[]⟩
  | snoc {tr : List (Net σ ρ β ε × Action ρ β ε)} {n n' : Net σ ρ β ε} {a : Action ρ β ε} :
      Run S w₀ tr n → S.step n a = some n' → Run S w₀ (tr ++ [(n,a)]) n'

theorem System.Run.reachable {S : System σ ρ β ε} {w₀ : World σ ρ β ε}
    {tr : List (Net σ ρ β ε × Action ρ β ε)} {n : Net σ ρ β ε} (h : S.Run w₀ tr n) :
    S.Reachable anyStart w₀ n := by
  induction h with
  | nil => exact .init
  | snoc _ hs ih => exact ih.step (fun _ _ _ _ => trivial) hs

theorem System.Reachable.run_under {S : System σ ρ β ε} {cond : StartCondition σ ρ β ε}
    {w₀ : World σ ρ β ε} {n : Net σ ρ β ε} (h : S.Reachable cond w₀ n) :
    ∃ tr, S.Run w₀ tr n ∧ ∀ m a, (m,a) ∈ tr → StartsUnder cond m a := by
  induction h with
  | init => exact ⟨[],.nil,by simp⟩
  | @step n n' a _ hc hs ih =>
    obtain ⟨tr,htr,hunder⟩ := ih
    refine ⟨_,htr.snoc hs,?_⟩
    intro m b hm
    rcases List.mem_append.mp hm with hm | hm
    · exact hunder m b hm
    · obtain ⟨rfl,rfl⟩ := Prod.mk.inj (List.mem_singleton.mp hm)
      exact hc

theorem System.Reachable.run {S : System σ ρ β ε} {cond : StartCondition σ ρ β ε}
    {w₀ : World σ ρ β ε} {n : Net σ ρ β ε} (h : S.Reachable cond w₀ n) : ∃ tr, S.Run w₀ tr n := by
  obtain ⟨tr,htr,_⟩ := h.run_under
  exact ⟨tr,htr⟩

theorem System.Run.before {S : System σ ρ β ε} {w₀ : World σ ρ β ε}
    {tr : List (Net σ ρ β ε × Action ρ β ε)} {n m : Net σ ρ β ε} {a : Action ρ β ε}
    (h : S.Run w₀ tr n) (hm : (m,a) ∈ tr) :
    ∃ tr', S.Run w₀ tr' m ∧ tr' ⊆ tr ∧ ∃ m', S.step m a = some m' := by
  induction h with
  | nil => simp at hm
  | @snoc tr n n' b hr hs ih =>
    rcases List.mem_append.mp hm with hm | hm
    · obtain ⟨tr',hrun,hsub,hstep⟩ := ih hm
      exact ⟨tr',hrun,List.Subset.trans hsub (List.subset_append_left _ _),hstep⟩
    · obtain ⟨rfl,rfl⟩ := Prod.mk.inj (List.mem_singleton.mp hm)
      exact ⟨tr,hr,List.subset_append_left _ _,n',hs⟩

theorem System.Run.reachable_of_mem {S : System σ ρ β ε} {w₀ : World σ ρ β ε}
    {tr : List (Net σ ρ β ε × Action ρ β ε)} {n m : Net σ ρ β ε} {a : Action ρ β ε}
    (h : S.Run w₀ tr n) (hm : (m,a) ∈ tr) :
    S.Reachable anyStart w₀ m ∧ ∃ m', S.step m a = some m' := by
  obtain ⟨tr',hrun,_,hstep⟩ := h.before hm
  exact ⟨hrun.reachable,hstep⟩

/-- What a proof about all runs says: the invariant, what may happen between two
segments of a handler, what one segment of a handler serving a request may do,
and the condition on a request and on its reply. -/
structure Contract (σ ρ β ε : Type) where
  inv : World σ ρ β ε → Prop
  rely : World σ ρ β ε → World σ ρ β ε → Prop
  guar : ρ → World σ ρ β ε → World σ ρ β ε → Prop
  pre : ρ → World σ ρ β ε → Prop
  post : ρ → β → World σ ρ β ε → Prop

namespace Contract

structure Ends (C : Contract σ ρ β ε) (src : ρ) (w₀ w : World σ ρ β ε) : Prop where
  inv : C.inv w
  rely : C.rely w₀ w
  guar : C.guar src w₀ w

def Answers (C : Contract σ ρ β ε) (legal : ρ → Except ε β → Bool) (r : ρ)
    (o : Except ε β) (w : World σ ρ β ε) : Prop :=
  match o with
  | .ok b => C.post r b w
  | .error e => legal r (.error e) = true

end Contract

/-- Weakest precondition of a handler serving `src`, at a world `w` of a segment
that started at `w₀`. A request ends the segment; the handler goes on from every
world the others may leave, in a new segment. `Q` is asked at the handler's end. -/
def Handler.wp {α : Type} (C : Contract σ ρ β ε) (legal : ρ → Except ε β → Bool) (src : ρ) :
    Handler σ ρ β ε α → (Except ε α → World σ ρ β ε → World σ ρ β ε → Prop) →
      World σ ρ β ε → World σ ρ β ε → Prop
  | .ret a, Q, w₀, w => Q (.ok a) w₀ w
  | .raise e, Q, w₀, w => Q (.error e) w₀ w
  | .get k, Q, w₀, w => (k w.state).wp C legal src Q w₀ w
  | .modify u h, Q, w₀, w => h.wp C legal src Q w₀ { w with state := u w.state }
  | .call r k, Q, w₀, w =>
      C.Ends src w₀ (w.record (.posted src r)) ∧ C.pre r (w.record (.posted src r)) ∧
        ∀ o w', C.rely (w.record (.posted src r)) w' → C.inv w' → C.Answers legal r o w' →
          (k o).wp C legal src Q w' (w'.record (.answered src r o))

namespace Handler

section Rules

variable {α γ : Type} {C : Contract σ ρ β ε} {legal : ρ → Except ε β → Bool} {src : ρ}

@[simp] theorem wp_bind (h : Handler σ ρ β ε α) (f : α → Handler σ ρ β ε γ)
    (Q : Except ε γ → World σ ρ β ε → World σ ρ β ε → Prop) (w₀ w : World σ ρ β ε) :
    (h >>= f).wp C legal src Q w₀ w ↔
      h.wp C legal src (fun o v₀ v => match o with
        | .ok a => (f a).wp C legal src Q v₀ v
        | .error e => Q (.error e) v₀ v) w₀ w := by
  induction h generalizing w₀ w with
  | ret a => rfl
  | raise e => rfl
  | get k ih => exact ih w.state w₀ w
  | modify u h ih => exact ih w₀ { w with state := u w.state }
  | call r k ih => simp only [call_bind,wp,ih]

@[simp] theorem wp_tryCatch (h : Handler σ ρ β ε α) (c : ε → Handler σ ρ β ε α)
    (Q : Except ε α → World σ ρ β ε → World σ ρ β ε → Prop) (w₀ w : World σ ρ β ε) :
    (h.tryCatch c).wp C legal src Q w₀ w ↔
      h.wp C legal src (fun o v₀ v => match o with
        | .ok a => Q (.ok a) v₀ v
        | .error e => (c e).wp C legal src Q v₀ v) w₀ w := by
  induction h generalizing w₀ w with
  | ret a => rfl
  | raise e => rfl
  | get k ih => exact ih w.state w₀ w
  | modify u h ih => exact ih w₀ { w with state := u w.state }
  | call r k ih => simp only [tryCatch,wp,ih]

variable (Q : Except ε α → World σ ρ β ε → World σ ρ β ε → Prop) (w₀ w : World σ ρ β ε)

@[simp] theorem wp_ret (a : α) : (ret a).wp C legal src Q w₀ w ↔ Q (.ok a) w₀ w := Iff.rfl

@[simp] theorem wp_raise (e : ε) : (raise e).wp C legal src Q w₀ w ↔ Q (.error e) w₀ w := Iff.rfl

@[simp] theorem wp_ofExcept (o : Except ε α) :
    (ofExcept o).wp C legal src Q w₀ w ↔ Q o w₀ w := by cases o <;> rfl

@[simp] theorem wp_read (f : σ → α) :
    (read f).wp C legal src Q w₀ w ↔ Q (.ok (f w.state)) w₀ w := Iff.rfl

@[simp] theorem wp_assign (u : σ → σ)
    (Q : Except ε Unit → World σ ρ β ε → World σ ρ β ε → Prop) :
    (assign u).wp C legal src Q w₀ w ↔ Q (.ok ()) w₀ { w with state := u w.state } := Iff.rfl

@[simp] theorem wp_request (r : ρ)
    (Q : Except ε β → World σ ρ β ε → World σ ρ β ε → Prop) :
    (request r).wp C legal src Q w₀ w ↔
      C.Ends src w₀ (w.record (.posted src r)) ∧ C.pre r (w.record (.posted src r)) ∧
        ∀ o w', C.rely (w.record (.posted src r)) w' → C.inv w' → C.Answers legal r o w' →
          Q o w' (w'.record (.answered src r o)) := by
  simp only [request,wp,wp_ofExcept]

end Rules

end Handler

/-- What a handler owes when it ends: its last segment is within the contract
and its reply meets the postcondition. -/
def Contract.Closes (C : Contract σ ρ β ε) (src : ρ) (o : Except ε β)
    (w₀ w : World σ ρ β ε) : Prop :=
  C.Ends src w₀ (w.record (.returned src o)) ∧
    ∀ b, o = .ok b → C.post src b (w.record (.returned src o))

def Handler.Meets (C : Contract σ ρ β ε) (legal : ρ → Except ε β → Bool) (src : ρ)
    (h : Handler σ ρ β ε β) (w₀ w : World σ ρ β ε) : Prop :=
  h.wp C legal src (C.Closes src) w₀ w

def Event.By (src : ρ) (P : ρ → Prop) : Event ρ β ε → Prop
  | .posted s r => s = src ∧ P r
  | .answered s r _ => s = src ∧ P r
  | .returned s _ => s = src

/-- A contract that a handler keeps by its footprint alone: `G` holds along a
segment whatever updates in `M` and requests in `P` the handler makes. -/
structure Contract.Frame (C : Contract σ ρ β ε) (src : ρ) (M : σ → σ → Prop) (P : ρ → Prop)
    (G : World σ ρ β ε → World σ ρ β ε → Prop) : Prop where
  start : ∀ {w}, C.inv w → G w w
  update : ∀ {w₀ w s}, G w₀ w → M w.state s → G w₀ { w with state := s }
  record : ∀ {w₀ w e}, G w₀ w → Event.By src P e → G w₀ (w.record e)
  ends : ∀ {w₀ w}, G w₀ w → C.Ends src w₀ w
  pre : ∀ {r w}, P r → C.inv w → C.pre r w
  post : ∀ {b w}, C.inv w → C.post src b w

theorem Handler.Footprint.meets {C : Contract σ ρ β ε} {legal : ρ → Except ε β → Bool}
    {src : ρ} {M : σ → σ → Prop} {P : ρ → Prop} {G : World σ ρ β ε → World σ ρ β ε → Prop}
    (hF : C.Frame src M P G) {h : Handler σ ρ β ε β} (hf : h.Footprint M P)
    {w₀ w : World σ ρ β ε} (hw : G w₀ w) : h.Meets C legal src w₀ w := by
  induction h generalizing w₀ w with
  | ret b =>
    have he := hF.ends (hF.record hw (e := .returned src (.ok b)) rfl)
    exact ⟨he,fun _ _ => hF.post he.inv⟩
  | raise e => exact ⟨hF.ends (hF.record hw rfl),fun _ hb => nomatch hb⟩
  | get k ih => exact ih w.state (hf w.state) hw
  | modify u h ih => exact ih hf.2 (hF.update hw (hf.1 w.state))
  | call r k ih =>
    have he := hF.ends (hF.record hw (e := .posted src r) ⟨rfl,hf.1⟩)
    refine ⟨he,hF.pre hf.1 he.inv,?_⟩
    -- of the world in which the next segment starts only the invariant is known
    intro o w' _ hi _
    exact ih o (hf.2 o) (hF.record (hF.start hi) ⟨rfl,hf.1⟩)

/-- The local proof obligations from which a contract holds of every run. -/
structure Contract.Valid (C : Contract σ ρ β ε) (S : System σ ρ β ε)
    (cond : StartCondition σ ρ β ε) : Prop where
  rely_refl : ∀ w, C.rely w w
  rely_trans : ∀ {w₁ w₂ w₃}, C.rely w₁ w₂ → C.rely w₂ w₃ → C.rely w₁ w₃
  pre_stable : ∀ {r w w'}, C.pre r w → C.rely w w' → C.pre r w'
  post_stable : ∀ {r b w w'}, C.post r b w → C.rely w w' → C.post r b w'
  client_pre : ∀ {r w}, S.client r = true → C.inv w → C.pre r w
  environment : ∀ {r b w}, S.serve r = none → S.legal r (.ok b) = true → C.inv w → C.post r b w
  serves : ∀ {r h w}, S.serve r = some h → C.inv w → C.pre r w → cond r w →
    h.Meets C S.legal r w w

/-- The contract that only says what every segment keeps. -/
def Contract.keeping (I : World σ ρ β ε → Prop) : Contract σ ρ β ε where
  inv := I
  rely := fun _ _ => True
  guar := fun _ _ _ => True
  pre := fun _ _ => True
  post := fun _ _ _ => True

theorem Contract.keeping_ends {I : World σ ρ β ε → Prop} {src : ρ} {w₀ w : World σ ρ β ε}
    (hw : I w) : (Contract.keeping I).Ends src w₀ w := ⟨hw,trivial,trivial⟩

theorem Contract.keeping_frame {I : World σ ρ β ε → Prop} {src : ρ} {M : σ → σ → Prop}
    {P : ρ → Prop} (hupdate : ∀ {w s}, I w → M w.state s → I { w with state := s })
    (hrecord : ∀ {w e}, I w → Event.By src P e → I (w.record e)) :
    (Contract.keeping I).Frame src M P (fun _ w => I w) where
  start := fun hi => hi
  update := fun hw hm => hupdate hw hm
  record := fun hw he => hrecord hw he
  ends := fun hw => keeping_ends hw
  pre := fun _ _ => trivial
  post := fun _ => trivial

theorem Contract.keeping_valid {I : World σ ρ β ε → Prop} {S : System σ ρ β ε}
    {cond : StartCondition σ ρ β ε}
    (hserves : ∀ {r h w}, S.serve r = some h → I w → h.Meets (Contract.keeping I) S.legal r w w) :
    (Contract.keeping I).Valid S cond where
  rely_refl := fun _ => trivial
  rely_trans := fun _ _ => trivial
  pre_stable := fun _ _ => trivial
  post_stable := fun _ _ => trivial
  client_pre := fun _ _ => trivial
  environment := fun _ _ _ => trivial
  serves := fun hs hi _ _ => hserves hs hi

def Contract.AtStop (C : Contract σ ρ β ε) (legal : ρ → Except ε β → Bool) (src : ρ)
    (w₀ w : World σ ρ β ε) : Handler.Stop σ ρ β ε β → Prop
  | .done o => C.Closes src o w₀ w
  | .calling r k =>
      C.Ends src w₀ (w.record (.posted src r)) ∧ C.pre r (w.record (.posted src r)) ∧
        ∀ o w', C.rely (w.record (.posted src r)) w' → C.inv w' → C.Answers legal r o w' →
          (k o).Meets C legal src w' (w'.record (.answered src r o))

theorem Handler.Meets.advance {C : Contract σ ρ β ε} {legal : ρ → Except ε β → Bool} {src : ρ}
    {h : Handler σ ρ β ε β} {w₀ w : World σ ρ β ε} (hm : h.Meets C legal src w₀ w) :
    C.AtStop legal src w₀ ⟨(h.advance w.state).1,w.log⟩ (h.advance w.state).2 := by
  induction h generalizing w with
  | ret b => exact hm
  | raise e => exact hm
  | get k ih => exact ih w.state hm
  | modify u h ih => exact ih hm
  | call r k ih => exact hm

/-- The invariant on one task: a queued request may be served, a waiting handler
can go on from any reply to its own request, a reply meets its postcondition. -/
def Task.Ok (C : Contract σ ρ β ε) (S : System σ ρ β ε) (w : World σ ρ β ε)
    (reqs : List ρ) (t : Task σ ρ β ε) : Prop :=
  match t.phase with
  | .queued => C.pre t.req w
  | .waiting r child k =>
      (match child with
        | some j => reqs[j]? = some r
        | none => S.serve r = none) ∧
      ∀ o w', C.rely w w' → C.inv w' → C.Answers S.legal r o w' →
        (k o).Meets C S.legal t.req w' (w'.record (.answered t.req r o))
  | .finished o => ∀ b, o = .ok b → C.post t.req b w

structure Net.Ok (C : Contract σ ρ β ε) (S : System σ ρ β ε) (n : Net σ ρ β ε) : Prop where
  inv : C.inv n.world
  tasks : ∀ t ∈ n.tasks, t.Ok C S n.world (n.tasks.map Task.req)

namespace Contract.Valid

variable {C : Contract σ ρ β ε} {S : System σ ρ β ε} {cond : StartCondition σ ρ β ε}

theorem task_mono (hV : C.Valid S cond) {w w' : World σ ρ β ε} {reqs : List ρ}
    {t : Task σ ρ β ε} (ht : t.Ok C S w reqs) (hw : C.rely w w') (more : List ρ) :
    t.Ok C S w' (reqs ++ more) := by
  obtain ⟨req,phase⟩ := t
  cases phase with
  | queued => exact hV.pre_stable ht hw
  | waiting r child k =>
    obtain ⟨hchild,hk⟩ := ht
    refine ⟨?_,fun o w'' hr => hk o w'' (hV.rely_trans hw hr)⟩
    cases child with
    | none => exact hchild
    | some j =>
      have hj : j < reqs.length := (List.getElem?_eq_some_iff.mp hchild).1
      simp only [List.getElem?_append_left hj]
      exact hchild
  | finished o => exact fun b hb => hV.post_stable (ht b hb) hw

theorem reqs_set {tasks : List (Task σ ρ β ε)} {i : Nat} {t : Task σ ρ β ε}
    (hi : tasks[i]? = some t) (p : Phase σ ρ β ε) :
    (tasks.set i ⟨t.req,p⟩).map Task.req = tasks.map Task.req := by
  rw [List.map_set]
  apply List.ext_getElem?
  intro j
  by_cases hj : i = j
  · subst j
    obtain ⟨hlt,ht⟩ := List.getElem?_eq_some_iff.mp hi
    simp [hlt,ht]
  · simp [hj]

theorem set_ok (hV : C.Valid S cond) {n : Net σ ρ β ε} {w : World σ ρ β ε} {i : Nat}
    {t : Task σ ρ β ε} (hn : n.Ok C S) (hw : C.rely n.world w) (more : List ρ)
    (ht : t.Ok C S w (n.tasks.map Task.req ++ more)) :
    ∀ u ∈ n.tasks.set i t, u.Ok C S w (n.tasks.map Task.req ++ more) := by
  intro u hu
  cases List.mem_or_eq_of_mem_set hu with
  | inl hold => exact hV.task_mono (hn.tasks u hold) hw more
  | inr hnew => rw [hnew]; exact ht

theorem settle_ok (hV : C.Valid S cond) {n : Net σ ρ β ε} {i : Nat} {t : Task σ ρ β ε}
    {h : Handler σ ρ β ε β} {w : World σ ρ β ε} (hn : n.Ok C S) (hi : n.tasks[i]? = some t)
    (hm : h.Meets C S.legal t.req n.world w) :
    (S.settle n.tasks i t.req h w).Ok C S ∧
      C.Ends t.req n.world (S.settle n.tasks i t.req h w).world := by
  have ha := hm.advance
  unfold System.settle
  cases hs : h.advance w.state with
  | mk s stop =>
    rw [hs] at ha
    cases stop with
    | done o =>
      obtain ⟨he,hp⟩ := ha
      refine ⟨⟨he.inv,?_⟩,he⟩
      have hset := hV.set_ok (i := i) (t := ⟨t.req,.finished o⟩) hn he.rely [] hp
      rw [List.append_nil] at hset
      rw [reqs_set hi]
      exact hset
    | calling r k =>
      obtain ⟨he,hpre,hk⟩ := ha
      cases hr : S.serve r with
      | none =>
        simp only [hr]
        refine ⟨⟨he.inv,?_⟩,he⟩
        have hset := hV.set_ok (i := i) (t := ⟨t.req,.waiting r none k⟩) hn he.rely [] ⟨hr,hk⟩
        rw [List.append_nil] at hset
        rw [reqs_set hi]
        exact hset
      | some g =>
        simp only [hr]
        refine ⟨⟨he.inv,?_⟩,he⟩
        -- the new task is the one the waiting task points to
        have hchild : (n.tasks.map Task.req ++ [r])[n.tasks.length]? = some r := by simp
        have hset := hV.set_ok (i := i) (t := ⟨t.req,.waiting r (some n.tasks.length) k⟩) hn
          he.rely [r] ⟨hchild,hk⟩
        intro u hu
        rw [List.map_append,reqs_set hi]
        rcases List.mem_append.mp hu with hu | hu
        · exact hset u hu
        · rw [List.mem_singleton] at hu
          subst u
          exact hpre

theorem ended_answers (hV : C.Valid S cond) {n : Net σ ρ β ε} (hn : n.Ok C S) {src r : ρ}
    {child : Option Nat} {k : Except ε β → Handler σ ρ β ε β} {i : Nat} {a : Action ρ β ε}
    {o : Except ε β} (hi : n.tasks[i]? = some ⟨src,.waiting r child k⟩)
    (he : S.Ended n i r a child o) : C.Answers S.legal r o n.world := by
  obtain ⟨hchild,_⟩ := hn.tasks _ (List.mem_of_getElem? hi)
  cases he with
  | @reply j b t hj hp =>
    have hreq : t.req = r := by simpa [hj] using hchild
    have ht := hn.tasks t (List.mem_of_getElem? hj)
    rw [Task.Ok,hp] at ht
    rw [← hreq]
    exact ht b rfl
  | answer hl => exact hV.environment hchild hl hn.inv
  | fail hl => exact hl

/-- The step lemma: a step keeps the invariant and stays within the guarantee of
the handler that took it. -/
theorem step_ok (hV : C.Valid S cond) {n n' : Net σ ρ β ε} {a : Action ρ β ε}
    (hn : n.Ok C S) (hc : StartsUnder cond n a) (h : S.Steps n a n') :
    n'.Ok C S ∧ C.rely n.world n'.world ∧
      (n'.world = n.world ∨
        ∃ i t, a.task = some i ∧ n.tasks[i]? = some t ∧ C.guar t.req n.world n'.world) := by
  cases h with
  | @client r hr =>
    refine ⟨⟨hn.inv,?_⟩,hV.rely_refl _,.inl rfl⟩
    intro t ht
    rw [List.map_append]
    rcases List.mem_append.mp ht with ht | ht
    · exact hV.task_mono (hn.tasks t ht) (hV.rely_refl _) _
    · rw [List.mem_singleton] at ht
      subst t
      exact hV.client_pre hr hn.inv
  | @start i src g hi hg =>
    have hpre : C.pre src n.world := hn.tasks _ (List.mem_of_getElem? hi)
    have hm := hV.serves hg hn.inv hpre (hc i _ rfl hi)
    have hs := hV.settle_ok hn hi hm
    exact ⟨hs.1,hs.2.rely,.inr ⟨i,_,rfl,hi,hs.2.guar⟩⟩
  | @resume a i src r child k o hi he =>
    obtain ⟨_,hk⟩ := hn.tasks _ (List.mem_of_getElem? hi)
    have hm := hk o n.world (hV.rely_refl _) hn.inv (hV.ended_answers hn hi he)
    have hs := hV.settle_ok hn hi hm
    exact ⟨hs.1,hs.2.rely,.inr ⟨i,_,he.task,hi,hs.2.guar⟩⟩

theorem reachable_ok (hV : C.Valid S cond) {w₀ : World σ ρ β ε} (h₀ : C.inv w₀)
    {n : Net σ ρ β ε} (h : S.Reachable cond w₀ n) : n.Ok C S := by
  induction h with
  | init => exact ⟨h₀,fun t ht => by simp at ht⟩
  | step _ hc hs ih => exact (hV.step_ok ih hc (System.steps_of_step hs)).1

end Contract.Valid
end GrpKeySec
