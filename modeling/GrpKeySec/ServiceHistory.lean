import Mathlib.Data.List.Induction
import GrpKeySec.ServiceNet
set_option autoImplicit false

/-!
What a valid contract says about the log of a run. Every event met its condition in the
log as it was when the event entered it, and the worlds of a run are related by the rely.
Then the contract of systems whose state can be rebuilt from the log.
-/

namespace GrpKeySec

variable {σ ρ β ε : Type}

def Event.Fits (C : Contract σ ρ β ε) (earlier : List (Event ρ β ε)) : Event ρ β ε → Prop
  | .posted src r => ∃ s, C.pre r ⟨s,.posted src r :: earlier⟩
  | .answered _ r o => ∀ b, o = .ok b → ∃ s, C.post r b ⟨s,earlier⟩
  | .returned src o => ∀ b, o = .ok b → ∃ s, C.post src b ⟨s,.returned src o :: earlier⟩

def Fitting (C : Contract σ ρ β ε) : List (Event ρ β ε) → Prop
  | [] => True
  | e :: earlier => e.Fits C earlier ∧ Fitting C earlier

theorem Fitting.fits {C : Contract σ ρ β ε} {later earlier : List (Event ρ β ε)}
    {e : Event ρ β ε} (h : Fitting C (later ++ e :: earlier)) : e.Fits C earlier := by
  induction later with
  | nil => exact h.1
  | cons x later ih => exact ih h.2

section Log

variable {C : Contract σ ρ β ε} {S : System σ ρ β ε} {cond : StartCondition σ ρ β ε}

theorem Handler.Meets.settle_fitting {legal : ρ → Except ε β → Bool} {src : ρ}
    {h : Handler σ ρ β ε β} {w₀ w : World σ ρ β ε} (hm : h.Meets C legal src w₀ w)
    (tasks : List (Task σ ρ β ε)) (i : Nat) (hw : Fitting C w.log) :
    Fitting C (S.settle tasks i src h w).world.log := by
  have ha := hm.advance
  rw [System.settle_log]
  refine ⟨?_,hw⟩
  cases hs : h.advance w.state with
  | mk s stop =>
    rw [hs] at ha
    cases stop with
    | done o => exact fun b hb => ⟨s,ha.2 b hb⟩
    | calling r k => exact ⟨s,ha.2.1⟩

/-- What holds across every step of a run, and can be chained, holds from any of its states to
the last. -/
theorem System.Run.related {w₀ : World σ ρ β ε} {tr : List (Net σ ρ β ε × Action ρ β ε)}
    {n m : Net σ ρ β ε} {a : Action ρ β ε} {R : Net σ ρ β ε → Net σ ρ β ε → Prop}
    (h : S.Run w₀ tr n) (htrans : ∀ {n₁ n₂ n₃}, R n₁ n₂ → R n₂ n₃ → R n₁ n₃)
    (hstep : ∀ {tr n b n'}, S.Run w₀ tr n → S.step n b = some n' → R n n') (hm : (m,a) ∈ tr) :
    R m n := by
  induction h with
  | nil => simp at hm
  | snoc hr hs ih =>
    rcases List.mem_append.mp hm with hm | hm
    · exact htrans (ih hm) (hstep hr hs)
    · obtain ⟨rfl,rfl⟩ := Prod.mk.inj (List.mem_singleton.mp hm)
      exact hstep hr hs

namespace Contract.Valid

theorem step_fitting (hV : C.Valid S cond) {n n' : Net σ ρ β ε} {a : Action ρ β ε}
    (hn : n.Ok C S) (hc : StartsUnder cond n a) (h : S.Steps n a n')
    (hf : Fitting C n.world.log) : Fitting C n'.world.log := by
  cases h with
  | client _ => exact hf
  | @start i src g hi hg =>
    have hpre : C.pre src n.world := hn.tasks _ (List.mem_of_getElem? hi)
    exact (hV.serves hg hn.inv hpre (hc i _ rfl hi)).settle_fitting n.tasks i hf
  | @resume a i src r child k o hi he =>
    have hans := hV.ended_answers hn hi he
    obtain ⟨_,hk⟩ := hn.tasks _ (List.mem_of_getElem? hi)
    refine (hk o n.world (hV.rely_refl _) hn.inv hans).settle_fitting n.tasks i ⟨?_,hf⟩
    rintro b rfl
    exact ⟨n.world.state,hans⟩

theorem reachable_fitting (hV : C.Valid S cond) {w₀ : World σ ρ β ε} (h₀ : C.inv w₀)
    (hlog : w₀.log = []) {n : Net σ ρ β ε} (h : S.Reachable cond w₀ n) :
    Fitting C n.world.log := by
  induction h with
  | init => rw [hlog]; trivial
  | step hr hc hs ih => exact hV.step_fitting (hV.reachable_ok h₀ hr) hc (System.steps_of_step hs) ih

theorem run_rely (hV : C.Valid S anyStart) {w₀ : World σ ρ β ε} (h₀ : C.inv w₀)
    {tr : List (Net σ ρ β ε × Action ρ β ε)} {n m : Net σ ρ β ε} {a : Action ρ β ε}
    (h : S.Run w₀ tr n) (hm : (m,a) ∈ tr) : C.rely m.world n.world := by
  refine h.related (R := fun n n' => C.rely n.world n'.world) hV.rely_trans ?_ hm
  intro tr n b n' hr hs
  exact (hV.step_ok (hV.reachable_ok h₀ hr.reachable) (fun _ _ _ _ => trivial)
    (System.steps_of_step hs)).2.1

end Contract.Valid

end Log

section Own

namespace System

def added (S : System σ ρ β ε) (n : Net σ ρ β ε) (a : Action ρ β ε) : List (Event ρ β ε) :=
  match S.step n a with
  | some n' => n'.world.log.take (n'.world.log.length - n.world.log.length)
  | none => []

/-- What task `i` itself has put into the log of a run, newest first. -/
def ownLog (S : System σ ρ β ε) (i : Nat) (tr : List (Net σ ρ β ε × Action ρ β ε)) :
    List (Event ρ β ε) :=
  tr.foldl (fun log p => if p.2.task = some i then S.added p.1 p.2 ++ log else log) []

variable {S : System σ ρ β ε} {i : Nat}

theorem ownLog_snoc (tr : List (Net σ ρ β ε × Action ρ β ε)) (n : Net σ ρ β ε)
    (a : Action ρ β ε) : S.ownLog i (tr ++ [(n,a)]) =
      if a.task = some i then S.added n a ++ S.ownLog i tr else S.ownLog i tr := by
  simp [ownLog]

theorem mem_ownLog {tr : List (Net σ ρ β ε × Action ρ β ε)} {e : Event ρ β ε} :
    e ∈ S.ownLog i tr ↔ ∃ n a, (n,a) ∈ tr ∧ a.task = some i ∧ e ∈ S.added n a := by
  induction tr using List.reverseRecOn with
  | nil => simp [ownLog]
  | append_singleton tr p ih =>
    obtain ⟨n,a⟩ := p
    rw [ownLog_snoc]
    by_cases ha : a.task = some i
    · simp only [if_pos ha,List.mem_append,ih,List.mem_singleton,Prod.mk.injEq]
      constructor
      · rintro (he | ⟨m,b,hm,hb,he⟩)
        · exact ⟨n,a,.inr ⟨rfl,rfl⟩,ha,he⟩
        · exact ⟨m,b,.inl hm,hb,he⟩
      · rintro ⟨m,b,hm | ⟨rfl,rfl⟩,hb,he⟩
        · exact .inr ⟨m,b,hm,hb,he⟩
        · exact .inl he
    · simp only [if_neg ha,List.mem_append,ih,List.mem_singleton,Prod.mk.injEq]
      constructor
      · rintro ⟨m,b,hm,hb,he⟩
        exact ⟨m,b,.inl hm,hb,he⟩
      · rintro ⟨m,b,hm | ⟨rfl,rfl⟩,hb,he⟩
        · exact ⟨m,b,hm,hb,he⟩
        · exact absurd hb ha

theorem added_eq {n n' : Net σ ρ β ε} {a : Action ρ β ε} (h : S.step n a = some n')
    (new : List (Event ρ β ε)) (hl : n'.world.log = new ++ n.world.log) : S.added n a = new := by
  simp [added,h,hl]

/-- The events of a step: none of a client, one of a start, and of a resumed task the end of
its request before where it stops next. -/
inductive Adds (S : System σ ρ β ε) (n : Net σ ρ β ε) :
    Action ρ β ε → List (Event ρ β ε) → Prop where
  | client {r : ρ} : Adds S n (.client r) []
  | start {i : Nat} {src : ρ} {h : Handler σ ρ β ε β} : n.tasks[i]? = some ⟨src,.queued⟩ →
      S.serve src = some h → Adds S n (.start i) [.ofStop src (h.advance n.world.state).2]
  | resume {a : Action ρ β ε} {i : Nat} {src r : ρ} {child : Option Nat}
      {k : Except ε β → Handler σ ρ β ε β} {o : Except ε β} :
      n.tasks[i]? = some ⟨src,.waiting r child k⟩ → S.Ended n i r a child o →
      Adds S n a [.ofStop src ((k o).advance n.world.state).2,.answered src r o]

theorem adds_of_step {n n' : Net σ ρ β ε} {a : Action ρ β ε} (h : S.step n a = some n') :
    S.Adds n a (S.added n a) := by
  cases steps_of_step h with
  | client hr =>
    rw [added_eq h [] rfl]
    exact .client
  | @start i src g hi hg =>
    rw [added_eq h [_] (S.settle_log n.tasks i src g n.world)]
    exact .start hi hg
  | @resume a i src r child k o hi he =>
    rw [added_eq h [_,_] (S.settle_log n.tasks i src (k o) _)]
    exact .resume hi he

theorem task_of_added {n : Net σ ρ β ε} {a : Action ρ β ε} {e : Event ρ β ε}
    (he : e ∈ S.added n a) : ∃ i, a.task = some i := by
  cases a with
  | client r =>
    by_cases hr : S.client r = true <;> simp [added,step,hr] at he
  | _ => exact ⟨_,rfl⟩

theorem append_queued (tasks : List (Task σ ρ β ε)) (r : ρ) :
    (tasks ++ [⟨r,.queued⟩])[i]? = tasks[i]? ∨
      (tasks[i]? = none ∧ ∃ r', (tasks ++ [⟨r,.queued⟩])[i]? = some ⟨r',.queued⟩) := by
  by_cases hi : i < tasks.length
  · exact .inl (List.getElem?_append_left hi)
  · have hnone : tasks[i]? = none := List.getElem?_eq_none (by omega)
    by_cases hlast : i = tasks.length
    · exact .inr ⟨hnone,r,by simp [hlast]⟩
    · have hout : (tasks ++ [⟨r,.queued⟩])[i]? = none :=
        List.getElem?_eq_none (by simp only [List.length_append,List.length_singleton]; omega)
      exact .inl (hout.trans hnone.symm)

/-- A step of one task leaves every other one as it is, or lets a new one in. -/
theorem Settled.other {tasks : List (Task σ ρ β ε)} {i j : Nat} {src : ρ}
    {h : Handler σ ρ β ε β} {w : World σ ρ β ε} {n' : Net σ ρ β ε}
    (hs : S.Settled tasks j src h w n') (hij : j ≠ i) : n'.tasks[i]? = tasks[i]? ∨
      (tasks[i]? = none ∧ ∃ r, n'.tasks[i]? = some ⟨r,.queued⟩) := by
  cases hs with
  | done _ => exact .inl (List.getElem?_set_ne hij)
  | asked _ _ => exact .inl (List.getElem?_set_ne hij)
  | @served s r k g _ _ =>
    have hset : (tasks.set j ⟨src,.waiting r (some tasks.length) k⟩)[i]? = tasks[i]? :=
      List.getElem?_set_ne hij
    rw [← hset]
    exact append_queued _ r

end System

/-- The obligations of a contract for task `i` of a run alone. Its worlds hold the state that
the task finds and what the task itself has put into the log. -/
structure Contract.Own (D : Contract σ ρ β ε) (S : System σ ρ β ε) (i : Nat)
    (tr : List (Net σ ρ β ε × Action ρ β ε)) : Prop where
  inv : ∀ w, D.inv w
  rely : ∀ w s, D.rely w ⟨s,w.log⟩
  starts : ∀ {n src h}, (n,.start i) ∈ tr → n.tasks[i]? = some ⟨src,.queued⟩ →
    S.serve src = some h → h.Meets D S.legal src ⟨n.world.state,[]⟩ ⟨n.world.state,[]⟩
  hears : ∀ {n a src r child k b w log}, (n,a) ∈ tr →
    n.tasks[i]? = some ⟨src,.waiting r child k⟩ → D.pre r w → S.Ended n i r a child (.ok b) →
    D.post r b ⟨n.world.state,log⟩

/-- Where a task stands after it has put `own` into the log. -/
def Task.Along (D : Contract σ ρ β ε) (S : System σ ρ β ε) (own : List (Event ρ β ε))
    (t : Task σ ρ β ε) : Prop :=
  match t.phase with
  | .queued => own = []
  | .waiting r _ k => (∃ w, D.pre r w) ∧ ∀ o s, D.Answers S.legal r o ⟨s,own⟩ →
      (k o).Meets D S.legal t.req ⟨s,own⟩ ⟨s,.answered t.req r o :: own⟩
  | .finished o => ∃ earlier, own = .returned t.req o :: earlier

structure Net.Along (D : Contract σ ρ β ε) (S : System σ ρ β ε) (i : Nat) (n : Net σ ρ β ε)
    (own : List (Event ρ β ε)) : Prop where
  fitting : Fitting D own
  absent : n.tasks[i]? = none → own = []
  task : ∀ t, n.tasks[i]? = some t → t.Along D S own

namespace Contract.Own

variable {D : Contract σ ρ β ε} {S : System σ ρ β ε} {i : Nat}
  {tr : List (Net σ ρ β ε × Action ρ β ε)}

theorem along_of_task {n : Net σ ρ β ε} {t : Task σ ρ β ε} {own : List (Event ρ β ε)}
    (hi : n.tasks[i]? = some t) (hf : Fitting D own) (ht : t.Along D S own) :
    n.Along D S i own := by
  refine ⟨hf,fun hn => absurd (hi.symm.trans hn) (by simp),?_⟩
  intro t' ht'
  obtain rfl := Option.some.inj (hi.symm.trans ht')
  exact ht

theorem settled (hD : D.Own S i tr) {tasks : List (Task σ ρ β ε)} {src : ρ}
    {h : Handler σ ρ β ε β} {w : World σ ρ β ε} {n' : Net σ ρ β ε}
    (hs : S.Settled tasks i src h w n') (hi : i < tasks.length) {w₀ : World σ ρ β ε}
    {own : List (Event ρ β ε)} (hown : Fitting D own)
    (hm : h.Meets D S.legal src w₀ ⟨w.state,own⟩) :
    n'.Along D S i (.ofStop src (h.advance w.state).2 :: own) := by
  have ha := hm.advance
  have hwaits : ∀ {s r k} (child : Option Nat), h.advance w.state = (s,.calling r k) →
      (⟨src,.waiting r child k⟩ : Task σ ρ β ε).Along D S (.posted src r :: own) := by
    intro s r k child hcall
    rw [hcall] at ha
    exact ⟨⟨_,ha.2.1⟩,fun o s' hans => ha.2.2 o _ (hD.rely _ s') (hD.inv _) hans⟩
  cases hs with
  | @done s o hdone =>
    rw [hdone] at ha ⊢
    exact along_of_task (List.getElem?_set_self hi) ⟨fun b hb => ⟨s,ha.2 b hb⟩,hown⟩ ⟨own,rfl⟩
  | @asked s r k hcall _ =>
    have hw := hwaits none hcall
    rw [hcall] at ha ⊢
    exact along_of_task (List.getElem?_set_self hi) ⟨⟨s,ha.2.1⟩,hown⟩ hw
  | @served s r k g hcall _ =>
    have hw := hwaits (some tasks.length) hcall
    have hset : i < (tasks.set i ⟨src,.waiting r (some tasks.length) k⟩).length := by
      rw [List.length_set]
      exact hi
    rw [hcall] at ha ⊢
    exact along_of_task ((List.getElem?_append_left hset).trans (List.getElem?_set_self hi))
      ⟨⟨s,ha.2.1⟩,hown⟩ hw

theorem along_other {n n' : Net σ ρ β ε} {own : List (Event ρ β ε)}
    (hn : n.Along D S i own) (h : n'.tasks[i]? = n.tasks[i]? ∨
      (n.tasks[i]? = none ∧ ∃ r, n'.tasks[i]? = some ⟨r,.queued⟩)) : n'.Along D S i own := by
  rcases h with h | ⟨hnone,r,h⟩
  · exact ⟨hn.fitting,fun hn' => hn.absent (h.symm.trans hn'),fun t ht => hn.task t (h.symm.trans ht)⟩
  · exact along_of_task h hn.fitting (hn.absent hnone)

theorem step (hD : D.Own S i tr) {n n' : Net σ ρ β ε} {a : Action ρ β ε} (hmem : (n,a) ∈ tr)
    (h : S.step n a = some n') {own : List (Event ρ β ε)} (hn : n.Along D S i own) :
    n'.Along D S i (if a.task = some i then S.added n a ++ own else own) := by
  cases System.steps_of_step h with
  | @client r hr => exact along_other hn (System.append_queued n.tasks r)
  | @start j src g hj hg =>
    have hs := S.settle_settled n.tasks j src g n.world
    have htask : (Action.start j : Action ρ β ε).task = some j := rfl
    by_cases hij : j = i
    · subst hij
      obtain rfl : own = [] := hn.task _ hj
      rw [if_pos htask,System.added_eq h [_] (S.settle_log n.tasks j src g n.world)]
      exact hD.settled hs (List.getElem?_eq_some_iff.mp hj).1 trivial (hD.starts hmem hj hg)
    · rw [if_neg (fun ht => hij (Option.some.inj (htask.symm.trans ht)))]
      exact along_other hn (hs.other hij)
  | @resume a j src r child k o hj he =>
    have hs := S.settle_settled n.tasks j src (k o) (n.world.record (.answered src r o))
    by_cases hij : j = i
    · subst hij
      rw [if_pos he.task,System.added_eq h [_,_] (S.settle_log n.tasks j src (k o) _)]
      obtain ⟨⟨w,hpre⟩,hk⟩ := hn.task _ hj
      have hans : D.Answers S.legal r o ⟨n.world.state,own⟩ := by
        cases o with
        | ok b => exact hD.hears hmem hj hpre he
        | error e => cases he with | fail hl => exact hl
      refine hD.settled hs (List.getElem?_eq_some_iff.mp hj).1 ⟨?_,hn.fitting⟩
        (hk o n.world.state hans)
      rintro b rfl
      exact ⟨n.world.state,hans⟩
    · rw [if_neg (fun ht => hij (Option.some.inj (he.task.symm.trans ht)))]
      exact along_other hn (hs.other hij)

theorem anti {tr' : List (Net σ ρ β ε × Action ρ β ε)} (hD : D.Own S i tr')
    (hsub : tr ⊆ tr') : D.Own S i tr where
  inv := hD.inv
  rely := hD.rely
  starts := fun hm => hD.starts (hsub hm)
  hears := fun hm => hD.hears (hsub hm)

/-- The run lemma: a task alone keeps to its contract, whatever the others do. -/
theorem along {w₀ : World σ ρ β ε} {n : Net σ ρ β ε} (h : S.Run w₀ tr n) (hD : D.Own S i tr) :
    n.Along D S i (S.ownLog i tr) := by
  induction h with
  | nil => exact ⟨trivial,fun _ => rfl,fun t ht => by simp at ht⟩
  | @snoc tr n n' a hr hs ih =>
    rw [System.ownLog_snoc]
    exact hD.step (by simp) hs (ih (hD.anti (List.subset_append_left _ _)))

theorem replied {w₀ : World σ ρ β ε} {n : Net σ ρ β ε} (h : S.Run w₀ tr n) (hD : D.Own S i tr)
    {t : Task σ ρ β ε} (ht : n.tasks[i]? = some t) {b : β} (hb : t.phase = .finished (.ok b)) :
    ∃ s, D.post t.req b ⟨s,S.ownLog i tr⟩ := by
  have ha := along h hD
  have hend := ha.task t ht
  rw [Task.Along,hb] at hend
  obtain ⟨earlier,hown⟩ := hend
  have hf := ha.fitting
  rw [hown] at hf ⊢
  exact hf.1 b rfl

theorem asked {w₀ : World σ ρ β ε} {n : Net σ ρ β ε} (h : S.Run w₀ tr n) (hD : D.Own S i tr)
    {src r : ρ} (hr : .posted src r ∈ S.ownLog i tr) :
    ∃ s earlier, D.pre r ⟨s,.posted src r :: earlier⟩ := by
  have hf := (along h hD).fitting
  obtain ⟨later,earlier,hown⟩ := List.append_of_mem hr
  rw [hown] at hf
  obtain ⟨s,hpre⟩ := hf.fits
  exact ⟨s,earlier,hpre⟩

end Contract.Own

theorem Handler.meets_keeping_true {legal : ρ → Except ε β → Bool} {src : ρ}
    (h : Handler σ ρ β ε β) (w₀ w : World σ ρ β ε) :
    h.Meets (.keeping fun _ => True) legal src w₀ w := by
  induction h generalizing w₀ w with
  | ret b => exact ⟨Contract.keeping_ends trivial,fun _ _ => trivial⟩
  | raise e => exact ⟨Contract.keeping_ends trivial,fun _ _ => trivial⟩
  | get k ih => exact ih w.state w₀ w
  | modify u h ih => exact ih w₀ _
  | call r k ih => exact ⟨Contract.keeping_ends trivial,trivial,fun o w' _ _ _ => ih o w' _⟩

section Starts

variable {S : System σ ρ β ε} {w₀ : World σ ρ β ε} {tr : List (Net σ ρ β ε × Action ρ β ε)}
  {n m m' : Net σ ρ β ε} {i : Nat}

theorem System.Settled.reqs {tasks : List (Task σ ρ β ε)} {src : ρ} {p : Phase σ ρ β ε}
    {h : Handler σ ρ β ε β} {w : World σ ρ β ε} {n' : Net σ ρ β ε}
    (hs : S.Settled tasks i src h w n') (hi : tasks[i]? = some ⟨src,p⟩) :
    tasks.map Task.req <+: n'.tasks.map Task.req := by
  have hset := Contract.Valid.reqs_set hi
  cases hs with
  | done _ => exact (hset _).symm ▸ List.prefix_rfl
  | asked _ _ => exact (hset _).symm ▸ List.prefix_rfl
  | served _ _ =>
    rw [List.map_append,hset]
    exact List.prefix_append _ _

theorem System.Steps.reqs {a : Action ρ β ε} {n' : Net σ ρ β ε} (h : S.Steps n a n') :
    n.tasks.map Task.req <+: n'.tasks.map Task.req := by
  cases h with
  | client _ =>
    rw [List.map_append]
    exact List.prefix_append _ _
  | start hi _ => exact (S.settle_settled _ _ _ _ _).reqs hi
  | resume hi _ => exact (S.settle_settled _ _ _ _ _).reqs hi

theorem System.Run.req_kept (h : S.Run w₀ tr n) {a : Action ρ β ε} (hm : (m,a) ∈ tr)
    {t t' : Task σ ρ β ε} (ht : m.tasks[i]? = some t) (ht' : n.tasks[i]? = some t') :
    t.req = t'.req := by
  have hreqs : m.tasks.map Task.req <+: n.tasks.map Task.req :=
    h.related (R := fun n n' => n.tasks.map Task.req <+: n'.tasks.map Task.req)
      (fun h₁ h₂ => h₁.trans h₂) (fun _ hs => (System.steps_of_step hs).reqs) hm
  obtain ⟨more,hmore⟩ := hreqs
  have hi : i < (m.tasks.map Task.req).length := by
    rw [List.length_map]
    exact (List.getElem?_eq_some_iff.mp ht).1
  have hreq := congrArg (fun l : List ρ => l[i]?) hmore
  simpa [List.getElem?_append_left hi,ht,ht'] using hreq

/-- A task that has started has put something into the log, and a queued one has not. -/
theorem System.Run.not_started (h : S.Run w₀ tr n) {src : ρ}
    (hi : n.tasks[i]? = some ⟨src,.queued⟩) : (m,.start i) ∉ tr := by
  intro hm
  have hD : (Contract.keeping fun _ => True).Own S i tr :=
    ⟨fun _ => trivial,fun _ _ => trivial,fun {_ _ g} _ _ _ => g.meets_keeping_true _ _,
      fun _ _ _ _ => trivial⟩
  have hnil : S.ownLog i tr = [] := (Contract.Own.along h hD).task _ hi
  obtain ⟨m',hs⟩ := (h.reachable_of_mem hm).2
  have hadds := System.adds_of_step hs
  have hmem : ∀ e, e ∉ S.added m (.start i) := by
    intro e he
    have hown := System.mem_ownLog.mpr ⟨m,.start i,hm,rfl,he⟩
    rw [hnil] at hown
    exact nomatch hown
  generalize S.added m (.start i) = new at hadds hmem
  cases hadds with
  | start _ _ => exact hmem _ (List.mem_singleton_self _)
  | resume _ hend => exact nomatch hend

theorem System.Run.start_once (h : S.Run w₀ tr n) (hm : (m,.start i) ∈ tr)
    (hm' : (m',.start i) ∈ tr) : m = m' := by
  induction h with
  | nil => simp at hm
  | @snoc tr n n' a hr hs ih =>
    have hlast : ∀ {v}, (v,Action.start i) ∈ tr → a ≠ .start i := by
      rintro v hv rfl
      cases System.steps_of_step hs with
      | start hi _ => exact hr.not_started hi hv
      | resume _ hend => exact nomatch hend
    simp only [List.mem_append,List.mem_singleton,Prod.mk.injEq] at hm hm'
    rcases hm with hm | ⟨rfl,ha⟩ <;> rcases hm' with hm' | ⟨rfl,ha'⟩
    · exact ih hm hm'
    · exact absurd ha'.symm (hlast hm)
    · exact absurd ha.symm (hlast hm')
    · rfl

end Starts

def Raised (tr : List (Net σ ρ β ε × Action ρ β ε)) (i : Nat) : Prop :=
  ∃ n e, (n,Action.fail i e) ∈ tr

def Took (tr : List (Net σ ρ β ε × Action ρ β ε)) (i : Nat) (r : ρ) (j : Nat) : Prop :=
  ∃ n src k, (n,Action.reply i) ∈ tr ∧ n.tasks[i]? = some ⟨src,.waiting r (some j) k⟩

section Provenance

variable {S : System σ ρ β ε} {i : Nat} {tr tr' : List (Net σ ρ β ε × Action ρ β ε)}

theorem Raised.mono (h : Raised tr i) (hsub : tr ⊆ tr') : Raised tr' i := by
  obtain ⟨n,e,hmem⟩ := h
  exact ⟨n,e,hsub hmem⟩

theorem Took.mono {r : ρ} {j : Nat} (h : Took tr i r j) (hsub : tr ⊆ tr') : Took tr' i r j := by
  obtain ⟨n,src,k,hmem,hi⟩ := h
  exact ⟨n,src,k,hsub hmem,hi⟩

theorem System.raised_of_ownLog {w₀ : World σ ρ β ε} {n : Net σ ρ β ε} (h : S.Run w₀ tr n)
    {src r : ρ} {e : ε} (he : .answered src r (.error e) ∈ S.ownLog i tr) : Raised tr i := by
  obtain ⟨m,a,hmem,ha,hadd⟩ := mem_ownLog.mp he
  obtain ⟨m',hs⟩ := (h.reachable_of_mem hmem).2
  have hadds := adds_of_step hs
  generalize S.added m a = new at hadds hadd
  cases hadds with
  | client => simp at hadd
  | @start j src' g _ _ =>
    cases hstop : (g.advance m.world.state).2 <;> simp [hstop,Event.ofStop] at hadd
  | @resume a j src' r' child k o _ hend =>
    have ho : o = .error e := by
      cases hstop : ((k o).advance m.world.state).2 <;>
        simp [hstop,Event.ofStop] at hadd <;> exact hadd.2.2.symm
    subst ho
    obtain rfl := Option.some.inj (hend.task.symm.trans ha)
    cases hend with
    | fail _ => exact ⟨m,e,hmem⟩

/-- A reply to a served request comes from a task that served it and has ended by then. -/
theorem System.Run.heard {w₀ : World σ ρ β ε} {n m : Net σ ρ β ε} {a : Action ρ β ε}
    (h : S.Run w₀ tr n) (hm : (m,a) ∈ tr) {src r : ρ} {child : Option Nat}
    {k : Except ε β → Handler σ ρ β ε β} (hi : m.tasks[i]? = some ⟨src,.waiting r child k⟩) {b : β}
    (he : S.Ended m i r a child (.ok b)) (hr : S.serve r ≠ none) :
    ∃ j tr', Took tr i r j ∧ S.Run w₀ tr' m ∧ tr' ⊆ tr ∧
      m.tasks[j]? = some ⟨r,.finished (.ok b)⟩ := by
  obtain ⟨tr',hrun,hsub,_⟩ := h.before hm
  have hV : (Contract.keeping fun _ => True).Valid S anyStart :=
    Contract.keeping_valid (fun {_ g w} _ _ => g.meets_keeping_true w w)
  have hlink := ((hV.reachable_ok trivial hrun.reachable).tasks _ (List.mem_of_getElem? hi)).1
  cases he with
  | @reply j _ t hj hp =>
    obtain ⟨req,phase⟩ := t
    obtain rfl : req = r := by simpa [hj] using hlink
    obtain rfl : phase = .finished (.ok b) := hp
    exact ⟨j,tr',⟨m,src,k,hm,hi⟩,hrun,hsub,hj⟩
  | answer _ => exact absurd hlink hr

end Provenance

end Own

section Replay

variable (apply : Event ρ β ε → σ → σ) (s₀ : σ)

/-- The state is what the events of the log make of `s₀`, the oldest first. -/
def Replayed (w : World σ ρ β ε) : Prop := w.state = w.log.foldr apply s₀

abbrev replaying : Contract σ ρ β ε := .keeping (Replayed apply s₀)

variable {apply s₀} {src : ρ} {w₀ : World σ ρ β ε} {s : σ}

theorem replaying_ends (new : List (Event ρ β ε)) (hi : (replaying apply s₀).inv w₀)
    (hs : s = new.foldr apply w₀.state) :
    (replaying apply s₀).Ends src w₀ ⟨s,new ++ w₀.log⟩ := by
  have hlog : w₀.state = w₀.log.foldr apply s₀ := hi
  apply Contract.keeping_ends
  simp only [Replayed,List.foldr_append,hs,hlog]

theorem replaying_closes {o : Except ε β} (new : List (Event ρ β ε))
    (hi : (replaying apply s₀).inv w₀)
    (hs : s = (Event.returned src o :: new).foldr apply w₀.state) :
    (replaying apply s₀).Closes src o w₀ ⟨s,new ++ w₀.log⟩ :=
  ⟨replaying_ends (.returned src o :: new) hi hs,fun _ _ => trivial⟩

/-- Handlers that write nothing, and whose events say nothing of the state. -/
theorem replaying_frame {M : σ → σ → Prop} {P : ρ → Prop} (hM : ∀ s s', M s s' → s' = s)
    (hP : ∀ e s, Event.By src P e → apply e s = s) :
    (replaying apply s₀).Frame src M P (fun _ w => (replaying apply s₀).inv w) :=
  Contract.keeping_frame (fun {w s} hw hm => (hM w.state s hm).trans hw)
    (fun {_ e} hw he => Eq.trans hw (hP e _ he).symm)

end Replay

end GrpKeySec
