import Mathlib.Algebra.BigOperators.Group.Finset.Piecewise
import Mathlib.Algebra.Order.BigOperators.Group.Finset
import Mathlib.Algebra.Order.Ring.Nat
import GrpKeySec.ServiceNet
set_option autoImplicit false

/-!
Whether handlers come to an end, for any system of them. A price for each request bounds
the steps of all the work it causes. Without faults a net only stands still when every
task has its reply, so that from any net the open work can be brought to an end. And no
request is answered more often than it was posted.
-/

namespace GrpKeySec

variable {σ ρ β ε : Type}

namespace Handler

variable {α γ : Type} {price : ρ → Nat}

/-- The requests of a handler cost at most so much, however they are answered: each its
price, and one more for the answer. -/
def Within (price : ρ → Nat) : Handler σ ρ β ε α → Nat → Prop
  | ret _, _ => True
  | raise _, _ => True
  | get k, c => ∀ s, (k s).Within price c
  | modify _ h, c => h.Within price c
  | call r k, c => ∃ d, price r + 1 + d ≤ c ∧ ∀ o, (k o).Within price d

theorem Within.mono {h : Handler σ ρ β ε α} {c c' : Nat} (hh : h.Within price c) (hc : c ≤ c') :
    h.Within price c' := by
  induction h generalizing c c' with
  | ret a => trivial
  | raise e => trivial
  | get k ih => exact fun s => ih s (hh s) hc
  | modify u h ih => exact ih hh hc
  | call r k ih =>
    obtain ⟨d,hd,hk⟩ := hh
    exact ⟨d,by omega,hk⟩

theorem within_bind {h : Handler σ ρ β ε α} {f : α → Handler σ ρ β ε γ} {c d : Nat}
    (hh : h.Within price c) (hf : ∀ a, (f a).Within price d) :
    (h >>= f).Within price (c + d) := by
  induction h generalizing c with
  | ret a => exact (hf a).mono (by omega)
  | raise e => trivial
  | get k ih => exact fun s => ih s (hh s)
  | modify u h ih => exact ih hh
  | call r k ih =>
    obtain ⟨c',hc',hk⟩ := hh
    exact ⟨c' + d,by omega,fun o => ih o (hk o)⟩

theorem within_tryCatch {h : Handler σ ρ β ε α} {f : ε → Handler σ ρ β ε α} {c : Nat}
    (hh : h.Within price c) (hf : ∀ e, (f e).Within price 0) :
    (h.tryCatch f).Within price c := by
  induction h generalizing c with
  | ret a => trivial
  | raise e => exact (hf e).mono (Nat.zero_le c)
  | get k ih => exact fun s => ih s (hh s)
  | modify u h ih => exact ih hh
  | call r k ih =>
    obtain ⟨d,hd,hk⟩ := hh
    exact ⟨d,hd,fun o => ih o (hk o)⟩

theorem within_zoom {ω : Type} {view : ω → σ} {embed : (σ → σ) → ω → ω}
    {h : Handler σ ρ β ε α} {c : Nat} (hh : h.Within price c) :
    (h.zoom view embed).Within price c := by
  induction h generalizing c with
  | ret a => trivial
  | raise e => trivial
  | get k ih => exact fun s => ih (view s) (hh (view s))
  | modify u h ih => exact ih hh
  | call r k ih =>
    obtain ⟨d,hd,hk⟩ := hh
    exact ⟨d,hd,fun o => ih o (hk o)⟩

theorem within_ofExcept (o : Except ε α) (c : Nat) :
    (ofExcept o : Handler σ ρ β ε α).Within price c := by cases o <;> trivial

theorem within_ofExcept_bind (o : Except ε α) {f : α → Handler σ ρ β ε γ} {c : Nat}
    (hf : ∀ a, (f a).Within price c) : (ofExcept o >>= f).Within price c := by
  cases o with
  | ok a => exact hf a
  | error e => trivial

theorem within_read_bind (g : σ → α) {f : α → Handler σ ρ β ε γ} {c : Nat}
    (hf : ∀ a, (f a).Within price c) : (read g >>= f).Within price c :=
  fun s => hf (g s)

theorem within_assign_bind (u : σ → σ) {f : Unit → Handler σ ρ β ε γ} {c : Nat}
    (hf : (f ()).Within price c) : (assign u >>= f).Within price c := hf

theorem within_request_bind {r : ρ} {f : β → Handler σ ρ β ε γ} {c : Nat} (d : Nat)
    (hc : price r + 1 + d ≤ c) (hf : ∀ b, (f b).Within price d) :
    (request r >>= f).Within price c :=
  ⟨d,hc,fun o => within_ofExcept_bind o hf⟩

theorem Within.advance {h : Handler σ ρ β ε α} {c : Nat} (hh : h.Within price c) {s s' : σ}
    {r : ρ} {k : Except ε β → Handler σ ρ β ε α} (ha : h.advance s = (s',.calling r k)) :
    ∃ d, price r + 1 + d ≤ c ∧ ∀ o, (k o).Within price d := by
  induction h generalizing s with
  | ret a => simp [Handler.advance] at ha
  | raise e => simp [Handler.advance] at ha
  | get k ih => exact ih s (hh s) ha
  | modify u h ih => exact ih hh ha
  | call q g ih =>
    simp only [Handler.advance,Prod.mk.injEq,Stop.calling.injEq] at ha
    obtain ⟨-,rfl,rfl⟩ := ha
    exact hh

end Handler

/-- The price of a request pays for its handler and for all that the handler asks of
others. Requests to the environment may be free. -/
def System.Priced (S : System σ ρ β ε) (price : ρ → Nat) : Prop :=
  ∀ {r h}, S.serve r = some h → ∃ c, c + 1 ≤ price r ∧ h.Within price c

def Task.Affords (price : ρ → Nat) (t : Task σ ρ β ε) (c : Nat) : Prop :=
  match t.phase with
  | .queued => price t.req ≤ c
  | .waiting _ _ k => ∃ d, d + 1 ≤ c ∧ ∀ o, (k o).Within price d
  | .finished _ => True

def Task.AffordAll (price : ρ → Nat) (tasks : List (Task σ ρ β ε)) (b : Nat → Nat) : Prop :=
  ∀ (i : Nat) (t : Task σ ρ β ε), tasks[i]? = some t → t.Affords price (b i)

def Net.Affords (price : ρ → Nat) (n : Net σ ρ β ε) (m : Nat) : Prop :=
  ∃ b, Task.AffordAll price n.tasks b ∧ ∑ i ∈ Finset.range n.tasks.length,b i ≤ m

def Action.price (price : ρ → Nat) : Action ρ β ε → Nat
  | .client r => price r
  | _ => 0

section Budgets

variable {price : ρ → Nat} {tasks : List (Task σ ρ β ε)} {b : Nat → Nat}

theorem Task.AffordAll.set (hb : Task.AffordAll price tasks b) (i : Nat) {t : Task σ ρ β ε}
    {c : Nat} (ht : t.Affords price c) :
    Task.AffordAll price (tasks.set i t) (Function.update b i c) := by
  intro j u hu
  by_cases hj : j = i
  · subst hj
    rw [List.getElem?_set_self'] at hu
    obtain ⟨_,_,rfl⟩ := Option.map_eq_some_iff.mp hu
    rw [Function.update_self]
    exact ht
  · rw [List.getElem?_set_ne (Ne.symm hj)] at hu
    rw [Function.update_of_ne hj]
    exact hb j u hu

theorem Task.AffordAll.append (hb : Task.AffordAll price tasks b) (r : ρ) :
    Task.AffordAll price (tasks ++ [⟨r,.queued⟩]) (Function.update b tasks.length (price r)) := by
  intro j t ht
  by_cases hj : j < tasks.length
  · rw [List.getElem?_append_left hj] at ht
    rw [Function.update_of_ne hj.ne]
    exact hb j t ht
  · rw [List.getElem?_append_right (by omega),List.getElem?_singleton] at ht
    by_cases hlast : j - tasks.length = 0
    · have hj' : j = tasks.length := by omega
      rw [if_pos hlast] at ht
      obtain rfl := Option.some.inj ht
      rw [hj',Function.update_self]
      exact Nat.le_refl (price r)
    · rw [if_neg hlast] at ht
      exact nomatch ht

theorem sum_update_range {i len : Nat} (hi : i < len) (c : Nat) :
    ∑ j ∈ Finset.range len,Function.update b i c j + b i =
      ∑ j ∈ Finset.range len,b j + c := by
  rw [Finset.sum_update_of_mem (Finset.mem_range.mpr hi),
    ← Finset.sum_sdiff (Finset.singleton_subset_iff.mpr (Finset.mem_range.mpr hi)),
    Finset.sum_singleton]
  omega

theorem sum_update_range_succ (len c : Nat) :
    ∑ j ∈ Finset.range (len + 1),Function.update b len c j = ∑ j ∈ Finset.range len,b j + c := by
  rw [Finset.sum_range_succ,Function.update_self,Finset.sum_update_of_notMem (by simp)]

end Budgets

namespace System

variable {S : System σ ρ β ε} {price : ρ → Nat}

/-- A segment of task `i` takes one step's worth from what the task had. -/
theorem Settled.affords {tasks : List (Task σ ρ β ε)} {i : Nat} {src : ρ}
    {h : Handler σ ρ β ε β} {w : World σ ρ β ε} {n' : Net σ ρ β ε}
    (hs : S.Settled tasks i src h w n') (hi : i < tasks.length) {b : Nat → Nat}
    (hb : Task.AffordAll price tasks b) {c : Nat} (hc : c + 1 ≤ b i) (hh : h.Within price c)
    {m : Nat} (hm : ∑ j ∈ Finset.range tasks.length,b j ≤ m) :
    ∃ m', n'.Affords price m' ∧ m' + 1 ≤ m := by
  have hle : b i ≤ ∑ j ∈ Finset.range tasks.length,b j :=
    Finset.single_le_sum (fun _ _ => Nat.zero_le _) (Finset.mem_range.mpr hi)
  refine ⟨m - 1,?_,by omega⟩
  cases hs with
  | @done s o ha =>
    have hsum := sum_update_range (b := b) hi 0
    refine ⟨Function.update b i 0,hb.set i trivial,?_⟩
    rw [List.length_set]
    omega
  | @asked s r k ha hr =>
    obtain ⟨d,hd,hk⟩ := hh.advance ha
    have hsum := sum_update_range (b := b) hi (d + 1)
    refine ⟨Function.update b i (d + 1),hb.set i ⟨d,le_rfl,hk⟩,?_⟩
    rw [List.length_set]
    omega
  | @served s r k g ha hr =>
    obtain ⟨d,hd,hk⟩ := hh.advance ha
    have hsum := sum_update_range (b := b) hi (d + 1)
    have hset := (hb.set i (t := ⟨src,.waiting r (some tasks.length) k⟩) ⟨d,le_rfl,hk⟩).append r
    refine ⟨_,hset,?_⟩
    rw [List.length_append,List.length_singleton,sum_update_range_succ,List.length_set]
    omega

/-- The step lemma: a client brings the price of its request, every other step costs one. -/
theorem Steps.affords (hP : S.Priced price) {n n' : Net σ ρ β ε} {a : Action ρ β ε}
    (h : S.Steps n a n') {m : Nat} (hn : n.Affords price m) :
    ∃ m', n'.Affords price m' ∧ m' + (if a.task.isSome then 1 else 0) ≤ m + a.price price := by
  obtain ⟨b,hb,hm⟩ := hn
  cases h with
  | @client r hr =>
    refine ⟨m + price r,⟨_,hb.append r,?_⟩,le_rfl⟩
    rw [List.length_append,List.length_singleton,sum_update_range_succ]
    omega
  | @start i src g hi hg =>
    obtain ⟨c,hc,hw⟩ := hP hg
    have hprice : price src ≤ b i := hb i _ hi
    have hlt := (List.getElem?_eq_some_iff.mp hi).1
    exact (settle_settled S n.tasks i src g n.world).affords hlt hb (by omega) hw hm
  | @resume a i src r child k o hi he =>
    obtain ⟨d,hd,hk⟩ := hb i _ hi
    have hlt := (List.getElem?_eq_some_iff.mp hi).1
    obtain ⟨m',hm',hle⟩ := (settle_settled S n.tasks i src (k o) _).affords hlt hb hd (hk o) hm
    refine ⟨m',hm',?_⟩
    cases he <;> exact hle

theorem exec_cons (n : Net σ ρ β ε) (a : Action ρ β ε) (as : List (Action ρ β ε)) :
    S.exec anyStart n (a :: as) = (S.step n a).bind (fun n' => S.exec anyStart n' as) := by
  have hstart : startsUnder anyStart n a = true := by
    cases a with
    | start i => cases hi : n.tasks[i]? <;> simp [startsUnder,hi]
    | _ => rfl
  simp only [exec,hstart,if_true]

def work (as : List (Action ρ β ε)) : Nat := as.countP (fun a => a.task.isSome)

def paid (price : ρ → Nat) (as : List (Action ρ β ε)) : Nat := (as.map (Action.price price)).sum

theorem paid_le {c : Nat} (hc : ∀ r, price r ≤ c) (as : List (Action ρ β ε)) :
    paid price as ≤ c * as.countP (fun a => !a.task.isSome) := by
  induction as with
  | nil => simp [paid]
  | cons a as ih =>
    simp only [paid] at ih
    rw [paid,List.map_cons,List.sum_cons,List.countP_cons,Nat.mul_add]
    cases a with
    | client r =>
      have hr := hc r
      have htask : (!(Action.client r : Action ρ β ε).task.isSome) = true := rfl
      have hprice : (Action.client r : Action ρ β ε).price price = price r := rfl
      rw [htask,hprice,if_pos rfl]
      omega
    | _ => simpa [Action.price,Action.task] using ih

theorem Run.exec {w₀ : World σ ρ β ε} {tr : List (Net σ ρ β ε × Action ρ β ε)}
    {n n' : Net σ ρ β ε} (h : S.Run w₀ tr n) (as : List (Action ρ β ε))
    (he : S.exec anyStart n as = some n') :
    ∃ tr', S.Run w₀ tr' n' ∧ tr'.map Prod.snd = tr.map Prod.snd ++ as := by
  induction as generalizing n tr with
  | nil =>
    obtain rfl := Option.some.inj he
    exact ⟨tr,h,by simp⟩
  | cons a as ih =>
    rw [exec_cons,Option.bind_eq_some_iff] at he
    obtain ⟨m,hm,hrest⟩ := he
    obtain ⟨tr',hrun,htr⟩ := ih (h.snoc hm) hrest
    exact ⟨tr',hrun,by simpa using htr⟩

theorem Run.affords (hP : S.Priced price) {w₀ : World σ ρ β ε}
    {tr : List (Net σ ρ β ε × Action ρ β ε)} {n : Net σ ρ β ε} (h : S.Run w₀ tr n) :
    ∃ m, n.Affords price m ∧ m + work (tr.map Prod.snd) ≤ paid price (tr.map Prod.snd) := by
  induction h with
  | nil => exact ⟨0,⟨fun _ => 0,by simp [Task.AffordAll],by simp⟩,by simp [work,paid]⟩
  | @snoc tr n n' a hr hs ih =>
    obtain ⟨m,hm,hle⟩ := ih
    obtain ⟨m',hm',hle'⟩ := (steps_of_step hs).affords hP hm
    refine ⟨m',hm',?_⟩
    simp only [work,paid,List.map_append,List.countP_append,List.sum_append,List.map_singleton,
      List.countP_singleton,List.sum_singleton] at hle ⊢
    omega

theorem Run.work_le (hP : S.Priced price) {w₀ : World σ ρ β ε}
    {tr : List (Net σ ρ β ε × Action ρ β ε)} {n : Net σ ρ β ε} (h : S.Run w₀ tr n) :
    work (tr.map Prod.snd) ≤ paid price (tr.map Prod.snd) := by
  obtain ⟨m,-,hle⟩ := h.affords hP
  omega

end System

namespace Handler

variable {α : Type}

def Returns : Handler σ ρ β ε α → Prop
  | ret _ => True
  | raise _ => False
  | get k => ∀ s, (k s).Returns
  | modify _ h => h.Returns
  | call _ k => ∀ o, (k o).Returns

theorem returns_tryCatch (h : Handler σ ρ β ε α) {f : ε → Handler σ ρ β ε α}
    (hf : ∀ e, (f e).Returns) : (h.tryCatch f).Returns := by
  induction h with
  | ret a => trivial
  | raise e => exact hf e
  | get k ih => exact ih
  | modify u h ih => exact ih
  | call r k ih => exact ih

theorem Returns.zoom {ω : Type} {view : ω → σ} {embed : (σ → σ) → ω → ω}
    {h : Handler σ ρ β ε α} (hh : h.Returns) : (h.zoom view embed).Returns := by
  induction h with
  | ret a => trivial
  | raise e => exact hh
  | get k ih => exact fun s => ih (view s) (hh (view s))
  | modify u h ih => exact ih hh
  | call r k ih => exact fun o => ih o (hh o)

end Handler

def System.Answerable (S : System σ ρ β ε) (r : ρ) : Prop :=
  S.serve r = none → ∃ b, S.legal r (.ok b) = true

namespace Handler

variable {α : Type} {S : System σ ρ β ε}

theorem Footprint.mono {M M' : σ → σ → Prop} {P P' : ρ → Prop} {h : Handler σ ρ β ε α}
    (hh : h.Footprint M P) (hM : ∀ s s', M s s' → M' s s') (hP : ∀ r, P r → P' r) :
    h.Footprint M' P' := by
  induction h with
  | ret a => trivial
  | raise e => trivial
  | get k ih => exact fun s => ih s (hh s)
  | modify u h ih => exact ⟨fun s => hM s _ (hh.1 s),ih hh.2⟩
  | call r k ih => exact ⟨hP r hh.1,fun o => ih o (hh.2 o)⟩

structure Sound (S : System σ ρ β ε) (h : Handler σ ρ β ε α) : Prop where
  returns : h.Returns
  asks : h.Footprint (fun _ _ => True) S.Answerable

def Stop.Sound (S : System σ ρ β ε) : Stop σ ρ β ε α → Prop
  | .done o => ∃ a, o = .ok a
  | .calling r k => S.Answerable r ∧ ∀ o, (k o).Sound S

theorem Sound.advance {h : Handler σ ρ β ε α} (hh : h.Sound S) (s : σ) :
    (h.advance s).2.Sound S := by
  obtain ⟨hreturns,hasks⟩ := hh
  induction h generalizing s with
  | ret a => exact ⟨a,rfl⟩
  | raise e => exact hreturns.elim
  | get k ih => exact ih s s (hreturns s) (hasks s)
  | modify u h ih => exact ih (u s) hreturns hasks.2
  | call r k ih => exact ⟨hasks.1,fun o => ⟨hreturns o,hasks.2 o⟩⟩

end Handler

def Task.Replied (t : Task σ ρ β ε) : Prop := ∃ b, t.phase = .finished (.ok b)

/-- Every client request has a handler, no handler lets an exception out, and what the
handlers ask is answered. -/
structure System.Reliable (S : System σ ρ β ε) : Prop where
  client : ∀ {r}, S.client r = true → (S.serve r).isSome
  serves : ∀ {r h}, S.serve r = some h → h.Sound S

/-- The task at place `i` of `len`: a task waits for a later one, or for the environment. -/
def Task.Linked (S : System σ ρ β ε) (len i : Nat) (t : Task σ ρ β ε) : Prop :=
  match t.phase with
  | .queued => (S.serve t.req).isSome
  | .waiting r child k => (match child with
      | some j => i < j ∧ j < len
      | none => S.serve r = none ∧ S.Answerable r) ∧ ∀ o, (k o).Sound S
  | .finished o => ∃ b, o = .ok b

theorem Task.Linked.mono {S : System σ ρ β ε} {len len' i : Nat} {t : Task σ ρ β ε}
    (h : t.Linked S len i) (hle : len ≤ len') : t.Linked S len' i := by
  obtain ⟨req,phase⟩ := t
  cases phase with
  | queued => exact h
  | finished o => exact h
  | waiting r child k =>
    obtain ⟨hchild,hk⟩ := h
    refine ⟨?_,hk⟩
    cases child with
    | none => exact hchild
    | some j => exact ⟨hchild.1,hchild.2.trans_le hle⟩

def Task.AllLinked (S : System σ ρ β ε) (len : Nat) (tasks : List (Task σ ρ β ε)) : Prop :=
  ∀ (i : Nat) (t : Task σ ρ β ε), tasks[i]? = some t → t.Linked S len i

def Net.Linked (S : System σ ρ β ε) (n : Net σ ρ β ε) : Prop :=
  Task.AllLinked S n.tasks.length n.tasks

def Action.faultless : Action ρ β ε → Bool
  | .start _ | .reply _ | .answer _ _ => true
  | .client _ | .fail _ _ => false

namespace System

variable {S : System σ ρ β ε}

theorem linked_set {tasks : List (Task σ ρ β ε)} {len i : Nat} {t : Task σ ρ β ε}
    (hn : Task.AllLinked S tasks.length tasks) (hle : tasks.length ≤ len)
    (ht : t.Linked S len i) : Task.AllLinked S len (tasks.set i t) := by
  intro j u hu
  rw [List.getElem?_set] at hu
  by_cases hj : i = j
  · subst hj
    by_cases hi : i < tasks.length
    · simp only [if_true,hi,Option.some.injEq] at hu
      exact hu ▸ ht
    · simp [hi] at hu
  · rw [if_neg hj] at hu
    exact (hn j u hu).mono hle

theorem linked_append {tasks : List (Task σ ρ β ε)} {len : Nat} {r : ρ}
    (hr : (S.serve r).isSome) (hn : Task.AllLinked S len tasks) :
    Task.AllLinked S len (tasks ++ [⟨r,.queued⟩]) := by
  intro j u hu
  by_cases hj : j < tasks.length
  · rw [List.getElem?_append_left hj] at hu
    exact hn j u hu
  · have hmem : u ∈ [(⟨r,.queued⟩ : Task σ ρ β ε)] := by
      rw [List.getElem?_append_right (by omega)] at hu
      exact List.mem_of_getElem? hu
    rw [List.mem_singleton.mp hmem]
    exact hr

theorem Settled.linked {tasks : List (Task σ ρ β ε)} {i : Nat} {src : ρ}
    {h : Handler σ ρ β ε β} {w : World σ ρ β ε} {n' : Net σ ρ β ε}
    (hs : S.Settled tasks i src h w n') (hi : i < tasks.length)
    (hn : Task.AllLinked S tasks.length tasks) (hh : h.Sound S) : n'.Linked S := by
  have hstop := hh.advance w.state
  unfold Net.Linked
  cases hs with
  | @done s o ha =>
    rw [ha] at hstop
    rw [List.length_set]
    exact linked_set hn le_rfl hstop
  | @asked s r k ha hr =>
    rw [ha] at hstop
    rw [List.length_set]
    exact linked_set (t := ⟨src,.waiting r none k⟩) hn le_rfl ⟨⟨hr,hstop.1⟩,hstop.2⟩
  | @served s r k g ha hr =>
    rw [ha] at hstop
    rw [List.length_append,List.length_singleton,List.length_set]
    -- the waiting task points to the place behind the last one
    exact linked_append (by simp [hr])
      (linked_set (t := ⟨src,.waiting r (some tasks.length) k⟩) hn (Nat.le_succ _)
        ⟨⟨hi,Nat.lt_succ_self _⟩,hstop.2⟩)

theorem Steps.linked (hR : S.Reliable) {n n' : Net σ ρ β ε} {a : Action ρ β ε}
    (h : S.Steps n a n') (hn : n.Linked S) : n'.Linked S := by
  cases h with
  | @client r hr =>
    unfold Net.Linked
    rw [List.length_append,List.length_singleton]
    exact linked_append (hR.client hr) (fun j u hu => (hn j u hu).mono (Nat.le_succ _))
  | @start i src g hi hg =>
    have hlt := (List.getElem?_eq_some_iff.mp hi).1
    exact (settle_settled S n.tasks i src g n.world).linked hlt hn (hR.serves hg)
  | @resume a i src r child k o hi he =>
    have hlt := (List.getElem?_eq_some_iff.mp hi).1
    exact (settle_settled S n.tasks i src (k o) _).linked hlt hn ((hn i _ hi).2 o)

theorem Reachable.linked (hR : S.Reliable) {cond : StartCondition σ ρ β ε} {w₀ : World σ ρ β ε}
    {n : Net σ ρ β ε} (h : S.Reachable cond w₀ n) : n.Linked S := by
  induction h with
  | init => exact fun _ _ ht => nomatch ht
  | step _ _ hs ih => exact (steps_of_step hs).linked hR ih

/-- A task without its reply can go on itself, or a later one can. -/
theorem exists_faultless_step {n : Net σ ρ β ε} (hn : n.Linked S) {i : Nat}
    {t : Task σ ρ β ε} (hi : n.tasks[i]? = some t) (ht : ¬ t.Replied) :
    ∃ a, a.faultless = true ∧ (S.step n a).isSome = true := by
  induction hd : n.tasks.length - i using Nat.strongRecOn generalizing i t with
  | ind d ih =>
    have hlink := hn i t hi
    obtain ⟨req,phase⟩ := t
    cases phase with
    | queued =>
      obtain ⟨h,hh⟩ := Option.isSome_iff_exists.mp hlink
      exact ⟨.start i,rfl,by simp [step,hi,hh]⟩
    | finished o =>
      obtain ⟨b,rfl⟩ := hlink
      exact absurd ⟨b,rfl⟩ ht
    | waiting r child k =>
      obtain ⟨hchild,-⟩ := hlink
      cases child with
      | none =>
        obtain ⟨b,hb⟩ := hchild.2 hchild.1
        exact ⟨.answer i b,rfl,by simp [step,hi,hb]⟩
      | some j =>
        obtain ⟨hij,hj⟩ := hchild
        have hget := List.getElem?_eq_getElem hj
        by_cases hrep : (n.tasks[j]).Replied
        · obtain ⟨b,hb⟩ := hrep
          have hget' : n.tasks[j]? = some ⟨(n.tasks[j]).req,.finished (.ok b)⟩ := by
            rw [hget,← hb]
          exact ⟨.reply i,rfl,by simp [step,hi,hget']⟩
        · exact ih _ (by omega) hget hrep rfl

theorem Action.faultless_price {a : Action ρ β ε} (h : a.faultless = true) (price : ρ → Nat) :
    a.task.isSome = true ∧ a.price price = 0 := by
  cases a <;> simp [Action.faultless] at h <;> exact ⟨rfl,rfl⟩

/-- The open work of a net can be brought to its end within what the net can afford. -/
theorem exists_finish (hR : S.Reliable) {price : ρ → Nat} (hP : S.Priced price)
    {n : Net σ ρ β ε} (hn : n.Linked S) {m : Nat} (hm : n.Affords price m) :
    ∃ as n', (∀ a ∈ as, a.faultless = true) ∧ as.length ≤ m ∧
      S.exec anyStart n as = some n' ∧ ∀ t ∈ n'.tasks, t.Replied := by
  induction m using Nat.strongRecOn generalizing n with
  | ind m ih =>
    by_cases hall : ∀ t ∈ n.tasks, t.Replied
    · exact ⟨[],n,by simp,Nat.zero_le m,rfl,hall⟩
    · simp only [not_forall] at hall
      obtain ⟨t,ht,hopen⟩ := hall
      obtain ⟨i,hi⟩ := List.getElem?_of_mem ht
      obtain ⟨a,ha,hsome⟩ := exists_faultless_step hn hi hopen
      obtain ⟨n',hstep⟩ := Option.isSome_iff_exists.mp hsome
      obtain ⟨m',hm',hle⟩ := (steps_of_step hstep).affords hP hm
      obtain ⟨htask,hprice⟩ := Action.faultless_price ha price
      rw [htask,hprice,if_pos rfl] at hle
      obtain ⟨as,n'',has,hlen,hexec,hdone⟩ := ih m' (by omega) ((steps_of_step hstep).linked hR hn) hm'
      refine ⟨a :: as,n'',List.forall_mem_cons.mpr ⟨ha,has⟩,?_,?_,hdone⟩
      · rw [List.length_cons]
        omega
      · rw [exec_cons,hstep]
        exact hexec

end System

def Event.posts (p : ρ → ρ → Bool) : Event ρ β ε → Bool
  | .posted src r => p src r
  | _ => false

def Event.answers (p : ρ → ρ → Bool) : Event ρ β ε → Bool
  | .answered src r _ => p src r
  | _ => false

def Task.awaits (p : ρ → ρ → Bool) (t : Task σ ρ β ε) : Bool :=
  match t.phase with
  | .waiting r _ _ => p t.req r
  | _ => false

namespace System

variable {S : System σ ρ β ε} (p : ρ → ρ → Bool)

theorem countP_set_of {α : Type} {q : α → Bool} {l : List α} {i : Nat} {a : α}
    (hi : l[i]? = some a) (b : α) :
    (l.set i b).countP q + (if q a then 1 else 0) = l.countP q + (if q b then 1 else 0) := by
  induction l generalizing i with
  | nil => simp at hi
  | cons c l ih =>
    cases i with
    | zero =>
      obtain rfl : c = a := by simpa using hi
      simp only [List.set_cons_zero,List.countP_cons]
      omega
    | succ i =>
      have hset := ih (by simpa using hi)
      simp only [List.set_cons_succ,List.countP_cons]
      omega

theorem Settled.count {tasks : List (Task σ ρ β ε)} {i : Nat} {t : Task σ ρ β ε}
    {h : Handler σ ρ β ε β} {w : World σ ρ β ε} {n' : Net σ ρ β ε}
    (hs : S.Settled tasks i t.req h w n') (hi : tasks[i]? = some t) :
    n'.world.log.countP (Event.posts p) + tasks.countP (Task.awaits p) =
      w.log.countP (Event.posts p) + n'.tasks.countP (Task.awaits p) +
        (if t.awaits p then 1 else 0) ∧
    n'.world.log.countP (Event.answers p) = w.log.countP (Event.answers p) := by
  cases hs with
  | @done s o ha =>
    have hset := countP_set_of (q := Task.awaits p) hi ⟨t.req,.finished o⟩
    have hnew : (⟨t.req,.finished o⟩ : Task σ ρ β ε).awaits p = false := rfl
    have hpost : (Event.returned t.req o).posts p = false := rfl
    rw [hnew] at hset
    refine ⟨?_,by simp [Event.answers]⟩
    rw [List.countP_cons,hpost]
    simp only [Bool.false_eq_true,if_false] at hset ⊢
    omega
  | @asked s r k ha hr =>
    have hset := countP_set_of (q := Task.awaits p) hi ⟨t.req,.waiting r none k⟩
    have hnew : (⟨t.req,.waiting r none k⟩ : Task σ ρ β ε).awaits p = p t.req r := rfl
    have hpost : (Event.posted t.req r : Event ρ β ε).posts p = p t.req r := rfl
    rw [hnew] at hset
    refine ⟨?_,by simp [Event.answers]⟩
    simp only [List.countP_cons,hpost]
    omega
  | @served s r k g ha hr =>
    have hset := countP_set_of (q := Task.awaits p) hi ⟨t.req,.waiting r (some tasks.length) k⟩
    have hnew : (⟨t.req,.waiting r (some tasks.length) k⟩ : Task σ ρ β ε).awaits p = p t.req r := rfl
    have hpost : (Event.posted t.req r : Event ρ β ε).posts p = p t.req r := rfl
    have hqueued : (⟨r,.queued⟩ : Task σ ρ β ε).awaits p = false := rfl
    rw [hnew] at hset
    refine ⟨?_,by simp [Event.answers]⟩
    rw [List.countP_cons,hpost,List.countP_append,List.countP_singleton,hqueued]
    simp only [Bool.false_eq_true,if_false]
    omega

/-- Every post is answered once at most; what is not answered yet is awaited. -/
theorem Reachable.posts_eq {cond : StartCondition σ ρ β ε} {w₀ : World σ ρ β ε}
    (hw : w₀.log = []) {n : Net σ ρ β ε} (h : S.Reachable cond w₀ n) :
    n.world.log.countP (Event.posts p) =
      n.world.log.countP (Event.answers p) + n.tasks.countP (Task.awaits p) := by
  induction h with
  | init => simp [hw]
  | @step n n' a _ _ hs ih =>
    cases steps_of_step hs with
    | @client r hr =>
      have hqueued : (⟨r,.queued⟩ : Task σ ρ β ε).awaits p = false := rfl
      rw [List.countP_append,List.countP_singleton,hqueued]
      exact ih
    | @start i src g hi hg =>
      obtain ⟨hposts,hanswers⟩ := (settle_settled S n.tasks i src g n.world).count p hi
      have hqueued : (⟨src,.queued⟩ : Task σ ρ β ε).awaits p = false := rfl
      rw [hqueued] at hposts
      simp only [Bool.false_eq_true,if_false] at hposts
      omega
    | @resume a i src r child k o hi he =>
      obtain ⟨hposts,hanswers⟩ := (settle_settled S n.tasks i src (k o)
        (n.world.record (.answered src r o))).count p hi
      have hold : (⟨src,.waiting r child k⟩ : Task σ ρ β ε).awaits p = p src r := rfl
      have hpost : (Event.answered src r o : Event ρ β ε).posts p = false := rfl
      have hans : (Event.answered src r o : Event ρ β ε).answers p = p src r := rfl
      rw [World.record_log,List.countP_cons,hold,hpost] at hposts
      rw [World.record_log,List.countP_cons,hans] at hanswers
      simp only [Bool.false_eq_true,if_false] at hposts
      omega

end System
end GrpKeySec
