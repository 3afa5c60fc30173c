import Mathlib.Algebra.BigOperators.Group.Finset.Piecewise
import Mathlib.Algebra.Order.BigOperators.Group.List
import Mathlib.Algebra.Order.Ring.Nat
import GrpKeySec.UdpNet
set_option autoImplicit false

/-!
Whether processes that exchange datagrams come to an end, and where they stand then. Ranks
for the states of the processes and prices for the datagrams bound the steps of every
schedule. A state in which no step is possible has nothing in flight, and each process has
ended or waits at a port where nothing is.
-/

namespace GrpKeySec.Udp

variable {ν δ : Type} {σ : ν → Type} [DecidableEq ν]

/-- What the action does to the ports that its process holds, `now` before it. -/
def Action.Opens {α : Type} (ports : α → List Nat) (now : List Nat) : Action ν δ α → Prop
  | .exit => True
  | .bind p a => p ∉ now ∧ ports a = p :: now
  | .recvfrom _ k => ∀ data src, ports (k data src) = now
  | .sendto _ _ _ a => ports a = now
  | .sendFresh _ _ k => ∀ p, ports (k p) = p :: now
  | .close p a => ports a = now.filter (fun q => decide (q ≠ p))
  | .compute a => ports a = now

section Ports

variable {N : Net ν δ σ} {ports : (h : ν) → σ h → List Nat}

variable (N ports) in
structure Net.HoldsPorts : Prop where
  start : ∀ h, ports h (N.start h) = []
  opens : ∀ h a, (N.program h a).Opens (ports h) (ports h a)

variable (ports) in
def State.BoundBy (s : State ν δ σ) : Prop := ∀ h p, (h,p) ∈ s.bound ↔ p ∈ ports h (s.procs h)

theorem State.BoundBy.update {s s' : State ν δ σ} (hs : s.BoundBy ports) {h : ν} {a : σ h}
    (hprocs : s'.procs = Function.update s.procs h a)
    (hown : ∀ p, (h,p) ∈ s'.bound ↔ p ∈ ports h a)
    (hothers : ∀ h' p, h' ≠ h → ((h',p) ∈ s'.bound ↔ (h',p) ∈ s.bound)) : s'.BoundBy ports := by
  intro h' p
  rw [hprocs]
  by_cases heq : h' = h
  · subst heq
    rw [Function.update_self]
    exact hown p
  · rw [Function.update_of_ne heq,hothers h' p heq]
    exact hs h' p

theorem Net.Moves.boundBy (hN : N.HoldsPorts ports) {s s' : State ν δ σ} {l : Label ν}
    (hm : N.Moves s l s') (hs : s.BoundBy ports) : s'.BoundBy ports := by
  have hopens := fun h => hN.opens h (s.procs h)
  cases hm with
  | @bind h port p a hprog hfree =>
    have ho := hopens h
    rw [hprog] at ho
    refine hs.update rfl ?_ ?_
    · intro q
      simp [ho.2,hs h q]
    · intro h' q hne
      simp [hne]
  | @receive h port p k d rest hprog hdst hperm =>
    have ho := hopens h
    rw [hprog] at ho
    refine hs.update rfl ?_ (fun _ _ _ => Iff.rfl)
    intro q
    rw [ho d.data d.src]
    exact hs h q
  | @sendto h port p data dst a hprog =>
    have ho := hopens h
    rw [hprog] at ho
    refine hs.update rfl ?_ (fun _ _ _ => Iff.rfl)
    intro q
    rw [show ports h a = _ from ho]
    exact hs h q
  | @sendFresh h port data dst k hprog hport hfree =>
    have ho := hopens h
    rw [hprog] at ho
    refine hs.update rfl ?_ ?_
    · intro q
      simp [ho port,hs h q]
    · intro h' q hne
      simp [hne]
  | @close h port p a hprog =>
    have ho := hopens h
    rw [hprog] at ho
    refine hs.update rfl ?_ ?_
    · intro q
      simp [show ports h a = _ from ho,hs h q]
    · intro h' q hne
      simp [hne]
  | @compute h port a hprog =>
    have ho := hopens h
    rw [hprog] at ho
    refine hs.update rfl ?_ (fun _ _ _ => Iff.rfl)
    intro q
    rw [show ports h a = _ from ho]
    exact hs h q
  | arrive hi hbound => exact hs
  | drop hi hl => exact hs

theorem Net.HoldsPorts.boundBy (hN : N.HoldsPorts ports) (labels : List (Label ν)) :
    (Serial.after N.serve N.init labels).BoundBy ports := by
  refine Serial.after_inv (I := fun s => s.BoundBy ports) N.serve ?_ ?_ labels
  · intro s l hs
    exact N.act_keeps hs (fun _ hm => hm.boundBy hN hs)
  · intro h p
    simp [Net.init,hN.start h]

variable (N) in
def Net.Quiescent (s : State ν δ σ) : Prop := ∀ l, N.step s l = none

theorem Net.Quiescent.inFlight {s : State ν δ σ} (hq : N.Quiescent s) : s.inFlight = [] := by
  have h := hq (.deliver 0)
  simp only [Net.step,Option.map_eq_none_iff] at h
  cases hl : s.inFlight with
  | nil => rfl
  | cons d rest => simp [hl] at h

theorem takeFirst_eq_none {α : Type} {p : α → Bool} {l : List α} (h : takeFirst p l = none) :
    ∀ a ∈ l, p a = false := by
  induction l with
  | nil => simp
  | cons b l ih =>
    by_cases hb : p b = true
    · simp [takeFirst,hb] at h
    · simp only [takeFirst,hb,if_false,Option.map_eq_none_iff,Bool.false_eq_true] at h
      intro a ha
      rcases List.mem_cons.mp ha with rfl | ha
      · exact Bool.eq_false_iff.mpr hb
      · exact ih h a ha

/-- Where nothing can move each process has ended or waits in vain, provided a process that
opens a socket finds a port for it. -/
theorem Net.Quiescent.blocked (hN : N.HoldsPorts ports) {s : State ν δ σ} (hs : s.BoundBy ports)
    (hroom : ∀ h a data dst k, N.program h a = .sendFresh data dst k →
      ∃ p, N.ephemeral p = true ∧ p ∉ ports h a)
    (hq : N.Quiescent s) (h : ν) :
    N.program h (s.procs h) = .exit ∨
      ∃ p k, N.program h (s.procs h) = .recvfrom p k ∧ ∀ d ∈ s.buffered, d.dst ≠ (h,p) := by
  have hrun : ∀ port, N.run s h port = none := fun port => hq (.run h port)
  have ho := hN.opens h (s.procs h)
  unfold Net.run at hrun
  cases hprog : N.program h (s.procs h) with
  | exit => exact .inl rfl
  | bind p a =>
    rw [hprog] at ho
    have hfree : (h,p) ∉ s.bound := fun hb => ho.1 ((hs h p).mp hb)
    simp [hprog,hfree] at hrun
  | recvfrom p k =>
    refine .inr ⟨p,k,rfl,?_⟩
    intro d hd hdst
    cases htake : takeFirst (fun d : Datagram ν δ => decide (d.dst = (h,p))) s.buffered with
    | none =>
      have hnot := takeFirst_eq_none htake d hd
      simp [hdst] at hnot
    | some taken => simp [hprog,htake] at hrun
  | sendto p data dst a => simp [hprog] at hrun
  | sendFresh data dst k =>
    obtain ⟨p,hp,hfree⟩ := hroom h _ data dst k hprog
    have hp' := hrun p
    have hfree' : (h,p) ∉ s.bound := fun hb => hfree ((hs h p).mp hb)
    simp [hprog,hp,hfree'] at hp'
  | close p a => simp [hprog] at hrun
  | compute a => simp [hprog] at hrun

variable (N) in
def Net.waits (s : State ν δ σ) (h : ν) : Bool :=
  match N.program h (s.procs h) with
  | .exit => true
  | .recvfrom p _ => (takeFirst (fun d => decide (d.dst = (h,p))) s.buffered).isNone
  | _ => false

theorem Net.quiescent_of_waits {s : State ν δ σ} (hflight : s.inFlight = [])
    (hwaits : ∀ h, N.waits s h = true) : N.Quiescent s := by
  intro l
  cases l with
  | deliver i => simp [Net.step,hflight]
  | lose i => simp [Net.step,hflight]
  | run h port =>
    have hw := hwaits h
    unfold Net.waits at hw
    show N.run s h port = none
    unfold Net.run
    cases hprog : N.program h (s.procs h) with
    | exit => rfl
    | recvfrom p k =>
      rw [hprog] at hw
      simp only [Option.isNone_iff_eq_none] at hw
      simp [hw]
    | _ => simp [hprog] at hw

end Ports

/-- The action takes the rank of its process down from `now`, by enough to pay for the
datagram that it sends; a datagram that it receives pays for what follows. -/
def Action.Spends {α : Type} (Wire : Datagram ν δ → Prop) (h : ν) (rank : α → Nat)
    (price : Datagram ν δ → Nat) (now : Nat) : Action ν δ α → Prop
  | .exit => True
  | .bind _ a => rank a < now
  | .recvfrom p k => ∀ d, Wire d → d.dst = (h,p) → rank (k d.data d.src) < now + price d
  | .sendto p data dst a => rank a + (price ⟨(h,p),dst,data⟩ + 1) < now
  | .sendFresh data dst k => ∀ p, rank (k p) + (price ⟨(h,p),dst,data⟩ + 1) < now
  | .close _ a => rank a < now
  | .compute a => rank a < now

section Ranks

variable [Fintype ν] {N : Net ν δ σ} {C : Contract ν δ σ} {rank : (h : ν) → σ h → Nat}
  {price : Datagram ν δ → Nat}

variable (N C rank price) in
def Net.Ranked : Prop := ∀ h a es, C.Hist h a es →
  (N.program h a).Spends C.Wire h (rank h) price (rank h a)

variable (rank price) in
/-- The steps that are left at most. A datagram in flight has its arrival before it. -/
def State.potential (s : State ν δ σ) : Nat :=
  ∑ h, rank h (s.procs h) + (s.inFlight.map (fun d => price d + 1)).sum + (s.buffered.map price).sum

variable (rank) in
theorem sum_rank_update (procs : (h : ν) → σ h) (h : ν) (a : σ h) :
    ∑ h', rank h' (Function.update procs h a h') + rank h (procs h) =
      ∑ h', rank h' (procs h') + rank h a := by
  have hupdate : ∀ h', rank h' (Function.update procs h a h') =
      Function.update (fun h' => rank h' (procs h')) h (rank h a) h' :=
    fun h' => Function.apply_update rank procs h a h'
  simp only [hupdate]
  rw [Finset.sum_update_of_mem (Finset.mem_univ h),
    Finset.sum_eq_sum_sdiff_singleton_add (Finset.mem_univ h)]
  omega

theorem Net.Moves.potential_lt [DecidableEq δ] (hN : N.Ranked C rank price) {s s' : State ν δ σ}
    {l : Label ν} (hm : N.Moves s l s') (hs : C.Holds s) (hconserved : s.Conserved) :
    s'.potential rank price < s.potential rank price := by
  have hspends := fun h => hN h (s.procs h) (own h s.log) (hs.hist h)
  unfold State.potential
  cases hm with
  | @bind h port p a hprog hfree =>
    have hsum := sum_rank_update rank s.procs h a
    have hp := hspends h
    rw [hprog] at hp
    have hp : rank h a < rank h (s.procs h) := hp
    dsimp only
    omega
  | @receive h port p k d rest hprog hdst hperm =>
    have hsum := sum_rank_update rank s.procs h (k d.data d.src)
    have hwire : C.Wire d :=
      hs.wire d (hconserved.mem_sent (.inr (.inl (hperm.mem_iff.mpr List.mem_cons_self))))
    have hp := hspends h
    rw [hprog] at hp
    have hp := hp d hwire hdst
    have hbuffered := (hperm.map price).sum_eq
    rw [List.map_cons,List.sum_cons] at hbuffered
    dsimp only
    omega
  | @sendto h port p data dst a hprog =>
    have hsum := sum_rank_update rank s.procs h a
    have hp := hspends h
    rw [hprog] at hp
    have hp : rank h a + (price ⟨(h,p),dst,data⟩ + 1) < rank h (s.procs h) := hp
    simp only [List.map_append,List.sum_append,List.map_singleton,List.sum_singleton]
    omega
  | @sendFresh h port data dst k hprog hport hfree =>
    have hsum := sum_rank_update rank s.procs h (k port)
    have hp := hspends h
    rw [hprog] at hp
    have hp : rank h (k port) + (price ⟨(h,port),dst,data⟩ + 1) < rank h (s.procs h) := hp port
    simp only [List.map_append,List.sum_append,List.map_singleton,List.sum_singleton]
    omega
  | @close h port p a hprog =>
    have hsum := sum_rank_update rank s.procs h a
    have hp := hspends h
    rw [hprog] at hp
    have hp : rank h a < rank h (s.procs h) := hp
    have hle : ((s.buffered.filter (fun d => decide (d.dst ≠ (h,p)))).map price).sum ≤
        (s.buffered.map price).sum :=
      (List.filter_sublist.map price).sum_le_sum (fun _ _ => Nat.zero_le _)
    dsimp only
    omega
  | @compute h port a hprog =>
    have hsum := sum_rank_update rank s.procs h a
    have hp := hspends h
    rw [hprog] at hp
    have hp : rank h a < rank h (s.procs h) := hp
    dsimp only
    omega
  | @arrive i d hi hbound =>
    have hflight := ((eraseIdx_perm hi).map (fun d => price d + 1)).sum_eq
    simp only [List.map_cons,List.sum_cons,List.map_append,List.sum_append,List.map_nil,
      List.sum_nil] at hflight ⊢
    omega
  | @drop l i d hi hl =>
    have hflight := ((eraseIdx_perm hi).map (fun d => price d + 1)).sum_eq
    simp only [Net.drop,List.map_cons,List.sum_cons] at hflight ⊢
    omega

variable (N) in
def Net.stepsTaken (s : State ν δ σ) : List (Label ν) → Nat
  | [] => 0
  | l :: labels => (if (N.step s l).isSome then 1 else 0) + Net.stepsTaken (N.act s l) labels

variable [DecidableEq δ]

theorem Net.stepsTaken_le (hC : C.Valid N) (hN : N.Ranked C rank price) {s : State ν δ σ}
    (hs : C.Holds s) (hconserved : s.Conserved) (labels : List (Label ν)) :
    N.stepsTaken s labels + (Serial.after N.serve s labels).potential rank price ≤
      s.potential rank price := by
  induction labels generalizing s with
  | nil => simp [Net.stepsTaken,Serial.after]
  | cons l labels ih =>
    have hrest := ih (hC.act hs hconserved l) (hconserved.act l)
    rw [Net.stepsTaken,Serial.after_cons]
    show _ + (Serial.after N.serve (N.act s l) labels).potential rank price ≤ _
    cases hstep : N.step s l with
    | none =>
      have hact : N.act s l = s := by simp [Net.act,hstep]
      rw [hact] at hrest ⊢
      simpa using hrest
    | some s' =>
      have hact : N.act s l = s' := by simp [Net.act,hstep]
      have hlt := (N.moves_of_step hstep).potential_lt hN hs hconserved
      rw [hact] at hrest ⊢
      simp only [Option.isSome_some,if_true]
      omega

/-- Any schedule can be gone on with until nothing can move. -/
theorem Net.exists_quiescent (hC : C.Valid N) (hN : N.Ranked C rank price) {s : State ν δ σ}
    (hs : C.Holds s) (hconserved : s.Conserved) :
    ∃ labels, N.Quiescent (Serial.after N.serve s labels) := by
  induction hp : s.potential rank price using Nat.strongRecOn generalizing s with
  | ind p ih =>
    by_cases hq : N.Quiescent s
    · exact ⟨[],hq⟩
    · obtain ⟨l,hl⟩ := not_forall.mp hq
      obtain ⟨s',hstep⟩ := Option.ne_none_iff_exists'.mp hl
      have hact : N.act s l = s' := by simp [Net.act,hstep]
      have hm := N.moves_of_step hstep
      have hlt := hm.potential_lt hN hs hconserved
      obtain ⟨labels,hlabels⟩ := ih _ (hp ▸ hlt) (hC.moves hs hconserved hm)
        (hm.conserved hconserved) rfl
      refine ⟨l :: labels,?_⟩
      rw [Serial.after_cons]
      show N.Quiescent (Serial.after N.serve (N.act s l) labels)
      rw [hact]
      exact hlabels

end Ranks

end GrpKeySec.Udp
