import Mathlib.Data.List.Perm.Basic
import Mathlib.Logic.Function.Basic
import GrpKeySec.Runs
set_option autoImplicit false

/-!
Processes that exchange UDP datagrams, one process on each host. A datagram in
flight may be delivered at any time and in any order, or be lost. Delivered to a
bound port it waits there to be received; delivered to any other port it is
dropped, and so is what still waits at a port when its socket is closed.

A contract says which datagrams may ever be sent and how the state of a process
goes with what it has sent and received. Each process is checked on its own.
-/

namespace GrpKeySec.Udp

structure Datagram (ν δ : Type) where
  src : ν × Nat
  dst : ν × Nat
  data : δ
  deriving DecidableEq, Repr

inductive Event (ν δ : Type) where
  | sent (d : Datagram ν δ)
  | received (d : Datagram ν δ)
  deriving DecidableEq, Repr

def Event.host {ν δ : Type} : Event ν δ → ν
  | .sent d => d.src.1
  | .received d => d.dst.1

/-- What a process in state `σ` does next. `sendFresh` is the first send of a new
socket, for which the system picks the port. -/
inductive Action (ν δ σ : Type) where
  | exit
  | bind (port : Nat) (next : σ)
  | recvfrom (port : Nat) (next : δ → ν × Nat → σ)
  | sendto (port : Nat) (data : δ) (dst : ν × Nat) (next : σ)
  | sendFresh (data : δ) (dst : ν × Nat) (next : Nat → σ)
  | close (port : Nat) (next : σ)
  | compute (next : σ)

structure Net (ν δ : Type) (σ : ν → Type) where
  start : (h : ν) → σ h
  program : (h : ν) → σ h → Action ν δ (σ h)
  ephemeral : Nat → Bool

/-- The log has the newest event first. `dropped` only records what was lost. -/
structure State (ν δ : Type) (σ : ν → Type) where
  procs : (h : ν) → σ h
  bound : List (ν × Nat)
  inFlight : List (Datagram ν δ)
  buffered : List (Datagram ν δ)
  dropped : List (Datagram ν δ)
  log : List (Event ν δ)

/-- The next action of a process, which gets `port` if it opens a new socket, or
the end of the way of the i-th datagram in flight. -/
inductive Label (ν : Type) where
  | run (h : ν) (port : Nat)
  | deliver (i : Nat)
  | lose (i : Nat)
  deriving DecidableEq, Repr

def takeFirst {α : Type} (p : α → Bool) : List α → Option (α × List α)
  | [] => none
  | a :: rest => if p a then some (a,rest) else (takeFirst p rest).map (fun r => (r.1,a :: r.2))

theorem takeFirst_perm {α : Type} {p : α → Bool} {l rest : List α} {a : α}
    (h : takeFirst p l = some (a,rest)) : p a = true ∧ l.Perm (a :: rest) := by
  induction l generalizing rest with
  | nil => simp [takeFirst] at h
  | cons b l ih =>
    by_cases hb : p b = true
    · simp only [takeFirst,hb,if_true,Option.some.injEq,Prod.mk.injEq] at h
      obtain ⟨rfl,rfl⟩ := h
      exact ⟨hb,List.Perm.refl _⟩
    · simp only [takeFirst,hb,if_false,Option.map_eq_some_iff,Prod.mk.injEq,Bool.false_eq_true] at h
      obtain ⟨⟨a',rest'⟩,htake,rfl,rfl⟩ := h
      obtain ⟨ha,hperm⟩ := ih htake
      exact ⟨ha,(hperm.cons b).trans (List.Perm.swap _ _ _)⟩

theorem eraseIdx_perm {α : Type} {l : List α} {i : Nat} {a : α} (h : l[i]? = some a) :
    l.Perm (a :: l.eraseIdx i) := by
  obtain ⟨hi,rfl⟩ := List.getElem?_eq_some_iff.mp h
  exact (List.getElem_cons_eraseIdx_perm hi).symm

variable {ν δ : Type} {σ : ν → Type}

def Event.sent? : Event ν δ → Option (Datagram ν δ)
  | .sent d => some d
  | .received _ => none

def Event.received? : Event ν δ → Option (Datagram ν δ)
  | .sent _ => none
  | .received d => some d

namespace State

def sent (s : State ν δ σ) : List (Datagram ν δ) := s.log.filterMap Event.sent?

def received (s : State ν δ σ) : List (Datagram ν δ) := s.log.filterMap Event.received?

end State

theorem State.mem_sent_iff {s : State ν δ σ} {d : Datagram ν δ} : d ∈ s.sent ↔ .sent d ∈ s.log := by
  rw [State.sent,List.mem_filterMap]
  constructor
  · rintro ⟨e,he,hsent⟩
    cases e with
    | sent d' => exact Option.some.inj hsent ▸ he
    | received d' => exact nomatch hsent
  · intro he
    exact ⟨.sent d,he,rfl⟩

theorem State.mem_received_iff {s : State ν δ σ} {d : Datagram ν δ} :
    d ∈ s.received ↔ .received d ∈ s.log := by
  rw [State.received,List.mem_filterMap]
  constructor
  · rintro ⟨e,he,hreceived⟩
    cases e with
    | sent d' => exact nomatch hreceived
    | received d' => exact Option.some.inj hreceived ▸ he
  · intro he
    exact ⟨.received d,he,rfl⟩

variable [DecidableEq ν]

namespace Net

variable (N : Net ν δ σ)

def init : State ν δ σ := ⟨N.start,[],[],[],[],[]⟩

def run (s : State ν δ σ) (h : ν) (port : Nat) : Option (State ν δ σ) :=
  match N.program h (s.procs h) with
  | .exit => none
  | .bind p a =>
      if (h,p) ∈ s.bound then none
      else some { s with procs := Function.update s.procs h a, bound := (h,p) :: s.bound }
  | .recvfrom p k =>
      match takeFirst (fun d => decide (d.dst = (h,p))) s.buffered with
      | none => none
      | some (d,rest) =>
          some { s with
            procs := Function.update s.procs h (k d.data d.src)
            buffered := rest
            log := .received d :: s.log }
  | .sendto p data dst a =>
      some { s with
        procs := Function.update s.procs h a
        inFlight := s.inFlight ++ [⟨(h,p),dst,data⟩]
        log := .sent ⟨(h,p),dst,data⟩ :: s.log }
  | .sendFresh data dst k =>
      if N.ephemeral port = true ∧ (h,port) ∉ s.bound then
        some { s with
          procs := Function.update s.procs h (k port)
          bound := (h,port) :: s.bound
          inFlight := s.inFlight ++ [⟨(h,port),dst,data⟩]
          log := .sent ⟨(h,port),dst,data⟩ :: s.log }
      else none
  | .close p a =>
      some { s with
        procs := Function.update s.procs h a
        bound := s.bound.filter (fun b => decide (b ≠ (h,p)))
        buffered := s.buffered.filter (fun d => decide (d.dst ≠ (h,p)))
        dropped := s.buffered.filter (fun d => decide (d.dst = (h,p))) ++ s.dropped }
  | .compute a => some { s with procs := Function.update s.procs h a }

def drop (s : State ν δ σ) (i : Nat) (d : Datagram ν δ) : State ν δ σ :=
  { s with inFlight := s.inFlight.eraseIdx i, dropped := d :: s.dropped }

def step (s : State ν δ σ) : Label ν → Option (State ν δ σ)
  | .run h port => N.run s h port
  | .deliver i =>
      s.inFlight[i]?.map (fun d =>
        if d.dst ∈ s.bound then
          { s with inFlight := s.inFlight.eraseIdx i, buffered := s.buffered ++ [d] }
        else drop s i d)
  | .lose i => s.inFlight[i]?.map (drop s i)

/-- A schedule is a list of labels; one that cannot be taken changes nothing. -/
def act (s : State ν δ σ) (l : Label ν) : State ν δ σ := (N.step s l).getD s

def serve (s : State ν δ σ) (l : Label ν) : Unit × State ν δ σ := ((),N.act s l)

/-- All a step that can be taken does, with the guard under which it can. -/
inductive Moves (s : State ν δ σ) : Label ν → State ν δ σ → Prop where
  | bind {h : ν} {port p : Nat} {a : σ h} (hprog : N.program h (s.procs h) = .bind p a)
      (hfree : (h,p) ∉ s.bound) :
      Moves s (.run h port)
        { s with procs := Function.update s.procs h a, bound := (h,p) :: s.bound }
  | receive {h : ν} {port p : Nat} {k : δ → ν × Nat → σ h} {d : Datagram ν δ}
      {rest : List (Datagram ν δ)} (hprog : N.program h (s.procs h) = .recvfrom p k)
      (hdst : d.dst = (h,p)) (hperm : s.buffered.Perm (d :: rest)) :
      Moves s (.run h port) { s with
        procs := Function.update s.procs h (k d.data d.src)
        buffered := rest
        log := .received d :: s.log }
  | sendto {h : ν} {port p : Nat} {data : δ} {dst : ν × Nat} {a : σ h}
      (hprog : N.program h (s.procs h) = .sendto p data dst a) :
      Moves s (.run h port) { s with
        procs := Function.update s.procs h a
        inFlight := s.inFlight ++ [⟨(h,p),dst,data⟩]
        log := .sent ⟨(h,p),dst,data⟩ :: s.log }
  | sendFresh {h : ν} {port : Nat} {data : δ} {dst : ν × Nat} {k : Nat → σ h}
      (hprog : N.program h (s.procs h) = .sendFresh data dst k)
      (hport : N.ephemeral port = true) (hfree : (h,port) ∉ s.bound) :
      Moves s (.run h port) { s with
        procs := Function.update s.procs h (k port)
        bound := (h,port) :: s.bound
        inFlight := s.inFlight ++ [⟨(h,port),dst,data⟩]
        log := .sent ⟨(h,port),dst,data⟩ :: s.log }
  | close {h : ν} {port p : Nat} {a : σ h} (hprog : N.program h (s.procs h) = .close p a) :
      Moves s (.run h port) { s with
        procs := Function.update s.procs h a
        bound := s.bound.filter (fun b => decide (b ≠ (h,p)))
        buffered := s.buffered.filter (fun d => decide (d.dst ≠ (h,p)))
        dropped := s.buffered.filter (fun d => decide (d.dst = (h,p))) ++ s.dropped }
  | compute {h : ν} {port : Nat} {a : σ h} (hprog : N.program h (s.procs h) = .compute a) :
      Moves s (.run h port) { s with procs := Function.update s.procs h a }
  | arrive {i : Nat} {d : Datagram ν δ} (hi : s.inFlight[i]? = some d) (hbound : d.dst ∈ s.bound) :
      Moves s (.deliver i)
        { s with inFlight := s.inFlight.eraseIdx i, buffered := s.buffered ++ [d] }
  | drop {l : Label ν} {i : Nat} {d : Datagram ν δ} (hi : s.inFlight[i]? = some d)
      (hl : (l = .deliver i ∧ d.dst ∉ s.bound) ∨ l = .lose i) : Moves s l (drop s i d)

theorem moves_of_run {s s' : State ν δ σ} {h : ν} {port : Nat} (hrun : N.run s h port = some s') :
    N.Moves s (.run h port) s' := by
  unfold run at hrun
  cases hprog : N.program h (s.procs h) with
  | exit => simp [hprog] at hrun
  | bind p a =>
    by_cases hb : (h,p) ∈ s.bound
    · simp [hprog,hb] at hrun
    · simp only [hprog,hb,if_false,Option.some.injEq] at hrun
      exact hrun ▸ .bind hprog hb
  | recvfrom p k =>
    cases htake : takeFirst (fun d : Datagram ν δ => decide (d.dst = (h,p))) s.buffered with
    | none => simp [hprog,htake] at hrun
    | some taken =>
      obtain ⟨d,rest⟩ := taken
      simp only [hprog,htake,Option.some.injEq] at hrun
      obtain ⟨hdst,hperm⟩ := takeFirst_perm htake
      exact hrun ▸ .receive hprog (of_decide_eq_true hdst) hperm
  | sendto p data dst a =>
    simp only [hprog,Option.some.injEq] at hrun
    exact hrun ▸ .sendto hprog
  | sendFresh data dst k =>
    by_cases hfree : N.ephemeral port = true ∧ (h,port) ∉ s.bound
    · simp only [hprog,if_pos hfree,Option.some.injEq] at hrun
      exact hrun ▸ .sendFresh hprog hfree.1 hfree.2
    · simp [hprog,if_neg hfree] at hrun
  | close p a =>
    simp only [hprog,Option.some.injEq] at hrun
    exact hrun ▸ .close hprog
  | compute a =>
    simp only [hprog,Option.some.injEq] at hrun
    exact hrun ▸ .compute hprog

theorem moves_of_step {s s' : State ν δ σ} {l : Label ν} (hstep : N.step s l = some s') :
    N.Moves s l s' := by
  cases l with
  | run h port => exact N.moves_of_run hstep
  | deliver i =>
    simp only [step,Option.map_eq_some_iff] at hstep
    obtain ⟨d,hi,hs'⟩ := hstep
    by_cases hb : d.dst ∈ s.bound
    · rw [if_pos hb] at hs'
      exact hs' ▸ .arrive hi hb
    · rw [if_neg hb] at hs'
      exact hs' ▸ .drop hi (.inl ⟨rfl,hb⟩)
  | lose i =>
    simp only [step,Option.map_eq_some_iff] at hstep
    obtain ⟨d,hi,hs'⟩ := hstep
    exact hs' ▸ .drop hi (.inr rfl)

/-- What holds of a state and after each of its moves holds whether or not a label can be
taken. -/
theorem act_keeps {I : State ν δ σ → Prop} {s : State ν δ σ} {l : Label ν} (hs : I s)
    (hmoves : ∀ s',N.Moves s l s' → I s') : I (N.act s l) := by
  unfold act
  cases h : N.step s l with
  | none => exact hs
  | some s' => exact hmoves s' (N.moves_of_step h)

end Net

/-- What was sent is in flight, waiting, received or dropped. -/
def State.Conserved (s : State ν δ σ) : Prop :=
  ∀ P : Datagram ν δ → Bool,s.sent.countP P =
    s.inFlight.countP P + s.buffered.countP P + s.received.countP P + s.dropped.countP P

theorem Net.Moves.conserved {N : Net ν δ σ} {s s' : State ν δ σ} {l : Label ν}
    (h : N.Moves s l s') (hs : s.Conserved) : s'.Conserved := by
  intro P
  have hbefore := hs P
  simp only [State.sent,State.received] at hbefore ⊢
  cases h with
  | bind hprog hfree => exact hbefore
  | compute hprog => exact hbefore
  | receive hprog hdst hperm =>
    have hcount := hperm.countP_eq P
    simp only [List.filterMap_cons,Event.sent?,Event.received?,List.countP_cons] at hcount ⊢
    omega
  | sendto | sendFresh =>
    simp only [List.filterMap_cons,Event.sent?,Event.received?,List.countP_cons,
      List.countP_append,List.countP_nil]
    omega
  | @close h port p a hprog =>
    have hsplit := List.countP_eq_countP_filter_add s.buffered P
      (fun d => decide (d.dst = (h,p)))
    simp only [← decide_not] at hsplit
    simp only [List.countP_append,ne_eq]
    omega
  | arrive hi hbound =>
    have hcount := (eraseIdx_perm hi).countP_eq P
    simp only [List.countP_append,List.countP_cons,List.countP_nil] at hcount ⊢
    omega
  | drop hi hl =>
    have hcount := (eraseIdx_perm hi).countP_eq P
    simp only [Net.drop,List.countP_cons] at hcount ⊢
    omega

theorem State.Conserved.act {N : Net ν δ σ} {s : State ν δ σ} (hs : s.Conserved) (l : Label ν) :
    (N.act s l).Conserved :=
  N.act_keeps hs (fun _ hm => hm.conserved hs)

theorem Net.conserved (N : Net ν δ σ) (labels : List (Label ν)) :
    (Serial.after N.serve N.init labels).Conserved := by
  refine Serial.after_inv (I := State.Conserved) N.serve ?_ ?_ labels
  · intro s l hs
    exact hs.act l
  · intro P
    rfl

theorem State.Conserved.mem_sent [DecidableEq δ] {s : State ν δ σ} (hs : s.Conserved)
    {d : Datagram ν δ} (hd : d ∈ s.inFlight ∨ d ∈ s.buffered ∨ d ∈ s.received ∨ d ∈ s.dropped) :
    .sent d ∈ s.log := by
  have hcount := hs (fun d' => decide (d' = d))
  have hpos : 0 < s.sent.countP (fun d' => decide (d' = d)) := by
    have hone : ∀ {l : List (Datagram ν δ)},d ∈ l → 0 < l.countP (fun d' => decide (d' = d)) := by
      intro l hl
      exact List.countP_pos_iff.mpr ⟨d,hl,by simp⟩
    obtain hd | hd | hd | hd := hd <;> have h := hone hd <;> omega
  obtain ⟨d',hmem,heq⟩ := List.countP_pos_iff.mp hpos
  exact of_decide_eq_true heq ▸ State.mem_sent_iff.mp hmem

def own (h : ν) (log : List (Event ν δ)) : List (Event ν δ) :=
  log.filter (fun e => decide (e.host = h))

theorem mem_own {h : ν} {e : Event ν δ} {log : List (Event ν δ)} :
    e ∈ own h log ↔ e ∈ log ∧ e.host = h := by simp [own]

theorem own_cons_self {h : ν} {e : Event ν δ} (he : e.host = h) (log : List (Event ν δ)) :
    own h (e :: log) = e :: own h log := by simp [own,he]

theorem own_cons_ne {h : ν} {e : Event ν δ} (he : e.host ≠ h) (log : List (Event ν δ)) :
    own h (e :: log) = own h log := by simp [own,he]

/-- On host `h` and after the events `es`, the action keeps `Hist` and sends only
what may be on the wire. -/
def Action.Keeps {α : Type} (ephemeral : Nat → Bool) (Wire : Datagram ν δ → Prop) (h : ν)
    (Hist : α → List (Event ν δ) → Prop) (es : List (Event ν δ)) : Action ν δ α → Prop
  | .exit => True
  | .bind _ a => Hist a es
  | .recvfrom p k => ∀ d,Wire d → d.dst = (h,p) → Hist (k d.data d.src) (.received d :: es)
  | .sendto p data dst a => Wire ⟨(h,p),dst,data⟩ ∧ Hist a (.sent ⟨(h,p),dst,data⟩ :: es)
  | .sendFresh data dst k => ∀ p,ephemeral p = true →
      Wire ⟨(h,p),dst,data⟩ ∧ Hist (k p) (.sent ⟨(h,p),dst,data⟩ :: es)
  | .close _ a => Hist a es
  | .compute a => Hist a es

structure Contract (ν δ : Type) (σ : ν → Type) where
  Wire : Datagram ν δ → Prop
  Hist : (h : ν) → σ h → List (Event ν δ) → Prop

namespace Contract

variable (N : Net ν δ σ) (C : Contract ν δ σ)

structure Valid : Prop where
  start : ∀ h,C.Hist h (N.start h) []
  keeps : ∀ h a es,C.Hist h a es →
    (N.program h a).Keeps N.ephemeral C.Wire h (C.Hist h) es

structure Holds (s : State ν δ σ) : Prop where
  wire : ∀ d,.sent d ∈ s.log → C.Wire d
  hist : ∀ h,C.Hist h (s.procs h) (own h s.log)

variable {N C}

theorem Holds.hist_update {s : State ν δ σ} (hs : C.Holds s) {h : ν} {a : σ h}
    {log : List (Event ν δ)} (ha : C.Hist h a (own h log))
    (hothers : ∀ h',h' ≠ h → own h' log = own h' s.log) (h' : ν) :
    C.Hist h' (Function.update s.procs h a h') (own h' log) := by
  by_cases heq : h' = h
  · subst heq
    rwa [Function.update_self]
  · rw [Function.update_of_ne heq,hothers h' heq]
    exact hs.hist h'

theorem Holds.send {s : State ν δ σ} (hs : C.Holds s) {h : ν} {p : Nat} {data : δ} {dst : ν × Nat}
    {a : σ h} (ha : C.Wire ⟨(h,p),dst,data⟩ ∧ C.Hist h a (.sent ⟨(h,p),dst,data⟩ :: own h s.log))
    {s' : State ν δ σ} (hprocs : s'.procs = Function.update s.procs h a)
    (hlog : s'.log = .sent ⟨(h,p),dst,data⟩ :: s.log) : C.Holds s' := by
  constructor
  · intro d' hd'
    rw [hlog] at hd'
    obtain hnew | hold := List.mem_cons.mp hd'
    · exact Event.sent.inj hnew ▸ ha.1
    · exact hs.wire d' hold
  · rw [hprocs,hlog]
    refine hs.hist_update ?_ (fun h' hne => own_cons_ne (fun heq => hne heq.symm) s.log)
    rw [own_cons_self (show (Event.sent ⟨(h,p),dst,data⟩).host = h from rfl)]
    exact ha.2

theorem Valid.moves [DecidableEq δ] (hC : C.Valid N) {s s' : State ν δ σ} {l : Label ν}
    (hs : C.Holds s) (hconserved : s.Conserved) (h : N.Moves s l s') : C.Holds s' := by
  have hkeeps := fun h => hC.keeps h (s.procs h) (own h s.log) (hs.hist h)
  cases h with
  | @bind h port p a hprog hfree =>
    have ha := hkeeps h
    rw [hprog] at ha
    exact ⟨hs.wire,hs.hist_update ha (fun _ _ => rfl)⟩
  | @compute h port a hprog =>
    have ha := hkeeps h
    rw [hprog] at ha
    exact ⟨hs.wire,hs.hist_update ha (fun _ _ => rfl)⟩
  | @receive h port p k d rest hprog hdst hperm =>
    have hwire : C.Wire d :=
      hs.wire d (hconserved.mem_sent (.inr (.inl (hperm.mem_iff.mpr List.mem_cons_self))))
    have ha := hkeeps h
    rw [hprog] at ha
    have hhost : (Event.received d).host = h := congrArg Prod.fst hdst
    refine ⟨?_,hs.hist_update ?_ ?_⟩
    · intro d' hd'
      exact hs.wire d' ((List.mem_cons.mp hd').resolve_left nofun)
    · rw [own_cons_self hhost]
      exact ha d hwire hdst
    · intro h' hne
      exact own_cons_ne (fun heq => hne (heq.symm.trans hhost)) s.log
  | @sendto h port p data dst a hprog =>
    have ha := hkeeps h
    rw [hprog] at ha
    exact hs.send ha rfl rfl
  | @sendFresh h port data dst k hprog hport hfree =>
    have ha := hkeeps h
    rw [hprog] at ha
    exact hs.send (ha port hport) rfl rfl
  | @close h port p a hprog =>
    have ha := hkeeps h
    rw [hprog] at ha
    exact ⟨hs.wire,hs.hist_update ha (fun _ _ => rfl)⟩
  | arrive hi hbound => exact ⟨hs.wire,hs.hist⟩
  | drop hi hl => exact ⟨hs.wire,hs.hist⟩

theorem Valid.act [DecidableEq δ] (hC : C.Valid N) {s : State ν δ σ} (hs : C.Holds s)
    (hconserved : s.Conserved) (l : Label ν) : C.Holds (N.act s l) :=
  N.act_keeps hs (fun _ hm => hC.moves hs hconserved hm)

theorem Valid.holds [DecidableEq δ] (hC : C.Valid N) (labels : List (Label ν)) :
    C.Holds (Serial.after N.serve N.init labels) := by
  have hboth : C.Holds (Serial.after N.serve N.init labels) ∧
      (Serial.after N.serve N.init labels).Conserved := by
    refine Serial.after_inv (I := fun s => C.Holds s ∧ s.Conserved) N.serve ?_ ?_ labels
    · intro s l hs
      exact ⟨hC.act hs.1 hs.2 l,hs.2.act l⟩
    · exact ⟨⟨fun d hd => (nomatch hd),hC.start⟩,fun P => rfl⟩
  exact hboth.1

end Contract
end GrpKeySec.Udp
