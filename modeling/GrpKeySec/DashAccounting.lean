import GrpKeySec.DashStream
import GrpKeySec.Runs
set_option autoImplicit false

/-!
What the loops of mbms_leo_simulation_v1.m count. The nested loops are one list of calls;
deliveries are counted by UE, losses by time step, and both together are the calls.
-/

namespace GrpKeySec.Dash
open Tally

structure Call (segs n steps : Nat) where
  phase : Phase
  segment : Fin segs
  time : Fin steps
  ue : Fin n
  delivered : Bool
  deriving DecidableEq, Repr

namespace Call

variable {segs n steps users : Nat}

def ofBroadcast (channel : Channel n) (segs steps : Nat) : List (Call segs n steps) :=
  (List.finRange segs).flatMap (fun k => (List.finRange steps).flatMap (fun t =>
    (List.finRange n).map (fun i => ⟨.broadcast,k,t,i,channel.broadcast k t i⟩)))

def ofMulticast (channel : Channel n) (selected : Mbms.Selection n users) (premium : Fin segs)
    (steps : Nat) : List (Call segs n steps) :=
  (List.finRange selected.ues.length).flatMap (fun idx => (List.finRange steps).map (fun t =>
    ⟨.multicast,premium,t,selected.ues.get idx,channel.multicast idx t⟩))

def ofRun (channel : Channel n) (selected : Mbms.Selection n users) (premium : Fin segs)
    (steps : Nat) : List (Call segs n steps) :=
  ofBroadcast channel segs steps ++ ofMulticast channel selected premium steps

def reached (calls : List (Call segs n steps)) (i : Fin n) : Nat :=
  calls.countP (fun c => c.delivered && decide (c.ue = i))

def lost (calls : List (Call segs n steps)) (t : Fin steps) : Nat :=
  calls.countP (fun c => !c.delivered && decide (c.time = t))

theorem reached_add_lost (calls : List (Call segs n steps)) :
    ∑ i,reached calls i + ∑ t,lost calls t = calls.length :=
  sum_passed_add_sum_failed Call.delivered Call.ue Call.time calls

theorem countP_ofBroadcast (channel : Channel n) (p : Call segs n steps → Bool) :
    (ofBroadcast channel segs steps).countP p =
      ∑ k,∑ t,∑ i,if p ⟨.broadcast,k,t,i,channel.broadcast k t i⟩ then 1 else 0 := by
  simp only [ofBroadcast,countP_loop,countP_last_loop]

theorem countP_ofMulticast (channel : Channel n) (selected : Mbms.Selection n users)
    (premium : Fin segs) (p : Call segs n steps → Bool) :
    (ofMulticast channel selected premium steps).countP p =
      ∑ idx,∑ t,
        if p ⟨.multicast,premium,t,selected.ues.get idx,channel.multicast idx t⟩ then 1 else 0 := by
  simp only [ofMulticast,countP_loop,countP_last_loop]

theorem mem_ofRun {channel : Channel n} {selected : Mbms.Selection n users} {premium : Fin segs}
    {call : Call segs n steps} : call ∈ ofRun channel selected premium steps ↔
      (∃ k t i,⟨.broadcast,k,t,i,channel.broadcast k t i⟩ = call) ∨
      ∃ idx t,⟨.multicast,premium,t,selected.ues.get idx,channel.multicast idx t⟩ = call := by
  simp [ofRun,ofBroadcast,ofMulticast]

theorem length_ofRun (channel : Channel n) (selected : Mbms.Selection n users)
    (premium : Fin segs) :
    (ofRun channel selected premium steps).length =
      segs * steps * n + selected.ues.length * steps := by
  have hcount : (ofRun channel selected premium steps).countP (fun _ => true) =
      segs * (steps * n) + selected.ues.length * steps := by
    simp [ofRun,countP_ofBroadcast,countP_ofMulticast]
  rw [Nat.mul_assoc,← hcount,List.countP_true]

end Call

namespace Run

variable {n steps users : Nat} {K : Type}

def perform (segments : List (Segment K)) (r : Run n steps)
    (call : Call segments.length n steps) : Run n steps :=
  r.transmit (call.phase.packet segments call.segment) call.time call.ue call.delivered

theorem perform_ues (segments : List (Segment K)) (r : Run n steps)
    (call : Call segments.length n steps) (i : Fin n) :
    (r.perform segments call).ues i =
      if call.delivered && decide (call.ue = i) then
        (r.ues i).receive (call.phase.packet segments call.segment)
      else r.ues i := by
  rw [perform]
  cases call.delivered with
  | false => simp
  | true =>
    by_cases hi : call.ue = i
    · simp [← hi]
    · simp [hi,Function.update_of_ne (Ne.symm hi)]

theorem perform_packetLoss (segments : List (Segment K)) (r : Run n steps)
    (call : Call segments.length n steps) (t : Fin steps) :
    (r.perform segments call).packetLoss t =
      r.packetLoss t + if !call.delivered && decide (call.time = t) then 1 else 0 := by
  rw [perform]
  cases call.delivered with
  | true => simp
  | false =>
    by_cases ht : call.time = t
    · simp [← ht]
    · simp [ht,Function.update_of_ne (Ne.symm ht)]

section Calls

variable (segments : List (Segment K)) (calls : List (Call segments.length n steps))

theorem foldl_perform_packetLoss (r : Run n steps) (t : Fin steps) :
    (calls.foldl (perform segments) r).packetLoss t = r.packetLoss t + Call.lost calls t := by
  induction calls generalizing r with
  | nil => simp [Call.lost]
  | cons call calls ih =>
    simp only [List.foldl_cons,ih,perform_packetLoss,Call.lost,List.countP_cons]
    omega

/-- A counter to which every packet adds the same. One that is `[]` stays so. -/
theorem foldl_perform_counter {field : Ue → Option Nat} {w : Nat}
    (hfield : ∀ (ue : Ue) (phase : Phase) (k : Fin segments.length),
      field (ue.receive (phase.packet segments k)) = (field ue).map (· + w))
    (r : Run n steps) (i : Fin n) :
    field ((calls.foldl (perform segments) r).ues i) =
      (field (r.ues i)).map (· + w * Call.reached calls i) := by
  induction calls generalizing r with
  | nil => simp [Call.reached]
  | cons call calls ih =>
    simp only [List.foldl_cons,ih,perform_ues,Call.reached,List.countP_cons]
    cases h : call.delivered && decide (call.ue = i) with
    | false => simp
    | true =>
      simp only [if_true,hfield]
      cases field (r.ues i) with
      | none => rfl
      | some a =>
        simp only [Option.map_some,Option.some.injEq,Nat.mul_add]
        omega

theorem foldl_perform_receivedPackets (r : Run n steps) (i : Fin n) :
    ((calls.foldl (perform segments) r).ues i).receivedPackets =
      (r.ues i).receivedPackets.map (· + Call.reached calls i) := by
  simpa using foldl_perform_counter segments calls (w := 1)
    (fun _ _ _ => rfl) r i

theorem foldl_perform_totalBytes (r : Run n steps) (i : Fin n) :
    ((calls.foldl (perform segments) r).ues i).totalBytes =
      (r.ues i).totalBytes.map (· + Mbms.packetSizeBytes * Call.reached calls i) :=
  foldl_perform_counter segments calls (fun _ _ _ => by simp [Ue.receive]) r i

theorem mem_foldl_perform (r : Run n steps) (i : Fin n) (x : String) :
    x ∈ ((calls.foldl (perform segments) r).ues i).receivedSegments ↔
      x ∈ (r.ues i).receivedSegments ∨ ∃ call ∈ calls,
        call.delivered = true ∧ call.ue = i ∧ (segments.get call.segment).id = x := by
  induction calls generalizing r with
  | nil => simp
  | cons call calls ih =>
    simp only [List.foldl_cons,ih,perform_ues,List.exists_mem_cons_iff]
    cases hd : call.delivered with
    | false => simp
    | true =>
      by_cases hi : call.ue = i
      · simp only [hi,Ue.mem_receive,Phase.packet_segmentId,Bool.true_and,decide_true,if_true,
          true_and,or_assoc,eq_comm]
      · simp [hi]

theorem nodup_foldl_perform {r : Run n steps} {i : Fin n}
    (hr : (r.ues i).receivedSegments.Nodup) :
    ((calls.foldl (perform segments) r).ues i).receivedSegments.Nodup := by
  induction calls generalizing r with
  | nil => exact hr
  | cons call calls ih =>
    apply ih
    rw [perform_ues]
    split
    · exact Ue.nodup_receive _ hr
    · exact hr

end Calls

theorem stream_nil (channel : Channel n) (selected : Mbms.Selection n users) (r : Run n steps) :
    r.stream channel selected ([] : List (Segment K)) = .error .indexOutOfBounds := rfl

variable {segments : List (Segment K)}

def lastSegment (h : segments ≠ []) : Fin segments.length :=
  ⟨segments.length - 1,Nat.sub_one_lt_of_lt (List.length_pos_of_ne_nil h)⟩

theorem lastSegment_eq_iff (h : segments ≠ []) (k : Fin segments.length) :
    lastSegment h = k ↔ k.val + 1 = segments.length := by
  have hpos := List.length_pos_of_ne_nil h
  rw [Fin.ext_iff,lastSegment]
  simp only
  omega

/-- The nested loops are one loop over the calls, whatever is done in each. -/
theorem loops_eq {σ : Type} (channel : Channel n) (selected : Mbms.Selection n users)
    (h : segments ≠ []) (body : Packet K → Fin steps → Fin n → Bool → σ → σ) (s : σ) :
    multicastLoops channel selected segments body (broadcastLoops channel segments body s) =
      .ok ((Call.ofRun channel selected (lastSegment h) steps).foldl
        (fun s call => body (call.phase.packet segments call.segment) call.time call.ue
          call.delivered s) s) := by
  have hpos := List.length_pos_of_ne_nil h
  simp only [multicastLoops,broadcastLoops,dif_pos hpos,Call.ofRun,Call.ofBroadcast,
    Call.ofMulticast,List.foldl_append,List.foldl_flatMap,List.foldl_map]
  rfl

theorem stream_eq (channel : Channel n) (selected : Mbms.Selection n users) (h : segments ≠ [])
    (r : Run n steps) :
    r.stream channel selected segments =
      .ok ((Call.ofRun channel selected (lastSegment h) steps).foldl (perform segments) r) :=
  loops_eq channel selected h transmit r

theorem stream_eq_ok {channel : Channel n} {selected : Mbms.Selection n users}
    {r r' : Run n steps} (hr : r.stream channel selected segments = .ok r') :
    ∃ h : segments ≠ [],
      (Call.ofRun channel selected (lastSegment h) steps).foldl (perform segments) r = r' := by
  have hne : segments ≠ [] := by
    rintro rfl
    rw [stream_nil] at hr
    cases hr
  rw [stream_eq channel selected hne] at hr
  exact ⟨hne,Except.ok.inj hr⟩

def ledger (r : Run n steps) :
    (Fin n → Option Nat × Option Nat × List String) × (Fin steps → Nat) :=
  (fun i => ((r.ues i).receivedPackets,(r.ues i).totalBytes,(r.ues i).receivedSegments),
    r.packetLoss)

/-- Nothing is counted yet, and the counters are all `c`. -/
def Fresh (c : Option Nat) (r : Run n steps) : Prop :=
  r.ledger = (fun _ => (c,c,[]),fun _ => 0)

theorem init_fresh : (init n steps).Fresh none := by
  simp [Fresh,ledger,init,Ue.initial_eq]

theorem registerUe_ledger (channel : Channel n) (r : Run n steps) (i : Fin n) :
    (r.registerUe channel i).ledger = r.ledger := by
  cases h : channel.registration i with
  | false => simp [registerUe,simulateGatewayTransmit,h]
  | true =>
    simp only [registerUe,simulateGatewayTransmit,Mbms.simulateCoreProcessing,h,ledger,if_true]
    congr 1
    funext j
    by_cases hj : j = i
    · subst hj
      simp
    · simp [Function.update_of_ne hj]

theorem setupSession_ok (channel : Channel n) (run : Nat) (r : Run n steps) (h : 0 < n) :
    ∃ r',r.setupSession channel run = .ok r' ∧ r'.ledger = r.ledger := by
  cases hs : channel.session <;>
    simp [setupSession,simulateGatewayTransmit,Mbms.simulateCoreProcessing,h,hs,ledger]

theorem attach_ok (steps : Nat) (channel : Channel n) (run : Nat) (h : 0 < n) :
    ∃ r : Run n steps,attach channel run = .ok r ∧ r.Fresh none := by
  obtain ⟨r,hr,hledger⟩ := setupSession_ok channel run
    ((List.finRange n).foldl (registerUe channel) (init n steps)) h
  rw [foldl_keeps ledger (registerUe_ledger channel)] at hledger
  exact ⟨r,hr,hledger.trans init_fresh⟩

theorem attach_zero (channel : Channel 0) (run : Nat) :
    (attach channel run : Except MatlabError (Run 0 steps)) = .error .indexOutOfBounds := rfl

theorem deliver_ok (steps : Nat) (channel : Channel n) (selected : Mbms.Selection n users)
    (run : Nat) (hn : 0 < n) (h : segments ≠ []) :
    ∃ attached : Run n steps,attached.Fresh none ∧ deliver channel selected segments run =
      .ok ((Call.ofRun channel selected (lastSegment h) steps).foldl (perform segments) attached) := by
  obtain ⟨attached,hattach,hfresh⟩ := attach_ok steps channel run hn
  refine ⟨attached,hfresh,?_⟩
  rw [← stream_eq channel selected h attached]
  simp only [deliver,hattach]
  rfl

theorem pos_of_deliver {channel : Channel n} {selected : Mbms.Selection n users} {run : Nat}
    {r : Run n steps} (h : deliver channel selected segments run = .ok r) :
    0 < n ∧ segments ≠ [] := by
  rcases Nat.eq_zero_or_pos n with rfl | hn
  · simp only [deliver,attach_zero] at h
    cases h
  · refine ⟨hn,?_⟩
    rintro rfl
    obtain ⟨attached,hattach,-⟩ := attach_ok steps channel run hn
    simp only [deliver,hattach] at h
    cases h

end Run

section Conservation

variable {n steps users : Nat} {K : Type}

/-- Some packet of the segment `k` gets through to the UE `i`, by broadcast or, for the
last segment, by multicast. -/
def Channel.DeliveredTo (channel : Channel n) (selected : Mbms.Selection n users)
    (segs steps : Nat) (i : Fin n) (k : Fin segs) : Prop :=
  (∃ t : Fin steps,channel.broadcast k t i = true) ∨
    (k.val + 1 = segs ∧ ∃ idx,selected.ues.get idx = i ∧
      ∃ t : Fin steps,channel.multicast idx t = true)

def Run.Conserved (selected : Mbms.Selection n users) (segments : List (Segment K))
    (r : Run n steps) : Prop :=
  ∑ i,(r.ues i).receivedPackets.getD 0 + ∑ t,r.packetLoss t =
    segments.length * steps * n + selected.ues.length * steps

def Ue.BytesMatch (ue : Ue) : Prop :=
  ue.totalBytes = ue.receivedPackets.map (Mbms.packetSizeBytes * ·)

def Ue.Lists (ue : Ue) (segments : List (Segment K)) (delivered : Fin segments.length → Prop) :
    Prop :=
  ue.receivedSegments.Nodup ∧
    (∀ k,(segments.get k).id ∈ ue.receivedSegments ↔ delivered k) ∧
    ∀ x ∈ ue.receivedSegments,∃ k,(segments.get k).id = x

/-- The books of a run are right. The sum over the UEs takes `[]` for nothing. -/
structure Run.Accounted (channel : Channel n) (selected : Mbms.Selection n users)
    (segments : List (Segment K)) (r : Run n steps) : Prop where
  conserved : r.Conserved selected segments
  bytes : ∀ i,(r.ues i).BytesMatch
  segments : ∀ i,(r.ues i).Lists segments
    (channel.DeliveredTo selected segments.length steps i)

theorem segment_id_inj {segments : List (Segment K)} (hids : (segments.map Segment.id).Nodup)
    {j k : Fin segments.length} (h : (segments.get j).id = (segments.get k).id) : j = k := by
  apply Fin.ext
  apply (List.Nodup.getElem_inj_iff hids).mp
  · simpa using h
  · simp
  · simp

theorem Call.exists_delivered_iff (channel : Channel n) (selected : Mbms.Selection n users)
    {segments : List (Segment K)} (h : segments ≠ []) (i : Fin n) (k : Fin segments.length) :
    (∃ call ∈ Call.ofRun channel selected (Run.lastSegment h) steps,
      call.delivered = true ∧ call.ue = i ∧ call.segment = k) ↔
      channel.DeliveredTo selected segments.length steps i k := by
  have hpos := List.length_pos_of_ne_nil h
  simp only [Call.mem_ofRun]
  constructor
  · rintro ⟨call,⟨k',t,i',rfl⟩ | ⟨idx,t,rfl⟩,hd,rfl,rfl⟩
    · exact .inl ⟨t,hd⟩
    · exact .inr ⟨Nat.sub_add_cancel hpos,idx,rfl,t,hd⟩
  · rintro (⟨t,hd⟩ | ⟨hk,idx,hi,t,hd⟩)
    · exact ⟨_,.inl ⟨k,t,i,rfl⟩,hd,rfl,rfl⟩
    · exact ⟨_,.inr ⟨idx,t,rfl⟩,hd,hi,(Run.lastSegment_eq_iff h k).mpr hk⟩

namespace Run

section Fresh

variable {segments : List (Segment K)} {channel : Channel n} {selected : Mbms.Selection n users}
  {calls : List (Call segments.length n steps)} {c : Option Nat} {r : Run n steps}

theorem Fresh.receivedPackets (hr : r.Fresh c) (i : Fin n) : (r.ues i).receivedPackets = c :=
  congrArg Prod.fst (congrFun (congrArg Prod.fst hr) i)

theorem Fresh.totalBytes (hr : r.Fresh c) (i : Fin n) : (r.ues i).totalBytes = c :=
  congrArg (fun f => f.2.1) (congrFun (congrArg Prod.fst hr) i)

theorem Fresh.receivedSegments (hr : r.Fresh c) (i : Fin n) : (r.ues i).receivedSegments = [] :=
  congrArg (fun f => f.2.2) (congrFun (congrArg Prod.fst hr) i)

theorem Fresh.packetLoss (hr : r.Fresh c) (t : Fin steps) : r.packetLoss t = 0 :=
  congrFun (congrArg Prod.snd hr) t

theorem sum_packetLoss (hr : r.Fresh c) :
    ∑ t,(calls.foldl (perform segments) r).packetLoss t = ∑ t,Call.lost calls t := by
  simp only [foldl_perform_packetLoss,hr.packetLoss,Nat.zero_add]

theorem bytesMatch (hr : r.Fresh c) (hc : c = c.map (Mbms.packetSizeBytes * ·)) (i : Fin n) :
    ((calls.foldl (perform segments) r).ues i).BytesMatch := by
  simp only [Ue.BytesMatch,foldl_perform_receivedPackets,foldl_perform_totalBytes,
    hr.receivedPackets,hr.totalBytes]
  cases c with
  | none => rfl
  | some a =>
    simp only [Option.map_some,Option.some.injEq,Nat.mul_add] at hc ⊢
    omega

theorem lists (hids : (segments.map Segment.id).Nodup) (h : segments ≠ []) (hr : r.Fresh c)
    (i : Fin n) :
    (((Call.ofRun channel selected (lastSegment h) steps).foldl (perform segments) r).ues i).Lists
      segments (channel.DeliveredTo selected segments.length steps i) := by
  refine ⟨?_,fun k => ?_,fun x hx => ?_⟩
  · apply nodup_foldl_perform
    simp [hr.receivedSegments]
  · rw [mem_foldl_perform,← Call.exists_delivered_iff channel selected h]
    simp only [hr.receivedSegments,List.not_mem_nil,false_or]
    constructor
    · rintro ⟨call,hcall,hd,hi,hid⟩
      exact ⟨call,hcall,hd,hi,segment_id_inj hids hid⟩
    · rintro ⟨call,hcall,hd,hi,rfl⟩
      exact ⟨call,hcall,hd,hi,rfl⟩
  · rw [mem_foldl_perform] at hx
    simp only [hr.receivedSegments,List.not_mem_nil,false_or] at hx
    obtain ⟨call,-,-,-,hid⟩ := hx
    exact ⟨call.segment,hid⟩

theorem accounted_of_zero (hids : (segments.map Segment.id).Nodup) (h : segments ≠ [])
    (hr : r.Fresh (some 0)) :
    ((Call.ofRun channel selected (lastSegment h) steps).foldl (perform segments) r).Accounted
      channel selected segments := by
  refine ⟨?_,bytesMatch hr rfl,lists hids h hr⟩
  rw [Conserved,sum_packetLoss hr,← Call.length_ofRun channel selected (lastSegment h),
    ← Call.reached_add_lost]
  simp only [foldl_perform_receivedPackets,hr.receivedPackets,Option.map_some,Option.getD_some,
    Nat.zero_add]

/-- Counters that are `[]` stay so, and the books are right only where they have nothing
to say. -/
theorem conserved_iff_of_empty (h : segments ≠ []) (hr : r.Fresh none) :
    ((Call.ofRun channel selected (lastSegment h) steps).foldl (perform segments) r).Conserved
        selected segments ↔
      ∀ i k,¬ channel.DeliveredTo selected segments.length steps i k := by
  have hbooks := Call.reached_add_lost (Call.ofRun channel selected (lastSegment h) steps)
  rw [Call.length_ofRun] at hbooks
  rw [Conserved,sum_packetLoss hr,← hbooks]
  simp only [foldl_perform_receivedPackets,hr.receivedPackets,Option.map_none,Option.getD_none,
    Finset.sum_const_zero,Nat.add_right_cancel_iff]
  rw [eq_comm,Finset.sum_eq_zero_iff]
  simp only [Finset.mem_univ,forall_const,Call.reached,List.countP_eq_zero,
    ← Call.exists_delivered_iff channel selected h]
  constructor
  · rintro hnone i k ⟨call,hcall,hd,hi,-⟩
    exact absurd (hnone i call hcall) (by simp [hd,hi])
  · intro hnone i call hcall hreached
    simp only [Bool.and_eq_true,decide_eq_true_eq] at hreached
    exact hnone i call.segment ⟨call,hcall,hreached.1,hreached.2,rfl⟩

end Fresh

section Deliver

variable {segments : List (Segment K)} {channel : Channel n} {selected : Mbms.Selection n users}
  {run : Nat}

theorem of_deliver {r : Run n steps} (h : deliver channel selected segments run = .ok r) :
    ∃ (hne : segments ≠ []) (attached : Run n steps),attached.Fresh none ∧
      r = (Call.ofRun channel selected (lastSegment hne) steps).foldl (perform segments)
        attached := by
  obtain ⟨hn,hne⟩ := pos_of_deliver h
  obtain ⟨attached,hfresh,hdeliver⟩ := deliver_ok steps channel selected run hn hne
  exact ⟨hne,attached,hfresh,Except.ok.inj (h.symm.trans hdeliver)⟩

theorem deliver_counters {r : Run n steps} (h : deliver channel selected segments run = .ok r)
    (i : Fin n) : (r.ues i).receivedPackets = none ∧ (r.ues i).totalBytes = none := by
  obtain ⟨hne,attached,hfresh,rfl⟩ := of_deliver h
  rw [foldl_perform_receivedPackets,foldl_perform_totalBytes,hfresh.receivedPackets,
    hfresh.totalBytes]
  exact ⟨rfl,rfl⟩

theorem simulate_ne_ok (out : Run n steps × Metrics) :
    simulate channel selected segments run ≠ .ok out := by
  intro h
  cases hdeliver : (deliver channel selected segments run : Except MatlabError (Run n steps)) with
  | error e =>
    rw [simulate,hdeliver] at h
    cases h
  | ok r =>
    obtain ⟨hn,-⟩ := pos_of_deliver hdeliver
    have hnone : ∃ i,(r.ues i).receivedPackets = none :=
      ⟨⟨0,hn⟩,(deliver_counters hdeliver _).1⟩
    rw [simulate,hdeliver] at h
    simp only [bind,Except.bind,metrics,sumOver,if_pos hnone] at h
    cases h

theorem accounted_iff_of_deliver (hids : (segments.map Segment.id).Nodup) {r : Run n steps}
    (h : deliver channel selected segments run = .ok r) :
    (∀ i,(r.ues i).BytesMatch) ∧
    (∀ i,(r.ues i).Lists segments (channel.DeliveredTo selected segments.length steps i)) ∧
    (r.Conserved selected segments ↔
      ∀ i k,¬ channel.DeliveredTo selected segments.length steps i k) := by
  obtain ⟨hne,attached,hfresh,rfl⟩ := of_deliver h
  exact ⟨bytesMatch hfresh rfl,lists hids hne hfresh,conserved_iff_of_empty hne hfresh⟩

end Deliver

/-- A run of the script keeps its books right only if nothing gets through; it ends at the
metrics with an error in any case. Counters that started at zero would do. -/
theorem accounted_iff (channel : Channel n) (selected : Mbms.Selection n users)
    (segments : List (Segment K)) (hids : (segments.map Segment.id).Nodup) (run : Nat) :
    ((∃ r : Run n steps,deliver channel selected segments run = .ok r ∧
        r.Accounted channel selected segments) ↔
      0 < n ∧ segments ≠ [] ∧ ∀ i k,¬ channel.DeliveredTo selected segments.length steps i k) ∧
    (∀ r : Run n steps,deliver channel selected segments run = .ok r →
      ∀ i,(r.ues i).receivedPackets = none ∧ (r.ues i).BytesMatch ∧
        (r.ues i).Lists segments (channel.DeliveredTo selected segments.length steps i)) ∧
    (∀ out : Run n steps × Metrics,simulate channel selected segments run ≠ .ok out) ∧
    (segments ≠ [] → ∀ r : Run n steps,r.Fresh (some 0) →
      ∃ r',r.stream channel selected segments = .ok r' ∧
        r'.Accounted channel selected segments) := by
  refine ⟨⟨?_,?_⟩,fun r hr i => ?_,simulate_ne_ok,fun hne r hr => ?_⟩
  · rintro ⟨r,hr,hbooks⟩
    obtain ⟨hn,hne⟩ := pos_of_deliver hr
    exact ⟨hn,hne,(accounted_iff_of_deliver hids hr).2.2.mp hbooks.conserved⟩
  · rintro ⟨hn,hne,hnone⟩
    obtain ⟨attached,-,hr⟩ := deliver_ok steps channel selected run hn hne
    obtain ⟨hbytes,hlists,hconserved⟩ := accounted_iff_of_deliver hids hr
    exact ⟨_,hr,hconserved.mpr hnone,hbytes,hlists⟩
  · obtain ⟨hbytes,hlists,-⟩ := accounted_iff_of_deliver hids hr
    exact ⟨(deliver_counters hr i).1,hbytes i,hlists i⟩
  · exact ⟨_,stream_eq channel selected hne r,accounted_of_zero hids hne hr⟩

def onlyUe : Mbms.Selection 1 1 := ⟨[0],by decide,by decide⟩

theorem accounted_without_delivery : ∃ r : Run 1 2,
    deliver (.always 1 false) onlyUe dashServer 1 = .ok r ∧
      r.Accounted (.always 1 false) onlyUe dashServer :=
  (accounted_iff (.always 1 false) onlyUe dashServer dashServer_ids_nodup 1).1.mpr
    ⟨by decide,dashServer_ne_nil,by simp [Channel.DeliveredTo,Channel.always]⟩

def firstTen : Mbms.Selection 100 10 :=
  ⟨(List.finRange 100).take 10,(List.nodup_finRange 100).sublist (List.take_sublist 10 _),by simp⟩

theorem first_run_not_accounted : ∃ r : Run 100 101,
    deliver (.always 100 true) firstTen dashServer 1 = .ok r ∧
      (∀ i,(r.ues i).receivedPackets = none) ∧
      ¬ r.Accounted (.always 100 true) firstTen dashServer := by
  obtain ⟨attached,hfresh,hr⟩ :=
    deliver_ok 101 (.always 100 true) firstTen 1 (by decide) dashServer_ne_nil
  refine ⟨_,hr,fun i => (deliver_counters hr i).1,fun hbooks => ?_⟩
  have hnone := (conserved_iff_of_empty dashServer_ne_nil hfresh).mp hbooks.conserved
  exact hnone 0 (lastSegment dashServer_ne_nil) (.inl ⟨0,rfl⟩)

end Run
end Conservation
end GrpKeySec.Dash
