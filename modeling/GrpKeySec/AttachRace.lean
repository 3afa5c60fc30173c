import GrpKeySec.Attach
set_option autoImplicit false

/-!
The race of the attach: the UE asks before it binds the port on which the answer
arrives. An attach gets stuck when the answer arrives first, and in no other way
as long as the network loses nothing.
-/

namespace GrpKeySec.Attach
open Udp Serial

def GnbState.finished : GnbState → Bool
  | .forwarded _ => true
  | .setupGtp => true
  | .done => true
  | _ => false

def AmfState.finished : AmfState → Bool
  | .requested .sendIpToUe _ => true
  | .done => true
  | _ => false

def toUe (d : Datagram Host String) : Bool := decide (d.dst.1 = .ue)

/-- The gNB and the AMF have nothing left to receive or to send, nothing is on its
way to the UE or waits at its port, and the UE has not got its address. -/
def Stuck (s : Emulation) : Prop :=
  GnbState.finished (s.procs .gnb) = true ∧ AmfState.finished (s.procs .amf) = true ∧
  s.inFlight.countP toUe = 0 ∧ s.buffered.countP toUe = 0 ∧ s.received.countP toUe = 0

instance (s : Emulation) : Decidable (Stuck s) :=
  inferInstanceAs (Decidable (_ ∧ _))

def taken (s : Emulation) : Label Host → Option (Datagram Host String)
  | .run _ _ => none
  | .deliver i => s.inFlight[i]?
  | .lose i => s.inFlight[i]?

def NoLoss (s : Emulation) : Label Host → Prop
  | .lose i => ∀ d ∈ s.inFlight[i]?,d.dst ∉ s.bound
  | _ => True

instance (s : Emulation) : (l : Label Host) → Decidable (NoLoss s l)
  | .lose i => inferInstanceAs (Decidable (∀ d ∈ s.inFlight[i]?,_))
  | .run _ _ => isTrue trivial
  | .deliver _ => isTrue trivial

def UeStartsLast (s : Emulation) : Label Host → Prop
  | .run .ue _ => s.procs .ue = UeState.start → (.gnb,9000) ∈ s.bound ∧ (.amf,9001) ∈ s.bound
  | _ => True

instance (s : Emulation) (l : Label Host) : Decidable (UeStartsLast s l) := by
  unfold UeStartsLast
  split <;> infer_instance

def UeBound (s : Emulation) (l : Label Host) : Prop :=
  ∀ d ∈ taken s l,d.dst.1 = .ue → d.dst ∈ s.bound

instance (s : Emulation) (l : Label Host) : Decidable (UeBound s l) :=
  inferInstanceAs (Decidable (∀ d ∈ taken s l,_))

def Note.to (accepts : Host × Nat → Bool) : Note → Bool
  | .sent _ dst => accepts dst
  | .received _ _ => false

/-- Where only `h` sends, its history counts what was sent. -/
theorem sent_to {log : List (Udp.Event Host String)} (h : Host) (accepts : Host × Nat → Bool)
    (honly : ∀ d,.sent d ∈ log → accepts d.dst = true → d.src.1 = h) :
    (log.filterMap Udp.Event.sent?).countP (fun d => accepts d.dst) =
      ((own h log).map note).countP (Note.to accepts) := by
  induction log with
  | nil => rfl
  | cons e log ih =>
    have hrest := ih (fun d hd => honly d (List.mem_cons_of_mem e hd))
    cases e with
    | received d =>
      by_cases hhost : (Udp.Event.received d).host = h
      · simpa [List.filterMap_cons,Udp.Event.sent?,own_cons_self hhost,note,Note.to] using hrest
      · simpa [List.filterMap_cons,Udp.Event.sent?,own_cons_ne hhost] using hrest
    | sent d =>
      by_cases hhost : (Udp.Event.sent d).host = h
      · cases hdst : accepts d.dst <;>
          simpa [Udp.Event.sent?,own_cons_self hhost,note,Note.to,hdst] using hrest
      · have hdst : accepts d.dst = false :=
          Bool.eq_false_iff.mpr (fun hdst => hhost (honly d List.mem_cons_self hdst))
        simpa [Udp.Event.sent?,own_cons_ne hhost,hdst] using hrest

def Note.toUe : Note → Bool := Note.to (fun dst => decide (dst.1 = .ue))

theorem Wire.host_ue {d : Datagram Host String} (h : Wire d) (hdst : d.dst.1 = .ue) :
    d.src.1 = .amf ∧ d.dst = (.ue,8000) := by
  cases h with
  | registration hp => simp at hdst
  | forwarded hp => simp at hdst
  | request hp r => cases r <;> simp [Request.dst] at hdst ⊢
  | reply hp hsrc => simp at hdst

theorem AmfState.notes_toUe (a : AmfState) :
    a.notes.countP Note.toUe = if a.finished then 1 else 0 := by
  cases a with
  | requesting r => cases r <;> rfl
  | requested r port => cases r <;> rfl
  | _ => rfl

theorem sent_toUe_count {s : Emulation} (h : contract.Holds s) :
    s.sent.countP toUe = if AmfState.finished (s.procs .amf) then 1 else 0 := by
  have hnotes : (own .amf s.log).map note = AmfState.notes (s.procs .amf) := h.hist .amf
  have hsent : s.sent.countP toUe = ((own .amf s.log).map note).countP Note.toUe :=
    sent_to .amf (fun dst => decide (dst.1 = .ue))
      (fun d hd hdst => ((h.wire d hd).host_ue (of_decide_eq_true hdst)).1)
  rw [hsent,hnotes,AmfState.notes_toUe]

theorem gnb_finished {s : Emulation} (h : contract.Holds s) (hconserved : s.Conserved)
    (hamf : AmfState.finished (s.procs .amf) = true) :
    GnbState.finished (s.procs .gnb) = true := by
  have hreceived : Note.received "UE_REG_REQUEST" .gnb ∈ (own .amf s.log).map note := by
    have hnotes : (own .amf s.log).map note = AmfState.notes (s.procs .amf) := h.hist .amf
    rw [hnotes]
    generalize (s.procs .amf : AmfState) = a at hamf
    cases a with
    | requested r port =>
      cases r <;> simp [AmfState.finished,AmfState.notes,Request.before] at hamf ⊢
    | done => simp [AmfState.notes,Request.before]
    | _ => simp [AmfState.finished] at hamf
  obtain ⟨e,he,hnote⟩ := List.mem_map.mp hreceived
  cases e with
  | sent d => simp [note] at hnote
  | received d =>
    -- the datagram it got was sent by the gNB, whose history says how far that is
    obtain ⟨_,hsrc⟩ := Note.received.inj hnote
    have hsent := hconserved.mem_sent
      (.inr (.inr (.inl (State.mem_received_iff.mpr (mem_own.mp he).1))))
    have hown : note (.sent d) ∈ GnbState.notes (s.procs .gnb) := by
      have hnotes : (own .gnb s.log).map note = GnbState.notes (s.procs .gnb) := (h.hist .gnb).1
      rw [← hnotes]
      exact List.mem_map_of_mem (mem_own.mpr ⟨hsent,hsrc⟩)
    generalize (s.procs .gnb : GnbState) = b at hown ⊢
    cases b with
    | start => simp [GnbState.notes] at hown
    | listening => simp [GnbState.notes] at hown
    | received data => simp [GnbState.notes,note] at hown
    | forwarding data => simp [GnbState.notes,note] at hown
    | forwarded port => rfl
    | setupGtp => rfl
    | done => rfl

structure OnTheWay (s : Emulation) : Prop where
  holds : contract.Holds s
  conserved : s.Conserved
  dropped : s.dropped.countP toUe = 0

theorem OnTheWay.not_stuck {s : Emulation} (h : OnTheWay s) : ¬ Stuck s := by
  rintro ⟨_,hamf,hflight,hbuffered,hreceived⟩
  have hsent := sent_toUe_count h.holds
  have hcount := h.conserved toUe
  have hdropped := h.dropped
  rw [hamf] at hsent
  simp only [if_true] at hsent
  omega

theorem countP_toUe_zero {l : List (Datagram Host String)} (h : ∀ d ∈ l,d.dst.1 ≠ .ue) :
    l.countP toUe = 0 := by
  refine List.countP_eq_zero.mpr ?_
  intro d hd
  simp [toUe,h d hd]

theorem OnTheWay.closed {s : Emulation} (h : OnTheWay s) {host : Host} {p : Nat}
    {a : HostState host} (hprog : net.program host (s.procs host) = .close p a) :
    (s.buffered.filter (fun d => decide (d.dst = (host,p)))).countP toUe = 0 := by
  by_cases hbuffered : s.buffered.countP toUe = 0
  · have hle := (List.filter_sublist (p := fun d => decide (d.dst = (host,p)))
      (l := s.buffered)).countP_le (p := toUe)
    omega
  · -- the answer waits at port 8000, and the UE has not received it
    refine countP_toUe_zero ?_
    intro d hd hue
    obtain ⟨hd,hdst⟩ := List.mem_filter.mp hd
    have hdst := of_decide_eq_true hdst
    have hwire := h.holds.wire d (h.conserved.mem_sent (.inr (.inl hd)))
    obtain ⟨_,hport⟩ := hwire.host_ue hue
    rw [hport] at hdst
    obtain ⟨rfl,rfl⟩ := Prod.mk.inj hdst
    have hist : UeState.Hist (s.procs .ue) (own .ue s.log) := h.holds.hist .ue
    obtain ⟨hnotes,heph⟩ := hist
    have hnext : UeState.next (s.procs .ue) = .close 8000 a := hprog
    generalize (s.procs .ue : UeState) = b at hnotes heph hnext
    cases b with
    | registering port =>
      obtain ⟨rfl,_⟩ := Udp.Action.close.inj hnext
      have hephemeral := heph 8000 rfl
      simp [ephemeral] at hephemeral
    | configured =>
      -- it has, so the one datagram is not waiting
      have hreceived : Note.received "10.0.0.5" .amf ∈ (own .ue s.log).map note := by
        rw [hnotes]
        simp [UeState.notes]
      obtain ⟨e,he,hnote⟩ := List.mem_map.mp hreceived
      cases e with
      | sent d' => simp [note] at hnote
      | received d' =>
        obtain ⟨hlog,hhost⟩ := mem_own.mp he
        have hpos : 0 < s.received.countP toUe :=
          List.countP_pos_iff.mpr ⟨d',State.mem_received_iff.mpr hlog,decide_eq_true hhost⟩
        have hsent := sent_toUe_count h.holds
        have hcount := h.conserved toUe
        split at hsent <;> omega
    | _ => simp [UeState.next] at hnext

theorem OnTheWay.act {s : Emulation} (h : OnTheWay s) {l : Label Host} (hloss : NoLoss s l)
    (hbound : UeBound s l) : OnTheWay (net.act s l) := by
  refine ⟨contract_valid.act h.holds h.conserved l,h.conserved.act l,?_⟩
  have hdropped := h.dropped
  refine net.act_keeps (I := fun s => s.dropped.countP toUe = 0) hdropped ?_
  intro s' hm
  cases hm with
  | close hprog =>
    rw [List.countP_append,h.closed hprog,hdropped]
  | @drop _ i d hi hl =>
    have hnot : d.dst.1 ≠ .ue := by
      intro hue
      obtain ⟨rfl,hunbound⟩ | rfl := hl
      · exact hunbound (hbound d hi hue)
      · exact hloss d hi (hbound d hi hue)
    simp [Udp.Net.drop,toUe,hnot,hdropped]
  | _ => exact hdropped

theorem OnTheWay.drop_stuck {s : Emulation} (h : OnTheWay s) {i : Nat}
    {d : Datagram Host String} (hi : s.inFlight[i]? = some d) (hue : d.dst.1 = .ue) :
    Stuck (Udp.Net.drop s i d) := by
  have hflight := (eraseIdx_perm hi).countP_eq toUe
  have htoUe : toUe d = true := decide_eq_true hue
  rw [List.countP_cons,if_pos htoUe] at hflight
  have hsent := sent_toUe_count h.holds
  have hcount := h.conserved toUe
  cases hamf : AmfState.finished (s.procs .amf) with
  | false =>
    simp only [hamf,if_false,Bool.false_eq_true] at hsent
    omega
  | true =>
    simp only [hamf,if_true] at hsent
    have hgnb := gnb_finished h.holds h.conserved hamf
    refine ⟨hgnb,hamf,?_,?_,?_⟩
    · show (s.inFlight.eraseIdx i).countP toUe = 0
      omega
    · show s.buffered.countP toUe = 0
      omega
    · show s.received.countP toUe = 0
      omega

theorem OnTheWay.act_not_stuck_iff {s : Emulation} (h : OnTheWay s) {l : Label Host}
    (hloss : NoLoss s l) : ¬ Stuck (net.act s l) ↔ UeBound s l := by
  constructor
  · intro hstuck d htaken hue
    by_contra hunbound
    apply hstuck
    cases l with
    | run host port => exact nomatch htaken
    | deliver i =>
      have hi : s.inFlight[i]? = some d := htaken
      have hact : net.act s (.deliver i) = Udp.Net.drop s i d := by
        simp [Udp.Net.act,Udp.Net.step,hi,hunbound]
      rw [hact]
      exact h.drop_stuck hi hue
    | lose i =>
      have hi : s.inFlight[i]? = some d := htaken
      have hact : net.act s (.lose i) = Udp.Net.drop s i d := by
        simp [Udp.Net.act,Udp.Net.step,hi]
      rw [hact]
      exact h.drop_stuck hi hue
  · intro hbound
    exact (h.act hloss hbound).not_stuck

theorem init_onTheWay : OnTheWay net.init where
  holds := ⟨fun _ hd => (nomatch hd),contract_valid.start⟩
  conserved := fun _ => rfl
  dropped := rfl

/-- Without losses the attach is never stuck exactly when every datagram for the UE
arrives after the UE has bound its port. -/
theorem never_stuck_iff_bound (labels : List (Label Host))
    (hloss : EveryCall net.serve NoLoss net.init labels) :
    (¬ Stuck net.init ∧ EveryCall net.serve (fun s l => ¬ Stuck (net.act s l)) net.init labels) ↔
      EveryCall net.serve UeBound net.init labels := by
  have hruns := everyCall_congr net.serve (I := OnTheWay)
    (P := fun s l => NoLoss s l ∧ UeBound s l)
    (Q := fun s l => NoLoss s l ∧ ¬ Stuck (net.act s l))
    (fun s l hs => and_congr_right (fun hl => hs.act_not_stuck_iff hl))
    (fun s l hs hl => hs.act hl.1 hl.2) init_onTheWay labels
  rw [everyCall_and,everyCall_and,and_iff_right hloss,and_iff_right hloss] at hruns
  rw [and_iff_right init_onTheWay.not_stuck]
  exact hruns

def smoothAttach : List (Label Host) :=
  quickAttach ++ [.run .ue 0,.run .ue 0,.deliver 3,.run .ue 0]

theorem never_stuck_iff_bound_smooth :
    EveryCall net.serve UeBound net.init smoothAttach ∧ ¬ Stuck net.init ∧
    EveryCall net.serve (fun s l => ¬ Stuck (net.act s l)) net.init smoothAttach :=
  ⟨by decide +kernel,
   (never_stuck_iff_bound smoothAttach (by decide +kernel)).mpr (by decide +kernel)⟩

/-- The answer overtakes the UE, which has sent its request and not yet bound the
port: the datagram is dropped. -/
theorem attach_gets_stuck :
    ¬ ∀ labels : List (Label Host),
      EveryCall net.serve (fun s l => NoLoss s l ∧ UeStartsLast s l) net.init labels →
      ¬ Stuck (after net.serve net.init labels) := by
  intro h
  refine h (quickAttach ++ [.deliver 3]) ?_ ?_
  · decide +kernel
  · decide +kernel

end GrpKeySec.Attach
