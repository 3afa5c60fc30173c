import GrpKeySec.AttachRace
import GrpKeySec.UdpProgress
set_option autoImplicit false

/-!
How an attach ends. Whatever is lost or overtaken, every schedule comes to an end after 43
steps at most, and at the end the UE has its address exactly if none of the three datagrams
on the way from the UE to the gNB, to the AMF and back was dropped.
-/

namespace GrpKeySec.Attach
open Udp Serial

instance : Fintype Host where
  elems := {.ue,.gnb,.amf,.ausf,.udm,.upf}
  complete := by
    intro h
    cases h <;> decide

def UeState.rank : UeState → Nat
  | .start => 8
  | .registering _ => 6
  | .registered => 5
  | .waiting => 4
  | .attached _ => 3
  | .configured => 2
  | .testing => 1
  | .done => 0

def GnbState.rank : GnbState → Nat
  | .start => 7
  | .listening => 6
  | .received _ => 5
  | .forwarding _ => 4
  | .forwarded _ => 2
  | .setupGtp => 1
  | .done => 0

def AmfState.rank : AmfState → Nat
  | .start => 25
  | .listening => 24
  | .received => 23
  | .requesting .authWithAusf => 22
  | .requested .authWithAusf _ => 17
  | .requesting .getProfileFromUdm => 16
  | .requested .getProfileFromUdm _ => 11
  | .requesting .requestIpFromUpf => 10
  | .requested .requestIpFromUpf _ => 4
  | .requesting .sendIpToUe => 3
  | .requested .sendIpToUe _ => 1
  | .done => 0

def ServerState.rank : ServerState → Nat
  | .start => 1
  | .serving => 0
  | .replying _ => 2

def UpfState.rank : UpfState → Nat
  | .start => 1
  | .serving => 0
  | .allocating _ => 3
  | .replying _ => 2

def rank : (h : Host) → HostState h → Nat
  | .ue => UeState.rank
  | .gnb => GnbState.rank
  | .amf => AmfState.rank
  | .ausf => ServerState.rank
  | .udm => ServerState.rank
  | .upf => UpfState.rank

/-- The steps that a datagram causes once it has arrived: its receipt by a server, the
server's answer and the end of that answer's way. The others only move on. -/
def price (d : Datagram Host String) : Nat :=
  match d.dst.1 with
  | .ausf => 3
  | .udm => 3
  | .upf => 4
  | _ => 0

theorem Client.price {addr src : Host × Nat} (h : Client addr) (data : String) :
    Attach.price ⟨src,addr,data⟩ = 0 := by
  simp [Attach.price,h.1]

theorem UeState.spends (a : UeState) : a.next.Spends Wire .ue UeState.rank price a.rank := by
  cases a <;> simp [UeState.next,Action.Spends,UeState.rank,price]
  exact fun _ _ _ => Nat.lt_add_right _ (by omega)

theorem GnbState.spends (a : GnbState) : a.next.Spends Wire .gnb GnbState.rank price a.rank := by
  cases a <;> simp [GnbState.next,Action.Spends,GnbState.rank,price]
  exact fun _ _ _ => Nat.lt_add_right _ (by omega)

theorem AmfState.spends (a : AmfState) : a.next.Spends Wire .amf AmfState.rank price a.rank := by
  cases a with
  | requesting r => cases r <;> simp [AmfState.next,Action.Spends,AmfState.rank,price,Request.dst]
  | requested r port => cases r <;> simp [AmfState.next,Action.Spends,AmfState.rank,Request.after]
  | listening =>
    intro d _ _
    exact Nat.lt_add_right _ (Nat.lt_succ_self 23)
  | _ => simp [AmfState.next,Action.Spends,AmfState.rank]

theorem ServerState.spends {h : Host} (hprice : ∀ d : Datagram Host String, d.dst.1 = h → price d = 3)
    (port : Nat) (reply : String) {a : ServerState} (es : List (Udp.Event Host String))
    (ha : a.Hist es) :
    (a.next port reply).Spends Wire h ServerState.rank price a.rank := by
  cases a with
  | start => exact Nat.zero_lt_one
  | serving =>
    intro d _ hdst
    rw [hprice d (congrArg Prod.fst hdst)]
    exact Nat.lt_succ_self 2
  | replying addr =>
    show 0 + (price _ + 1) < 2
    rw [(ha addr rfl).price]
    exact Nat.lt_succ_self 1

theorem UpfState.spends {a : UpfState} (es : List (Udp.Event Host String)) (ha : a.Hist es) :
    a.next.Spends Wire .upf UpfState.rank price a.rank := by
  cases a with
  | start => exact Nat.zero_lt_one
  | serving =>
    intro d _ hdst
    have hprice : price d = 4 := by simp [price,hdst]
    rw [hprice]
    by_cases hdata : d.data = "ALLOC_IP" <;> simp [hdata,UpfState.rank]
  | allocating addr => exact Nat.lt_succ_self 2
  | replying addr =>
    show 0 + (price _ + 1) < 2
    rw [(ha addr (.inr rfl)).price]
    exact Nat.lt_succ_self 1

theorem ranked : net.Ranked contract rank price := by
  intro h a es ha
  cases h with
  | ue => exact UeState.spends a
  | gnb => exact GnbState.spends a
  | amf => exact AmfState.spends a
  | ausf => exact ServerState.spends (fun d hd => by simp [price,hd]) _ _ es ha
  | udm => exact ServerState.spends (fun d hd => by simp [price,hd]) _ _ es ha
  | upf => exact UpfState.spends es ha

theorem init_holds : contract.Holds net.init := ⟨fun _ hd => (nomatch hd),contract_valid.start⟩

/-- No schedule takes more than 43 steps, and any schedule can be gone on with until
nothing can move any more. -/
theorem attach_ends (labels : List (Label Host)) :
    net.stepsTaken net.init labels ≤ 43 ∧
      ∃ more, net.Quiescent (after net.serve net.init (labels ++ more)) := by
  constructor
  · have hsteps := Udp.Net.stepsTaken_le contract_valid ranked init_holds (fun _ => rfl) labels
    have hinit : State.potential rank price net.init = 43 := by decide
    omega
  · obtain ⟨more,hmore⟩ := Udp.Net.exists_quiescent contract_valid ranked (contract_valid.holds labels)
      (net.conserved labels)
    exact ⟨more,by rwa [after_append]⟩

def UeState.ports : UeState → List Nat
  | .registering port => [port]
  | .waiting | .attached _ | .configured => [8000]
  | .start | .registered | .testing | .done => []

def GnbState.ports : GnbState → List Nat
  | .listening | .received _ => [9000]
  | .forwarded port => [port]
  | .start | .forwarding _ | .setupGtp | .done => []

def AmfState.ports : AmfState → List Nat
  | .listening | .received => [9001]
  | .requested _ port => [port]
  | .start | .requesting _ | .done => []

def ServerState.ports (port : Nat) : ServerState → List Nat
  | .start => []
  | .serving | .replying _ => [port]

def UpfState.ports : UpfState → List Nat
  | .start => []
  | .serving | .allocating _ | .replying _ => [9004]

def ports : (h : Host) → HostState h → List Nat
  | .ue => UeState.ports
  | .gnb => GnbState.ports
  | .amf => AmfState.ports
  | .ausf => ServerState.ports 9002
  | .udm => ServerState.ports 9003
  | .upf => UpfState.ports

theorem ServerState.opens (port : Nat) (reply : String) (a : ServerState) :
    (a.next port reply).Opens (ServerState.ports port) (a.ports port) := by
  cases a <;> simp [ServerState.next,Action.Opens,ServerState.ports]

theorem UpfState.opens (a : UpfState) : a.next.Opens UpfState.ports a.ports := by
  cases a with
  | serving =>
    intro data src
    by_cases hdata : data = "ALLOC_IP" <;> simp [hdata,UpfState.ports]
  | _ => simp [UpfState.next,Action.Opens,UpfState.ports]

theorem holdsPorts : net.HoldsPorts ports where
  start := by
    intro h
    cases h <;> rfl
  opens := by
    intro h a
    cases h with
    | ue =>
      show (UeState.next a).Opens UeState.ports (UeState.ports a)
      cases a <;> simp [UeState.next,Action.Opens,UeState.ports]
    | gnb =>
      show (GnbState.next a).Opens GnbState.ports (GnbState.ports a)
      cases a <;> simp [GnbState.next,Action.Opens,GnbState.ports]
    | amf =>
      show (AmfState.next a).Opens AmfState.ports (AmfState.ports a)
      cases a with
      | requested r port => cases r <;> simp [AmfState.next,Action.Opens,AmfState.ports,Request.after]
      | _ => simp [AmfState.next,Action.Opens,AmfState.ports]
    | ausf => exact ServerState.opens 9002 "AUTH_OK" a
    | udm => exact ServerState.opens 9003 "USER_PROFILE_OK" a
    | upf => exact UpfState.opens a

theorem room (h : Host) (a : HostState h) (data : String) (dst : Host × Nat)
    (k : Nat → HostState h) (hprog : net.program h a = .sendFresh data dst k) :
    ∃ p, net.ephemeral p = true ∧ p ∉ ports h a := by
  refine ⟨32768,by decide,?_⟩
  have hnone : ports h a = [] := by
    cases h with
    | ue =>
      have hnext : UeState.next a = .sendFresh data dst k := hprog
      cases a <;> simp [UeState.next] at hnext
      rfl
    | gnb =>
      have hnext : GnbState.next a = .sendFresh data dst k := hprog
      cases a <;> simp [GnbState.next] at hnext
      rfl
    | amf =>
      have hnext : AmfState.next a = .sendFresh data dst k := hprog
      cases a <;> simp [AmfState.next] at hnext
      rfl
    | ausf =>
      have hnext : ServerState.next 9002 "AUTH_OK" a = .sendFresh data dst k := hprog
      cases a <;> simp [ServerState.next] at hnext
    | udm =>
      have hnext : ServerState.next 9003 "USER_PROFILE_OK" a = .sendFresh data dst k := hprog
      cases a <;> simp [ServerState.next] at hnext
    | upf =>
      have hnext : UpfState.next a = .sendFresh data dst k := hprog
      cases a <;> simp [UpfState.next] at hnext
  simp [hnone]

structure Ended (s : Emulation) : Prop where
  holds : contract.Holds s
  conserved : s.Conserved
  bound : s.BoundBy ports
  quiescent : net.Quiescent s

def Waiting (s : Emulation) (h : Host) (port : Nat) : Prop := ∀ d ∈ s.buffered, d.dst ≠ (h,port)

namespace Ended

variable {s : Emulation}

theorem ue (h : Ended s) : s.procs .ue = UeState.done ∨
    s.procs .ue = UeState.waiting ∧ Waiting s .ue 8000 := by
  have hb := h.quiescent.blocked holdsPorts h.bound room .ue
  have hprog : net.program .ue (s.procs .ue) = UeState.next (s.procs .ue) := rfl
  rw [hprog] at hb
  generalize (s.procs .ue : UeState) = a at hb
  cases a <;> simp [UeState.next] at hb ⊢
  exact hb

theorem gnb (h : Ended s) : s.procs .gnb = GnbState.done ∨
    s.procs .gnb = GnbState.listening ∧ Waiting s .gnb 9000 := by
  have hb := h.quiescent.blocked holdsPorts h.bound room .gnb
  have hprog : net.program .gnb (s.procs .gnb) = GnbState.next (s.procs .gnb) := rfl
  rw [hprog] at hb
  generalize (s.procs .gnb : GnbState) = a at hb
  cases a <;> simp [GnbState.next] at hb ⊢
  exact hb

theorem amf (h : Ended s) : s.procs .amf = AmfState.done ∨
    s.procs .amf = AmfState.listening ∧ Waiting s .amf 9001 := by
  have hb := h.quiescent.blocked holdsPorts h.bound room .amf
  have hprog : net.program .amf (s.procs .amf) = AmfState.next (s.procs .amf) := rfl
  rw [hprog] at hb
  generalize (s.procs .amf : AmfState) = a at hb
  cases a <;> simp [AmfState.next] at hb ⊢
  exact hb

theorem dropped_of_waiting (h : Ended s) {d : Datagram Host String} (hd : d ∈ s.sent)
    (hwaiting : Waiting s d.dst.1 d.dst.2) (hnone : ∀ d' ∈ s.received, d'.dst.1 ≠ d.dst.1) :
    ∃ d' ∈ s.dropped, d'.dst = d.dst := by
  have hcount := h.conserved (fun d' => decide (d'.dst = d.dst))
  have hsent : 0 < s.sent.countP (fun d' => decide (d'.dst = d.dst)) :=
    List.countP_pos_iff.mpr ⟨d,hd,by simp⟩
  have hbuffered : s.buffered.countP (fun d' => decide (d'.dst = d.dst)) = 0 :=
    List.countP_eq_zero.mpr (fun d' hd' => by simpa using hwaiting d' hd')
  have hreceived : s.received.countP (fun d' => decide (d'.dst = d.dst)) = 0 :=
    List.countP_eq_zero.mpr (fun d' hd' => by
      simpa using fun heq => hnone d' hd' (congrArg Prod.fst heq))
  rw [h.quiescent.inFlight,List.countP_nil] at hcount
  have hdropped : 0 < s.dropped.countP (fun d' => decide (d'.dst = d.dst)) := by omega
  obtain ⟨d',hd',heq⟩ := List.countP_pos_iff.mp hdropped
  exact ⟨d',hd',of_decide_eq_true heq⟩

theorem not_dropped_of_received (h : Ended s) {d : Datagram Host String} (hd : d ∈ s.received)
    (hone : s.sent.countP (fun d' => decide (d'.dst = d.dst)) ≤ 1) :
    ∀ d' ∈ s.dropped, d'.dst ≠ d.dst := by
  have hcount := h.conserved (fun d' => decide (d'.dst = d.dst))
  have hreceived : 0 < s.received.countP (fun d' => decide (d'.dst = d.dst)) :=
    List.countP_pos_iff.mpr ⟨d,hd,by simp⟩
  have hdropped : s.dropped.countP (fun d' => decide (d'.dst = d.dst)) = 0 := by omega
  intro d' hd'
  simpa using List.countP_eq_zero.mp hdropped d' hd'

end Ended

theorem sent_of_note {s : Emulation} {h : Host} (data : String) {t : Host × Nat}
    (hn : Note.sent data t ∈ (own h s.log).map note) : ∃ d ∈ s.sent, d.dst = t := by
  obtain ⟨e,he,hnote⟩ := List.mem_map.mp hn
  cases e with
  | received d => exact nomatch hnote
  | sent d => exact ⟨d,State.mem_sent_iff.mpr (mem_own.mp he).1,(Note.sent.inj hnote).2⟩

theorem received_of_note {s : Emulation} {h src : Host} (data : String)
    (hn : Note.received data src ∈ (own h s.log).map note) :
    ∃ d ∈ s.received, d.dst.1 = h ∧ d.src.1 = src := by
  obtain ⟨e,he,hnote⟩ := List.mem_map.mp hn
  cases e with
  | sent d => exact nomatch hnote
  | received d =>
    obtain ⟨hlog,hhost⟩ := mem_own.mp he
    exact ⟨d,State.mem_received_iff.mpr hlog,hhost,(Note.received.inj hnote).2⟩

theorem none_received {s : Emulation} {h : Host}
    (hn : ∀ data src, Note.received data src ∉ (own h s.log).map note) :
    ∀ d ∈ s.received, d.dst.1 ≠ h := by
  intro d hd hhost
  exact hn d.data d.src.1
    (List.mem_map_of_mem (mem_own.mpr ⟨State.mem_received_iff.mp hd,hhost⟩))

theorem Wire.port_gnb {d : Datagram Host String} (h : Wire d) (hdst : d.dst.1 = .gnb) :
    d.dst = (.gnb,9000) := by
  cases h with
  | registration hp => rfl
  | forwarded hp => simp at hdst
  | request hp r => cases r <;> simp [Request.dst] at hdst
  | reply hp hsrc => simp at hdst

theorem Wire.port_amf {d : Datagram Host String} (h : Wire d) (hdst : d.dst.1 = .amf)
    (hsrc : d.src.1 = .gnb) : d.dst = (.amf,9001) := by
  cases h with
  | registration hp => simp at hdst
  | forwarded hp => rfl
  | request hp r => simp at hsrc
  | reply hp hs =>
    rw [hsrc] at hs
    simp at hs

def OnPath (t : Host × Nat) : Prop := t = (.gnb,9000) ∨ t = (.amf,9001) ∨ t = (.ue,8000)

instance (t : Host × Nat) : Decidable (OnPath t) := inferInstanceAs (Decidable (_ ∨ _))

namespace Ended

variable {s : Emulation}

theorem ue_notes (h : Ended s) : (own .ue s.log).map note = UeState.notes (s.procs .ue) :=
  (h.holds.hist .ue).1

theorem gnb_notes (h : Ended s) : (own .gnb s.log).map note = GnbState.notes (s.procs .gnb) :=
  (h.holds.hist .gnb).1

theorem amf_notes (h : Ended s) : (own .amf s.log).map note = AmfState.notes (s.procs .amf) :=
  h.holds.hist .amf

theorem wire (h : Ended s) {d : Datagram Host String} (hd : d ∈ s.received) : Wire d :=
  h.holds.wire d (h.conserved.mem_sent (.inr (.inr (.inl hd))))

theorem registration_sent (h : Ended s) : ∃ d ∈ s.sent, d.dst = (.gnb,9000) := by
  refine sent_of_note (h := .ue) "UE_REG_REQUEST" ?_
  rw [h.ue_notes]
  rcases h.ue with hue | ⟨hue,_⟩ <;> rw [hue] <;> simp [UeState.notes]

theorem ue_done (h : Ended s) (hpath : ∀ d ∈ s.dropped, ¬ OnPath d.dst) :
    s.procs .ue = UeState.done := by
  have hgnb : s.procs .gnb = GnbState.done := by
    refine h.gnb.resolve_right ?_
    rintro ⟨hstate,hwaiting⟩
    obtain ⟨d,hd,hdst⟩ := h.registration_sent
    have hnone := none_received (s := s) (h := .gnb) (by
      rw [h.gnb_notes,hstate]
      simp [GnbState.notes])
    obtain ⟨d',hd',heq⟩ := h.dropped_of_waiting hd (by rw [hdst]; exact hwaiting)
      (by rw [hdst]; exact hnone)
    exact hpath d' hd' (.inl (heq.trans hdst))
  have hamf : s.procs .amf = AmfState.done := by
    refine h.amf.resolve_right ?_
    rintro ⟨hstate,hwaiting⟩
    obtain ⟨d,hd,hdst⟩ : ∃ d ∈ s.sent, d.dst = (.amf,9001) :=
      sent_of_note (h := .gnb) "UE_REG_REQUEST"
        (by rw [h.gnb_notes,hgnb]; simp [GnbState.notes])
    have hnone := none_received (s := s) (h := .amf) (by
      rw [h.amf_notes,hstate]
      simp [AmfState.notes])
    obtain ⟨d',hd',heq⟩ := h.dropped_of_waiting hd (by rw [hdst]; exact hwaiting)
      (by rw [hdst]; exact hnone)
    exact hpath d' hd' (.inr (.inl (heq.trans hdst)))
  refine h.ue.resolve_right ?_
  rintro ⟨hstate,hwaiting⟩
  obtain ⟨d,hd,hdst⟩ : ∃ d ∈ s.sent, d.dst = (.ue,8000) :=
    sent_of_note (h := .amf) "10.0.0.5"
      (by rw [h.amf_notes,hamf]; simp [AmfState.notes,Request.note,Request.data,Request.dst])
  have hnone := none_received (s := s) (h := .ue) (by
    rw [h.ue_notes,hstate]
    simp [UeState.notes])
  obtain ⟨d',hd',heq⟩ := h.dropped_of_waiting hd (by rw [hdst]; exact hwaiting)
    (by rw [hdst]; exact hnone)
  exact hpath d' hd' (.inr (.inr (heq.trans hdst)))

theorem sent_once (h : Ended s) {t : Host × Nat} (ht : OnPath t) :
    s.sent.countP (fun d => decide (d.dst = t)) ≤ 1 := by
  rw [State.sent]
  rcases ht with rfl | rfl | rfl
  · rw [sent_to .ue (fun dst => decide (dst = (.gnb,9000))) (fun d hd hdst =>
      ((h.holds.wire d hd).to_gnb (of_decide_eq_true hdst)).1),h.ue_notes]
    generalize (s.procs .ue : UeState) = a
    cases a <;> simp [UeState.notes,Note.to]
  · rw [sent_to .gnb (fun dst => decide (dst = (.amf,9001))) (fun d hd hdst =>
      ((h.holds.wire d hd).to_amf (of_decide_eq_true hdst)).1),h.gnb_notes]
    generalize (s.procs .gnb : GnbState) = a
    cases a <;> simp [GnbState.notes,Note.to]
  · rw [sent_to .amf (fun dst => decide (dst = (.ue,8000))) (fun d hd hdst =>
      ((h.holds.wire d hd).to_ue (of_decide_eq_true hdst)).1),h.amf_notes]
    rcases h.amf with hamf | ⟨hamf,_⟩ <;> rw [hamf] <;> decide

theorem sent_note (h : Ended s) {d : Datagram Host String} (hd : d ∈ s.received) {src : Host}
    (hsrc : d.src.1 = src) : note (.sent d) ∈ (own src s.log).map note :=
  List.mem_map_of_mem (mem_own.mpr ⟨h.conserved.mem_sent (.inr (.inr (.inl hd))),hsrc⟩)

theorem path_received (h : Ended s) (hue : s.procs .ue = UeState.done) {t : Host × Nat}
    (ht : OnPath t) : ∃ d ∈ s.received, d.dst = t := by
  obtain ⟨d,hd,hdst,hsrc⟩ : ∃ d ∈ s.received, d.dst.1 = .ue ∧ d.src.1 = .amf :=
    received_of_note "10.0.0.5" (by rw [h.ue_notes,hue]; simp [UeState.notes])
  have hamf : s.procs .amf = AmfState.done := by
    refine h.amf.resolve_right ?_
    rintro ⟨hstate,_⟩
    have hnote := h.sent_note hd hsrc
    rw [h.amf_notes,hstate] at hnote
    simp [AmfState.notes] at hnote
  obtain ⟨d',hd',hdst',hsrc'⟩ : ∃ d ∈ s.received, d.dst.1 = .amf ∧ d.src.1 = .gnb :=
    received_of_note "UE_REG_REQUEST"
      (by rw [h.amf_notes,hamf]; simp [AmfState.notes,Request.before])
  have hgnb : s.procs .gnb = GnbState.done := by
    refine h.gnb.resolve_right ?_
    rintro ⟨hstate,_⟩
    have hnote := h.sent_note hd' hsrc'
    rw [h.gnb_notes,hstate] at hnote
    simp [GnbState.notes] at hnote
  rcases ht with rfl | rfl | rfl
  · obtain ⟨d'',hd'',hdst'',_⟩ : ∃ d ∈ s.received, d.dst.1 = .gnb ∧ d.src.1 = .ue :=
      received_of_note "UE_REG_REQUEST" (by rw [h.gnb_notes,hgnb]; simp [GnbState.notes])
    exact ⟨d'',hd'',(h.wire hd'').port_gnb hdst''⟩
  · exact ⟨d',hd',(h.wire hd').port_amf hdst' hsrc'⟩
  · exact ⟨d,hd,((h.wire hd).host_ue hdst).2⟩

end Ended

/-- At the end of any schedule, one after which nothing can move, the UE has configured its
address exactly if none of the three datagrams of its attach was dropped. What became of the
requests to AUSF, UDM and UPF and of their answers does not matter. -/
theorem attached_iff_path_clear (labels : List (Label Host))
    (hq : net.Quiescent (after net.serve net.init labels)) :
    (after net.serve net.init labels).procs .ue = UeState.done ↔
      ∀ d ∈ (after net.serve net.init labels).dropped, ¬ OnPath d.dst := by
  have h : Ended (after net.serve net.init labels) :=
    ⟨contract_valid.holds labels,net.conserved labels,holdsPorts.boundBy labels,hq⟩
  constructor
  · intro hue d hd ht
    obtain ⟨d',hd',hdst⟩ := h.path_received hue ht
    exact h.not_dropped_of_received hd' (hdst ▸ h.sent_once ht) d hd hdst.symm
  · exact h.ue_done

/-- All three servers are down, which costs them their datagrams and the UE nothing. -/
def attachWithoutServers : List (Label Host) :=
  quickAttach ++ [.run .amf 0,.run .gnb 0,.run .gnb 0,.run .ue 0,.run .ue 0,.deliver 3,.deliver 0,
    .deliver 0,.deliver 0,.run .ue 0,.run .ue 0,.run .ue 0,.run .ue 0,.run .ausf 0,.run .udm 0,
    .run .upf 0]

theorem attached_iff_path_clear_servers_down :
    net.Quiescent (after net.serve net.init attachWithoutServers) ∧
    (after net.serve net.init attachWithoutServers).dropped.length = 3 ∧
    ((after net.serve net.init attachWithoutServers).procs .ue = UeState.done ↔
      ∀ d ∈ (after net.serve net.init attachWithoutServers).dropped, ¬ OnPath d.dst) := by
  have hq : net.Quiescent (after net.serve net.init attachWithoutServers) :=
    Udp.Net.quiescent_of_waits (by decide +kernel) (by decide +kernel)
  exact ⟨hq,by decide +kernel,attached_iff_path_clear attachWithoutServers hq⟩

end GrpKeySec.Attach
