import GrpKeySec.UdpNet
set_option autoImplicit false

/-!
The attach of the 5G emulation: six scripts, each in a container of its own, that
send UDP datagrams to fixed addresses. A script's state is the statement it has
reached with the variables that are still in use. A socket that is a local of a
function is closed when the function returns. Logging is left out, and what the
scripts do to their hosts (`ip`, `iptables`, `ping`) only takes a step.
-/

namespace GrpKeySec.Attach
open Udp

/-- The hosts with the addresses of docker-compose.yml: ue 10.0.0.5, gnb 10.0.0.10,
amf 192.168.0.2, ausf 192.168.0.3, udm 192.168.0.4, upf 192.168.0.5. -/
inductive Host where
  | ue
  | gnb
  | amf
  | ausf
  | udm
  | upf
  deriving DecidableEq, Repr

inductive UeState where
  | start
  | registering (port : Nat)
  | registered
  | waiting
  | attached (ip : String)
  | configured
  | testing
  | done
  deriving DecidableEq, Repr

def UeState.next : UeState → Udp.Action Host String UeState
  | .start => .sendFresh "UE_REG_REQUEST" (.gnb,9000) .registering
  | .registering port => .close port .registered
  -- the port of the answer is bound only now, after the request has left
  | .registered => .bind 8000 .waiting
  | .waiting => .recvfrom 8000 (fun data _ => .attached data)
  | .attached _ => .compute .configured
  | .configured => .close 8000 .testing
  | .testing => .compute .done
  | .done => .exit

inductive GnbState where
  | start
  | listening
  | received (data : String)
  | forwarding (data : String)
  | forwarded (port : Nat)
  | setupGtp
  | done
  deriving DecidableEq, Repr

def GnbState.next : GnbState → Udp.Action Host String GnbState
  | .start => .bind 9000 .listening
  | .listening => .recvfrom 9000 (fun data _ => .received data)
  | .received data => .close 9000 (.forwarding data)
  | .forwarding data => .sendFresh data (.amf,9001) .forwarded
  | .forwarded port => .close port .setupGtp
  | .setupGtp => .compute .done
  | .done => .exit

/-- The four functions of amf.py that send one datagram from a new socket. -/
inductive Request where
  | authWithAusf
  | getProfileFromUdm
  | requestIpFromUpf
  | sendIpToUe
  deriving DecidableEq, Repr

def Request.data : Request → String
  | .authWithAusf => "AUTH_REQ"
  | .getProfileFromUdm => "GET_PROFILE"
  | .requestIpFromUpf => "ALLOC_IP"
  | .sendIpToUe => "10.0.0.5"

def Request.dst : Request → Host × Nat
  | .authWithAusf => (.ausf,9002)
  | .getProfileFromUdm => (.udm,9003)
  | .requestIpFromUpf => (.upf,9004)
  | .sendIpToUe => (.ue,8000)

inductive AmfState where
  | start
  | listening
  | received
  | requesting (r : Request)
  | requested (r : Request) (port : Nat)
  | done
  deriving DecidableEq, Repr

def Request.after : Request → AmfState
  | .authWithAusf => .requesting .getProfileFromUdm
  | .getProfileFromUdm => .requesting .requestIpFromUpf
  | .requestIpFromUpf => .requesting .sendIpToUe
  | .sendIpToUe => .done

def AmfState.next : AmfState → Udp.Action Host String AmfState
  | .start => .bind 9001 .listening
  | .listening => .recvfrom 9001 (fun _ _ => .received)
  | .received => .close 9001 (.requesting .authWithAusf)
  | .requesting r => .sendFresh r.data r.dst (.requested r)
  | .requested r port => .close port r.after
  | .done => .exit

/-- ausf.py and udm.py answer whatever they get. -/
inductive ServerState where
  | start
  | serving
  | replying (addr : Host × Nat)
  deriving DecidableEq, Repr

def ServerState.next (port : Nat) (reply : String) : ServerState → Udp.Action Host String ServerState
  | .start => .bind port .serving
  | .serving => .recvfrom port (fun _ addr => .replying addr)
  | .replying addr => .sendto port reply addr .serving

def ausf : ServerState → Udp.Action Host String ServerState := ServerState.next 9002 "AUTH_OK"

def udm : ServerState → Udp.Action Host String ServerState := ServerState.next 9003 "USER_PROFILE_OK"

inductive UpfState where
  | start
  | serving
  | allocating (addr : Host × Nat)
  | replying (addr : Host × Nat)
  deriving DecidableEq, Repr

def UpfState.next : UpfState → Udp.Action Host String UpfState
  | .start => .bind 9004 .serving
  | .serving => .recvfrom 9004 (fun data addr => if data = "ALLOC_IP" then .allocating addr else .serving)
  | .allocating addr => .compute (.replying addr)
  | .replying addr => .sendto 9004 "IP_ALLOC_OK" addr .serving

abbrev HostState : Host → Type
  | .ue => UeState
  | .gnb => GnbState
  | .amf => AmfState
  | .ausf => ServerState
  | .udm => ServerState
  | .upf => UpfState

def start : (h : Host) → HostState h
  | .ue => UeState.start
  | .gnb => GnbState.start
  | .amf => AmfState.start
  | .ausf => ServerState.start
  | .udm => ServerState.start
  | .upf => UpfState.start

def program : (h : Host) → HostState h → Udp.Action Host String (HostState h)
  | .ue => UeState.next
  | .gnb => GnbState.next
  | .amf => AmfState.next
  | .ausf => ausf
  | .udm => udm
  | .upf => UpfState.next

/-- The range from which Linux gives a port to a socket that has none. -/
def ephemeral (port : Nat) : Bool := decide (32768 ≤ port ∧ port ≤ 60999)

def net : Udp.Net Host String HostState := ⟨start,program,ephemeral⟩

abbrev Emulation := State Host String HostState

inductive Wire : Datagram Host String → Prop where
  | registration {p : Nat} (hp : ephemeral p = true) :
      Wire ⟨(.ue,p),(.gnb,9000),"UE_REG_REQUEST"⟩
  | forwarded {p : Nat} (hp : ephemeral p = true) :
      Wire ⟨(.gnb,p),(.amf,9001),"UE_REG_REQUEST"⟩
  | request {p : Nat} (hp : ephemeral p = true) (r : Request) : Wire ⟨(.amf,p),r.dst,r.data⟩
  | reply {src : Host × Nat} {p : Nat} {data : String} (hp : ephemeral p = true)
      (hsrc : src.1 = .ausf ∨ src.1 = .udm ∨ src.1 = .upf) : Wire ⟨src,(.amf,p),data⟩

inductive Note where
  | sent (data : String) (dst : Host × Nat)
  | received (data : String) (src : Host)
  deriving DecidableEq, Repr

def note : Udp.Event Host String → Note
  | .sent d => .sent d.data d.dst
  | .received d => .received d.data d.src.1

def Request.note (r : Request) : Note := .sent r.data r.dst

-- The history of a script, newest event first, by the statement it has reached.

def UeState.notes : UeState → List Note
  | .start => []
  | .registering _ => [.sent "UE_REG_REQUEST" (.gnb,9000)]
  | .registered => [.sent "UE_REG_REQUEST" (.gnb,9000)]
  | .waiting => [.sent "UE_REG_REQUEST" (.gnb,9000)]
  | _ => [.received "10.0.0.5" .amf,.sent "UE_REG_REQUEST" (.gnb,9000)]

def GnbState.notes : GnbState → List Note
  | .start => []
  | .listening => []
  | .received _ => [.received "UE_REG_REQUEST" .ue]
  | .forwarding _ => [.received "UE_REG_REQUEST" .ue]
  | _ => [.sent "UE_REG_REQUEST" (.amf,9001),.received "UE_REG_REQUEST" .ue]

def Request.before : Request → List Note
  | .authWithAusf => [.received "UE_REG_REQUEST" .gnb]
  | .getProfileFromUdm => [Request.note .authWithAusf,.received "UE_REG_REQUEST" .gnb]
  | .requestIpFromUpf =>
      [Request.note .getProfileFromUdm,Request.note .authWithAusf,
       .received "UE_REG_REQUEST" .gnb]
  | .sendIpToUe =>
      [Request.note .requestIpFromUpf,Request.note .getProfileFromUdm,
       Request.note .authWithAusf,.received "UE_REG_REQUEST" .gnb]

def AmfState.notes : AmfState → List Note
  | .start => []
  | .listening => []
  | .received => [.received "UE_REG_REQUEST" .gnb]
  | .requesting r => r.before
  | .requested r _ => r.note :: r.before
  | .done => Request.note .sendIpToUe :: Request.before .sendIpToUe

def Client (addr : Host × Nat) : Prop := addr.1 = .amf ∧ ephemeral addr.2 = true

def UeState.Hist (a : UeState) (es : List (Udp.Event Host String)) : Prop :=
  es.map note = a.notes ∧ ∀ p,a = .registering p → ephemeral p = true

def GnbState.Hist (a : GnbState) (es : List (Udp.Event Host String)) : Prop :=
  es.map note = a.notes ∧
  ∀ data,a = .received data ∨ a = .forwarding data → data = "UE_REG_REQUEST"

def AmfState.Hist (a : AmfState) (es : List (Udp.Event Host String)) : Prop := es.map note = a.notes

def ServerState.Hist (a : ServerState) (_ : List (Udp.Event Host String)) : Prop :=
  ∀ addr,a = .replying addr → Client addr

def UpfState.Hist (a : UpfState) (_ : List (Udp.Event Host String)) : Prop :=
  ∀ addr,a = .allocating addr ∨ a = .replying addr → Client addr

def contract : Udp.Contract Host String HostState where
  Wire := Wire
  Hist
  | .ue => UeState.Hist
  | .gnb => GnbState.Hist
  | .amf => AmfState.Hist
  | .ausf => ServerState.Hist
  | .udm => ServerState.Hist
  | .upf => UpfState.Hist

theorem Wire.to_ue {d : Datagram Host String} (h : Wire d) (hdst : d.dst = (.ue,8000)) :
    d.src.1 = .amf ∧ d.data = "10.0.0.5" := by
  cases h with
  | registration hp => simp at hdst
  | forwarded hp => simp at hdst
  | request hp r => cases r <;> simp [Request.dst,Request.data] at hdst ⊢
  | reply hp hsrc => simp at hdst

theorem Wire.to_gnb {d : Datagram Host String} (h : Wire d) (hdst : d.dst = (.gnb,9000)) :
    d.src.1 = .ue ∧ d.data = "UE_REG_REQUEST" := by
  cases h with
  | registration hp => exact ⟨rfl,rfl⟩
  | forwarded hp => simp at hdst
  | request hp r => cases r <;> simp [Request.dst] at hdst
  | reply hp hsrc => simp at hdst

theorem Wire.to_amf {d : Datagram Host String} (h : Wire d) (hdst : d.dst = (.amf,9001)) :
    d.src.1 = .gnb ∧ d.data = "UE_REG_REQUEST" := by
  cases h with
  | registration hp => simp at hdst
  | forwarded hp => exact ⟨rfl,rfl⟩
  | request hp r => cases r <;> simp [Request.dst] at hdst
  | reply hp hsrc =>
    -- a reply goes back to the port its request came from
    obtain ⟨_,rfl⟩ := Prod.mk.inj hdst
    simp [ephemeral] at hp

theorem Wire.to_server {d : Datagram Host String} (h : Wire d)
    (hdst : d.dst.1 = .ausf ∨ d.dst.1 = .udm ∨ d.dst.1 = .upf) : Client d.src := by
  cases h with
  | registration hp => simp at hdst
  | forwarded hp => simp at hdst
  | request hp r => exact ⟨rfl,hp⟩
  | reply hp hsrc => simp at hdst

theorem Client.reply {addr src : Host × Nat} (h : Client addr) (data : String)
    (hsrc : src.1 = .ausf ∨ src.1 = .udm ∨ src.1 = .upf) : Wire ⟨src,addr,data⟩ := by
  obtain ⟨host,port⟩ := addr
  obtain ⟨rfl,hport⟩ := h
  exact .reply hport hsrc

theorem UeState.Hist.keeps {a : UeState} {es : List (Udp.Event Host String)} (ha : a.Hist es) :
    a.next.Keeps ephemeral Wire .ue UeState.Hist es := by
  obtain ⟨hnotes,hport⟩ := ha
  cases a with
  | start =>
    intro p hp
    refine ⟨.registration hp,?_,?_⟩
    · simp [note,hnotes,UeState.notes]
    · intro p' heq
      exact UeState.registering.inj heq ▸ hp
  | registering port => exact ⟨hnotes,nofun⟩
  | registered => exact ⟨hnotes,nofun⟩
  | waiting =>
    intro d hd hdst
    obtain ⟨hsrc,hdata⟩ := hd.to_ue hdst
    exact ⟨by simp [note,hnotes,hsrc,hdata,UeState.notes],nofun⟩
  | attached ip => exact ⟨hnotes,nofun⟩
  | configured => exact ⟨hnotes,nofun⟩
  | testing => exact ⟨hnotes,nofun⟩
  | done => trivial

theorem GnbState.Hist.keeps {a : GnbState} {es : List (Udp.Event Host String)} (ha : a.Hist es) :
    a.next.Keeps ephemeral Wire .gnb GnbState.Hist es := by
  obtain ⟨hnotes,hdata⟩ := ha
  cases a with
  | start => exact ⟨hnotes,nofun⟩
  | listening =>
    intro d hd hdst
    obtain ⟨hsrc,hreg⟩ := hd.to_gnb hdst
    refine ⟨by simp [note,hnotes,hsrc,hreg,GnbState.notes],?_⟩
    rintro data (heq | heq)
    · exact GnbState.received.inj heq ▸ hreg
    · exact nomatch heq
  | received data =>
    refine ⟨hnotes,?_⟩
    rintro data' (heq | heq)
    · exact nomatch heq
    · exact GnbState.forwarding.inj heq ▸ hdata data (.inl rfl)
  | forwarding data =>
    obtain rfl := hdata data (.inr rfl)
    intro p hp
    exact ⟨.forwarded hp,by simp [note,hnotes,GnbState.notes],nofun⟩
  | forwarded port => exact ⟨hnotes,nofun⟩
  | setupGtp => exact ⟨hnotes,nofun⟩
  | done => trivial

theorem AmfState.Hist.keeps {a : AmfState} {es : List (Udp.Event Host String)} (ha : a.Hist es) :
    a.next.Keeps ephemeral Wire .amf AmfState.Hist es := by
  have hnotes : es.map note = a.notes := ha
  cases a with
  | start => exact hnotes
  | listening =>
    intro d hd hdst
    obtain ⟨hsrc,hreg⟩ := hd.to_amf hdst
    simp [AmfState.Hist,note,hnotes,hsrc,hreg,AmfState.notes]
  | received => exact hnotes
  | requesting r =>
    intro p hp
    refine ⟨.request hp r,?_⟩
    simp [AmfState.Hist,note,hnotes,AmfState.notes,Request.note]
  | requested r port => cases r <;> exact hnotes
  | done => trivial

theorem ServerState.Hist.keeps {h : Host} (hh : h = .ausf ∨ h = .udm ∨ h = .upf) (port : Nat)
    (reply : String) {a : ServerState} {es : List (Udp.Event Host String)} (ha : a.Hist es) :
    (a.next port reply).Keeps ephemeral Wire h ServerState.Hist es := by
  cases a with
  | start => exact nofun
  | serving =>
    intro d hd hdst addr heq
    have hsrc := hd.to_server (by rw [hdst]; exact hh)
    exact ServerState.replying.inj heq ▸ hsrc
  | replying addr => exact ⟨(ha addr rfl).reply reply hh,nofun⟩

theorem UpfState.Hist.keeps {a : UpfState} {es : List (Udp.Event Host String)} (ha : a.Hist es) :
    a.next.Keeps ephemeral Wire .upf UpfState.Hist es := by
  cases a with
  | start => exact fun _ heq => by simp at heq
  | serving =>
    intro d hd hdst addr heq
    have hsrc := hd.to_server (by rw [hdst]; exact .inr (.inr rfl))
    by_cases halloc : d.data = "ALLOC_IP"
    · simp only [halloc,if_true,UpfState.allocating.injEq,reduceCtorEq,or_false] at heq
      exact heq ▸ hsrc
    · simp [halloc] at heq
  | allocating addr =>
    intro addr' heq
    simp only [reduceCtorEq,UpfState.replying.injEq,false_or] at heq
    exact heq ▸ ha addr (.inl rfl)
  | replying addr =>
    exact ⟨(ha addr (.inr rfl)).reply _ (.inr (.inr rfl)),fun _ heq => by simp at heq⟩

theorem contract_valid : contract.Valid net where
  start
  | .ue => ⟨rfl,nofun⟩
  | .gnb => ⟨rfl,by simp [net,start]⟩
  | .amf => rfl
  | .ausf => nofun
  | .udm => nofun
  | .upf => by simp [contract,UpfState.Hist,net,start]
  keeps
  | .ue,_,_,ha => UeState.Hist.keeps ha
  | .gnb,_,_,ha => GnbState.Hist.keeps ha
  | .amf,_,_,ha => AmfState.Hist.keeps ha
  | .ausf,_,_,ha => ServerState.Hist.keeps (.inl rfl) _ _ ha
  | .udm,_,_,ha => ServerState.Hist.keeps (.inr (.inl rfl)) _ _ ha
  | .upf,_,_,ha => UpfState.Hist.keeps ha

def SentIp (s : Emulation) : Prop :=
  ∃ d ∈ s.sent,d.src.1 = .amf ∧ d.dst = (.ue,8000) ∧ d.data = "10.0.0.5"

instance (s : Emulation) : Decidable (SentIp s) :=
  inferInstanceAs (Decidable (∃ d ∈ s.sent,_))

def AmfReceived (s : Emulation) (src : Host) (data : String) : Prop :=
  ∃ d ∈ s.received,d.dst.1 = .amf ∧ d.src.1 = src ∧ d.data = data

instance (s : Emulation) (src : Host) (data : String) : Decidable (AmfReceived s src data) :=
  inferInstanceAs (Decidable (∃ d ∈ s.received,_))

def amfHistory (s : Emulation) : List Note := ((own .amf s.log).map note).reverse

theorem amf_notes (labels : List (Label Host)) :
    (own .amf (Serial.after net.serve net.init labels).log).map note =
      AmfState.notes ((Serial.after net.serve net.init labels).procs .amf) :=
  (contract_valid.holds labels).hist .amf

/-- When the address goes out the AMF has got the registration from the gNB and
asked the AUSF, the UDM and the UPF in this order. It has not waited for them:
nothing else was ever received. -/
theorem ip_sent_after_requests (labels : List (Label Host))
    (h : SentIp (Serial.after net.serve net.init labels)) :
    amfHistory (Serial.after net.serve net.init labels) =
      [.received "UE_REG_REQUEST" .gnb,.sent "AUTH_REQ" (.ausf,9002),
       .sent "GET_PROFILE" (.udm,9003),.sent "ALLOC_IP" (.upf,9004),
       .sent "10.0.0.5" (.ue,8000)] := by
  obtain ⟨d,hd,hsrc,hdst,hdata⟩ := h
  have hnotes := amf_notes labels
  have hown : .sent d ∈ own .amf (Serial.after net.serve net.init labels).log :=
    mem_own.mpr ⟨State.mem_sent_iff.mp hd,hsrc⟩
  have hmem : Note.sent "10.0.0.5" (.ue,8000) ∈
      AmfState.notes ((Serial.after net.serve net.init labels).procs .amf) := by
    rw [← hnotes,← hdata,← hdst]
    exact List.mem_map_of_mem hown
  rw [amfHistory,hnotes]
  generalize (Serial.after net.serve net.init labels).procs .amf = a at hmem ⊢
  cases a with
  | start => simp [AmfState.notes] at hmem
  | listening => simp [AmfState.notes] at hmem
  | received => simp [AmfState.notes] at hmem
  | requesting r =>
    cases r <;> simp [AmfState.notes,Request.before,Request.note,Request.data] at hmem
  | requested r port =>
    cases r with
    | sendIpToUe => rfl
    | _ => simp [AmfState.notes,Request.before,Request.note,Request.data] at hmem
  | done => rfl

/-- The gNB and the AMF are up, the UE registers, and the AMF runs to its end while
the three servers have not even been started. -/
def quickAttach : List (Label Host) :=
  [.run .amf 0,.run .gnb 0,.run .ue 40000,
   .deliver 0,.run .gnb 0,.run .gnb 0,.run .gnb 40000,
   .deliver 0,.run .amf 0,.run .amf 0,
   .run .amf 40001,.run .amf 0,.run .amf 40002,.run .amf 0,
   .run .amf 40003,.run .amf 0,.run .amf 40004]

theorem ip_sent_after_requests_quick :
    SentIp (Serial.after net.serve net.init quickAttach) ∧
    amfHistory (Serial.after net.serve net.init quickAttach) =
      [.received "UE_REG_REQUEST" .gnb,.sent "AUTH_REQ" (.ausf,9002),
       .sent "GET_PROFILE" (.udm,9003),.sent "ALLOC_IP" (.upf,9004),
       .sent "10.0.0.5" (.ue,8000)] :=
  ⟨by decide +kernel,ip_sent_after_requests quickAttach (by decide +kernel)⟩

theorem ip_sent_without_replies :
    ¬ ∀ labels : List (Label Host),SentIp (Serial.after net.serve net.init labels) →
      AmfReceived (Serial.after net.serve net.init labels) .ausf "AUTH_OK" ∧
      AmfReceived (Serial.after net.serve net.init labels) .udm "USER_PROFILE_OK" ∧
      AmfReceived (Serial.after net.serve net.init labels) .upf "IP_ALLOC_OK" := by
  intro h
  have hsent : SentIp (Serial.after net.serve net.init quickAttach) := by decide +kernel
  have hreply : ¬ AmfReceived (Serial.after net.serve net.init quickAttach) .ausf "AUTH_OK" := by
    decide +kernel
  exact hreply (h quickAttach hsent).1

end GrpKeySec.Attach
