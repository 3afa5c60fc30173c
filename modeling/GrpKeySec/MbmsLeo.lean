import Mathlib.Data.List.FinRange
import Mathlib.Logic.Function.Basic
import GrpKeySec.Dict
set_option autoImplicit false

/-!
One run of mbms_leo_simulation.m: registration, session setup, broadcast and
multicast over a link that loses messages. Whether a transmission gets through is
an input, one for each call of simulate_gateway_transmit. Pauses, printing and the
metrics are left out. UEs are counted from 0, their names from 1.
-/

namespace GrpKeySec.Mbms

inductive Message where
  | registrationRequest (source destination ueId : String)
  | registrationAccept (source destination status : String)
  | sessionRequest (source destination sessionId : String)
  | sessionAccept (source destination sessionId status : String)
  | mbmsData (source destination : String) (size : Nat) (content : String)
  deriving DecidableEq, Repr

structure Ue where
  id : String
  registered : Bool
  sessionActive : Bool
  receivedPackets : Nat
  totalBytes : Nat
  deriving DecidableEq, Repr

def Ue.receive (ue : Ue) (size count : Nat) : Ue :=
  { ue with
    receivedPackets := ue.receivedPackets + count
    totalBytes := ue.totalBytes + size * count }

structure Run (n : Nat) where
  ues : Fin n → Ue
  registeredUes : Dict String Bool
  mbmsSessions : Dict String Bool

/-- Which transmissions get through. The multicast ones are numbered by their
place in the selection. -/
structure Channel (n : Nat) where
  registration : Fin n → Bool
  session : Bool
  broadcast : Fin n → Bool
  multicast : Nat → Bool

/-- What randsample gives: as many different UEs as there are multicast users, or
all of them. -/
structure Selection (n users : Nat) where
  ues : List (Fin n)
  nodup : ues.Nodup
  length : ues.length = min users n

def coreId : String := "5G_Core"

def gatewayId : String := "Satellite_GW"

def packetSizeBytes : Nat := 1500

def simulateCoreProcessing : Message → Option Message
  | .registrationRequest source _ _ => some (.registrationAccept coreId source "registered")
  | .sessionRequest source _ sessionId => some (.sessionAccept coreId source sessionId "active")
  | _ => none

def simulateGatewayTransmit (delivered : Bool) (msg : Option Message) : Option Message :=
  if delivered then msg else none

namespace Run

variable {n : Nat}

def ueId (i : Fin n) : String := "UE_" ++ (i.val + 1).repr

def init (n : Nat) : Run n := ⟨fun i => ⟨ueId i,false,false,0,0⟩,∅,∅⟩

def registerUe (channel : Channel n) (r : Run n) (i : Fin n) : Run n :=
  let ue := r.ues i
  let rrcMsg := Message.registrationRequest ue.id coreId ue.id
  match simulateGatewayTransmit (channel.registration i) (simulateCoreProcessing rrcMsg) with
  | some _ =>
      { r with
        ues := Function.update r.ues i { ue with registered := true }
        registeredUes := r.registeredUes.set ue.id true }
  | none => r

/-- The request goes out in the name of the first UE. Without UEs the script stops
with an index error. -/
def setupSession (channel : Channel n) (run : Nat) (r : Run n) : Option (Run n) :=
  if h : 0 < n then
    let sessionId := "MBMS_Session_" ++ run.repr
    let sessionMsg := Message.sessionRequest (r.ues ⟨0,h⟩).id coreId sessionId
    match simulateGatewayTransmit channel.session (simulateCoreProcessing sessionMsg) with
    | some _ =>
        some { r with
          ues := fun i => { r.ues i with sessionActive := true }
          mbmsSessions := r.mbmsSessions.set sessionId true }
    | none => some r
  else none

/-- One transmission of a data message to one UE, in the broadcast and in the
multicast loop alike. -/
def transmitTo (msg : Message) (r : Run n) (call : Fin n × Bool) : Run n :=
  match simulateGatewayTransmit call.2 (some msg) with
  | some (.mbmsData _ _ size _) =>
      { r with ues := Function.update r.ues call.1 ((r.ues call.1).receive size 1) }
  | _ => r

def mbmsBroadcast : Message := .mbmsData gatewayId "ALL_UES" packetSizeBytes "Broadcast TV data"

def mbmsMulticast : Message :=
  .mbmsData gatewayId "SELECTED_UES" packetSizeBytes "Multicast premium content"

def broadcastCalls (channel : Channel n) : List (Fin n × Bool) :=
  (List.finRange n).map (fun i => (i,channel.broadcast i))

def multicastCalls {users : Nat} (channel : Channel n) (selected : Selection n users) :
    List (Fin n × Bool) :=
  selected.ues.zipIdx.map (fun p => (p.1,channel.multicast p.2))

def simulate {users : Nat} (channel : Channel n) (selected : Selection n users) (run : Nat) :
    Option (Run n) :=
  let registered := (List.finRange n).foldl (registerUe channel) (init n)
  (registered.setupSession channel run).map (fun active =>
    let broadcast := (broadcastCalls channel).foldl (transmitTo mbmsBroadcast) active
    (multicastCalls channel selected).foldl (transmitTo mbmsMulticast) broadcast)

theorem ueId_inj {i j : Fin n} : ueId i = ueId j ↔ i = j := by
  unfold ueId
  rw [append_repr_inj,Fin.ext_iff]
  omega

theorem registerUe_eq (channel : Channel n) (r : Run n) (i : Fin n) :
    r.registerUe channel i =
      if channel.registration i then
        { r with
          ues := Function.update r.ues i { r.ues i with registered := true }
          registeredUes := r.registeredUes.set (r.ues i).id true }
      else r := by
  cases h : channel.registration i <;>
    simp [registerUe,simulateGatewayTransmit,simulateCoreProcessing,h]

theorem registerUe_ues (channel : Channel n) (r : Run n) (j i : Fin n) :
    (r.registerUe channel j).ues i =
      { r.ues i with
        registered := (r.ues i).registered || (decide (i = j) && channel.registration i) } := by
  rw [registerUe_eq]
  by_cases hi : i = j
  · subst hi
    cases hj : channel.registration i <;> simp
  · cases hj : channel.registration j <;> simp [hi]

theorem mem_registerUe (channel : Channel n) (r : Run n) (j : Fin n) (k : String) :
    k ∈ (r.registerUe channel j).registeredUes ↔
      k ∈ r.registeredUes ∨ (channel.registration j = true ∧ (r.ues j).id = k) := by
  rw [registerUe_eq]
  cases hj : channel.registration j with
  | false => simp
  | true => simp only [if_true,Dict.mem_set,true_and,or_comm,eq_comm (a := k)]

theorem foldl_registerUe_ues (channel : Channel n) (l : List (Fin n)) (r : Run n) (i : Fin n) :
    (l.foldl (registerUe channel) r).ues i =
      { r.ues i with
        registered := (r.ues i).registered || (decide (i ∈ l) && channel.registration i) } := by
  induction l generalizing r with
  | nil => simp
  | cons j l ih =>
    rw [List.foldl_cons,ih,registerUe_ues]
    by_cases hi : i = j
    · cases hj : channel.registration i <;> simp [hi]
    · simp [hi]

theorem mem_foldl_registerUe (channel : Channel n) (l : List (Fin n)) (r : Run n) (k : String) :
    k ∈ (l.foldl (registerUe channel) r).registeredUes ↔
      k ∈ r.registeredUes ∨ ∃ i ∈ l,channel.registration i = true ∧ (r.ues i).id = k := by
  induction l generalizing r with
  | nil => simp
  | cons j l ih =>
    simp only [List.foldl_cons,ih,mem_registerUe,registerUe_ues,List.exists_mem_cons_iff,or_assoc]

theorem setupSession_eq (channel : Channel n) (run : Nat) {r r' : Run n}
    (h : r.setupSession channel run = some r') :
    (∀ i,r'.ues i = { r.ues i with sessionActive := (r.ues i).sessionActive || channel.session }) ∧
    r'.registeredUes = r.registeredUes := by
  unfold setupSession at h
  by_cases hn : 0 < n
  · rw [dif_pos hn] at h
    cases hs : channel.session with
    | false =>
      simp only [hs,simulateGatewayTransmit,Bool.false_eq_true,if_false,Option.some.injEq] at h
      subst h
      simp
    | true =>
      simp only [hs,simulateGatewayTransmit,simulateCoreProcessing,if_true,Option.some.injEq] at h
      subst h
      simp
  · rw [dif_neg hn] at h
    exact nomatch h

theorem transmitTo_eq {msg : Message} {source destination content : String} {size : Nat}
    (hmsg : msg = .mbmsData source destination size content) (r : Run n) (call : Fin n × Bool) :
    transmitTo msg r call =
      if call.2 then
        { r with ues := Function.update r.ues call.1 ((r.ues call.1).receive size 1) }
      else r := by
  cases h : call.2 <;> simp [transmitTo,simulateGatewayTransmit,h,hmsg]

theorem receive_add (ue : Ue) (size k : Nat) :
    (ue.receive size 1).receive size k = ue.receive size (k + 1) := by
  simp only [Ue.receive,Ue.mk.injEq,true_and,Nat.mul_add,Nat.mul_one]
  omega

def reached (i : Fin n) (calls : List (Fin n × Bool)) : Nat :=
  calls.countP (fun call => decide (call.1 = i) && call.2)

theorem foldl_transmitTo {msg : Message} {source destination content : String} {size : Nat}
    (hmsg : msg = .mbmsData source destination size content) (calls : List (Fin n × Bool))
    (r : Run n) :
    (∀ i,(calls.foldl (transmitTo msg) r).ues i = (r.ues i).receive size (reached i calls)) ∧
    (calls.foldl (transmitTo msg) r).registeredUes = r.registeredUes := by
  induction calls generalizing r with
  | nil => exact ⟨fun _ => rfl,rfl⟩
  | cons call calls ih =>
    obtain ⟨hues,hcore⟩ := ih (transmitTo msg r call)
    rw [List.foldl_cons]
    rw [transmitTo_eq hmsg] at hues hcore ⊢
    cases hcall : call.2 with
    | false =>
      simp only [hcall,if_false,Bool.false_eq_true] at hues hcore ⊢
      refine ⟨?_,hcore⟩
      intro i
      rw [hues]
      simp [reached,hcall]
    | true =>
      simp only [hcall,if_true] at hues hcore ⊢
      refine ⟨?_,hcore⟩
      intro i
      rw [hues]
      by_cases hi : i = call.1
      · subst hi
        rw [Function.update_self,receive_add]
        simp [reached,hcall]
      · rw [Function.update_of_ne hi]
        simp [reached,Ne.symm hi]

/-- At the end of a run a UE is registered, for itself and for the core, exactly if
its registration answer got through. The one session answer makes all UEs active
or none, and packets are counted for every UE they reach, whatever its flags. -/
theorem flags_of_run {users : Nat} (channel : Channel n) (selected : Selection n users) (run : Nat)
    {r : Run n} (h : simulate channel selected run = some r) (i : Fin n) :
    (r.ues i).registered = channel.registration i ∧
    ((r.ues i).id ∈ r.registeredUes ↔ (r.ues i).registered = true) ∧
    (r.ues i).sessionActive = channel.session ∧
    (r.ues i).receivedPackets =
      reached i (broadcastCalls channel) + reached i (multicastCalls channel selected) := by
  simp only [simulate,Option.map_eq_some_iff] at h
  obtain ⟨active,hactive,hr⟩ := h
  obtain ⟨hses,hsesCore⟩ := setupSession_eq channel run hactive
  obtain ⟨hbro,hbroCore⟩ := foldl_transmitTo (show mbmsBroadcast = _ from rfl)
    (broadcastCalls channel) active
  obtain ⟨hmul,hmulCore⟩ := foldl_transmitTo (show mbmsMulticast = _ from rfl)
    (multicastCalls channel selected) ((broadcastCalls channel).foldl (transmitTo mbmsBroadcast) active)
  rw [hr] at hmul hmulCore
  have hue := hmul i
  rw [hbro,hses,foldl_registerUe_ues] at hue
  have hmem : ∀ k,k ∈ r.registeredUes ↔ ∃ j : Fin n,channel.registration j = true ∧ ueId j = k := by
    intro k
    rw [hmulCore,hbroCore,hsesCore,mem_foldl_registerUe]
    simp [init]
  rw [hmem,hue]
  simp [Ue.receive,init,ueId_inj]

/-- Three UEs: the registration answer of the second is lost, the broadcast to the third and
the second multicast. -/
def lostRegistration : Channel 3 where
  registration i := decide (i ≠ 1)
  session := true
  broadcast i := decide (i ≠ 2)
  multicast idx := decide (idx = 0)

def middleAndFirst : Selection 3 2 := ⟨[1,0],by decide,rfl⟩

theorem flags_of_run_lost :
    ∃ r,simulate lostRegistration middleAndFirst 1 = some r ∧
      (∀ i,(r.ues i).registered = decide (i ≠ 1) ∧
        ((r.ues i).id ∈ r.registeredUes ↔ (r.ues i).registered = true) ∧
        (r.ues i).sessionActive = true) ∧
      (r.ues 0).receivedPackets = 1 ∧ (r.ues 1).receivedPackets = 2 ∧
      (r.ues 2).receivedPackets = 0 := by
  have hflags := flags_of_run lostRegistration middleAndFirst 1 rfl
  exact ⟨_,rfl,fun i => ⟨(hflags i).1,(hflags i).2.1,(hflags i).2.2.1⟩,(hflags 0).2.2.2,
    (hflags 1).2.2.2,(hflags 2).2.2.2⟩

theorem active_without_registration :
    ¬ ∀ (n users : Nat) (channel : Channel n) (selected : Selection n users) (run : Nat) (r : Run n),
      simulate channel selected run = some r → ∀ i,
        (0 < (r.ues i).receivedPackets → (r.ues i).sessionActive = true) ∧
        ((r.ues i).sessionActive = true →
          (r.ues i).registered = true ∧ (r.ues i).id ∈ r.registeredUes) := by
  intro h
  have hactive := (h 3 2 lostRegistration middleAndFirst 1 _ rfl 1).2 rfl
  exact nomatch hactive.1

end Run
end GrpKeySec.Mbms
