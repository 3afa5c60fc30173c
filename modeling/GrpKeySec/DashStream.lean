import Mathlib.Data.Rat.Floor
import Mathlib.Tactic.NormNum
import GrpKeySec.MatlabArray
import GrpKeySec.MbmsLeo
import GrpKeySec.Tally
set_option autoImplicit false

/-!
One run of mbms_leo_simulation_v1.m: the video of dash_server.m is broadcast segment by
segment, its last segment is multicast once more, and every UE is asked whether it can
play the video. A field of a UE record is `none` where MATLAB has `[]`; `[]` plus a number
is `[]`. Whether a transmission gets through is an input, one for each call of
simulate_gateway_transmit. Pauses, printing, the latency and the plots are left out. UEs,
segments and time steps are counted from 0, their names from 1.
-/

namespace GrpKeySec.Dash
open MatlabArray Tally

inductive MatlabError where
  | indexOutOfBounds | nonScalarOutput
  deriving DecidableEq, Repr

structure Segment (K : Type) where
  id : String
  size : K
  deriving DecidableEq, Repr

structure Ue where
  id : String
  registered : Option Bool
  sessionActive : Option Bool
  receivedPackets : Option Nat
  totalBytes : Option Nat
  receivedSegments : List String
  deriving DecidableEq, Repr

structure Packet (K : Type) where
  source : String
  destination : String
  size : Nat
  content : String
  segmentId : String
  segmentSize : K
  deriving DecidableEq, Repr

structure Run (n steps : Nat) where
  ues : Fin n → Ue
  registeredUes : Dict String Bool
  mbmsSessions : Dict String Bool
  packetLoss : Fin steps → Nat

/-- Which transmissions get through: the broadcast ones by segment, time and UE, the
multicast ones by place in the selection and time. -/
structure Channel (n : Nat) where
  registration : Fin n → Bool
  session : Bool
  broadcast : Nat → Nat → Fin n → Bool
  multicast : Nat → Nat → Bool

def Channel.always (n : Nat) (delivered : Bool) : Channel n :=
  ⟨fun _ => delivered,delivered,fun _ _ _ => delivered,fun _ _ => delivered⟩

def simulateGatewayTransmit {α : Type} (delivered : Bool) (msg : Option α) : Option α :=
  if delivered then msg else none

def simulateUpfForward {α : Type} (delivered : Bool) (msg : α) : Option α :=
  simulateGatewayTransmit delivered (some msg)

section Video

def dashServer : List (Segment Rat) :=
  let durationS : Rat := 10
  let bitrateBps : Rat := 4000000
  let totalSizeBytes := bitrateBps * durationS / 8
  let segmentDurationS : Rat := 2
  let numSegments := ⌈durationS / segmentDurationS⌉₊
  let segmentSizeBytes := totalSizeBytes / numSegments
  (List.range numSegments).foldl
    (fun a i => setAt ⟨"",0⟩ a i (fun _ => ⟨"segment_" ++ (i + 1).repr,segmentSizeBytes⟩)) []

theorem dashServer_eq :
    dashServer = (List.range 5).map (fun i => ⟨"segment_" ++ (i + 1).repr,1000000⟩) := by
  have hnum : ⌈(10 / 2 : Rat)⌉₊ = 5 := by norm_num
  have hsize : (4000000 * 10 / 8 / (5 : Nat) : Rat) = 1000000 := by norm_num
  simp only [dashServer,hnum,hsize]
  exact foldl_setAt _ _ 5

theorem dashServer_ne_nil : dashServer ≠ [] := by
  simp [dashServer_eq]

theorem dashServer_ids_nodup : (dashServer.map Segment.id).Nodup := by
  rw [dashServer_eq]
  decide

variable {K : Type}

def totalVideoBytes [AddMonoid K] (segments : List (Segment K)) : K :=
  (segments.map Segment.size).sum

/-- What the script computes beside the loops that send the segment and does not use. -/
def numPackets [Field K] [LinearOrder K] [FloorSemiring K] (segment : Segment K) : Nat :=
  ⌈segment.size / Mbms.packetSizeBytes⌉₊

theorem numPackets_dashServer {segment : Segment Rat} (h : segment ∈ dashServer) :
    numPackets segment = 667 := by
  have hsize : segment.size = 1000000 := by
    rw [dashServer_eq,List.mem_map] at h
    obtain ⟨i,-,rfl⟩ := h
    rfl
  rw [numPackets,hsize,Mbms.packetSizeBytes,Nat.ceil_eq_iff (by decide)]
  norm_num

theorem size_le_numPackets [Field K] [LinearOrder K] [IsStrictOrderedRing K] [FloorSemiring K]
    (segment : Segment K) :
    segment.size ≤ ((Mbms.packetSizeBytes * numPackets segment : Nat) : K) := by
  have hpos : (0 : K) < Mbms.packetSizeBytes := Nat.cast_pos.mpr (by decide)
  have hceil := Nat.le_ceil (segment.size / Mbms.packetSizeBytes)
  rw [div_le_iff₀ hpos,mul_comm] at hceil
  rw [Nat.cast_mul]
  exact hceil

inductive Phase where
  | broadcast | multicast
  deriving DecidableEq, Repr

def mbmsBroadcast (segments : List (Segment K)) (k : Fin segments.length) : Packet K :=
  ⟨Mbms.gatewayId,"ALL_UES",Mbms.packetSizeBytes,"DASH segment " ++ (k.val + 1).repr,
    (segments.get k).id,(segments.get k).size⟩

def mbmsMulticast (segments : List (Segment K)) (premium : Fin segments.length) : Packet K :=
  ⟨Mbms.gatewayId,"SELECTED_UES",Mbms.packetSizeBytes,
    "DASH premium segment " ++ segments.length.repr,
    (segments.get premium).id,(segments.get premium).size⟩

def Phase.packet (segments : List (Segment K)) (k : Fin segments.length) : Phase → Packet K
  | .broadcast => mbmsBroadcast segments k
  | .multicast => mbmsMulticast segments k

@[simp] theorem Phase.packet_size (segments : List (Segment K)) (k : Fin segments.length)
    (phase : Phase) : (phase.packet segments k).size = Mbms.packetSizeBytes := by
  cases phase <;> rfl

@[simp] theorem Phase.packet_segmentId (segments : List (Segment K)) (k : Fin segments.length)
    (phase : Phase) : (phase.packet segments k).segmentId = (segments.get k).id := by
  cases phase <;> rfl

end Video

namespace Ue

def blank : Ue := ⟨"",none,none,none,none,[]⟩

/-- The struct call of the gateway, whose last value is the cell array `{}`, and the loop
behind it that assigns two of the fields. -/
def initial (n : Nat) : List Ue :=
  (List.range n).foldl
    (fun ues i => setAt blank ues i
      (fun ue => { ue with id := "UE_" ++ (i + 1).repr, receivedSegments := [] }))
    (repmat (structOf (fun cell => ⟨"",some false,some false,some 0,some 0,cell⟩) []) n)

/-- The call makes no record at all, so the counters are not those it lists. -/
theorem initial_eq (n : Nat) :
    initial n =
      (List.range n).map (fun i => ⟨"UE_" ++ (i + 1).repr,none,none,none,none,[]⟩) := by
  simp only [initial,structOf,List.map_nil,repmat_nil]
  exact foldl_setAt blank _ n

def receive {K : Type} (ue : Ue) (packet : Packet K) : Ue :=
  { ue with
    receivedPackets := ue.receivedPackets.map (· + 1)
    totalBytes := ue.totalBytes.map (· + packet.size)
    receivedSegments :=
      if packet.segmentId ∈ ue.receivedSegments then ue.receivedSegments
      else ue.receivedSegments ++ [packet.segmentId] }

theorem mem_receive {K : Type} (ue : Ue) (packet : Packet K) (x : String) :
    x ∈ (ue.receive packet).receivedSegments ↔
      x ∈ ue.receivedSegments ∨ x = packet.segmentId := by
  by_cases h : packet.segmentId ∈ ue.receivedSegments
  · simp only [receive,if_pos h]
    refine ⟨.inl,fun hx => ?_⟩
    rcases hx with hx | rfl
    · exact hx
    · exact h
  · simp [receive,h]

theorem nodup_receive {K : Type} {ue : Ue} (packet : Packet K)
    (hue : ue.receivedSegments.Nodup) : (ue.receive packet).receivedSegments.Nodup := by
  by_cases h : packet.segmentId ∈ ue.receivedSegments
  · simpa only [receive,if_pos h] using hue
  · simp only [receive,if_neg h]
    exact List.nodup_append_comm.mp (List.nodup_cons.mpr ⟨h,hue⟩)

end Ue

inductive Playback where
  | playing | insufficientData
  deriving DecidableEq, Repr

/-- The check of Step 5. A comparison with `[]` gives `[]`, which is not true. -/
def playback {K : Type} [Field K] [LinearOrder K] (segments : List (Segment K)) (ue : Ue) :
    Playback :=
  match ue.totalBytes with
  | some receivedBytes =>
      if totalVideoBytes segments ≤ receivedBytes then .playing else .insufficientData
  | none => .insufficientData

section Loops

variable {n steps users : Nat} {K σ : Type}

/-- The loops of Step 3, around what is done with one packet for one time and one UE. -/
def broadcastLoops (channel : Channel n) (segments : List (Segment K))
    (body : Packet K → Fin steps → Fin n → Bool → σ → σ) (s : σ) : σ :=
  (List.finRange segments.length).foldl (fun s k =>
    (List.finRange steps).foldl (fun s t =>
      (List.finRange n).foldl (fun s i =>
        body (mbmsBroadcast segments k) t i (channel.broadcast k t i) s) s) s) s

/-- The loops of Step 4. Without segments there is no last one. -/
def multicastLoops (channel : Channel n) (selected : Mbms.Selection n users)
    (segments : List (Segment K)) (body : Packet K → Fin steps → Fin n → Bool → σ → σ) (s : σ) :
    Except MatlabError σ :=
  if h : 0 < segments.length then
    let premium : Fin segments.length := ⟨segments.length - 1,by omega⟩
    .ok ((List.finRange selected.ues.length).foldl (fun s idx =>
      (List.finRange steps).foldl (fun s t =>
        body (mbmsMulticast segments premium) t (selected.ues.get idx)
          (channel.multicast idx t) s) s) s)
  else .error .indexOutOfBounds

end Loops

namespace Run

variable {n steps : Nat} {K : Type}

def init (n steps : Nat) : Run n steps :=
  ⟨fun i => (Ue.initial n).getD i Ue.blank,∅,∅,fun _ => 0⟩

def registerUe (channel : Channel n) (r : Run n steps) (i : Fin n) : Run n steps :=
  let ue := r.ues i
  let rrcMsg := Mbms.Message.registrationRequest ue.id Mbms.coreId ue.id
  match simulateGatewayTransmit (channel.registration i) (Mbms.simulateCoreProcessing rrcMsg) with
  | some _ =>
      { r with
        ues := Function.update r.ues i { ue with registered := some true }
        registeredUes := r.registeredUes.set ue.id true }
  | none => r

def setupSession (channel : Channel n) (run : Nat) (r : Run n steps) :
    Except MatlabError (Run n steps) :=
  if h : 0 < n then
    let sessionId := "MBMS_Session_" ++ run.repr
    let sessionMsg := Mbms.Message.sessionRequest (r.ues ⟨0,h⟩).id Mbms.coreId sessionId
    match simulateGatewayTransmit channel.session (Mbms.simulateCoreProcessing sessionMsg) with
    | some _ =>
        .ok { r with
          ues := fun i => { r.ues i with sessionActive := some true }
          mbmsSessions := r.mbmsSessions.set sessionId true }
    | none => .ok r
  else .error .indexOutOfBounds

/-- The body of the innermost loop, the same in the broadcast and in the multicast. The
multicast also asks whether received_packets is numeric, which `[]` is too. -/
def transmit (msg : Packet K) (t : Fin steps) (i : Fin n) (delivered : Bool)
    (r : Run n steps) : Run n steps :=
  match simulateUpfForward delivered msg with
  | some packet => { r with ues := Function.update r.ues i ((r.ues i).receive packet) }
  | none => { r with packetLoss := Function.update r.packetLoss t (r.packetLoss t + 1) }

@[simp] theorem transmit_true (msg : Packet K) (t : Fin steps) (i : Fin n) (r : Run n steps) :
    r.transmit msg t i true =
      { r with ues := Function.update r.ues i ((r.ues i).receive msg) } := rfl

@[simp] theorem transmit_false (msg : Packet K) (t : Fin steps) (i : Fin n) (r : Run n steps) :
    r.transmit msg t i false =
      { r with packetLoss := Function.update r.packetLoss t (r.packetLoss t + 1) } := rfl

def arrive (msg : Packet K) (_ : Fin steps) (i : Fin n) (delivered : Bool)
    (arrived : List (Fin n × Packet K)) : List (Fin n × Packet K) :=
  match simulateUpfForward delivered msg with
  | some packet => arrived ++ [(i,packet)]
  | none => arrived

def broadcast (channel : Channel n) (segments : List (Segment K)) (r : Run n steps) :
    Run n steps :=
  broadcastLoops channel segments transmit r

variable {users : Nat}

def multicast (channel : Channel n) (selected : Mbms.Selection n users)
    (segments : List (Segment K)) (r : Run n steps) : Except MatlabError (Run n steps) :=
  multicastLoops channel selected segments transmit r

def stream (channel : Channel n) (selected : Mbms.Selection n users)
    (segments : List (Segment K)) (r : Run n steps) : Except MatlabError (Run n steps) :=
  (r.broadcast channel segments).multicast channel selected segments

/-- What arrives in Steps 3 and 4: every packet that the UPF forwards, with its UE. The loops
are those of the run. -/
def arrivals (steps : Nat) (channel : Channel n) (selected : Mbms.Selection n users)
    (segments : List (Segment K)) : Except MatlabError (List (Fin n × Packet K)) :=
  multicastLoops channel selected segments (@arrive n steps K)
    (broadcastLoops channel segments (@arrive n steps K) [])

def attach (channel : Channel n) (run : Nat) : Except MatlabError (Run n steps) :=
  ((List.finRange n).foldl (registerUe channel) (init n steps)).setupSession channel run

def deliver (channel : Channel n) (selected : Mbms.Selection n users)
    (segments : List (Segment K)) (run : Nat) : Except MatlabError (Run n steps) := do
  let attached ← attach channel run
  attached.stream channel selected segments

/-- `sum(arrayfun(..))`, which wants one number from each UE. -/
def sumOver (field : Ue → Option Nat) (r : Run n steps) : Except MatlabError Nat :=
  if ∃ i,field (r.ues i) = none then .error .nonScalarOutput
  else .ok (∑ i,(field (r.ues i)).getD 0)

structure Metrics where
  totalPackets : Nat
  totalBytes : Nat
  deriving DecidableEq, Repr

def metrics (r : Run n steps) : Except MatlabError Metrics := do
  let totalPackets ← r.sumOver Ue.receivedPackets
  let totalBytes ← r.sumOver Ue.totalBytes
  return ⟨totalPackets,totalBytes⟩

def simulate (channel : Channel n) (selected : Mbms.Selection n users)
    (segments : List (Segment K)) (run : Nat) : Except MatlabError (Run n steps × Metrics) := do
  let r ← deliver channel selected segments run
  let m ← r.metrics
  return (r,m)

end Run
end GrpKeySec.Dash
