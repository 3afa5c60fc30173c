import GrpKeySec.Dict
import GrpKeySec.Handler
import GrpKeySec.KeyDerivation
set_option autoImplicit false

/-!
The Flask services of group_key_mgmt: UDM, AUSF, AMF, gNB, SMF and UPF. Each
handler is written statement by statement after its Python method; prints are
left out. A request field that the body lacks is `none`, and reading it raises
KeyError as in Python.
-/

namespace GrpKeySec

inductive PyError where
  | keyError (key : String)
  | typeError (text : String)
  | jsonDecodeError
  | connectionError
  | calledProcessError
  deriving DecidableEq, Repr

/-- The JSON objects these services return map strings to strings. -/
abbrev JsonObject := List (String × String)

def JsonObject.item (body : JsonObject) (key : String) : Except PyError String :=
  match body.lookup key with
  | some v => .ok v
  | none => .error (.keyError key)

def field (key : String) : Option String → Except PyError String
  | some v => .ok v
  | none => .error (.keyError key)

/-- `html` is a reply with no JSON body: Flask's own 404 and 500 pages. `int` is
the result of `random.randint` or the exit status of a command. -/
inductive Reply where
  | json (status : Nat) (body : JsonObject)
  | html (status : Nat)
  | int (n : Nat)
  deriving DecidableEq, Repr

def Reply.jsonBody : Reply → Except PyError JsonObject
  | .json _ body => .ok body
  | _ => .error .jsonDecodeError

def Reply.number : Reply → Nat
  | .int n => n
  | _ => 0

structure SecurityCommand where
  ueId : String
  command : String
  mac : String
  deriving DecidableEq, Repr

structure UeContext where
  ueId : Option String
  kGnb : Option String
  securityCapabilities : List String
  deriving DecidableEq, Repr

structure SessionRequest where
  ueId : Option String
  kGnb : Option String
  deriving DecidableEq, Repr

structure ConfigureRequest where
  ueId : String
  kUpEnc : String
  deriving DecidableEq, Repr

inductive Command where
  | modprobeGtp
  | ipLinkAddGtp0
  | ipAddrAddGtp0
  | ipLinkSetGtp0Up
  | iptablesMasquerade
  deriving DecidableEq, Repr

/-- Everything a handler asks of something else: HTTP posts, one constructor for
each route, then the calls into the operating system. -/
inductive Request where
  | udmAuthData (ueId : Option String)
  | ausfAuthenticate (ueId : Option String) (servingNetwork : String)
  | amfRegistration (ueId : Option String)
  | amfSecurityComplete (ueId : Option String)
  | gnbRegistration (ueId : Option String)
  | gnbSecurityComplete (ueId : Option String)
  | gnbUeContextSetup (context : UeContext)
  | gnbSecurityCommand (command : SecurityCommand)
  | ueSecurityCommand (command : SecurityCommand)
  | smfSessionEstablishment (request : SessionRequest)
  | upfConfigure (request : ConfigureRequest)
  | osSystem (command : String)
  | randint (lo hi : Nat)
  | subprocessRun (command : Command)
  deriving DecidableEq, Repr

abbrev Service (σ α : Type) := Handler σ Request Reply PyError α

namespace Service
open Handler

def jsonify {σ : Type} (h : Service σ JsonObject) : Service σ Reply := do
  let body ← h
  pure (.json 200 body)

/-- An exception that leaves a route gives Flask's 500 page. -/
def flask {σ : Type} (h : Service σ Reply) : Service σ Reply :=
  h.tryCatch (fun _ => ret (.html 500))

end Service

open Handler

/-- `hashlib.sha256(..).hexdigest()` and the built-in `hash` of a string. -/
structure Digests where
  sha256Hex : String → String
  hash : String → Int

def strCommand (command : String) : String := "\x7b'command': '" ++ command ++ "'\x7d"

namespace Udm

structure Subscriber where
  k : String
  opc : String
  sqn : Nat
  deriving DecidableEq, Repr

abbrev SubscriberDb := Dict String Subscriber

/-- `SUBSCRIBER_DB` as shipped. Every result below is for an arbitrary database. -/
def subscriberDb : SubscriberDb :=
  (∅ : Dict String Subscriber).set "imsi-001010000000001"
    ⟨"0x00112233445566778899aabbccddeeff","0x63bfa50ee6523365ff14c1f45f88737d",0⟩

def getAuthData (db : SubscriberDb) (ueId : String) : JsonObject :=
  match db.get? ueId with
  | none => [("status","ue_not_found")]
  | some subscriber =>
      [("status","success"),
       ("k_ausf",deriveKAusf subscriber.k),
       ("rand","0x1234567890abcdef1234567890abcdef"),
       ("autn","0xabcdef1234567890abcdef1234567890")]

def authData {σ : Type} (db : SubscriberDb) (ueId : Option String) : Service σ JsonObject := do
  let ueId ← ofExcept (field "ue_id" ueId)
  pure (getAuthData db ueId)

end Udm

structure Ausf where
  authenticationVectors : Dict String JsonObject
  deriving DecidableEq

namespace Ausf

def authenticate (ueId : Option String) : Service Ausf JsonObject := do
  let ueId ← ofExcept (field "ue_id" ueId)
  let response ← request (.udmAuthData (some ueId))
  let authVector ← ofExcept response.jsonBody
  assign (fun s => { s with authenticationVectors := s.authenticationVectors.set ueId authVector })
  let kAusf ← ofExcept (authVector.item "k_ausf")
  pure [("status","success"),("k_ausf",kAusf),("auth_result","authenticated")]

end Ausf

structure Amf where
  ueContexts : Dict String JsonObject
  kAmf : Option String
  deriving DecidableEq

namespace Amf

def servingNetwork : String := "5G:mnc001.mcc001.3gppnetwork.org"

/-- `derive_key(self.k_amf, name)`: slicing None raises. -/
def deriveKeyFrom (parentKey : Option String) (keyName : String) : Except PyError String :=
  match parentKey with
  | none => .error (.typeError "'NoneType' object is not subscriptable")
  | some k => .ok (deriveKey k keyName)

def calculateMac (dig : Digests) (message key : String) : String :=
  "MAC_" ++ sliceTo (dig.sha256Hex (message ++ key)) 8

def handleRegistration (dig : Digests) (ueId : Option String) : Service Amf JsonObject := do
  let ueId ← ofExcept (field "ue_id" ueId)
  let response ← request (.ausfAuthenticate (some ueId) servingNetwork)
  let context ← ofExcept response.jsonBody
  assign (fun s => { s with ueContexts := s.ueContexts.set ueId context })
  let kAusf ← ofExcept (context.item "k_ausf")
  assign (fun s => { s with kAmf := some (deriveKAmf kAusf) })
  let kAmf ← read Amf.kAmf
  -- derived by the source and used nowhere
  let _kNasEnc ← ofExcept (deriveKeyFrom kAmf "NAS_ENC")
  let kNasInt ← ofExcept (deriveKeyFrom kAmf "NAS_INT")
  let mac := calculateMac dig (strCommand "NAS Security Mode Command") kNasInt
  let _ ← request (.gnbSecurityCommand ⟨ueId,"NAS Security Mode Command",mac⟩)
  pure [("status","authentication_initiated")]

def handleSecurityComplete (ueId : Option String) : Service Amf JsonObject := do
  let ueId ← ofExcept (field "ue_id" ueId)
  let kAmf ← read Amf.kAmf
  let kGnb ← ofExcept (deriveKeyFrom kAmf "K_gNB")
  let _ ← request (.gnbUeContextSetup ⟨some ueId,some kGnb,["5G-EA0","5G-IA0"]⟩)
  let _ ← request (.smfSessionEstablishment ⟨some ueId,some kGnb⟩)
  pure [("status","registration_complete")]

end Amf

/-- What the gNB slices for its MAC: an int has no slices. -/
inductive PyValue where
  | int (n : Int)
  | str (s : String)
  deriving DecidableEq, Repr

def PyValue.sliceTo : PyValue → Nat → Except PyError PyValue
  | .int _, _ => .error (.typeError "'int' object is not subscriptable")
  | .str s, n => .ok (.str (GrpKeySec.sliceTo s n))

def PyValue.text : PyValue → String
  | .int n => toString n
  | .str s => s

structure Gnb where
  ueContexts : Dict String UeContext
  kGnb : Option String
  deriving DecidableEq

namespace Gnb

def calculateMac (dig : Digests) (message key : String) : Except PyError String :=
  match (PyValue.int (dig.hash (message ++ key))).sliceTo 8 with
  | .ok digest => .ok ("MAC_" ++ digest.text)
  | .error e => .error e

def handleRegistration {σ : Type} (ueId : Option String) : Service σ JsonObject := do
  let response ← request (.amfRegistration ueId)
  ofExcept response.jsonBody

def handleUeContextSetup (dig : Digests) (context : UeContext) : Service Gnb Unit := do
  let ueId ← ofExcept (field "ue_id" context.ueId)
  assign (fun s => { s with ueContexts := s.ueContexts.set ueId context })
  let kGnb ← ofExcept (field "k_gnb" context.kGnb)
  assign (fun s => { s with kGnb := some kGnb })
  let _kRrcEnc := deriveKey kGnb "RRC_ENC"
  let kRrcInt := deriveKey kGnb "RRC_INT"
  let mac ← ofExcept (calculateMac dig (strCommand "RRC Security Mode Command") kRrcInt)
  let _ ← request (.ueSecurityCommand ⟨ueId,"RRC Security Mode Command",mac⟩)
  pure ()

def ueContextSetup (dig : Digests) (context : UeContext) : Service Gnb JsonObject := do
  handleUeContextSetup dig context
  pure [("status","success")]

def securityComplete {σ : Type} (ueId : Option String) : Service σ JsonObject := do
  let _ ← request (.amfSecurityComplete ueId)
  pure [("status","success")]

end Gnb

structure Session where
  kUpEnc : String
  status : String
  deriving DecidableEq, Repr

structure Smf where
  sessions : Dict String Session
  deriving DecidableEq

namespace Smf

def ueIp (n : Nat) : String := "10.10.0." ++ n.repr

def establishSession (r : SessionRequest) : Service Smf JsonObject := do
  -- exit statuses of os.system are dropped by the source
  let _ ← request (.osSystem "sudo ip link add gtp0 type gtp")
  let _ ← request (.osSystem "sudo ip addr add 10.10.0.1/24 dev gtp0")
  let _ ← request (.osSystem "sudo ip link set gtp0 up")
  let ueId ← ofExcept (field "ue_id" r.ueId)
  let kGnb ← ofExcept (field "k_gnb" r.kGnb)
  let kUpEnc := deriveKey kGnb "UP_ENC"
  assign (fun s => { s with sessions := s.sessions.set ueId ⟨kUpEnc,"active"⟩ })
  let _ ← request (.upfConfigure ⟨ueId,kUpEnc⟩)
  let n ← request (.randint 10 254)
  pure [("status","session_established"),("ue_ip",ueIp n.number),("dns","8.8.8.8")]

end Smf

/-- The host the UPF configures. An address can only sit on an existing gtp0. -/
structure Host where
  moduleLoaded : Bool
  gtp0 : Bool
  addressSet : Bool
  linkUp : Bool
  natRules : List String
  address_on_gtp0 : addressSet = true → gtp0 = true
  deriving DecidableEq

def freshHost : Host := ⟨false,false,false,false,[],by decide⟩

namespace Upf

/-- The effect of a command, or none when the host's own state makes it fail. -/
def execCommand (host : Host) : Command → Option Host
  | .modprobeGtp => some { host with moduleLoaded := true }
  | .ipLinkAddGtp0 =>
      if host.gtp0 then none
      else some { host with gtp0 := true, address_on_gtp0 := fun _ => rfl }
  | .ipAddrAddGtp0 =>
      if h : host.gtp0 = true then
        if host.addressSet then none
        else some { host with addressSet := true, address_on_gtp0 := fun _ => h }
      else none
  | .ipLinkSetGtp0Up => if host.gtp0 then some { host with linkUp := true } else none
  | .iptablesMasquerade =>
      some { host with natRules := host.natRules ++ ["POSTROUTING -o eth0 -j MASQUERADE"] }

/-- `subprocess.run(..)`: the command fails when the environment gives a nonzero
exit status, without effect, or when the host refuses it. -/
def run (command : Command) : Service Host Bool := do
  let status ← request (.subprocessRun command)
  let host ← read id
  match status.number, execCommand host command with
  | 0, some host' => do
      assign (fun _ => host')
      pure true
  | _, _ => pure false

def runChecked (command : Command) : Service Host Unit := do
  let succeeded ← run command
  if succeeded then pure () else raise .calledProcessError

def createGtpInterface : Service Host Bool :=
  Handler.tryCatch (do
      runChecked .modprobeGtp
      runChecked .ipLinkAddGtp0
      runChecked .ipAddrAddGtp0
      runChecked .ipLinkSetGtp0Up
      pure true)
    (fun
      | .calledProcessError => ret false
      | e => raise e)

def configure : Service Host Reply := do
  let created ← createGtpInterface
  if created then
    let _ ← run .iptablesMasquerade
    pure (.json 200 [("status","UPF configured"),("gtp_interface","gtp0"),
      ("ue_gateway","10.10.0.2"),("subnet","10.10.0.0/24")])
  else pure (.json 500 [("status","GTP interface creation failed")])

end Upf
end GrpKeySec
