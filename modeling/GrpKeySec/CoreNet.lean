import GrpKeySec.CoreServices
import GrpKeySec.ServiceNet
set_option autoImplicit false

/-!
The group_key_mgmt core as one system: the fields of all services, the route
table, and what a service outside the modelled part may answer. The same routes
serve the whole core, the AMF with gNB and SMF, or the AMF alone.
-/

namespace GrpKeySec
open Handler Service

inductive Component where
  | udm | ausf | amf | gnb | smf | upf | ue | os
  deriving DecidableEq, Repr

def Request.target : Request → Component
  | .udmAuthData _ => .udm
  | .ausfAuthenticate _ _ => .ausf
  | .amfRegistration _ | .amfSecurityComplete _ => .amf
  | .gnbRegistration _ | .gnbSecurityComplete _ => .gnb
  | .gnbUeContextSetup _ | .gnbSecurityCommand _ => .gnb
  | .ueSecurityCommand _ => .ue
  | .smfSessionEstablishment _ => .smf
  | .upfConfigure _ => .upf
  | .osSystem _ | .randint _ _ | .subprocessRun _ => .os

structure Core where
  ausf : Ausf
  amf : Amf
  gnb : Gnb
  smf : Smf
  upf : Host
  deriving DecidableEq

def Core.initial (host : Host) : Core where
  ausf := ⟨∅⟩
  amf := ⟨∅,none⟩
  gnb := ⟨∅,none⟩
  smf := ⟨∅⟩
  upf := host

def onAusf (h : Service Ausf Reply) : Service Core Reply :=
  h.zoom Core.ausf (fun u c => { c with ausf := u c.ausf })

def onAmf (h : Service Amf Reply) : Service Core Reply :=
  h.zoom Core.amf (fun u c => { c with amf := u c.amf })

def onGnb (h : Service Gnb Reply) : Service Core Reply :=
  h.zoom Core.gnb (fun u c => { c with gnb := u c.gnb })

def onSmf (h : Service Smf Reply) : Service Core Reply :=
  h.zoom Core.smf (fun u c => { c with smf := u c.smf })

def onUpf (h : Service Host Reply) : Service Core Reply :=
  h.zoom Core.upf (fun u c => { c with upf := u c.upf })

/-- The routes. The gNB and the UE have no /security_command route, so the two
security commands meet a 404 page. -/
def route (dig : Digests) (db : Udm.SubscriberDb) : Request → Option (Service Core Reply)
  | .udmAuthData ueId => some (flask (jsonify (Udm.authData db ueId)))
  | .ausfAuthenticate ueId _ => some (onAusf (flask (jsonify (Ausf.authenticate ueId))))
  | .amfRegistration ueId => some (onAmf (flask (jsonify (Amf.handleRegistration dig ueId))))
  | .amfSecurityComplete ueId => some (onAmf (flask (jsonify (Amf.handleSecurityComplete ueId))))
  | .gnbRegistration ueId => some (flask (jsonify (Gnb.handleRegistration ueId)))
  | .gnbSecurityComplete ueId => some (flask (jsonify (Gnb.securityComplete ueId)))
  | .gnbUeContextSetup context => some (onGnb (flask (jsonify (Gnb.ueContextSetup dig context))))
  | .gnbSecurityCommand _ => some (ret (.html 404))
  | .ueSecurityCommand _ => some (ret (.html 404))
  | .smfSessionEstablishment r => some (onSmf (flask (jsonify (Smf.establishSession r))))
  | .upfConfigure _ => some (onUpf (flask Upf.configure))
  | .osSystem _ => none
  | .randint _ _ => none
  | .subprocessRun _ => none

/-- Any HTTP post may raise in its sender. A service outside the model may reply
with any JSON or an error page, the AUSF with any object that has a k_ausf. -/
def legal : Request → Except PyError Reply → Bool
  | r, .error e => decide (r.target ≠ .os) && decide (e = .connectionError)
  | .ausfAuthenticate _ _, .ok (.json _ body) => (body.lookup "k_ausf").isSome
  | .randint lo hi, .ok (.int n) => decide (lo ≤ n) && decide (n ≤ hi)
  | r, .ok (.int _) => decide (r.target = .os)
  | r, .ok _ => decide (r.target ≠ .os)

/-- Clients post registrations and security-mode completions to the gNB or the
AMF. SMF and UPF, and the context setup of the gNB, are called by services only. -/
def fromClient : Request → Bool
  | .amfRegistration _ | .amfSecurityComplete _ => true
  | .gnbRegistration _ | .gnbSecurityComplete _ => true
  | _ => false

/-- What the handler of a request can write: the fields of its own service, and
nothing at all when it only forwards. -/
def Writes : Request → Core → Core → Prop
  | .ausfAuthenticate _ _, s, s' => s' = { s with ausf := s'.ausf }
  | .amfRegistration _, s, s' => s' = { s with amf := s'.amf }
  | .gnbUeContextSetup _, s, s' => s' = { s with gnb := s'.gnb }
  | .smfSessionEstablishment _, s, s' => s' = { s with smf := s'.smf }
  | .upfConfigure _, s, s' => s' = { s with upf := s'.upf }
  | _, s, s' => s' = s

/-- Which requests the handler of a request can issue. The gNB has none: its
MAC raises before the command to the UE. -/
def Calls : Request → Request → Prop
  | .ausfAuthenticate ueId _, .udmAuthData q => q = ueId
  | .amfRegistration ueId, .ausfAuthenticate q net => q = ueId ∧ net = Amf.servingNetwork
  | .amfRegistration ueId, .gnbSecurityCommand c => ueId = some c.ueId
  | .amfSecurityComplete ueId, .gnbUeContextSetup c => c.ueId = ueId
  | .amfSecurityComplete ueId, .smfSessionEstablishment r => r.ueId = ueId
  | .gnbRegistration ueId, .amfRegistration q => q = ueId
  | .gnbSecurityComplete ueId, .amfSecurityComplete q => q = ueId
  | .smfSessionEstablishment _, .osSystem _ => True
  | .smfSessionEstablishment _, .randint lo hi => lo = 10 ∧ hi = 254
  | .smfSessionEstablishment r, .upfConfigure c => r.ueId = some c.ueId
  | .upfConfigure _, .subprocessRun _ => True
  | _, _ => False

def Request.setsUp : Request → Option String
  | .gnbUeContextSetup c => c.ueId
  | .smfSessionEstablishment r => r.ueId
  | _ => none

def Request.completes : Request → Option String
  | .amfSecurityComplete u => u
  | _ => none

/-- The handler of such a request leaves AMF, gNB and SMF alone and sets up no UE. -/
def Request.quiet : Request → Bool
  | .amfRegistration _ | .amfSecurityComplete _ => false
  | .gnbUeContextSetup _ | .smfSessionEstablishment _ => false
  | _ => true

theorem Writes.unchanged {r : Request} {s s' : Core} (h : Writes r s s') :
    ((∀ u, r ≠ .amfRegistration u) → s'.amf = s.amf) ∧
    ((∀ c, r ≠ .gnbUeContextSetup c) → s'.gnb = s.gnb) ∧
    ((∀ q, r ≠ .smfSessionEstablishment q) → s'.smf = s.smf) ∧
    ((∀ q, r ≠ .upfConfigure q) → s'.upf = s.upf) := by
  refine ⟨fun hr => ?_,fun hr => ?_,fun hr => ?_,fun hr => ?_⟩ <;> cases r <;>
    first
    | exact absurd rfl (hr _)
    | rw [show s' = _ from h]

theorem Writes.amf_eq {r : Request} {s s' : Core} (h : Writes r s s')
    (hr : ∀ u, r ≠ .amfRegistration u) : s'.amf = s.amf := h.unchanged.1 hr

theorem Writes.upf_eq {r : Request} {s s' : Core} (h : Writes r s s')
    (hr : ∀ q, r ≠ .upfConfigure q) : s'.upf = s.upf := h.unchanged.2.2.2 hr

theorem Writes.quiet {r : Request} {s s' : Core} (h : Writes r s s') (hr : r.quiet = true) :
    s'.amf = s.amf ∧ s'.gnb = s.gnb ∧ s'.smf = s.smf := by
  obtain ⟨hamf,hgnb,hsmf,-⟩ := h.unchanged
  refine ⟨hamf ?_,hgnb ?_,hsmf ?_⟩ <;> rintro _ rfl <;> simp [Request.quiet] at hr

theorem Calls.quiet {src r : Request} (h : Calls src r) (hs : src.quiet = true) :
    (∀ c, r ≠ .gnbUeContextSetup c) ∧ ∀ q, r ≠ .smfSessionEstablishment q := by
  constructor
  · rintro c rfl
    cases src <;> simp [Request.quiet] at hs <;> exact h
  · rintro q rfl
    cases src <;> simp [Request.quiet] at hs <;> exact h

section Footprints

variable {σ : Type} {M : σ → σ → Prop} {P : Request → Prop}

theorem flask_footprint {h : Service σ Reply} (hh : h.Footprint M P) :
    (flask h).Footprint M P := footprint_tryCatch hh (fun _ => trivial)

theorem jsonify_footprint {h : Service σ JsonObject} (hh : h.Footprint M P) :
    (jsonify h).Footprint M P := footprint_bind hh (fun _ => trivial)

end Footprints

theorem Ausf.authenticate_footprint (u : Option String) (net : String) :
    (Ausf.authenticate u).Footprint (fun _ _ => True) (Calls (.ausfAuthenticate u net)) := by
  cases u with
  | none => trivial
  | some u =>
    simp only [Ausf.authenticate,field,ofExcept_ok,ret_bind]
    refine footprint_bind (footprint_request rfl) (fun response => ?_)
    refine footprint_bind (footprint_ofExcept _) (fun authVector => ?_)
    refine footprint_bind (footprint_assign _ (fun _ => trivial)) (fun _ => ?_)
    exact footprint_bind (footprint_ofExcept _) (fun _ => trivial)

theorem Amf.handleRegistration_footprint (dig : Digests) (u : Option String) :
    (Amf.handleRegistration dig u).Footprint (fun _ _ => True) (Calls (.amfRegistration u)) := by
  cases u with
  | none => trivial
  | some u =>
    simp only [Amf.handleRegistration,field,ofExcept_ok,ret_bind]
    refine footprint_bind (footprint_request ⟨rfl,rfl⟩) (fun response => ?_)
    refine footprint_bind (footprint_ofExcept _) (fun context => ?_)
    refine footprint_bind (footprint_assign _ (fun _ => trivial)) (fun _ => ?_)
    refine footprint_bind (footprint_ofExcept _) (fun kAusf => ?_)
    refine footprint_bind (footprint_assign _ (fun _ => trivial)) (fun _ => ?_)
    refine footprint_bind (footprint_read _) (fun kAmf => ?_)
    refine footprint_bind (footprint_ofExcept _) (fun _ => ?_)
    refine footprint_bind (footprint_ofExcept _) (fun kNasInt => ?_)
    exact footprint_bind (footprint_request rfl) (fun _ => trivial)

theorem Amf.handleSecurityComplete_footprint (u : Option String) :
    (Amf.handleSecurityComplete u).Footprint (fun _ _ => False)
      (Calls (.amfSecurityComplete u)) := by
  cases u with
  | none => trivial
  | some u =>
    simp only [Amf.handleSecurityComplete,field,ofExcept_ok,ret_bind]
    refine footprint_bind (footprint_read _) (fun kAmf => ?_)
    refine footprint_bind (footprint_ofExcept _) (fun kGnb => ?_)
    refine footprint_bind (footprint_request rfl) (fun _ => ?_)
    exact footprint_bind (footprint_request rfl) (fun _ => trivial)

theorem Gnb.ueContextSetup_footprint (dig : Digests) (c : UeContext) :
    (Gnb.ueContextSetup dig c).Footprint (fun _ _ => True) (Calls (.gnbUeContextSetup c)) := by
  simp only [Gnb.ueContextSetup,Gnb.handleUeContextSetup,Gnb.calculateMac,PyValue.sliceTo,
    ofExcept_error,raise_bind,bind_assoc]
  refine footprint_bind (footprint_ofExcept _) (fun u => ?_)
  refine footprint_bind (footprint_assign _ (fun _ => trivial)) (fun _ => ?_)
  refine footprint_bind (footprint_ofExcept _) (fun k => ?_)
  exact footprint_bind (footprint_assign _ (fun _ => trivial)) (fun _ => trivial)

theorem Smf.establishSession_footprint (r : SessionRequest) :
    (Smf.establishSession r).Footprint (fun _ _ => True)
      (Calls (.smfSessionEstablishment r)) := by
  refine footprint_bind (footprint_request trivial) (fun _ => ?_)
  refine footprint_bind (footprint_request trivial) (fun _ => ?_)
  refine footprint_bind (footprint_request trivial) (fun _ => ?_)
  cases hu : r.ueId with
  | none => trivial
  | some u =>
    simp only [field,ofExcept_ok,ret_bind]
    refine footprint_bind (footprint_ofExcept _) (fun k => ?_)
    refine footprint_bind (footprint_assign _ (fun _ => trivial)) (fun _ => ?_)
    refine footprint_bind (footprint_request hu) (fun _ => ?_)
    exact footprint_bind (footprint_request ⟨rfl,rfl⟩) (fun _ => trivial)

theorem Upf.run_footprint (c : Command) (q : ConfigureRequest) :
    (Upf.run c).Footprint (fun _ _ => True) (Calls (.upfConfigure q)) := by
  refine footprint_bind (footprint_request trivial) (fun status => ?_)
  refine footprint_bind (footprint_read _) (fun host => ?_)
  split
  · exact footprint_bind (footprint_assign _ (fun _ => trivial)) (fun _ => trivial)
  · trivial

theorem Upf.runChecked_footprint (c : Command) (q : ConfigureRequest) :
    (Upf.runChecked c).Footprint (fun _ _ => True) (Calls (.upfConfigure q)) := by
  refine footprint_bind (Upf.run_footprint c q) (fun succeeded => ?_)
  cases succeeded <;> trivial

theorem Upf.configure_footprint (q : ConfigureRequest) :
    Upf.configure.Footprint (fun _ _ => True) (Calls (.upfConfigure q)) := by
  refine footprint_bind (footprint_tryCatch ?_ ?_) (fun created => ?_)
  · refine footprint_bind (Upf.runChecked_footprint _ q) (fun _ => ?_)
    refine footprint_bind (Upf.runChecked_footprint _ q) (fun _ => ?_)
    refine footprint_bind (Upf.runChecked_footprint _ q) (fun _ => ?_)
    exact footprint_bind (Upf.runChecked_footprint _ q) (fun _ => trivial)
  · intro e
    cases e <;> trivial
  · cases created with
    | false => trivial
    | true => exact footprint_bind (Upf.run_footprint _ q) (fun _ => trivial)

theorem route_footprint (dig : Digests) (db : Udm.SubscriberDb) {r : Request}
    {h : Service Core Reply} (hr : route dig db r = some h) :
    h.Footprint (Writes r) (Calls r) := by
  cases r with
  | udmAuthData u =>
    obtain rfl := Option.some.inj hr
    exact flask_footprint (jsonify_footprint (footprint_bind (footprint_ofExcept _)
      (fun _ => trivial)))
  | ausfAuthenticate u net =>
    obtain rfl := Option.some.inj hr
    exact footprint_zoom (flask_footprint (jsonify_footprint (Ausf.authenticate_footprint u net)))
      (fun _ _ _ => rfl)
  | amfRegistration u =>
    obtain rfl := Option.some.inj hr
    exact footprint_zoom (flask_footprint (jsonify_footprint (Amf.handleRegistration_footprint dig u)))
      (fun _ _ _ => rfl)
  | amfSecurityComplete u =>
    obtain rfl := Option.some.inj hr
    exact footprint_zoom (flask_footprint (jsonify_footprint (Amf.handleSecurityComplete_footprint u)))
      (fun _ hu s => (hu s.amf).elim)
  | gnbRegistration u =>
    obtain rfl := Option.some.inj hr
    exact flask_footprint (jsonify_footprint (footprint_bind (footprint_request rfl)
      (fun _ => footprint_ofExcept _)))
  | gnbSecurityComplete u =>
    obtain rfl := Option.some.inj hr
    exact flask_footprint (jsonify_footprint (footprint_bind (footprint_request rfl)
      (fun _ => trivial)))
  | gnbUeContextSetup c =>
    obtain rfl := Option.some.inj hr
    exact footprint_zoom (flask_footprint (jsonify_footprint (Gnb.ueContextSetup_footprint dig c)))
      (fun _ _ _ => rfl)
  | gnbSecurityCommand c =>
    obtain rfl := Option.some.inj hr
    trivial
  | ueSecurityCommand c =>
    obtain rfl := Option.some.inj hr
    trivial
  | smfSessionEstablishment r =>
    obtain rfl := Option.some.inj hr
    exact footprint_zoom (flask_footprint (jsonify_footprint (Smf.establishSession_footprint r)))
      (fun _ _ _ => rfl)
  | upfConfigure q =>
    obtain rfl := Option.some.inj hr
    exact footprint_zoom (flask_footprint (Upf.configure_footprint q))
      (fun _ _ _ => rfl)
  | osSystem c => simp [route] at hr
  | randint lo hi => simp [route] at hr
  | subprocessRun c => simp [route] at hr

def system (dig : Digests) (db : Udm.SubscriberDb) (modelled : Component → Bool) :
    System Core Request Reply PyError where
  serve := fun r => if modelled r.target then route dig db r else none
  legal := legal
  client := fromClient

theorem system_serve {dig : Digests} {db : Udm.SubscriberDb} {modelled : Component → Bool}
    {r : Request} {h : Service Core Reply} (hs : (system dig db modelled).serve r = some h) :
    modelled r.target = true ∧ route dig db r = some h := by
  by_cases hm : modelled r.target = true
  · simp only [system,hm,if_true] at hs
    exact ⟨hm,hs⟩
  · simp [system,hm] at hs

theorem route_eq_none {dig : Digests} {db : Udm.SubscriberDb} {r : Request}
    (h : route dig db r = none) : r.target = .os := by
  cases r <;> simp [route] at h <;> rfl

abbrev CoreWorld := World Core Request Reply PyError
abbrev CoreNet := Net Core Request Reply PyError
abbrev CoreContract := Contract Core Request Reply PyError
abbrev CoreLog := List (Event Request Reply PyError)
abbrev CoreTrace := List (CoreNet × Action Request Reply PyError)

def wholeCore (dig : Digests) (db : Udm.SubscriberDb) : System Core Request Reply PyError :=
  system dig db (fun _ => true)

def amfGnbSmf (dig : Digests) (db : Udm.SubscriberDb) : System Core Request Reply PyError :=
  system dig db (fun c => c = .amf || c = .gnb || c = .smf)

def amfAlone (dig : Digests) (db : Udm.SubscriberDb) : System Core Request Reply PyError :=
  system dig db (fun c => c = .amf)

def startWorld (host : Host) : CoreWorld := ⟨Core.initial host,[]⟩

-- Concrete runs: a registration and a security-mode completion, each served to its end
-- before anything else happens, with the first free task number.

/-- The SHA-256 digest of the NAS command under NAS_INT_derived_from_K_AMF_deri,
the only text hashed below; the built-in hash differs from process to process. -/
def sampleDigests : Digests where
  sha256Hex := fun _ => "2129f34e16c9f69a59452fa1b5b0250c1331355d613dde92a25f1cb49eba1180"
  hash := fun _ => 7120518342269051

def registers (u : String) (i : Nat) : List (Action Request Reply PyError) :=
  [.client (.amfRegistration (some u)),.start i,.start (i+1),.start (i+2),.reply (i+1),.reply i,
   .start (i+3),.reply i]

/-- The UPF runs five commands for its first request and two, the second of them
refused, for every later one. -/
def completes (u : String) (i commands draw : Nat) : List (Action Request Reply PyError) :=
  [.client (.amfSecurityComplete (some u)),.start i,.start (i+1),.reply i,.start (i+2),
   .answer (i+2) (.int 0),.answer (i+2) (.int 0),.answer (i+2) (.int 0),.start (i+3)] ++
  List.replicate commands (.answer (i+3) (.int 0)) ++
  [.reply (i+2),.answer (i+2) (.int draw),.reply i]

theorem reachable_of_exec (S : System Core Request Reply PyError)
    (cond : StartCondition Core Request Reply PyError) [∀ r w, Decidable (cond r w)] (host : Host)
    (as : List (Action Request Reply PyError)) (f : CoreNet → Bool)
    (h : (S.exec cond ⟨startWorld host,[]⟩ as).map f = some true) :
    ∃ n, S.Reachable cond (startWorld host) n ∧ f n = true := by
  obtain ⟨n,hn,hf⟩ := Option.map_eq_some_iff.mp h
  exact ⟨n,System.Reachable.exec as .init hn,hf⟩

end GrpKeySec
