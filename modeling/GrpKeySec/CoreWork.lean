import GrpKeySec.CoreNet
import GrpKeySec.ServiceWork
set_option autoImplicit false

/-!
The group_key_mgmt core comes to an end: what a client request costs in steps of all the
services together, and that no request is left without a reply where nothing fails.
-/

namespace GrpKeySec
open Handler Service

/-- The steps that a request can cause: to start its handler, to go on with each answer,
and what the handlers of its own requests cost. -/
def stepsFor : Request → Nat
  | .udmAuthData _ => 1
  | .ausfAuthenticate _ _ => 3
  | .amfRegistration _ => 7
  | .amfSecurityComplete _ => 16
  | .gnbRegistration _ => 9
  | .gnbSecurityComplete _ => 18
  | .gnbUeContextSetup _ | .gnbSecurityCommand _ | .ueSecurityCommand _ => 1
  | .smfSessionEstablishment _ => 12
  | .upfConfigure _ => 6
  | .osSystem _ | .randint _ _ | .subprocessRun _ => 0

section Within

variable {σ : Type} {c : Nat}

theorem flask_within {h : Service σ Reply} (hh : h.Within stepsFor c) :
    (flask h).Within stepsFor c := within_tryCatch hh (fun _ => trivial)

theorem jsonify_within {h : Service σ JsonObject} (hh : h.Within stepsFor c) :
    (jsonify h).Within stepsFor c := within_bind (d := 0) hh (fun _ => trivial)

end Within

theorem Ausf.authenticate_within (u : Option String) :
    (Ausf.authenticate u).Within stepsFor 2 := by
  refine within_ofExcept_bind _ (fun u => ?_)
  refine within_request_bind 0 le_rfl (fun response => ?_)
  refine within_ofExcept_bind _ (fun authVector => ?_)
  refine within_assign_bind _ ?_
  exact within_ofExcept_bind _ (fun _ => trivial)

theorem Amf.handleRegistration_within (dig : Digests) (u : Option String) :
    (Amf.handleRegistration dig u).Within stepsFor 6 := by
  refine within_ofExcept_bind _ (fun u => ?_)
  refine within_request_bind 2 le_rfl (fun response => ?_)
  refine within_ofExcept_bind _ (fun context => ?_)
  refine within_assign_bind _ ?_
  refine within_ofExcept_bind _ (fun kAusf => ?_)
  refine within_assign_bind _ ?_
  refine within_read_bind _ (fun kAmf => ?_)
  refine within_ofExcept_bind _ (fun _ => ?_)
  refine within_ofExcept_bind _ (fun kNasInt => ?_)
  exact within_request_bind 0 le_rfl (fun _ => trivial)

theorem Amf.handleSecurityComplete_within (u : Option String) :
    (Amf.handleSecurityComplete u).Within stepsFor 15 := by
  refine within_ofExcept_bind _ (fun u => ?_)
  refine within_read_bind _ (fun kAmf => ?_)
  refine within_ofExcept_bind _ (fun kGnb => ?_)
  refine within_request_bind 13 le_rfl (fun _ => ?_)
  exact within_request_bind 0 le_rfl (fun _ => trivial)

theorem Gnb.ueContextSetup_within (dig : Digests) (context : UeContext) :
    (Gnb.ueContextSetup dig context).Within stepsFor 0 := by
  simp only [Gnb.ueContextSetup,Gnb.handleUeContextSetup,Gnb.calculateMac,PyValue.sliceTo,
    ofExcept_error,raise_bind,bind_assoc]
  refine within_ofExcept_bind _ (fun u => ?_)
  refine within_assign_bind _ ?_
  exact within_ofExcept_bind _ (fun k => trivial)

theorem Smf.establishSession_within (r : SessionRequest) :
    (Smf.establishSession r).Within stepsFor 11 := by
  refine within_request_bind 10 le_rfl (fun _ => ?_)
  refine within_request_bind 9 le_rfl (fun _ => ?_)
  refine within_request_bind 8 le_rfl (fun _ => ?_)
  refine within_ofExcept_bind _ (fun u => ?_)
  refine within_ofExcept_bind _ (fun k => ?_)
  refine within_assign_bind _ ?_
  refine within_request_bind 1 le_rfl (fun _ => ?_)
  exact within_request_bind 0 le_rfl (fun _ => trivial)

theorem Upf.run_within (command : Command) : (Upf.run command).Within stepsFor 1 := by
  refine within_request_bind 0 le_rfl (fun status => ?_)
  refine within_read_bind _ (fun host => ?_)
  split <;> trivial

theorem Upf.runChecked_within (command : Command) : (Upf.runChecked command).Within stepsFor 1 := by
  refine within_bind (d := 0) (Upf.run_within command) (fun succeeded => ?_)
  cases succeeded <;> trivial

theorem Upf.configure_within : Upf.configure.Within stepsFor 5 := by
  refine within_bind (c := 4) (d := 1) (within_tryCatch ?_ ?_) (fun created => ?_)
  · refine within_bind (d := 3) (Upf.runChecked_within _) (fun _ => ?_)
    refine within_bind (d := 2) (Upf.runChecked_within _) (fun _ => ?_)
    refine within_bind (d := 1) (Upf.runChecked_within _) (fun _ => ?_)
    exact within_bind (d := 0) (Upf.runChecked_within _) (fun _ => trivial)
  · intro e
    cases e <;> trivial
  · cases created with
    | false => trivial
    | true => exact within_bind (d := 0) (Upf.run_within _) (fun _ => trivial)

theorem wholeCore_priced (dig : Digests) (db : Udm.SubscriberDb) :
    (wholeCore dig db).Priced stepsFor := by
  intro r h hs
  have hr := (system_serve hs).2
  cases r with
  | udmAuthData u =>
    obtain rfl := Option.some.inj hr
    exact ⟨0,le_rfl,flask_within (jsonify_within (within_ofExcept_bind _ (fun _ => trivial)))⟩
  | ausfAuthenticate u net =>
    obtain rfl := Option.some.inj hr
    exact ⟨2,le_rfl,within_zoom (flask_within (jsonify_within (Ausf.authenticate_within u)))⟩
  | amfRegistration u =>
    obtain rfl := Option.some.inj hr
    exact ⟨6,le_rfl,within_zoom (flask_within (jsonify_within (Amf.handleRegistration_within dig u)))⟩
  | amfSecurityComplete u =>
    obtain rfl := Option.some.inj hr
    exact ⟨15,le_rfl,within_zoom (flask_within (jsonify_within (Amf.handleSecurityComplete_within u)))⟩
  | gnbRegistration u =>
    obtain rfl := Option.some.inj hr
    exact ⟨8,le_rfl,flask_within (jsonify_within (within_request_bind 0 le_rfl
      (fun _ => within_ofExcept _ _)))⟩
  | gnbSecurityComplete u =>
    obtain rfl := Option.some.inj hr
    exact ⟨17,le_rfl,flask_within (jsonify_within (within_request_bind 0 le_rfl (fun _ => trivial)))⟩
  | gnbUeContextSetup c =>
    obtain rfl := Option.some.inj hr
    exact ⟨0,le_rfl,within_zoom (flask_within (jsonify_within (Gnb.ueContextSetup_within dig c)))⟩
  | gnbSecurityCommand c =>
    obtain rfl := Option.some.inj hr
    exact ⟨0,le_rfl,trivial⟩
  | ueSecurityCommand c =>
    obtain rfl := Option.some.inj hr
    exact ⟨0,le_rfl,trivial⟩
  | smfSessionEstablishment r =>
    obtain rfl := Option.some.inj hr
    exact ⟨11,le_rfl,within_zoom (flask_within (jsonify_within (Smf.establishSession_within r)))⟩
  | upfConfigure q =>
    obtain rfl := Option.some.inj hr
    exact ⟨5,le_rfl,within_zoom (flask_within Upf.configure_within)⟩
  | osSystem c => simp [route] at hr
  | randint lo hi => simp [route] at hr
  | subprocessRun c => simp [route] at hr

theorem stepsFor_le (r : Request) : stepsFor r ≤ 18 := by
  cases r <;> simp [stepsFor]

/-- Whatever fails and however the handlers interleave, a run has no more steps than its
client requests pay for, 18 for each at most: the services never call each other in a
circle. -/
theorem core_work_bounded (dig : Digests) (db : Udm.SubscriberDb) (host : Host)
    {tr : List (CoreNet × Action Request Reply PyError)} {n : CoreNet}
    (h : (wholeCore dig db).Run (startWorld host) tr n) :
    System.work (tr.map Prod.snd) ≤ System.paid stepsFor (tr.map Prod.snd) ∧
    System.work (tr.map Prod.snd) ≤
      18 * (tr.map Prod.snd).countP (fun a => !a.task.isSome) := by
  have hwork := h.work_le (wholeCore_priced dig db)
  exact ⟨hwork,hwork.trans (System.paid_le stepsFor_le _)⟩

theorem core_work_bounded_sample :
    ∃ tr n, (wholeCore sampleDigests Udm.subscriberDb).Run (startWorld freshHost) tr n ∧
      System.paid stepsFor (tr.map Prod.snd) = 23 ∧ System.work (tr.map Prod.snd) = 23 ∧
      System.work (tr.map Prod.snd) ≤ 18 * (tr.map Prod.snd).countP (fun a => !a.task.isSome) := by
  have hexec : ((wholeCore sampleDigests Udm.subscriberDb).exec anyStart ⟨startWorld freshHost,[]⟩
      (registers "imsi-001010000000001" 0 ++ completes "imsi-001010000000001" 4 5 77)).isSome = true := by
    decide +kernel
  obtain ⟨n,hn⟩ := Option.isSome_iff_exists.mp hexec
  obtain ⟨tr,hrun,htr⟩ := System.Run.exec .nil _ hn
  refine ⟨tr,n,hrun,?_,?_,(core_work_bounded _ _ _ hrun).2⟩
  · rw [htr]
    decide
  · rw [htr]
    decide

theorem calls_answerable (dig : Digests) (db : Udm.SubscriberDb) {src q : Request}
    (h : Calls src q) : (wholeCore dig db).Answerable q := by
  intro hserve
  have hos := route_eq_none hserve
  cases q <;> simp [Request.target] at hos
  case osSystem c => exact ⟨.int 0,rfl⟩
  case subprocessRun c => exact ⟨.int 0,rfl⟩
  case randint lo hi =>
    cases src <;> simp [Calls] at h
    obtain ⟨rfl,rfl⟩ := h
    exact ⟨.int 10,rfl⟩

theorem flask_returns {σ : Type} (h : Service σ Reply) : (flask h).Returns :=
  returns_tryCatch h (fun _ => trivial)

theorem route_returns (dig : Digests) (db : Udm.SubscriberDb) {r : Request}
    {h : Service Core Reply} (hr : route dig db r = some h) : h.Returns := by
  cases r with
  | udmAuthData u | gnbRegistration u | gnbSecurityComplete u =>
    obtain rfl := Option.some.inj hr
    exact flask_returns _
  | gnbSecurityCommand c | ueSecurityCommand c =>
    obtain rfl := Option.some.inj hr
    trivial
  | osSystem c => simp [route] at hr
  | randint lo hi => simp [route] at hr
  | subprocessRun c => simp [route] at hr
  | _ =>
    obtain rfl := Option.some.inj hr
    exact (flask_returns _).zoom

theorem wholeCore_reliable (dig : Digests) (db : Udm.SubscriberDb) :
    (wholeCore dig db).Reliable where
  client := by
    intro r hr
    cases r <;> simp [wholeCore,system,fromClient] at hr <;> rfl
  serves := by
    intro r h hs
    have hr := (system_serve hs).2
    exact ⟨route_returns dig db hr,(route_footprint dig db hr).mono (fun _ _ _ => trivial)
      (fun _ hq => calls_answerable dig db hq)⟩

/-- In every reachable net, faults before it or not: where no handler can go on without a
fault, every request has its reply; and there is always a way on, without a fault and
without a new request, that gives every request its reply. -/
theorem open_requests_can_finish (dig : Digests) (db : Udm.SubscriberDb) (host : Host)
    {n : CoreNet} (hn : (wholeCore dig db).Reachable anyStart (startWorld host) n) :
    ((∀ a, a.faultless = true → (wholeCore dig db).step n a = none) →
      ∀ t ∈ n.tasks, t.Replied) ∧
    ∃ as n', (∀ a ∈ as, a.faultless = true) ∧
      (wholeCore dig db).exec anyStart n as = some n' ∧ ∀ t ∈ n'.tasks, t.Replied := by
  have hlinked := hn.linked (wholeCore_reliable dig db)
  constructor
  · intro hstuck t ht
    by_contra hopen
    obtain ⟨i,hi⟩ := List.getElem?_of_mem ht
    obtain ⟨a,ha,hstep⟩ := System.exists_faultless_step hlinked hi hopen
    simp [hstuck a ha] at hstep
  · obtain ⟨tr,hrun⟩ := hn.run
    obtain ⟨m,hm,-⟩ := hrun.affords (wholeCore_priced dig db)
    obtain ⟨as,n',has,-,hexec,hdone⟩ :=
      System.exists_finish (wholeCore_reliable dig db) (wholeCore_priced dig db) hlinked hm
    exact ⟨as,n',has,hexec,hdone⟩

theorem open_requests_can_finish_lost :
    ∃ n, (wholeCore sampleDigests Udm.subscriberDb).Reachable anyStart (startWorld freshHost) n ∧
      n.tasks.length = 3 ∧
      ∃ as n', (∀ a ∈ as, a.faultless = true) ∧
        (wholeCore sampleDigests Udm.subscriberDb).exec anyStart n as = some n' ∧
        ∀ t ∈ n'.tasks, t.Replied := by
  obtain ⟨n,hn,hf⟩ := reachable_of_exec (wholeCore sampleDigests Udm.subscriberDb) anyStart freshHost
    [.client (.amfRegistration (some "imsi-001010000000001")),.start 0,.start 1,
     .fail 0 .connectionError] (fun n => decide (n.tasks.length = 3)) (by decide +kernel)
  exact ⟨n,hn,of_decide_eq_true hf,(open_requests_can_finish _ _ _ hn).2⟩

end GrpKeySec
