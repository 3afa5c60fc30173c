import GrpKeySec.CoreRules
set_option autoImplicit false

/-!
What a handler that ends with an exception leaves in its service. No handler
undoes an assignment, so an exception raised after one leaves it in place. The
environment is arbitrary: any call may raise, or be answered with an error page or
with any JSON object of strings.
-/

namespace GrpKeySec
open Handler Service

theorem field_eq_ok {key v : String} {o : Option String} (h : field key o = .ok v) : o = some v := by
  cases o with
  | none => exact nomatch h
  | some w => rw [show w = v from Except.ok.inj h]

theorem field_eq_error {key : String} {o : Option String} {e : PyError}
    (h : field key o = .error e) : o = none := by
  cases o with
  | none => rfl
  | some w => exact nomatch h

theorem JsonObject.item_ok {body : JsonObject} {key v : String} (h : body.item key = .ok v) :
    body.lookup key = some v := by
  unfold JsonObject.item at h
  split at h
  · rw [← Except.ok.inj h]
    assumption
  · exact nomatch h

theorem JsonObject.item_error {body : JsonObject} {key : String} {e : PyError}
    (h : body.item key = .error e) : body.lookup key = none ∧ e = .keyError key := by
  unfold JsonObject.item at h
  split at h
  · exact nomatch h
  · exact ⟨by assumption,(Except.error.inj h).symm⟩

variable {τ : Type} (env : τ → Request → τ × Except PyError Reply)

def RaisedBy (r : Request) (e : PyError) (t' : τ) : Prop := ∃ t,env t r = (t',.error e)

def Gives (t : τ) (r : Request) (t₁ : τ) (body : JsonObject) : Prop :=
  ∃ status,env t r = (t₁,.ok (.json status body))

/-- The call of `r` raises, or its answer is no JSON. -/
def GivesNothing (t : τ) (r : Request) : Prop := ∀ t₁ body,¬ Gives env t r t₁ body

theorem object_bind_error {σ α : Type} {env : τ → Request → τ × Except PyError Reply} {r : Request}
    {k : JsonObject → Service σ α} {s s' : σ} {t t' : τ} {e : PyError}
    (h : (request r >>= fun response => ofExcept response.jsonBody >>= k).run env s t =
      (.error e,s',t')) :
    (s' = s ∧ GivesNothing env t r) ∨
      ∃ t₁ body,Gives env t r t₁ body ∧ (k body).run env s t₁ = (.error e,s',t') := by
  rcases request_bind_error h with ⟨hr,hs⟩ | ⟨response,hr,h⟩
  · refine .inl ⟨hs,?_⟩
    rintro t₁ body ⟨status,hg⟩
    simp [hr] at hg
  cases response with
  | json status body => exact .inr ⟨_,body,⟨status,hr⟩,h⟩
  | _ =>
    refine .inl ⟨(Prod.mk.inj (Prod.mk.inj h).2).1.symm,?_⟩
    rintro t₁ body ⟨status,hg⟩
    rw [hr] at hg
    simp at hg

namespace Ausf

/-- The vector that the UDM gave is stored before its k_ausf is looked up. -/
def Left (ueId : Option String) (s s' : Ausf) (e : PyError) (t : τ) : Prop :=
  (s' = s ∧ ∀ u,ueId = some u → GivesNothing env t (.udmAuthData (some u))) ∨
  ∃ u t₁ authVector,ueId = some u ∧ Gives env t (.udmAuthData (some u)) t₁ authVector ∧
    authVector.lookup "k_ausf" = none ∧ e = .keyError "k_ausf" ∧
    s' = ⟨s.authenticationVectors.set u authVector⟩

theorem authenticate_error {ueId : Option String} {s s' : Ausf} {t t' : τ} {e : PyError}
    (h : (authenticate ueId).run env s t = (.error e,s',t')) : Left env ueId s s' e t := by
  unfold authenticate at h
  rcases ofExcept_bind_error h with ⟨hu,hs⟩ | ⟨u,hu,h⟩
  · exact .inl ⟨hs,fun u h => nomatch (field_eq_error hu).symm.trans h⟩
  obtain rfl := field_eq_ok hu
  rcases object_bind_error h with ⟨hs,hg⟩ | ⟨t₁,authVector,hg,h⟩
  · exact .inl ⟨hs,fun v hv => Option.some.inj hv ▸ hg⟩
  rw [run_assign_bind] at h
  rcases ofExcept_bind_error h with ⟨hitem,hs⟩ | ⟨kAusf,_,h⟩
  · obtain ⟨hk,he⟩ := JsonObject.item_error hitem
    exact .inr ⟨u,t₁,authVector,rfl,hg,hk,he,hs⟩
  · exact nomatch h

end Ausf

namespace Amf

/-- The context that the AUSF gave is stored before its k_ausf is looked up, and both fields
before the command to the gNB goes out. -/
def Left (dig : Digests) (ueId : Option String) (s s' : Amf) (e : PyError) (t t' : τ) : Prop :=
  (s' = s ∧ ∀ u,ueId = some u → GivesNothing env t (.ausfAuthenticate (some u) servingNetwork)) ∨
  ∃ u t₁ context,ueId = some u ∧ Gives env t (.ausfAuthenticate (some u) servingNetwork) t₁ context ∧
    ((context.lookup "k_ausf" = none ∧ e = .keyError "k_ausf" ∧
      s' = ⟨s.ueContexts.set u context,s.kAmf⟩) ∨
    ∃ k,context.lookup "k_ausf" = some k ∧
      env t₁ (.gnbSecurityCommand (nasCommand dig u k)) = (t',.error e) ∧
      s' = ⟨s.ueContexts.set u context,some (deriveKAmf k)⟩)

theorem handleRegistration_error (dig : Digests) {ueId : Option String} {s s' : Amf} {t t' : τ}
    {e : PyError} (h : (handleRegistration dig ueId).run env s t = (.error e,s',t')) :
    Left env dig ueId s s' e t t' := by
  unfold handleRegistration at h
  rcases ofExcept_bind_error h with ⟨hu,hs⟩ | ⟨u,hu,h⟩
  · exact .inl ⟨hs,fun u h => nomatch (field_eq_error hu).symm.trans h⟩
  obtain rfl := field_eq_ok hu
  rcases object_bind_error h with ⟨hs,hg⟩ | ⟨t₁,context,hg,h⟩
  · exact .inl ⟨hs,fun v hv => Option.some.inj hv ▸ hg⟩
  refine .inr ⟨u,t₁,context,rfl,hg,?_⟩
  rw [run_assign_bind] at h
  rcases ofExcept_bind_error h with ⟨hitem,hs⟩ | ⟨k,hitem,h⟩
  · obtain ⟨hk,he⟩ := JsonObject.item_error hitem
    exact .inl ⟨hk,he,hs⟩
  rw [run_assign_bind,run_read_bind] at h
  simp only [deriveKeyFrom,ofExcept_ok,ret_bind] at h
  -- k_amf is set by now, so of the rest only the post can raise
  rcases request_bind_error h with ⟨hpost,hs⟩ | ⟨_,_,h⟩
  · exact .inr ⟨k,JsonObject.item_ok hitem,hpost,hs⟩
  · exact nomatch h

theorem handleSecurityComplete_error {ueId : Option String} {s s' : Amf} {t t' : τ} {e : PyError}
    (h : (handleSecurityComplete ueId).run env s t = (.error e,s',t')) : s' = s := by
  unfold handleSecurityComplete at h
  rcases ofExcept_bind_error h with ⟨_,hs⟩ | ⟨u,_,h⟩
  · exact hs
  rw [run_read_bind] at h
  rcases ofExcept_bind_error h with ⟨_,hs⟩ | ⟨kGnb,_,h⟩
  · exact hs
  rcases request_bind_error h with ⟨_,hs⟩ | ⟨_,_,h⟩
  · exact hs
  rcases request_bind_error h with ⟨_,hs⟩ | ⟨_,_,h⟩
  · exact hs
  · exact nomatch h

end Amf

namespace Gnb

/-- The context is stored first and its k_gnb next; what raises after that finds
both in place. -/
def Left (context : UeContext) (s s' : Gnb) : Prop :=
  (context.ueId = none ∧ s' = s) ∨
  ∃ u,context.ueId = some u ∧
    ((context.kGnb = none ∧ s' = ⟨s.ueContexts.set u context,s.kGnb⟩) ∨
     ∃ k,context.kGnb = some k ∧ s' = ⟨s.ueContexts.set u context,some k⟩)

theorem handleUeContextSetup_error (dig : Digests) {context : UeContext} {s s' : Gnb} {t t' : τ}
    {e : PyError} (h : (handleUeContextSetup dig context).run env s t = (.error e,s',t')) :
    Left context s s' := by
  unfold handleUeContextSetup at h
  rcases ofExcept_bind_error h with ⟨hu,hs⟩ | ⟨u,hu,h⟩
  · exact .inl ⟨field_eq_error hu,hs⟩
  refine .inr ⟨u,field_eq_ok hu,?_⟩
  rw [run_assign_bind] at h
  rcases ofExcept_bind_error h with ⟨hk,hs⟩ | ⟨k,hk,h⟩
  · exact .inl ⟨field_eq_error hk,hs⟩
  refine .inr ⟨k,field_eq_ok hk,?_⟩
  rw [run_assign_bind] at h
  rcases ofExcept_bind_error h with ⟨_,hs⟩ | ⟨mac,_,h⟩
  · exact hs
  rcases request_bind_error h with ⟨_,hs⟩ | ⟨_,_,h⟩
  · exact hs
  · exact nomatch h

end Gnb

namespace Smf

def Left (r : SessionRequest) (s s' : Smf) (e : PyError) (t' : τ) : Prop :=
  (s' = s ∧ (r.ueId = none ∨ r.kGnb = none ∨
    ∃ command,RaisedBy env (.osSystem command) e t')) ∨
  ∃ u k,r.ueId = some u ∧ r.kGnb = some k ∧
    (RaisedBy env (.upfConfigure ⟨u,deriveKey k "UP_ENC"⟩) e t' ∨
      RaisedBy env (.randint 10 254) e t') ∧
    s' = ⟨s.sessions.set u ⟨deriveKey k "UP_ENC","active"⟩⟩

theorem establishSession_error {r : SessionRequest} {s s' : Smf} {t t' : τ} {e : PyError}
    (h : (establishSession r).run env s t = (.error e,s',t')) : Left env r s s' e t' := by
  unfold establishSession at h
  rcases request_bind_error h with ⟨hos,hs⟩ | ⟨_,_,h⟩
  · exact .inl ⟨hs,.inr (.inr ⟨_,_,hos⟩)⟩
  rcases request_bind_error h with ⟨hos,hs⟩ | ⟨_,_,h⟩
  · exact .inl ⟨hs,.inr (.inr ⟨_,_,hos⟩)⟩
  rcases request_bind_error h with ⟨hos,hs⟩ | ⟨_,_,h⟩
  · exact .inl ⟨hs,.inr (.inr ⟨_,_,hos⟩)⟩
  rcases ofExcept_bind_error h with ⟨hu,hs⟩ | ⟨u,hu,h⟩
  · exact .inl ⟨hs,.inl (field_eq_error hu)⟩
  rcases ofExcept_bind_error h with ⟨hk,hs⟩ | ⟨k,hk,h⟩
  · exact .inl ⟨hs,.inr (.inl (field_eq_error hk))⟩
  rw [run_assign_bind] at h
  rcases request_bind_error h with ⟨hpost,hs⟩ | ⟨_,_,h⟩
  · exact .inr ⟨u,k,field_eq_ok hu,field_eq_ok hk,.inl ⟨_,hpost⟩,hs⟩
  rcases request_bind_error h with ⟨hdraw,hs⟩ | ⟨_,_,h⟩
  · exact .inr ⟨u,k,field_eq_ok hu,field_eq_ok hk,.inr ⟨_,hdraw⟩,hs⟩
  · exact nomatch h

end Smf

/-- A handler that ends with an exception leaves the fields of its service as they
were, but for the assignments it had already made: of what it was answered and sent. -/
theorem failed_handlers_leave_assignments (dig : Digests) :
    (∀ ueId s t e s' t',
      (Ausf.authenticate ueId).run env s t = (.error e,s',t') → Ausf.Left env ueId s s' e t) ∧
    (∀ ueId s t e s' t',
      (Amf.handleRegistration dig ueId).run env s t = (.error e,s',t') →
        Amf.Left env dig ueId s s' e t t') ∧
    (∀ ueId s t e s' t',
      (Amf.handleSecurityComplete ueId).run env s t = (.error e,s',t') → s' = s) ∧
    (∀ context s t e s' t',
      (Gnb.handleUeContextSetup dig context).run env s t = (.error e,s',t') →
        Gnb.Left context s s') ∧
    (∀ r s t e s' t',
      (Smf.establishSession r).run env s t = (.error e,s',t') → Smf.Left env r s s' e t') := by
  refine ⟨?_,?_,?_,?_,?_⟩
  · intro ueId s t e s' t' h
    exact Ausf.authenticate_error env h
  · intro ueId s t e s' t' h
    exact Amf.handleRegistration_error env dig h
  · intro ueId s t e s' t' h
    exact Amf.handleSecurityComplete_error env h
  · intro context s t e s' t' h
    exact Gnb.handleUeContextSetup_error env dig h
  · intro r s t e s' t' h
    exact Smf.establishSession_error env h

def onlyAusf (_ : Unit) : Request → Unit × Except PyError Reply
  | .ausfAuthenticate _ _ =>
      ((),.ok (.json 200 [("status","success"),("k_ausf","K_AUSF_derived_from_0x00112233"),
        ("auth_result","authenticated")]))
  | _ => ((),.error .connectionError)

def strandedAmf : Amf :=
  ((Amf.handleRegistration sampleDigests (some "imsi-001010000000001")).run onlyAusf
    (Core.initial freshHost).amf ()).2.1

theorem failed_handlers_leave_assignments_registration :
    Amf.Left onlyAusf sampleDigests (some "imsi-001010000000001") (Core.initial freshHost).amf
      strandedAmf .connectionError () () :=
  (failed_handlers_leave_assignments onlyAusf sampleDigests).2.1 _ _ () _ _ _ (by decide +kernel)

theorem failed_registration_changes_amf :
    ((Amf.handleRegistration sampleDigests (some "imsi-001010000000001")).run onlyAusf
      (Core.initial freshHost).amf ()).1 = .error .connectionError ∧
    strandedAmf ≠ (Core.initial freshHost).amf := by
  decide +kernel

end GrpKeySec
