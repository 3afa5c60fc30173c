import GrpKeySec.CoreNet
set_option autoImplicit false

/-!
One proof rule for each handler of the core, for any contract: what must be
shown at the end of each of its segments. The invariants of the following
modules use these rules and never unfold a handler.
-/

namespace GrpKeySec
open Handler Service

/-- `Ends` for a segment that stops at the request `q`, with the condition on `q`. -/
structure Contract.Asks {σ ρ β ε : Type} (C : Contract σ ρ β ε) (src q : ρ)
    (w₀ w : World σ ρ β ε) : Prop where
  ends : C.Ends src w₀ (w.record (.posted src q))
  pre : C.pre q (w.record (.posted src q))

variable {C : CoreContract}

def Core.storeContext (c : Core) (u : String) (context : JsonObject) : Core :=
  { c with amf := { c.amf with ueContexts := c.amf.ueContexts.set u context } }

def Core.storeKAmf (c : Core) (kAusf : String) : Core :=
  { c with amf := { c.amf with kAmf := some (Amf.deriveKAmf kAusf) } }

def Core.storeGnbContext (c : Core) (u : String) (context : UeContext) : Core :=
  { c with gnb := { c.gnb with ueContexts := c.gnb.ueContexts.set u context } }

def Core.storeKGnb (c : Core) (k : String) : Core :=
  { c with gnb := { c.gnb with kGnb := some k } }

def Core.storeSession (c : Core) (u : String) (session : Session) : Core :=
  { c with smf := ⟨c.smf.sessions.set u session⟩ }

def setupRequest (u kAmf : String) : Request :=
  .gnbUeContextSetup ⟨some u,some (Amf.deriveKey kAmf "K_gNB"),["5G-EA0","5G-IA0"]⟩

def sessionRequest (u kAmf : String) : Request :=
  .smfSessionEstablishment ⟨some u,some (Amf.deriveKey kAmf "K_gNB")⟩

def Ausf.success (kAusf : String) : JsonObject :=
  [("status","success"),("k_ausf",kAusf),("auth_result","authenticated")]

def Ausf.answerFor (authVector : JsonObject) : Reply :=
  match authVector.lookup "k_ausf" with
  | some kAusf => .json 200 (Ausf.success kAusf)
  | none => .html 500

theorem JsonObject.item_eq (body : JsonObject) (key : String) :
    body.item key = match body.lookup key with
      | some v => .ok v
      | none => .error (.keyError key) := rfl

def nasCommand (dig : Digests) (u kAusf : String) : SecurityCommand :=
  ⟨u,"NAS Security Mode Command",Amf.calculateMac dig (strCommand "NAS Security Mode Command")
    (Amf.deriveKey (Amf.deriveKAmf kAusf) "NAS_INT")⟩

theorem registration_meets_exact (dig : Digests) (u : String) {w : CoreWorld} {src ask : Request}
    (hsrc : src = .amfRegistration (some u))
    (hask : ask = .ausfAuthenticate (some u) Amf.servingNetwork)
    (start : C.Asks src ask w w)
    (unanswered : ∀ o w', C.inv w' → C.Answers legal ask o w' →
      (∀ status body, o ≠ .ok (.json status body)) →
      C.Closes src (.ok (.html 500)) w' (w'.record (.answered src ask o)))
    (keyless : ∀ status body w', C.inv w' → C.post ask (.json status body) w' →
      body.lookup "k_ausf" = none →
      C.Closes src (.ok (.html 500)) w' ⟨w'.state.storeContext u body,
        .answered src ask (.ok (.json status body)) :: w'.log⟩)
    (stored : ∀ status body kAusf w', C.inv w' → C.post ask (.json status body) w' →
      body.lookup "k_ausf" = some kAusf →
      C.Asks src (.gnbSecurityCommand (nasCommand dig u kAusf)) w'
        ⟨(w'.state.storeContext u body).storeKAmf kAusf,
          .answered src ask (.ok (.json status body)) :: w'.log⟩)
    (failed : ∀ c e w', C.inv w' → C.Closes src (.ok (.html 500)) w'
      (w'.record (.answered src (.gnbSecurityCommand c) (.error e))))
    (initiated : ∀ status body kAusf v c b w', C.inv v → C.post ask (.json status body) v →
      body.lookup "k_ausf" = some kAusf →
      C.rely ⟨(v.state.storeContext u body).storeKAmf kAusf,
        .posted src (.gnbSecurityCommand c) :: .answered src ask (.ok (.json status body)) :: v.log⟩ w' →
      C.inv w' → C.Closes src (.ok (.json 200 [("status","authentication_initiated")])) w'
        (w'.record (.answered src (.gnbSecurityCommand c) (.ok b)))) :
    (onAmf (flask (jsonify (Amf.handleRegistration dig (some u))))).Meets C legal src w w := by
  subst hsrc hask
  simp only [Handler.Meets,flask,jsonify,Amf.handleRegistration,field,onAmf,ofExcept_ok,ret_bind,
    bind_assoc,zoom_tryCatch,zoom_bind,zoom_request,zoom_ofExcept,zoom_assign,zoom_read,zoom_ret,
    pure_eq,wp_tryCatch,wp_bind,wp_request,wp_ofExcept,wp_assign,wp_read,wp_ret]
  refine ⟨start.ends,start.pre,?_⟩
  intro o w' _ hi ha
  cases o with
  | error e => exact unanswered _ w' hi ha (by simp)
  | ok b =>
    cases b with
    | html status => exact unanswered _ w' hi ha (by simp)
    | int n => exact unanswered _ w' hi ha (by simp)
    | json status body =>
      simp only [Reply.jsonBody,JsonObject.item_eq]
      cases hk : body.lookup "k_ausf" with
      | none => exact keyless status body w' hi ha hk
      | some kAusf =>
        have hs := stored status body kAusf w' hi ha hk
        refine ⟨hs.ends,hs.pre,?_⟩
        intro o' w'' hr hi' _
        cases o' with
        | error e => exact failed _ _ w'' hi'
        | ok b => exact initiated status body kAusf w' _ b w'' hi ha hk hr hi'

theorem registration_meets (dig : Digests) (u : String) {w : CoreWorld} {src ask : Request}
    (hsrc : src = .amfRegistration (some u))
    (hask : ask = .ausfAuthenticate (some u) Amf.servingNetwork)
    (start : C.Asks src ask w w)
    (unanswered : ∀ o w', C.inv w' → (∀ status body, o ≠ .ok (.json status body)) →
      C.Closes src (.ok (.html 500)) w' (w'.record (.answered src ask o)))
    (keyless : ∀ status body w', C.inv w' → C.post ask (.json status body) w' →
      body.lookup "k_ausf" = none →
      C.Closes src (.ok (.html 500)) w' ⟨w'.state.storeContext u body,
        .answered src ask (.ok (.json status body)) :: w'.log⟩)
    (stored : ∀ status body kAusf mac w', C.inv w' → C.post ask (.json status body) w' →
      body.lookup "k_ausf" = some kAusf →
      C.Asks src (.gnbSecurityCommand ⟨u,"NAS Security Mode Command",mac⟩) w'
        ⟨(w'.state.storeContext u body).storeKAmf kAusf,
          .answered src ask (.ok (.json status body)) :: w'.log⟩)
    (finish : ∀ c o b w', C.inv w' →
      C.Closes src (.ok b) w' (w'.record (.answered src (.gnbSecurityCommand c) o))) :
    (onAmf (flask (jsonify (Amf.handleRegistration dig (some u))))).Meets C legal src w w := by
  apply registration_meets_exact dig u hsrc hask start
  · intro o w' hi _ hne
    exact unanswered o w' hi hne
  · exact keyless
  · intro status body kAusf w' hi hp hk
    exact stored status body kAusf _ w' hi hp hk
  · intro c e w' hi
    exact finish c _ _ w' hi
  · intro status body kAusf v c b w' _ _ _ _ hi
    exact finish c _ _ w' hi

theorem securityComplete_meets_exact (u : String) {w : CoreWorld} {src : Request}
    (hsrc : src = .amfSecurityComplete (some u))
    (keyless : w.state.amf.kAmf = none → C.Closes src (.ok (.html 500)) w w)
    (setup : ∀ k, w.state.amf.kAmf = some k → C.Asks src (setupRequest u k) w w)
    (session : ∀ k b w', w.state.amf.kAmf = some k →
      C.rely (w.record (.posted src (setupRequest u k))) w' → C.inv w' →
      C.post (setupRequest u k) b w' →
      C.Asks src (sessionRequest u k) w' (w'.record (.answered src (setupRequest u k) (.ok b))))
    (failed : ∀ q e w', C.inv w' →
      C.Closes src (.ok (.html 500)) w' (w'.record (.answered src q (.error e))))
    (done : ∀ k b b' v w', w.state.amf.kAmf = some k → C.post (setupRequest u k) b v →
      C.rely ((v.record (.answered src (setupRequest u k) (.ok b))).record
        (.posted src (sessionRequest u k))) w' →
      C.inv w' → C.post (sessionRequest u k) b' w' →
      C.Closes src (.ok (.json 200 [("status","registration_complete")])) w'
        (w'.record (.answered src (sessionRequest u k) (.ok b')))) :
    (onAmf (flask (jsonify (Amf.handleSecurityComplete (some u))))).Meets C legal src w w := by
  subst hsrc
  simp only [Handler.Meets,flask,jsonify,Amf.handleSecurityComplete,field,onAmf,ofExcept_ok,ret_bind,
    bind_assoc,zoom_tryCatch,zoom_bind,zoom_request,zoom_ofExcept,zoom_read,zoom_ret,
    pure_eq,wp_tryCatch,wp_bind,wp_request,wp_ofExcept,wp_read,wp_ret]
  cases hk : w.state.amf.kAmf with
  | none => exact keyless hk
  | some k =>
    have hs := setup k hk
    refine ⟨hs.ends,hs.pre,?_⟩
    intro o w' hr hi ha
    cases o with
    | error e => exact failed _ _ w' hi
    | ok b =>
      have hq := session k b w' hk hr hi ha
      refine ⟨hq.ends,hq.pre,?_⟩
      intro o' w'' hr' hi' ha'
      cases o' with
      | error e => exact failed _ _ w'' hi'
      | ok b' => exact done k b b' w' w'' hk ha hr' hi' ha'

theorem securityComplete_meets (u : String) {w : CoreWorld} {src : Request}
    (hsrc : src = .amfSecurityComplete (some u))
    (keyless : C.Closes src (.ok (.html 500)) w w)
    (setup : ∀ k, w.state.amf.kAmf = some k → C.Asks src (setupRequest u k) w w)
    (session : ∀ k b w', w.state.amf.kAmf = some k →
      C.rely (w.record (.posted src (setupRequest u k))) w' → C.inv w' →
      C.post (setupRequest u k) b w' →
      C.Asks src (sessionRequest u k) w' (w'.record (.answered src (setupRequest u k) (.ok b))))
    (failed : ∀ q o w', C.inv w' →
      C.Closes src (.ok (.html 500)) w' (w'.record (.answered src q o)))
    (done : ∀ k b w', w.state.amf.kAmf = some k → C.inv w' →
      C.post (sessionRequest u k) b w' →
      C.Closes src (.ok (.json 200 [("status","registration_complete")])) w'
        (w'.record (.answered src (sessionRequest u k) (.ok b)))) :
    (onAmf (flask (jsonify (Amf.handleSecurityComplete (some u))))).Meets C legal src w w := by
  apply securityComplete_meets_exact u hsrc
  · exact fun _ => keyless
  · exact setup
  · exact session
  · intro q e w' hi
    exact failed q _ w' hi
  · intro k b b' v w' hk _ _ hi hp
    exact done k b' w' hk hi hp

theorem authenticate_meets_exact (u net : String) {w : CoreWorld} {src : Request}
    (hsrc : src = .ausfAuthenticate (some u) net)
    (start : C.Asks src (.udmAuthData (some u)) w w)
    (unanswered : ∀ o w', C.inv w' → C.Answers legal (.udmAuthData (some u)) o w' →
      (∀ status body, o ≠ .ok (.json status body)) →
      C.Closes src (.ok (.html 500)) w' (w'.record (.answered src (.udmAuthData (some u)) o)))
    (answered : ∀ status body w', C.inv w' →
      C.post (.udmAuthData (some u)) (.json status body) w' →
      C.Closes src (.ok (Ausf.answerFor body)) w'
        ⟨{ w'.state with ausf := ⟨w'.state.ausf.authenticationVectors.set u body⟩ },
          .answered src (.udmAuthData (some u)) (.ok (.json status body)) :: w'.log⟩) :
    (onAusf (flask (jsonify (Ausf.authenticate (some u))))).Meets C legal src w w := by
  subst hsrc
  simp only [Handler.Meets,flask,jsonify,Ausf.authenticate,field,onAusf,ofExcept_ok,ret_bind,
    bind_assoc,zoom_tryCatch,zoom_bind,zoom_request,zoom_ofExcept,zoom_assign,zoom_ret,
    pure_eq,wp_tryCatch,wp_bind,wp_request,wp_ofExcept,wp_assign,wp_ret]
  refine ⟨start.ends,start.pre,?_⟩
  intro o w' _ hi ha
  cases o with
  | error e => exact unanswered _ w' hi ha (by simp)
  | ok b =>
    cases b with
    | html status => exact unanswered _ w' hi ha (by simp)
    | int n => exact unanswered _ w' hi ha (by simp)
    | json status body =>
      have hc := answered status body w' hi ha
      simp only [Reply.jsonBody,JsonObject.item_eq]
      cases hk : body.lookup "k_ausf" with
      | none =>
        simp only [Ausf.answerFor,hk] at hc
        exact hc
      | some kAusf =>
        simp only [Ausf.answerFor,hk] at hc
        exact hc

theorem authenticate_meets (u net : String) {w : CoreWorld} {src : Request}
    (hsrc : src = .ausfAuthenticate (some u) net)
    (start : C.Asks src (.udmAuthData (some u)) w w)
    (unanswered : ∀ o w', C.inv w' → (∀ status body, o ≠ .ok (.json status body)) →
      C.Closes src (.ok (.html 500)) w' (w'.record (.answered src (.udmAuthData (some u)) o)))
    (answered : ∀ status body w', C.inv w' →
      C.post (.udmAuthData (some u)) (.json status body) w' →
      C.Closes src (.ok (Ausf.answerFor body)) w'
        ⟨{ w'.state with ausf := ⟨w'.state.ausf.authenticationVectors.set u body⟩ },
          .answered src (.udmAuthData (some u)) (.ok (.json status body)) :: w'.log⟩) :
    (onAusf (flask (jsonify (Ausf.authenticate (some u))))).Meets C legal src w w := by
  apply authenticate_meets_exact u net hsrc start
  · intro o w' hi _ hne
    exact unanswered o w' hi hne
  · exact answered

/-- The gNB always ends in its MAC at the latest; what it stored before stays. -/
theorem contextSetup_meets (dig : Digests) (c : UeContext) {w : CoreWorld} {src : Request}
    (hsrc : src = .gnbUeContextSetup c)
    (nameless : c.ueId = none → C.Closes src (.ok (.html 500)) w w)
    (keyless : ∀ u, c.ueId = some u → c.kGnb = none →
      C.Closes src (.ok (.html 500)) w ⟨w.state.storeGnbContext u c,w.log⟩)
    (stored : ∀ u k, c.ueId = some u → c.kGnb = some k →
      C.Closes src (.ok (.html 500)) w ⟨(w.state.storeGnbContext u c).storeKGnb k,w.log⟩) :
    (onGnb (flask (jsonify (Gnb.ueContextSetup dig c)))).Meets C legal src w w := by
  subst hsrc
  simp only [Handler.Meets,flask,jsonify,Gnb.ueContextSetup,Gnb.handleUeContextSetup,
    Gnb.calculateMac,PyValue.sliceTo,ofExcept_error,raise_bind,onGnb,bind_assoc,zoom_tryCatch,
    zoom_bind,zoom_ofExcept,zoom_assign,zoom_raise,zoom_ret,wp_tryCatch,wp_bind,wp_ofExcept,
    wp_assign,wp_raise,wp_ret]
  cases hu : c.ueId with
  | none => exact nameless hu
  | some u =>
    cases hk : c.kGnb with
    | none => exact keyless u hu hk
    | some k => exact stored u k hu hk

theorem gnbRegistration_meets (u : Option String) {w : CoreWorld} {src : Request}
    (hsrc : src = .gnbRegistration u)
    (start : C.Asks src (.amfRegistration u) w w)
    (relayed : ∀ status body w', C.inv w' → C.post (.amfRegistration u) (.json status body) w' →
      C.Closes src (.ok (.json 200 body)) w'
        (w'.record (.answered src (.amfRegistration u) (.ok (.json status body)))))
    (refused : ∀ o w', C.inv w' → C.Answers legal (.amfRegistration u) o w' →
      (∀ status body, o ≠ .ok (.json status body)) →
      C.Closes src (.ok (.html 500)) w' (w'.record (.answered src (.amfRegistration u) o))) :
    (flask (jsonify (Gnb.handleRegistration u))).Meets C legal src w w := by
  subst hsrc
  simp only [Handler.Meets,flask,jsonify,Gnb.handleRegistration,bind_assoc,pure_eq,wp_tryCatch,
    wp_bind,wp_request,wp_ofExcept,wp_ret]
  refine ⟨start.ends,start.pre,?_⟩
  intro o w' _ hi ha
  cases o with
  | error e => exact refused _ w' hi ha (by simp)
  | ok b =>
    cases b with
    | html status => exact refused _ w' hi ha (by simp)
    | int n => exact refused _ w' hi ha (by simp)
    | json status body => exact relayed status body w' hi ha

theorem gnbSecurityComplete_meets (u : Option String) {w : CoreWorld} {src : Request}
    (hsrc : src = .gnbSecurityComplete u)
    (start : C.Asks src (.amfSecurityComplete u) w w)
    (done : ∀ b w', C.inv w' → C.Closes src (.ok (.json 200 [("status","success")])) w'
      (w'.record (.answered src (.amfSecurityComplete u) (.ok b))))
    (failed : ∀ e w', C.inv w' → C.Closes src (.ok (.html 500)) w'
      (w'.record (.answered src (.amfSecurityComplete u) (.error e)))) :
    (flask (jsonify (Gnb.securityComplete u))).Meets C legal src w w := by
  subst hsrc
  simp only [Handler.Meets,flask,jsonify,Gnb.securityComplete,bind_assoc,pure_eq,wp_tryCatch,
    wp_bind,wp_request,wp_ret]
  refine ⟨start.ends,start.pre,?_⟩
  intro o w' _ hi _
  cases o with
  | error e => exact failed e w' hi
  | ok b => exact done b w' hi

theorem os_answers {q : Request} {o : Except PyError Reply} {w : CoreWorld}
    (hq : q.target = .os) (h : C.Answers legal q o w) : ∃ b, o = .ok b := by
  cases o with
  | error e => simp [Contract.Answers,legal,hq] at h
  | ok b => exact ⟨b,rfl⟩

theorem Contract.Asks.os {src q : Request} {w₀ w : CoreWorld} {K : CoreWorld → Prop}
    {P : Except PyError Reply → CoreWorld → Prop} (ha : C.Asks src q w₀ w)
    (hq : q.target = .os) (hK : K w₀) (stableK : ∀ {w w'}, K w → C.rely w w' → K w')
    (h : ∀ b w', C.inv w' → K w' → P (.ok b) w') :
    C.Ends src w₀ (w.record (.posted src q)) ∧ C.pre q (w.record (.posted src q)) ∧
      ∀ o w', C.rely (w.record (.posted src q)) w' → C.inv w' → C.Answers legal q o w' →
        P o w' := by
  refine ⟨ha.ends,ha.pre,?_⟩
  intro o w' hr hi hb
  obtain ⟨b,rfl⟩ := os_answers hq hb
  exact h b w' hi (stableK (stableK hK ha.ends.rely) hr)

/-- `K` is what the SMF may use when it stores the session, `L` what it has
established then; both survive what the other handlers do. -/
theorem session_meets (r : SessionRequest) {w : CoreWorld} {src : Request}
    (hsrc : src = .smfSessionEstablishment r) {K : CoreWorld → Prop} {L : String → CoreWorld → Prop}
    (hK : K w) (stableK : ∀ {w w'}, K w → C.rely w w' → K w')
    (stableL : ∀ {u w w'}, L u w → C.rely w w' → L u w')
    (start : ∀ command, C.Asks src (.osSystem command) w w)
    (next : ∀ q q' o w', q'.target = .os → C.inv w' →
      C.Asks src q' w' (w'.record (.answered src q o)))
    (keyless : ∀ q o w', r.ueId = none ∨ r.kGnb = none → C.inv w' →
      C.Closes src (.ok (.html 500)) w' (w'.record (.answered src q o)))
    (store : ∀ u k q o w', r.ueId = some u → r.kGnb = some k → C.inv w' → K w' →
      C.Asks src (.upfConfigure ⟨u,Smf.deriveKey k "UP_ENC"⟩) w'
        ⟨w'.state.storeSession u ⟨Smf.deriveKey k "UP_ENC","active"⟩,.answered src q o :: w'.log⟩)
    (stored : ∀ u k log, r.ueId = some u → ∀ c : Core,
      L u ⟨c.storeSession u ⟨Smf.deriveKey k "UP_ENC","active"⟩,log⟩)
    (finish : ∀ u q o b w', r.ueId = some u → C.inv w' → L u w' →
      C.Closes src (.ok b) w' (w'.record (.answered src q o))) :
    (onSmf (flask (jsonify (Smf.establishSession r)))).Meets C legal src w w := by
  subst hsrc
  simp only [Handler.Meets,flask,jsonify,Smf.establishSession,onSmf,bind_assoc,zoom_tryCatch,
    zoom_bind,zoom_request,zoom_ofExcept,zoom_assign,zoom_ret,pure_eq,wp_tryCatch,wp_bind,
    wp_request,wp_ofExcept,wp_assign,wp_ret]
  apply (start "sudo ip link add gtp0 type gtp").os rfl hK stableK
  intro b₁ w₁ hi₁ hK₁
  apply (next (.osSystem "sudo ip link add gtp0 type gtp")
    (.osSystem "sudo ip addr add 10.10.0.1/24 dev gtp0") (.ok b₁) w₁ rfl hi₁).os rfl hK₁ stableK
  intro b₂ w₂ hi₂ hK₂
  apply (next (.osSystem "sudo ip addr add 10.10.0.1/24 dev gtp0")
    (.osSystem "sudo ip link set gtp0 up") (.ok b₂) w₂ rfl hi₂).os rfl hK₂ stableK
  intro b₃ w₃ hi₃ hK₃
  cases hu : r.ueId with
  | none => exact keyless _ _ w₃ (.inl hu) hi₃
  | some u =>
    cases hk : r.kGnb with
    | none => exact keyless _ _ w₃ (.inr hk) hi₃
    | some k =>
      have ha₄ := store u k (.osSystem "sudo ip link set gtp0 up") (.ok b₃) w₃ hu hk hi₃ hK₃
      refine ⟨ha₄.ends,ha₄.pre,?_⟩
      intro o₄ w₄ hr₄ hi₄ _
      have hL₄ := stableL (stored u k _ hu w₃.state) hr₄
      cases o₄ with
      | error e => exact finish u _ _ _ w₄ hu hi₄ hL₄
      | ok b₄ =>
        apply (next (.upfConfigure ⟨u,Smf.deriveKey k "UP_ENC"⟩) (.randint 10 254)
          (.ok b₄) w₄ rfl hi₄).os rfl hL₄ stableL
        intro b₅ w₅ hi₅ hL₅
        exact finish u _ _ _ w₅ hu hi₅ hL₅

def Core.setUpf (c : Core) (host : Host) : Core := { c with upf := host }

/-- What a command that the system answers with `b` does to the host, if anything. -/
def Upf.effect (host : Host) (command : Command) (b : Reply) : Option Host :=
  match b.number, Upf.execCommand host command with
  | 0, some host' => some host'
  | _, _ => none

theorem Upf.effect_eq_some {host host' : Host} {command : Command} {b : Reply}
    (h : Upf.effect host command b = some host') : Upf.execCommand host command = some host' := by
  unfold Upf.effect at h
  split at h
  · rename_i hexec
    exact hexec.trans h
  · exact nomatch h

theorem upfRun_wp (command : Command) {src : Request} {w₀ w : CoreWorld}
    {Q : Except PyError Bool → CoreWorld → CoreWorld → Prop}
    (start : C.Asks src (.subprocessRun command) w₀ w)
    (refused : ∀ b w', C.inv w' → Upf.effect w'.state.upf command b = none →
      Q (.ok false) w' (w'.record (.answered src (.subprocessRun command) (.ok b))))
    (done : ∀ b w' host, C.inv w' → Upf.effect w'.state.upf command b = some host →
      Q (.ok true) w' ⟨w'.state.setUpf host,
        .answered src (.subprocessRun command) (.ok b) :: w'.log⟩) :
    ((Upf.run command).zoom Core.upf (fun u c => { c with upf := u c.upf })).wp C legal src Q w₀ w := by
  simp only [Upf.run,zoom_bind,zoom_request,zoom_read,wp_bind,wp_request,wp_read]
  refine ⟨start.ends,start.pre,?_⟩
  intro o w' _ hi ha
  obtain ⟨b,rfl⟩ := os_answers rfl ha
  have hrefused := refused b w' hi
  have hdone := fun host => done b w' host hi
  simp only [id_eq,World.record_state]
  simp only [Upf.effect] at hrefused hdone
  split
  · rename_i host hnumber hexec
    exact hdone host (by simp only [hnumber,hexec])
  · rename_i hnone
    refine hrefused ?_
    split
    · rename_i host hnumber hexec
      exact (hnone host hnumber hexec).elim
    · rfl

theorem upfRunChecked_wp (command : Command) {src : Request} {w₀ w : CoreWorld}
    {Q : Except PyError Unit → CoreWorld → CoreWorld → Prop}
    (start : C.Asks src (.subprocessRun command) w₀ w)
    (refused : ∀ b w', C.inv w' → Upf.effect w'.state.upf command b = none →
      Q (.error .calledProcessError) w'
        (w'.record (.answered src (.subprocessRun command) (.ok b))))
    (done : ∀ b w' host, C.inv w' → Upf.effect w'.state.upf command b = some host →
      Q (.ok ()) w' ⟨w'.state.setUpf host,
        .answered src (.subprocessRun command) (.ok b) :: w'.log⟩) :
    ((Upf.runChecked command).zoom Core.upf (fun u c => { c with upf := u c.upf })).wp
      C legal src Q w₀ w := by
  simp only [Upf.runChecked,zoom_bind,wp_bind]
  exact upfRun_wp command start refused done

/-- What must be shown where one command of /configure ends and the next is run. -/
theorem configure_meets (q : ConfigureRequest) {w : CoreWorld} {src : Request}
    (hsrc : src = .upfConfigure q)
    (start : C.Asks src (.subprocessRun .modprobeGtp) w w)
    (next : ∀ command command' b w' host, (command,command') ∈
        [(Command.modprobeGtp,Command.ipLinkAddGtp0),(.ipLinkAddGtp0,.ipAddrAddGtp0),
         (.ipAddrAddGtp0,.ipLinkSetGtp0Up),(.ipLinkSetGtp0Up,.iptablesMasquerade)] →
      C.inv w' → Upf.effect w'.state.upf command b = some host →
      C.Asks src (.subprocessRun command') w' ⟨w'.state.setUpf host,
        .answered src (.subprocessRun command) (.ok b) :: w'.log⟩)
    (refused : ∀ command b w', C.inv w' → Upf.effect w'.state.upf command b = none →
      C.Closes src (.ok (.json 500 [("status","GTP interface creation failed")])) w'
        (w'.record (.answered src (.subprocessRun command) (.ok b))))
    (unmasked : ∀ b body w', C.inv w' →
      Upf.effect w'.state.upf .iptablesMasquerade b = none →
      C.Closes src (.ok (.json 200 body)) w'
        (w'.record (.answered src (.subprocessRun .iptablesMasquerade) (.ok b))))
    (masked : ∀ b body w' host, C.inv w' →
      Upf.effect w'.state.upf .iptablesMasquerade b = some host →
      C.Closes src (.ok (.json 200 body)) w' ⟨w'.state.setUpf host,
        .answered src (.subprocessRun .iptablesMasquerade) (.ok b) :: w'.log⟩) :
    (onUpf (flask Upf.configure)).Meets C legal src w w := by
  subst hsrc
  simp only [Handler.Meets,onUpf,flask,Upf.configure,Upf.createGtpInterface,zoom_tryCatch,zoom_bind,
    wp_tryCatch,wp_bind]
  refine upfRunChecked_wp _ start (refused _) (fun b₁ w₁ host₁ hi₁ he₁ => ?_)
  refine upfRunChecked_wp _ (next .modprobeGtp .ipLinkAddGtp0 b₁ w₁ host₁ (by simp) hi₁ he₁)
    (refused _) (fun b₂ w₂ host₂ hi₂ he₂ => ?_)
  refine upfRunChecked_wp _ (next .ipLinkAddGtp0 .ipAddrAddGtp0 b₂ w₂ host₂ (by simp) hi₂ he₂)
    (refused _) (fun b₃ w₃ host₃ hi₃ he₃ => ?_)
  refine upfRunChecked_wp _ (next .ipAddrAddGtp0 .ipLinkSetGtp0Up b₃ w₃ host₃ (by simp) hi₃ he₃)
    (refused _) (fun b₄ w₄ host₄ hi₄ he₄ => ?_)
  simp only [pure_eq,zoom_ret,wp_ret,if_true,zoom_bind,wp_bind]
  exact upfRun_wp _ (next .ipLinkSetGtp0Up .iptablesMasquerade b₄ w₄ host₄ (by simp) hi₄ he₄)
    (fun b w' hi he => unmasked b _ w' hi he) (fun b w' host hi he => masked b _ w' host hi he)

end GrpKeySec
