import GrpKeySec.CoreRules
set_option autoImplicit false

/-!
What the AMF knows about the UEs it has authenticated, in every run of the whole
core, and what its contexts say about the contexts of the gNB and the sessions
of the SMF.
-/

namespace GrpKeySec
open Handler Service

def Authenticated (log : List (Event Request Reply PyError)) (u : String) : Prop :=
  ∃ body, Event.answered (.amfRegistration (some u))
    (.ausfAuthenticate (some u) Amf.servingNetwork) (.ok (.json 200 body)) ∈ log

section Contexts

variable (db : Udm.SubscriberDb)

def SoundContext (u : String) (context : JsonObject) : Prop :=
  ∃ subscriber, db.get? u = some subscriber ∧
    context = Ausf.success (Udm.deriveKAusf subscriber.k)

/-- A 'ue_not_found' object travels from the UDM to the AUSF, which fails on it;
no JSON body of the AUSF belongs to an unknown UE. -/
def authContract : CoreContract where
  inv := fun w => ∀ u context, w.state.amf.ueContexts.get? u = some context →
    SoundContext db u context ∧ Authenticated w.log u
  rely := fun _ _ => True
  guar := fun src w w' => ∀ u, src = .amfRegistration (some u) → u ∉ db →
    w'.state.amf = w.state.amf
  pre := fun _ _ => True
  post := fun r b _ => match r with
    | .udmAuthData (some u) => b = .json 200 (Udm.getAuthData db u)
    | .ausfAuthenticate (some u) _ =>
        ∀ status body, b = .json status body → status = 200 ∧ SoundContext db u body
    | _ => True

theorem authContract_frame {src : Request} (hs : ∀ u, src ≠ .amfRegistration u)
    (hp : ∀ b w, (authContract db).post src b w) :
    (authContract db).Frame src (Writes src) (Calls src)
      (fun w₀ w => (authContract db).inv w ∧ w.state.amf = w₀.state.amf) where
  start := fun hi => ⟨hi,rfl⟩
  update := by
    intro w₀ w s hw hm
    have ha := hm.amf_eq hs
    refine ⟨?_,ha.trans hw.2⟩
    intro u context hu
    exact hw.1 u context (by rwa [← ha])
  record := by
    intro w₀ w e hw _
    refine ⟨?_,hw.2⟩
    intro u context hu
    obtain ⟨hc,body,hb⟩ := hw.1 u context hu
    exact ⟨hc,body,List.mem_cons_of_mem e hb⟩
  ends := fun hw => ⟨hw.1,trivial,fun _ _ _ => hw.2⟩
  pre := fun _ _ => trivial
  post := fun {b w} _ => hp b w

theorem Authenticated.cons {log : List (Event Request Reply PyError)} {u : String}
    (h : Authenticated log u) (e : Event Request Reply PyError) : Authenticated (e :: log) u := by
  obtain ⟨body,hb⟩ := h
  exact ⟨body,List.mem_cons_of_mem e hb⟩

theorem authContract_inv_log {w : CoreWorld} (hi : (authContract db).inv w)
    {w' : CoreWorld} (hs : w'.state.amf = w.state.amf)
    (hl : ∀ u, Authenticated w.log u → Authenticated w'.log u) : (authContract db).inv w' := by
  intro u context hu
  rw [hs] at hu
  exact ⟨(hi u context hu).1,hl u (hi u context hu).2⟩

theorem authContract_idle {src : Request} {w : CoreWorld} {log : List (Event Request Reply PyError)}
    (hi : (authContract db).inv w) (hl : ∀ u, Authenticated w.log u → Authenticated log u) :
    (authContract db).Ends src w ⟨w.state,log⟩ :=
  ⟨authContract_inv_log db hi rfl hl,trivial,fun _ _ _ => rfl⟩

theorem SoundContext.mem {db : Udm.SubscriberDb} {u : String} {context : JsonObject}
    (h : SoundContext db u context) : u ∈ db := by
  obtain ⟨subscriber,hs,_⟩ := h
  exact Dict.mem_of_get? hs

theorem SoundContext.kAusf {db : Udm.SubscriberDb} {u : String} {context : JsonObject}
    (h : SoundContext db u context) : ∃ subscriber, db.get? u = some subscriber ∧
      context.lookup "status" = some "success" ∧
      context.lookup "k_ausf" = some (Udm.deriveKAusf subscriber.k) := by
  obtain ⟨subscriber,hs,rfl⟩ := h
  exact ⟨subscriber,hs,rfl,rfl⟩

theorem getAuthData_answer (u : String) (status : Nat) (body : JsonObject)
    (h : Ausf.answerFor (Udm.getAuthData db u) = .json status body) :
    status = 200 ∧ SoundContext db u body := by
  cases hd : db.get? u with
  | none =>
    have hl : (Udm.getAuthData db u).lookup "k_ausf" = none := by
      rw [Udm.getAuthData,hd]
      rfl
    simp [Ausf.answerFor,hl] at h
  | some subscriber =>
    have hl : (Udm.getAuthData db u).lookup "k_ausf" = some (Udm.deriveKAusf subscriber.k) := by
      rw [Udm.getAuthData,hd]
      rfl
    simp only [Ausf.answerFor,hl,Reply.json.injEq] at h
    exact ⟨h.1.symm,subscriber,hd,h.2.symm⟩

theorem authenticate_meets_auth (u net : String) {w : CoreWorld} (hi : (authContract db).inv w) :
    (onAusf (flask (jsonify (Ausf.authenticate (some u))))).Meets (authContract db) legal
      (.ausfAuthenticate (some u) net) w w := by
  apply authenticate_meets u net rfl
  · exact ⟨authContract_idle db hi (fun _ ha => ha.cons _),trivial⟩
  · intro o w' hi' _
    refine ⟨authContract_idle db hi' (fun _ ha => (ha.cons _).cons _),?_⟩
    intro b hb status body hbody
    rw [← Except.ok.inj hb] at hbody
    exact nomatch hbody
  · intro status body w' hi' hp
    obtain ⟨-,rfl⟩ := Reply.json.inj (show Reply.json status body = _ from hp)
    refine ⟨⟨authContract_inv_log db hi' rfl (fun _ ha => (ha.cons _).cons _),trivial,
      fun _ h => nomatch h⟩,?_⟩
    intro b hb status' body' hbody
    rw [← Except.ok.inj hb] at hbody
    exact getAuthData_answer db u status' body' hbody

theorem registration_meets_auth (dig : Digests) (u : String) {w : CoreWorld}
    (hi : (authContract db).inv w) :
    (onAmf (flask (jsonify (Amf.handleRegistration dig (some u))))).Meets (authContract db) legal
      (.amfRegistration (some u)) w w := by
  apply registration_meets dig u rfl rfl
  · exact ⟨authContract_idle db hi (fun _ ha => ha.cons _),trivial⟩
  · intro o w' hi' _
    exact ⟨authContract_idle db hi' (fun _ ha => (ha.cons _).cons _),fun _ _ => trivial⟩
  · intro status body w' _ hp hk
    obtain ⟨subscriber,_,_,hka⟩ := (hp status body rfl).2.kAusf
    rw [hk] at hka
    exact nomatch hka
  · intro status body kAusf mac w' hi' hp _
    -- context and K_AMF are stored in one segment: no handler sees one without the other
    obtain ⟨rfl,hsound⟩ := hp status body rfl
    refine ⟨⟨?_,trivial,?_⟩,trivial⟩
    · intro v context hv
      simp only [World.record_state,Core.storeContext,Core.storeKAmf,Dict.get?_set] at hv
      by_cases hvu : v = u
      · subst v
        rw [if_pos rfl] at hv
        obtain rfl := Option.some.inj hv
        exact ⟨hsound,body,by simp⟩
      · rw [if_neg hvu] at hv
        obtain ⟨hc,ha⟩ := hi' v context hv
        exact ⟨hc,(ha.cons _).cons _⟩
    · intro v hv hdb
      obtain rfl := Option.some.inj (Request.amfRegistration.inj hv)
      exact absurd hsound.mem hdb
  · intro q o b w' hi'
    exact ⟨authContract_idle db hi' (fun _ ha => (ha.cons _).cons _),fun _ _ => trivial⟩

theorem authContract_valid (dig : Digests) :
    (authContract db).Valid (wholeCore dig db) anyStart where
  rely_refl := fun _ => trivial
  rely_trans := fun _ _ => trivial
  pre_stable := fun _ _ => trivial
  post_stable := fun hp _ => hp
  client_pre := fun _ _ => trivial
  environment := by
    intro r b w hs _ _
    have ht := route_eq_none (show route dig db r = none from hs)
    cases r <;> simp [Request.target] at ht <;> trivial
  serves := by
    intro r h w hs hi _ _
    have hr := (system_serve hs).2
    have hquiet : (∀ u, r ≠ .amfRegistration u) → (∀ b w, (authContract db).post r b w) →
        h.Meets (authContract db) legal r w w := fun hne hp =>
      (route_footprint dig db hr).meets (authContract_frame db hne hp) ⟨hi,rfl⟩
    cases r with
    | udmAuthData u =>
      obtain rfl := Option.some.inj hr
      cases u with
      | none => exact hquiet (fun _ h => nomatch h) (fun _ _ => trivial)
      | some u =>
        refine ⟨authContract_idle db hi (fun _ ha => ha.cons _),?_⟩
        intro b hb
        exact (Except.ok.inj hb).symm
    | ausfAuthenticate u net =>
      obtain rfl := Option.some.inj hr
      cases u with
      | none => exact hquiet (fun _ h => nomatch h) (fun _ _ => trivial)
      | some u => exact authenticate_meets_auth db u net hi
    | amfRegistration u =>
      obtain rfl := Option.some.inj hr
      cases u with
      | none =>
        exact ⟨authContract_idle db hi (fun _ ha => ha.cons _),fun _ _ => trivial⟩
      | some u => exact registration_meets_auth db dig u hi
    | _ => exact hquiet (fun _ h => nomatch h) (fun _ _ => trivial)

end Contexts

theorem authContract_initial (db : Udm.SubscriberDb) (host : Host) :
    (authContract db).inv (startWorld host) := by
  intro u context hu
  simp [startWorld,Core.initial] at hu

/-- AMF contexts are sound: each belongs to a subscriber and is the AUSF's answer
for that subscriber's key, and no step of a registration of anyone else touches
the AMF. -/
theorem ueContexts_sound (dig : Digests) (db : Udm.SubscriberDb) (host : Host) {n : CoreNet}
    (hn : (wholeCore dig db).Reachable anyStart (startWorld host) n) :
    (∀ u context, n.world.state.amf.ueContexts.get? u = some context →
      ∃ subscriber, db.get? u = some subscriber ∧ context.lookup "status" = some "success" ∧
        context.lookup "k_ausf" = some (Udm.deriveKAusf subscriber.k)) ∧
    (∀ a n' i t u, (wholeCore dig db).step n a = some n' → a.task = some i →
      n.tasks[i]? = some t → t.req = .amfRegistration (some u) → u ∉ db →
      n'.world.state.amf = n.world.state.amf) := by
  have hV := authContract_valid db dig
  have hok := hV.reachable_ok (authContract_initial db host) hn
  constructor
  · intro u context hu
    exact (hok.inv u context hu).1.kAusf
  · intro a n' i t u hs ha hi ht hu
    have hstep := hV.step_ok hok (fun _ _ _ _ => trivial) (System.steps_of_step hs)
    rcases hstep.2.2 with hw | ⟨j,t',hj,hj',hg⟩
    · rw [hw]
    · rw [ha] at hj
      obtain rfl := Option.some.inj hj
      rw [hi] at hj'
      obtain rfl := Option.some.inj hj'
      exact hg u ht hu

theorem ueContexts_sound_shipped :
    ∃ n, (wholeCore sampleDigests Udm.subscriberDb).Reachable anyStart (startWorld freshHost) n ∧
      n.world.state.amf.ueContexts.keys = ["imsi-001010000000001"] ∧
      ∀ u context, n.world.state.amf.ueContexts.get? u = some context →
        ∃ subscriber, Udm.subscriberDb.get? u = some subscriber ∧
          context.lookup "status" = some "success" ∧
          context.lookup "k_ausf" = some (Udm.deriveKAusf subscriber.k) := by
  obtain ⟨n,hn,hf⟩ := reachable_of_exec (wholeCore sampleDigests Udm.subscriberDb) anyStart
    freshHost
    (registers "imsi-001010000000001" 0 ++
      [.client (.gnbRegistration (some "stranger")),.start 4,.start 5,.start 6,.start 7,.reply 6,
       .reply 5,.reply 4])
    (fun n => decide (n.world.state.amf.ueContexts.keys = ["imsi-001010000000001"]))
    (by decide +kernel)
  exact ⟨n,hn,of_decide_eq_true hf,
    (ueContexts_sound sampleDigests Udm.subscriberDb freshHost hn).1⟩

/-- A completion of `u` that finds a K_AMF is one of a UE the AMF has a context for. -/
def AuthenticatedFirst : StartCondition Core Request Reply PyError := fun r w =>
  ∀ u ∈ r.completes, w.state.amf.kAmf ≠ none → u ∈ w.state.amf.ueContexts

instance (r : Request) (w : CoreWorld) : Decidable (AuthenticatedFirst r w) :=
  inferInstanceAs (Decidable (∀ u ∈ r.completes, w.state.amf.kAmf ≠ none →
    u ∈ w.state.amf.ueContexts))

/-- AMF contexts are never dropped, so the AMF may hand on a UE it has found there. -/
def gateContract : CoreContract where
  inv := fun w => ∀ u, u ∈ w.state.smf.sessions ∨ u ∈ w.state.gnb.ueContexts →
    u ∈ w.state.amf.ueContexts
  rely := fun w w' => ∀ u, u ∈ w.state.amf.ueContexts → u ∈ w'.state.amf.ueContexts
  guar := fun _ _ _ => True
  pre := fun r w => ∀ u, r.setsUp = some u → u ∈ w.state.amf.ueContexts
  post := fun _ _ _ => True

theorem gateContract_idle {src : Request} {w : CoreWorld} {log : List (Event Request Reply PyError)}
    (hi : gateContract.inv w) : gateContract.Ends src w ⟨w.state,log⟩ :=
  ⟨hi,fun _ hv => hv,trivial⟩

theorem gateContract_frame {src : Request} (hs : src.quiet = true) :
    gateContract.Frame src (Writes src) (Calls src)
      (fun w₀ w => gateContract.inv w ∧ w.state.amf = w₀.state.amf) where
  start := fun hi => ⟨hi,rfl⟩
  update := by
    intro w₀ w s hw hm
    obtain ⟨ha,hg,hsmf⟩ := hm.quiet hs
    refine ⟨?_,ha.trans hw.2⟩
    intro u hu
    simp only [ha,hg,hsmf] at hu ⊢
    exact hw.1 u hu
  record := fun hw _ => hw
  ends := fun hw => ⟨hw.1,fun _ hu => by rw [hw.2]; exact hu,trivial⟩
  pre := by
    intro r w hr _ u hu
    obtain ⟨hg,hsmf⟩ := hr.quiet hs
    cases r with
    | gnbUeContextSetup c => exact absurd rfl (hg c)
    | smfSessionEstablishment q => exact absurd rfl (hsmf q)
    | _ => exact nomatch hu
  post := fun _ => trivial

theorem registration_meets_gate (dig : Digests) (u : String) {w : CoreWorld}
    (hi : gateContract.inv w) :
    (onAmf (flask (jsonify (Amf.handleRegistration dig (some u))))).Meets gateContract legal
      (.amfRegistration (some u)) w w := by
  apply registration_meets dig u rfl rfl
  · exact ⟨gateContract_idle hi,fun _ hv => nomatch hv⟩
  · intro o w' hi' _
    exact ⟨gateContract_idle hi',fun _ _ => trivial⟩
  · intro status body w' hi' _ _
    exact ⟨⟨fun v hv => Dict.mem_set.mpr (.inr (hi' v hv)),
      fun v hv => Dict.mem_set.mpr (.inr hv),trivial⟩,fun _ _ => trivial⟩
  · intro status body kAusf mac w' hi' _ _
    exact ⟨⟨fun v hv => Dict.mem_set.mpr (.inr (hi' v hv)),
      fun v hv => Dict.mem_set.mpr (.inr hv),trivial⟩,fun _ hv => nomatch hv⟩
  · intro q o b w' hi'
    exact ⟨gateContract_idle hi',fun _ _ => trivial⟩

theorem securityComplete_meets_gate (u : String) {w : CoreWorld} (hi : gateContract.inv w)
    (hc : w.state.amf.kAmf ≠ none → u ∈ w.state.amf.ueContexts) :
    (onAmf (flask (jsonify (Amf.handleSecurityComplete (some u))))).Meets gateContract legal
      (.amfSecurityComplete (some u)) w w := by
  have hknown : ∀ k, w.state.amf.kAmf = some k → u ∈ w.state.amf.ueContexts := by
    intro k hk
    exact hc (by rw [hk]; simp)
  apply securityComplete_meets u rfl
  · exact ⟨gateContract_idle hi,fun _ _ => trivial⟩
  · intro k hk
    refine ⟨gateContract_idle hi,?_⟩
    intro v hv
    obtain rfl := Option.some.inj hv
    exact hknown k hk
  · intro k b w' hk hr hi' _
    refine ⟨gateContract_idle hi',?_⟩
    intro v hv
    obtain rfl := Option.some.inj hv
    exact hr u (hknown k hk)
  · intro q o w' hi'
    exact ⟨gateContract_idle hi',fun _ _ => trivial⟩
  · intro k b w' _ hi' _
    exact ⟨gateContract_idle hi',fun _ _ => trivial⟩

theorem contextSetup_meets_gate (dig : Digests) (c : UeContext) {w : CoreWorld}
    (hi : gateContract.inv w) (hp : gateContract.pre (.gnbUeContextSetup c) w) :
    (onGnb (flask (jsonify (Gnb.ueContextSetup dig c)))).Meets gateContract legal
      (.gnbUeContextSetup c) w w := by
  have hinv : ∀ u, c.ueId = some u → ∀ v, v ∈ w.state.smf.sessions ∨
      v ∈ w.state.gnb.ueContexts.set u c → v ∈ w.state.amf.ueContexts := by
    intro u hu v hv
    rcases hv with hv | hv
    · exact hi v (.inl hv)
    · rcases Dict.mem_set.mp hv with rfl | hv
      · exact hp v hu
      · exact hi v (.inr hv)
  apply contextSetup_meets dig c rfl
  · intro _
    exact ⟨gateContract_idle hi,fun _ _ => trivial⟩
  · intro u hu _
    exact ⟨⟨hinv u hu,fun _ hv => hv,trivial⟩,fun _ _ => trivial⟩
  · intro u k hu _
    exact ⟨⟨hinv u hu,fun _ hv => hv,trivial⟩,fun _ _ => trivial⟩

theorem session_meets_gate (r : SessionRequest) {w : CoreWorld} (hi : gateContract.inv w)
    (hp : gateContract.pre (.smfSessionEstablishment r) w) :
    (onSmf (flask (jsonify (Smf.establishSession r)))).Meets gateContract legal
      (.smfSessionEstablishment r) w w := by
  apply session_meets r rfl (K := gateContract.pre (.smfSessionEstablishment r))
    (L := fun _ _ => True) hp
  · intro w w' hw hr u hu
    exact hr u (hw u hu)
  · exact fun _ _ => trivial
  · intro command
    exact ⟨gateContract_idle hi,fun _ hv => nomatch hv⟩
  · intro q q' o w' hq hi'
    refine ⟨gateContract_idle hi',?_⟩
    intro v hv
    cases q' <;> simp [Request.target,Request.setsUp] at hq hv
  · intro q o w' _ hi'
    exact ⟨gateContract_idle hi',fun _ _ => trivial⟩
  · intro u k q o w' hu _ hi' hK
    refine ⟨⟨?_,fun _ hv => hv,trivial⟩,fun _ hv => nomatch hv⟩
    intro v hv
    rcases hv with hv | hv
    · rcases Dict.mem_set.mp hv with rfl | hv
      · exact hK v hu
      · exact hi' v (.inl hv)
    · exact hi' v (.inr hv)
  · exact fun _ _ _ _ _ => trivial
  · intro u q o b w' _ hi' _
    exact ⟨gateContract_idle hi',fun _ _ => trivial⟩

theorem gateContract_valid (dig : Digests) (db : Udm.SubscriberDb) :
    gateContract.Valid (wholeCore dig db) AuthenticatedFirst where
  rely_refl := fun _ _ hu => hu
  rely_trans := fun h₁ h₂ u hu => h₂ u (h₁ u hu)
  pre_stable := fun hp hr u hu => hr u (hp u hu)
  post_stable := fun _ _ => trivial
  client_pre := by
    intro r w hr _ u hu
    cases r <;> simp [wholeCore,system,fromClient,Request.setsUp] at hr hu
  environment := fun _ _ _ => trivial
  serves := by
    intro r h w hs hi hp hc
    have hr := (system_serve hs).2
    have hquiet : r.quiet = true → h.Meets gateContract legal r w w := fun hq =>
      (route_footprint dig db hr).meets (gateContract_frame hq) ⟨hi,rfl⟩
    cases r with
    | amfRegistration u =>
      obtain rfl := Option.some.inj hr
      cases u with
      | none => exact ⟨gateContract_idle hi,fun _ _ => trivial⟩
      | some u => exact registration_meets_gate dig u hi
    | amfSecurityComplete u =>
      obtain rfl := Option.some.inj hr
      cases u with
      | none => exact ⟨gateContract_idle hi,fun _ _ => trivial⟩
      | some u => exact securityComplete_meets_gate u hi (hc u rfl)
    | gnbUeContextSetup c =>
      obtain rfl := Option.some.inj hr
      exact contextSetup_meets_gate dig c hi hp
    | smfSessionEstablishment q =>
      obtain rfl := Option.some.inj hr
      exact session_meets_gate q hi hp
    | _ => exact hquiet rfl

/-- In every run whose completions all find a context of their own UE, a UE with
a session or a gNB context is a subscriber that the AMF authenticated before. -/
theorem sessions_authenticated (dig : Digests) (db : Udm.SubscriberDb) (host : Host) {n : CoreNet}
    (hn : (wholeCore dig db).Reachable AuthenticatedFirst (startWorld host) n) (u : String)
    (hu : u ∈ n.world.state.smf.sessions ∨ u ∈ n.world.state.gnb.ueContexts) :
    u ∈ n.world.state.amf.ueContexts ∧ u ∈ db ∧ Authenticated n.world.log u := by
  have hstart : gateContract.inv (startWorld host) := by
    intro v hv
    simp [startWorld,Core.initial] at hv
  have hgate := ((gateContract_valid dig db).reachable_ok hstart hn).inv
  have hauth := ((authContract_valid db dig).reachable_ok (authContract_initial db host) hn.any).inv
  have hmem := hgate u hu
  obtain ⟨context,hc⟩ := Dict.mem_iff_get?.mp hmem
  obtain ⟨hsound,hlog⟩ := hauth u context hc
  exact ⟨hmem,hsound.mem,hlog⟩

theorem sessions_authenticated_shipped :
    ∃ n, (wholeCore sampleDigests Udm.subscriberDb).Reachable AuthenticatedFirst
        (startWorld freshHost) n ∧
      "imsi-001010000000001" ∈ n.world.state.smf.sessions ∧
      Authenticated n.world.log "imsi-001010000000001" := by
  obtain ⟨n,hn,hf⟩ := reachable_of_exec (wholeCore sampleDigests Udm.subscriberDb)
    AuthenticatedFirst freshHost
    (registers "imsi-001010000000001" 0 ++ completes "imsi-001010000000001" 4 5 77)
    (fun n => decide ("imsi-001010000000001" ∈ n.world.state.smf.sessions)) (by decide +kernel)
  have hmem := of_decide_eq_true hf
  exact ⟨n,hn,hmem,(sessions_authenticated sampleDigests Udm.subscriberDb freshHost hn _
    (.inl hmem)).2.2⟩

/-- One UE's registration opens the door for another: K_AMF is shared, and the
completion looks at nothing else. -/
theorem sessions_not_authenticated :
    ¬ ∀ (dig : Digests) (db : Udm.SubscriberDb) (host : Host) (n : CoreNet),
      (wholeCore dig db).Reachable anyStart (startWorld host) n → ∀ u,
      u ∈ n.world.state.smf.sessions ∨ u ∈ n.world.state.gnb.ueContexts →
      u ∈ n.world.state.amf.ueContexts := by
  intro h
  obtain ⟨n,hn,hf⟩ := reachable_of_exec (wholeCore sampleDigests Udm.subscriberDb) anyStart freshHost
    (registers "imsi-001010000000001" 0 ++ completes "stranger" 4 5 77)
    (fun n => decide ("stranger" ∈ n.world.state.smf.sessions ∧
      "stranger" ∉ n.world.state.amf.ueContexts)) (by decide +kernel)
  have hmem := of_decide_eq_true hf
  exact hmem.2 (h _ _ _ n hn "stranger" (.inl hmem.1))

end GrpKeySec
