import GrpKeySec.Authentication
import GrpKeySec.ServiceHistory
set_option autoImplicit false

/-!
What lies behind a request of the core, in the order of the log. A /configure that reaches
the UPF goes back, through the posts of SMF and AMF, to an answer of the AUSF for some
subscriber.
-/

namespace GrpKeySec
open Handler Service

def authAnswered (v : String) (status : Nat) (body : JsonObject) : Event Request Reply PyError :=
  .answered (.amfRegistration (some v)) (.ausfAuthenticate (some v) Amf.servingNetwork)
    (.ok (.json status body))

/-- What the completion of `u` puts into the log up to its session request, newest first,
when the gNB replies `b`. -/
def completionEvents (u kAmf : String) (b : Reply) : CoreLog :=
  [.posted (.amfSecurityComplete (some u)) (sessionRequest u kAmf),
   .answered (.amfSecurityComplete (some u)) (setupRequest u kAmf) (.ok b),
   .posted (.amfSecurityComplete (some u)) (setupRequest u kAmf)]

/-- `kAmf` is from an answer of the AUSF, and `events` came after it, in this order. -/
def After (kAmf : String) (events log : CoreLog) : Prop :=
  ∃ v status body kAusf, body.lookup "k_ausf" = some kAusf ∧ kAmf = Amf.deriveKAmf kAusf ∧
    (events ++ [authAnswered v status body]).Sublist log

theorem After.mono {kAmf : String} {events log log' : CoreLog} (h : After kAmf events log)
    (hl : log.Sublist log') : After kAmf events log' := by
  obtain ⟨v,status,body,kAusf,hb,hk,hs⟩ := h
  exact ⟨v,status,body,kAusf,hb,hk,hs.trans hl⟩

theorem After.cons {kAmf : String} {events log : CoreLog} (h : After kAmf events log)
    (e : Event Request Reply PyError) : After kAmf (e :: events) (e :: log) := by
  obtain ⟨v,status,body,kAusf,hb,hk,hs⟩ := h
  exact ⟨v,status,body,kAusf,hb,hk,hs.cons_cons e⟩

theorem After.tail {kAmf : String} {e : Event Request Reply PyError} {events log : CoreLog}
    (h : After kAmf (e :: events) log) : After kAmf events log.tail := by
  obtain ⟨v,status,body,kAusf,hb,hk,hs⟩ := h
  exact ⟨v,status,body,kAusf,hb,hk,hs.tail⟩

theorem sublist_two (e e' : Event Request Reply PyError) (log : CoreLog) :
    log.Sublist (e :: e' :: log) := (List.sublist_cons_self e' log).cons e

def historyContract : CoreContract where
  inv := fun w => ∀ k, w.state.amf.kAmf = some k → After k [] w.log
  rely := fun w w' => w.log.Sublist w'.log
  guar := fun _ _ _ => True
  pre := fun r w => match r with
    | .smfSessionEstablishment q => ∃ u k b, q = ⟨some u,some (Amf.deriveKey k "K_gNB")⟩ ∧
        After k (completionEvents u k b) w.log
    | .upfConfigure q => ∃ u k b e,
        q = ⟨u,Smf.deriveKey (Amf.deriveKey k "K_gNB") "UP_ENC"⟩ ∧
        After k (e :: completionEvents u k b) w.log
    | _ => True
  post := fun _ _ _ => True

theorem historyContract_ends {src : Request} {w₀ w : CoreWorld} (hi : historyContract.inv w₀)
    (ha : w.state.amf.kAmf = w₀.state.amf.kAmf) (hl : w₀.log.Sublist w.log) :
    historyContract.Ends src w₀ w := by
  refine ⟨?_,hl,trivial⟩
  intro k hk
  rw [ha] at hk
  exact (hi k hk).mono hl

theorem historyContract_closes {src : Request} {o : Except PyError Reply} {w₀ : CoreWorld} {s : Core}
    {e : Event Request Reply PyError} (hi : historyContract.inv w₀)
    (ha : s.amf.kAmf = w₀.state.amf.kAmf) :
    historyContract.Closes src o w₀ ⟨s,e :: w₀.log⟩ :=
  ⟨historyContract_ends hi ha (sublist_two _ _ _),fun _ _ => trivial⟩

theorem historyContract_frame {src : Request} (hs : ∀ u, src ≠ .amfRegistration u)
    (hp : ∀ r w, Calls src r → historyContract.pre r w) :
    historyContract.Frame src (Writes src) (Calls src)
      (fun w₀ w => historyContract.inv w₀ ∧ w.state.amf = w₀.state.amf ∧
        w₀.log.Sublist w.log) where
  start := fun hi => ⟨hi,rfl,List.Sublist.refl _⟩
  update := fun hw hm => ⟨hw.1,(hm.amf_eq hs).trans hw.2.1,hw.2.2⟩
  record := fun {_ _ e} hw _ => ⟨hw.1,hw.2.1,hw.2.2.cons e⟩
  ends := fun hw => historyContract_ends hw.1 (congrArg Amf.kAmf hw.2.1) hw.2.2
  pre := fun {r w} hr _ => hp r w hr
  post := fun _ => trivial

theorem registration_meets_history (dig : Digests) (u : String) {w : CoreWorld}
    (hi : historyContract.inv w) :
    (onAmf (flask (jsonify (Amf.handleRegistration dig (some u))))).Meets historyContract legal
      (.amfRegistration (some u)) w w := by
  apply registration_meets dig u rfl rfl
  · exact ⟨historyContract_ends hi rfl (List.sublist_cons_self _ _),trivial⟩
  · intro o w' hi' _
    exact historyContract_closes hi' rfl
  · intro status body w' hi' _ _
    exact historyContract_closes hi' rfl
  · intro status body kAusf mac w' hi' _ hk
    refine ⟨⟨?_,sublist_two _ _ _,trivial⟩,trivial⟩
    intro k hkAmf
    refine ⟨u,status,body,kAusf,hk,(Option.some.inj hkAmf).symm,?_⟩
    exact List.singleton_sublist.mpr (by simp [authAnswered])
  · intro q o b w' hi'
    exact historyContract_closes hi' rfl

theorem securityComplete_meets_history (u : String) {w : CoreWorld} (hi : historyContract.inv w) :
    (onAmf (flask (jsonify (Amf.handleSecurityComplete (some u))))).Meets historyContract legal
      (.amfSecurityComplete (some u)) w w := by
  apply securityComplete_meets u rfl
  · exact ⟨historyContract_ends hi rfl (List.sublist_cons_self _ _),fun _ _ => trivial⟩
  · intro k _
    exact ⟨historyContract_ends hi rfl (List.sublist_cons_self _ _),trivial⟩
  · intro k b w' hk hr hi' _
    -- the key was there when the handler started, so its answer is behind the first post
    have hsetup := ((hi k hk).cons (.posted (.amfSecurityComplete (some u)) (setupRequest u k))).mono hr
    refine ⟨historyContract_ends hi' rfl (sublist_two _ _ _),u,k,b,rfl,?_⟩
    exact (hsetup.cons _).cons _
  · intro q o w' hi'
    exact historyContract_closes hi' rfl
  · intro k b w' _ hi' _
    exact historyContract_closes hi' rfl

theorem session_meets_history (r : SessionRequest) {w : CoreWorld} (hi : historyContract.inv w)
    (hp : historyContract.pre (.smfSessionEstablishment r) w) :
    (onSmf (flask (jsonify (Smf.establishSession r)))).Meets historyContract legal
      (.smfSessionEstablishment r) w w := by
  apply session_meets r rfl (K := historyContract.pre (.smfSessionEstablishment r))
    (L := fun _ _ => True) hp
  · rintro w w' ⟨u,k,b,hq,ha⟩ hr
    exact ⟨u,k,b,hq,ha.mono hr⟩
  · exact fun _ _ => trivial
  · intro command
    exact ⟨historyContract_ends hi rfl (List.sublist_cons_self _ _),trivial⟩
  · intro q q' o w' hq hi'
    refine ⟨historyContract_ends hi' rfl (sublist_two _ _ _),?_⟩
    cases q' <;> simp [Request.target] at hq <;> trivial
  · intro q o w' _ hi'
    exact historyContract_closes hi' rfl
  · rintro u k q o w' hu hk hi' ⟨v,kAmf,b,rfl,ha⟩
    obtain rfl := Option.some.inj hu
    obtain rfl := Option.some.inj hk
    exact ⟨historyContract_ends hi' rfl (sublist_two _ _ _),v,kAmf,b,_,rfl,
      (ha.mono (List.sublist_cons_self _ _)).cons _⟩
  · exact fun _ _ _ _ _ => trivial
  · intro u q o b w' _ hi' _
    exact historyContract_closes hi' rfl

theorem historyContract_valid (dig : Digests) (db : Udm.SubscriberDb) :
    historyContract.Valid (wholeCore dig db) anyStart where
  rely_refl := fun _ => List.Sublist.refl _
  rely_trans := fun h₁ h₂ => h₁.trans h₂
  pre_stable := by
    intro r w w' hp hr
    cases r with
    | smfSessionEstablishment q =>
      obtain ⟨u,k,b,hq,ha⟩ := hp
      exact ⟨u,k,b,hq,ha.mono hr⟩
    | upfConfigure q =>
      obtain ⟨u,k,b,e,hq,ha⟩ := hp
      exact ⟨u,k,b,e,hq,ha.mono hr⟩
    | _ => trivial
  post_stable := fun _ _ => trivial
  client_pre := by
    intro r w hr _
    cases r <;> simp [wholeCore,system,fromClient] at hr <;> trivial
  environment := fun _ _ _ => trivial
  serves := by
    intro r h w hs hi hp _
    have hr := (system_serve hs).2
    have hframe : (∀ u, r ≠ .amfRegistration u) →
        (∀ q w, Calls r q → historyContract.pre q w) → h.Meets historyContract legal r w w :=
      fun hne hcalls => (route_footprint dig db hr).meets (historyContract_frame hne hcalls)
        ⟨hi,rfl,List.Sublist.refl _⟩
    cases r with
    | amfRegistration u =>
      obtain rfl := Option.some.inj hr
      cases u with
      | none =>
        exact ⟨historyContract_ends hi rfl (List.sublist_cons_self _ _),fun _ _ => trivial⟩
      | some u => exact registration_meets_history dig u hi
    | amfSecurityComplete u =>
      obtain rfl := Option.some.inj hr
      cases u with
      | none =>
        exact ⟨historyContract_ends hi rfl (List.sublist_cons_self _ _),fun _ _ => trivial⟩
      | some u => exact securityComplete_meets_history u hi
    | smfSessionEstablishment q =>
      obtain rfl := Option.some.inj hr
      exact session_meets_history q hi hp
    | _ =>
      refine hframe (by simp) ?_
      intro q w hq
      cases q <;> trivial

theorem historyContract_initial (host : Host) : historyContract.inv (startWorld host) := by
  intro k hk
  exact nomatch hk

theorem authAnswered_sound {dig : Digests} {db : Udm.SubscriberDb} {host : Host} {n : CoreNet}
    (hn : (wholeCore dig db).Reachable anyStart (startWorld host) n) {v : String} {status : Nat}
    {body : JsonObject} (h : authAnswered v status body ∈ n.world.log) :
    status = 200 ∧ SoundContext db v body := by
  have hf := (authContract_valid db dig).reachable_fitting (authContract_initial db host) rfl hn
  obtain ⟨later,earlier,hlog⟩ := List.append_of_mem h
  rw [hlog] at hf
  obtain ⟨_,hp⟩ := hf.fits _ rfl
  exact hp status body rfl

/-- Whatever overlaps and fails, a /configure reaches the UPF only after the AMF got a
subscriber's key from the AUSF, posted the context to the gNB, had its reply and posted the
session request to the SMF, all three for the UE of the /configure; and the key in it is
derived from that subscriber's. -/
theorem configure_after_authentication (dig : Digests) (db : Udm.SubscriberDb) (host : Host)
    {n : CoreNet} (hn : (wholeCore dig db).Reachable anyStart (startWorld host) n)
    {later earlier : CoreLog} {src : Request} {q : ConfigureRequest}
    (hlog : n.world.log = later ++ .posted src (.upfConfigure q) :: earlier) :
    ∃ v subscriber kAmf b, db.get? v = some subscriber ∧
      kAmf = Amf.deriveKAmf (Udm.deriveKAusf subscriber.k) ∧
      q.kUpEnc = Smf.deriveKey (Amf.deriveKey kAmf "K_gNB") "UP_ENC" ∧
      (completionEvents q.ueId kAmf b ++
        [authAnswered v 200 (Ausf.success (Udm.deriveKAusf subscriber.k))]).Sublist earlier := by
  have hf := (historyContract_valid dig db).reachable_fitting (historyContract_initial host) rfl hn
  rw [hlog] at hf
  obtain ⟨_,u,kAmf,b,e,rfl,ha⟩ := hf.fits
  obtain ⟨v,status,body,kAusf,hb,rfl,hs⟩ := ha.tail
  have hmem : authAnswered v status body ∈ n.world.log := by
    rw [hlog]
    refine List.mem_append_right _ (List.mem_cons_of_mem _ (hs.subset ?_))
    exact List.mem_append_right _ (List.mem_singleton_self _)
  obtain ⟨rfl,subscriber,hsub,rfl⟩ := authAnswered_sound hn hmem
  obtain rfl := Option.some.inj hb
  exact ⟨v,subscriber,_,b,hsub,rfl,rfl,hs⟩

/-- A UE that is no subscriber gets its user plane with the key of one that is. -/
theorem configure_after_authentication_stranger :
    ∃ n later earlier src, (wholeCore sampleDigests Udm.subscriberDb).Reachable anyStart
        (startWorld freshHost) n ∧
      n.world.log = later ++ .posted src
        (.upfConfigure ⟨"stranger","UP_ENC_derived_from_K_gNB_deri"⟩) :: earlier ∧
      ∃ v subscriber kAmf b, Udm.subscriberDb.get? v = some subscriber ∧
        (completionEvents "stranger" kAmf b ++
          [authAnswered v 200 (Ausf.success (Udm.deriveKAusf subscriber.k))]).Sublist earlier := by
  obtain ⟨n,hn,hf⟩ := reachable_of_exec (wholeCore sampleDigests Udm.subscriberDb) anyStart freshHost
    (registers "imsi-001010000000001" 0 ++ completes "stranger" 4 5 77)
    (fun n => decide (Event.posted
      (.smfSessionEstablishment ⟨some "stranger",some "K_gNB_derived_from_K_AMF_deri"⟩)
      (.upfConfigure ⟨"stranger","UP_ENC_derived_from_K_gNB_deri"⟩) ∈ n.world.log))
    (by decide +kernel)
  obtain ⟨later,earlier,hlog⟩ := List.append_of_mem (of_decide_eq_true hf)
  obtain ⟨v,subscriber,kAmf,b,hsub,_,_,hs⟩ :=
    configure_after_authentication sampleDigests Udm.subscriberDb freshHost hn hlog
  exact ⟨n,later,earlier,_,hn,hlog,v,subscriber,kAmf,b,hsub,hs⟩

end GrpKeySec
