import GrpKeySec.CoreRules
set_option autoImplicit false

/-!
The keys that gNB and SMF hold. Each derivation keeps ten characters of its
parent, and ten characters end inside the parent's own label, so every K_gNB and
every UP_ENC key is the same string, whoever the subscriber is.
-/

namespace GrpKeySec
open Handler Service

def theKGnb : String := "K_gNB_derived_from_K_AMF_deri"
def theKUpEnc : String := "UP_ENC_derived_from_K_gNB_deri"

theorem kGnb_constant (kAusf : String) :
    Amf.deriveKey (Amf.deriveKAmf kAusf) "K_gNB" = theKGnb := by
  have h := sliceTo_derivedKey "K_AMF" kAusf
  simp only [Amf.deriveKey,Amf.deriveKAmf]
  rw [derivedKey,h]
  decide +kernel

theorem kUpEnc_constant : Smf.deriveKey theKGnb "UP_ENC" = theKUpEnc := by decide +kernel

/-- The completion of `u` has returned its success to the caller. -/
def Completed (log : List (Event Request Reply PyError)) (u : String) : Prop :=
  Event.returned (.amfSecurityComplete (some u))
    (.ok (.json 200 [("status","registration_complete")])) ∈ log

/-- One invariant for any part of the core that has AMF, gNB and SMF in it: all
stored keys are the constants, and the SMF never precedes the gNB. -/
structure KeysAgree (w : CoreWorld) : Prop where
  kAmf : ∀ k, w.state.amf.kAmf = some k → ∃ kAusf, k = Amf.deriveKAmf kAusf
  gnb : ∀ u c, w.state.gnb.ueContexts.get? u = some c → c.kGnb = some theKGnb
  smf : ∀ u s, w.state.smf.sessions.get? u = some s → s.kUpEnc = theKUpEnc
  order : ∀ u, u ∈ w.state.smf.sessions → u ∈ w.state.gnb.ueContexts
  completed : ∀ u, Completed w.log u → u ∈ w.state.smf.sessions

def keyContract : CoreContract where
  inv := KeysAgree
  rely := fun w w' => (∀ u, u ∈ w.state.gnb.ueContexts → u ∈ w'.state.gnb.ueContexts) ∧
    ∀ u, u ∈ w.state.smf.sessions → u ∈ w'.state.smf.sessions
  guar := fun _ _ _ => True
  pre := fun r w => match r with
    | .gnbUeContextSetup c => c.kGnb = some theKGnb
    | .smfSessionEstablishment r => r.kGnb = some theKGnb ∧
        ∀ u, r.ueId = some u → u ∈ w.state.gnb.ueContexts
    | _ => True
  post := fun r _ w => match r with
    | .gnbUeContextSetup c => ∀ u, c.ueId = some u → u ∈ w.state.gnb.ueContexts
    | .smfSessionEstablishment r => r.kGnb = some theKGnb →
        ∀ u, r.ueId = some u → u ∈ w.state.smf.sessions
    | _ => True

theorem KeysAgree.record {w : CoreWorld} (h : KeysAgree w) (e : Event Request Reply PyError)
    (he : ∀ u, e ≠ .returned (.amfSecurityComplete (some u))
      (.ok (.json 200 [("status","registration_complete")]))) : KeysAgree (w.record e) where
  kAmf := h.kAmf
  gnb := h.gnb
  smf := h.smf
  order := h.order
  completed := by
    intro u hu
    rcases List.mem_cons.mp hu with hu | hu
    · exact absurd hu.symm (he u)
    · exact h.completed u hu

theorem KeysAgree.congr {w w' : CoreWorld} (h : KeysAgree w) (ha : w'.state.amf = w.state.amf)
    (hg : w'.state.gnb = w.state.gnb) (hs : w'.state.smf = w.state.smf) (hl : w'.log = w.log) :
    KeysAgree w' := by
  constructor
  · rw [ha]; exact h.kAmf
  · rw [hg]; exact h.gnb
  · rw [hs]; exact h.smf
  · rw [hg,hs]; exact h.order
  · rw [hl,hs]; exact h.completed

theorem KeysAgree.posted {w : CoreWorld} (h : KeysAgree w) (src r : Request) :
    KeysAgree (w.record (.posted src r)) := h.record _ (fun _ he => nomatch he)

theorem KeysAgree.answered {w : CoreWorld} (h : KeysAgree w) (src r : Request)
    (o : Except PyError Reply) : KeysAgree (w.record (.answered src r o)) :=
  h.record _ (fun _ he => nomatch he)

theorem KeysAgree.returned {w : CoreWorld} (h : KeysAgree w) {src : Request}
    (hs : ∀ u, src ≠ .amfSecurityComplete (some u)) (o : Except PyError Reply) :
    KeysAgree (w.record (.returned src o)) :=
  h.record _ (fun u he => hs u (Event.returned.inj he).1)

theorem KeysAgree.returned_page {w : CoreWorld} (h : KeysAgree w) (src : Request) (status : Nat) :
    KeysAgree (w.record (.returned src (.ok (.html status)))) :=
  h.record _ (fun _ he => nomatch (Except.ok.inj (Event.returned.inj he).2))

theorem KeysAgree.ends {src : Request} {w w' : CoreWorld} (h : KeysAgree w')
    (hg : w'.state.gnb = w.state.gnb) (hs : w'.state.smf = w.state.smf) :
    keyContract.Ends src w w' := by
  refine ⟨h,⟨?_,?_⟩,trivial⟩
  · rw [hg]; exact fun _ hu => hu
  · rw [hs]; exact fun _ hu => hu

theorem keyContract_frame {src : Request} (hs : src.quiet = true) :
    keyContract.Frame src (Writes src) (Calls src)
      (fun w₀ w => KeysAgree w ∧ w.state.gnb = w₀.state.gnb ∧ w.state.smf = w₀.state.smf) where
  start := fun hi => ⟨hi,rfl,rfl⟩
  update := by
    intro w₀ w s hw hm
    obtain ⟨ha,hg,hsmf⟩ := hm.quiet hs
    exact ⟨hw.1.congr ha hg hsmf rfl,hg.trans hw.2.1,hsmf.trans hw.2.2⟩
  record := by
    intro w₀ w e hw he
    refine ⟨hw.1.record e ?_,hw.2⟩
    rintro u rfl
    obtain rfl : Request.amfSecurityComplete (some u) = src := he
    simp [Request.quiet] at hs
  ends := fun hw => hw.1.ends hw.2.1 hw.2.2
  pre := by
    intro r w hr _
    obtain ⟨hg,hsmf⟩ := hr.quiet hs
    cases r with
    | gnbUeContextSetup c => exact absurd rfl (hg c)
    | smfSessionEstablishment q => exact absurd rfl (hsmf q)
    | _ => trivial
  post := by
    intro b w _
    cases src with
    | gnbUeContextSetup c => simp [Request.quiet] at hs
    | smfSessionEstablishment q => simp [Request.quiet] at hs
    | _ => trivial

theorem registration_meets_key (dig : Digests) (u : String) {w : CoreWorld} (hi : KeysAgree w) :
    (onAmf (flask (jsonify (Amf.handleRegistration dig (some u))))).Meets keyContract legal
      (.amfRegistration (some u)) w w := by
  have hne : ∀ v, Request.amfRegistration (some u) ≠ .amfSecurityComplete (some v) :=
    fun _ h => nomatch h
  apply registration_meets dig u rfl rfl
  · exact ⟨(hi.posted _ _).ends rfl rfl,trivial⟩
  · intro o w' hi' _
    exact ⟨((hi'.answered _ _ o).returned hne _).ends rfl rfl,fun _ _ => trivial⟩
  · intro status body w' hi' _ _
    have hst : KeysAgree ⟨w'.state.storeContext u body,w'.log⟩ :=
      ⟨hi'.kAmf,hi'.gnb,hi'.smf,hi'.order,hi'.completed⟩
    exact ⟨((hst.answered _ _ _).returned hne _).ends rfl rfl,
      fun _ _ => trivial⟩
  · intro status body kAusf mac w' hi' _ _
    have hst : KeysAgree ⟨(w'.state.storeContext u body).storeKAmf kAusf,w'.log⟩ := by
      refine ⟨?_,hi'.gnb,hi'.smf,hi'.order,hi'.completed⟩
      intro k hk
      exact ⟨kAusf,(Option.some.inj hk).symm⟩
    exact ⟨((hst.answered _ _ _).posted _ _).ends rfl rfl,trivial⟩
  · intro q o b w' hi'
    exact ⟨((hi'.answered _ _ o).returned hne _).ends rfl rfl,fun _ _ => trivial⟩

theorem securityComplete_meets_key (u : String) {w : CoreWorld} (hi : KeysAgree w) :
    (onAmf (flask (jsonify (Amf.handleSecurityComplete (some u))))).Meets keyContract legal
      (.amfSecurityComplete (some u)) w w := by
  have hkey : ∀ k, w.state.amf.kAmf = some k → Amf.deriveKey k "K_gNB" = theKGnb := by
    intro k hk
    obtain ⟨kAusf,rfl⟩ := hi.kAmf k hk
    exact kGnb_constant kAusf
  apply securityComplete_meets u rfl
  · exact ⟨(hi.returned_page _ _).ends rfl rfl,fun _ _ => trivial⟩
  · intro k hk
    exact ⟨(hi.posted _ _).ends rfl rfl,congrArg some (hkey k hk)⟩
  · intro k b w' hk _ hi' hp
    exact ⟨((hi'.answered _ _ _).posted _ _).ends rfl rfl,
      congrArg some (hkey k hk),hp⟩
  · intro q o w' hi'
    exact ⟨((hi'.answered _ _ _).returned_page _ _).ends rfl rfl,
      fun _ _ => trivial⟩
  · intro k b w' hk hi' hp
    -- the one event the invariant reads: this completion's success
    have hu : u ∈ w'.state.smf.sessions := hp (congrArg some (hkey k hk)) u rfl
    have ha := hi'.answered (.amfSecurityComplete (some u)) (sessionRequest u k) (.ok b)
    refine ⟨KeysAgree.ends ⟨ha.kAmf,ha.gnb,ha.smf,ha.order,?_⟩ rfl rfl,
      fun _ _ => trivial⟩
    intro v hv
    rcases List.mem_cons.mp hv with hv | hv
    · obtain rfl := Option.some.inj (Request.amfSecurityComplete.inj (Event.returned.inj hv).1)
      exact hu
    · exact ha.completed v hv

theorem contextSetup_meets_key (dig : Digests) (c : UeContext) {w : CoreWorld} (hi : KeysAgree w)
    (hp : c.kGnb = some theKGnb) :
    (onGnb (flask (jsonify (Gnb.ueContextSetup dig c)))).Meets keyContract legal
      (.gnbUeContextSetup c) w w := by
  apply contextSetup_meets dig c rfl
  · intro hu
    refine ⟨(hi.returned_page _ _).ends rfl rfl,?_⟩
    intro b _ u hu'
    rw [hu] at hu'
    exact nomatch hu'
  · intro u _ hk
    rw [hp] at hk
    exact nomatch hk
  · intro u k hu _
    have hst : KeysAgree ⟨(w.state.storeGnbContext u c).storeKGnb k,w.log⟩ := by
      refine ⟨hi.kAmf,?_,hi.smf,fun v hv => Dict.mem_set.mpr (.inr (hi.order v hv)),hi.completed⟩
      intro v c' hv
      simp only [Core.storeKGnb,Core.storeGnbContext,Dict.get?_set] at hv
      by_cases hvu : v = u
      · rw [if_pos hvu] at hv
        obtain rfl := Option.some.inj hv
        exact hp
      · rw [if_neg hvu] at hv
        exact hi.gnb v c' hv
    refine ⟨⟨hst.returned_page _ _,⟨fun v hv => Dict.mem_set.mpr (.inr hv),fun _ hv => hv⟩,
      trivial⟩,?_⟩
    intro b _ v hv
    rw [hu] at hv
    obtain rfl := Option.some.inj hv
    exact Dict.mem_set.mpr (.inl rfl)

theorem KeysAgree.storeSession {w : CoreWorld} (h : KeysAgree w) {u : String}
    (hgnb : u ∈ w.state.gnb.ueContexts) :
    KeysAgree ⟨w.state.storeSession u ⟨Smf.deriveKey theKGnb "UP_ENC","active"⟩,w.log⟩ where
  kAmf := h.kAmf
  gnb := h.gnb
  smf := by
    intro v s hv
    simp only [Core.storeSession,Dict.get?_set] at hv
    by_cases hvu : v = u
    · rw [if_pos hvu] at hv
      obtain rfl := Option.some.inj hv
      exact kUpEnc_constant
    · rw [if_neg hvu] at hv
      exact h.smf v s hv
  order := by
    intro v hv
    rcases Dict.mem_set.mp hv with rfl | hv
    · exact hgnb
    · exact h.order v hv
  completed := fun v hv => Dict.mem_set.mpr (.inr (h.completed v hv))

theorem session_meets_key (r : SessionRequest) {w : CoreWorld} (hi : KeysAgree w)
    (hp : keyContract.pre (.smfSessionEstablishment r) w) :
    (onSmf (flask (jsonify (Smf.establishSession r)))).Meets keyContract legal
      (.smfSessionEstablishment r) w w := by
  have hne : ∀ v, Request.smfSessionEstablishment r ≠ .amfSecurityComplete (some v) :=
    fun _ h => nomatch h
  apply session_meets r rfl (K := keyContract.pre (.smfSessionEstablishment r))
    (L := fun u w => u ∈ w.state.smf.sessions) hp
  · intro w w' hw hr
    exact ⟨hw.1,fun u hu => hr.1 u (hw.2 u hu)⟩
  · intro u w w' hw hr
    exact hr.2 u hw
  · intro command
    exact ⟨(hi.posted _ _).ends rfl rfl,trivial⟩
  · intro q q' o w' hq hi'
    refine ⟨((hi'.answered _ _ _).posted _ _).ends rfl rfl,?_⟩
    cases q' <;> simp [Request.target] at hq <;> trivial
  · intro q o w' hmissing hi'
    refine ⟨((hi'.answered _ _ _).returned hne _).ends rfl rfl,?_⟩
    intro b _ hk u hu
    rcases hmissing with h | h
    · rw [h] at hu
      exact nomatch hu
    · rw [h] at hk
      exact nomatch hk
  · intro u k q o w' hu hk hi' hK
    -- the gNB knew this UE when the AMF asked and forgets nobody
    obtain ⟨hkey,hgnb⟩ := hK
    rw [hk] at hkey
    obtain rfl := Option.some.inj hkey
    have hst := hi'.storeSession (hgnb u hu)
    exact ⟨⟨(hst.answered _ _ _).posted _ _,
      ⟨fun _ hv => hv,fun v hv => Dict.mem_set.mpr (.inr hv)⟩,trivial⟩,trivial⟩
  · intro u k log _ c
    exact Dict.mem_set.mpr (.inl rfl)
  · intro u q o b w' hu hi' hL
    refine ⟨((hi'.answered _ _ _).returned hne _).ends rfl rfl,?_⟩
    intro b' _ _ v hv
    rw [hu] at hv
    obtain rfl := Option.some.inj hv
    exact hL

theorem keyContract_valid (dig : Digests) (db : Udm.SubscriberDb) (modelled : Component → Bool)
    (hm : modelled .gnb = true ∧ modelled .smf = true) :
    keyContract.Valid (system dig db modelled) anyStart where
  rely_refl := fun _ => ⟨fun _ hu => hu,fun _ hu => hu⟩
  rely_trans := fun h₁ h₂ => ⟨fun u hu => h₂.1 u (h₁.1 u hu),fun u hu => h₂.2 u (h₁.2 u hu)⟩
  pre_stable := by
    intro r w w' hp hr
    cases r with
    | gnbUeContextSetup c => exact hp
    | smfSessionEstablishment q => exact ⟨hp.1,fun u hu => hr.1 u (hp.2 u hu)⟩
    | _ => trivial
  post_stable := by
    intro r b w w' hp hr
    cases r with
    | gnbUeContextSetup c => exact fun u hu => hr.1 u (hp u hu)
    | smfSessionEstablishment q => exact fun hk u hu => hr.2 u (hp hk u hu)
    | _ => trivial
  client_pre := by
    intro r w hr _
    cases r <;> simp [system,fromClient] at hr <;> trivial
  environment := by
    intro r b w hs _ _
    cases r with
    | gnbUeContextSetup c => simp [system,Request.target,hm.1,route] at hs
    | smfSessionEstablishment q => simp [system,Request.target,hm.2,route] at hs
    | _ => trivial
  serves := by
    intro r h w hs hi hp _
    have hr := (system_serve hs).2
    have hquiet : r.quiet = true → h.Meets keyContract legal r w w := fun hq =>
      (route_footprint dig db hr).meets (keyContract_frame hq) ⟨hi,rfl,rfl⟩
    cases r with
    | amfRegistration u =>
      obtain rfl := Option.some.inj hr
      cases u with
      | none =>
        exact ⟨(hi.returned_page _ _).ends rfl rfl,fun _ _ => trivial⟩
      | some u => exact registration_meets_key dig u hi
    | amfSecurityComplete u =>
      obtain rfl := Option.some.inj hr
      cases u with
      | none =>
        exact ⟨(hi.returned_page _ _).ends rfl rfl,fun _ _ => trivial⟩
      | some u => exact securityComplete_meets_key u hi
    | gnbUeContextSetup c =>
      obtain rfl := Option.some.inj hr
      exact contextSetup_meets_key dig c hi hp
    | smfSessionEstablishment q =>
      obtain rfl := Option.some.inj hr
      exact session_meets_key q hi hp
    | _ => exact hquiet rfl

theorem keysAgree_initial (host : Host) : KeysAgree (startWorld host) := by
  constructor <;> simp [startWorld,Core.initial,Completed]

/-- gNB and SMF agree on every session key, however the handlers interleave and
wherever they fail. -/
theorem sessions_agree_with_gnb (dig : Digests) (db : Udm.SubscriberDb) (host : Host) {n : CoreNet}
    (hn : (amfGnbSmf dig db).Reachable anyStart (startWorld host) n) (u : String) (s : Session)
    (hs : n.world.state.smf.sessions.get? u = some s) :
    ∃ c k, n.world.state.gnb.ueContexts.get? u = some c ∧ c.kGnb = some k ∧
      s.kUpEnc = Smf.deriveKey k "UP_ENC" := by
  have hV := keyContract_valid dig db (fun c => c = .amf || c = .gnb || c = .smf) ⟨rfl,rfl⟩
  have hk : KeysAgree n.world := (hV.reachable_ok (keysAgree_initial host) hn).inv
  obtain ⟨c,hc⟩ := Dict.mem_iff_get?.mp (hk.order u (Dict.mem_of_get? hs))
  refine ⟨c,theKGnb,hc,hk.gnb u c hc,?_⟩
  rw [kUpEnc_constant]
  exact hk.smf u s hs

/-- Two overlapping completions of one UE, reaching gNB and SMF in opposite
orders, with a registration of the same UE under another key in between. -/
theorem sessions_agree_overlapping :
    ∃ n, (amfGnbSmf sampleDigests Udm.subscriberDb).Reachable anyStart (startWorld freshHost) n ∧
      n.tasks.length = 9 ∧
      ∃ c k, n.world.state.gnb.ueContexts.get? "imsi-001010000000001" = some c ∧ c.kGnb = some k ∧
        theKUpEnc = Smf.deriveKey k "UP_ENC" := by
  obtain ⟨n,hn,hf⟩ := reachable_of_exec (amfGnbSmf sampleDigests Udm.subscriberDb) anyStart freshHost
    [.client (.amfRegistration (some "imsi-001010000000001")),.start 0,
     .answer 0 (.json 200 [("k_ausf","A")]),.start 1,.reply 0,
     .client (.amfSecurityComplete (some "imsi-001010000000001")),.start 2,
     .client (.amfRegistration (some "imsi-001010000000001")),.start 4,
     .answer 4 (.json 200 [("k_ausf","B")]),
     .client (.amfSecurityComplete (some "imsi-001010000000001")),.start 6,.start 7,.reply 6,
     .start 3,.fail 2 .connectionError,.start 8,.answer 8 (.int 1),.answer 8 (.int 1),
     .answer 8 (.int 1),.fail 8 .connectionError]
    (fun n => decide (n.tasks.length = 9 ∧
      n.world.state.smf.sessions.get? "imsi-001010000000001" = some ⟨theKUpEnc,"active"⟩))
    (by decide +kernel)
  obtain ⟨hlen,hs⟩ := of_decide_eq_true hf
  exact ⟨n,hn,hlen,sessions_agree_with_gnb _ _ _ hn _ _ hs⟩

/-- No subscriber-specific character survives the derivations: whichever two UEs
complete in a run, their K_gNB are the same and so are their user-plane keys. -/
theorem subscriber_keys_coincide (dig : Digests) (db : Udm.SubscriberDb) (host : Host)
    {n : CoreNet} (hn : (wholeCore dig db).Reachable anyStart (startWorld host) n) (u v : String)
    (hu : Completed n.world.log u) (hv : Completed n.world.log v) :
    ∃ cu cv su sv, n.world.state.gnb.ueContexts.get? u = some cu ∧
      n.world.state.gnb.ueContexts.get? v = some cv ∧
      n.world.state.smf.sessions.get? u = some su ∧
      n.world.state.smf.sessions.get? v = some sv ∧
      cu.kGnb = cv.kGnb ∧ su.kUpEnc = sv.kUpEnc := by
  have hV := keyContract_valid dig db (fun _ => true) ⟨rfl,rfl⟩
  have hk : KeysAgree n.world := (hV.reachable_ok (keysAgree_initial host) hn).inv
  obtain ⟨su,hsu⟩ := Dict.mem_iff_get?.mp (hk.completed u hu)
  obtain ⟨sv,hsv⟩ := Dict.mem_iff_get?.mp (hk.completed v hv)
  obtain ⟨cu,hcu⟩ := Dict.mem_iff_get?.mp (hk.order u (hk.completed u hu))
  obtain ⟨cv,hcv⟩ := Dict.mem_iff_get?.mp (hk.order v (hk.completed v hv))
  refine ⟨cu,cv,su,sv,hcu,hcv,hsu,hsv,?_,?_⟩
  · rw [hk.gnb u cu hcu,hk.gnb v cv hcv]
  · rw [hk.smf u su hsu,hk.smf v sv hsv]

def twoSubscribers : Udm.SubscriberDb :=
  Udm.subscriberDb.set "imsi-001010000000002"
    ⟨"0xffeeddccbbaa99887766554433221100","0x63bfa50ee6523365ff14c1f45f88737d",0⟩

def bothComplete : List (Action Request Reply PyError) :=
  registers "imsi-001010000000001" 0 ++ registers "imsi-001010000000002" 4 ++
    completes "imsi-001010000000002" 8 5 77 ++ completes "imsi-001010000000001" 12 2 101

instance (log : List (Event Request Reply PyError)) (u : String) : Decidable (Completed log u) :=
  inferInstanceAs (Decidable (_ ∈ log))

theorem subscriber_keys_coincide_two :
    ∃ n, (wholeCore sampleDigests twoSubscribers).Reachable anyStart (startWorld freshHost) n ∧
      Completed n.world.log "imsi-001010000000001" ∧
      Completed n.world.log "imsi-001010000000002" ∧
      ∃ cu cv su sv, n.world.state.gnb.ueContexts.get? "imsi-001010000000001" = some cu ∧
        n.world.state.gnb.ueContexts.get? "imsi-001010000000002" = some cv ∧
        n.world.state.smf.sessions.get? "imsi-001010000000001" = some su ∧
        n.world.state.smf.sessions.get? "imsi-001010000000002" = some sv ∧
        cu.kGnb = cv.kGnb ∧ su.kUpEnc = sv.kUpEnc := by
  obtain ⟨n,hn,hf⟩ := reachable_of_exec (wholeCore sampleDigests twoSubscribers) anyStart freshHost
    bothComplete (fun n => decide (Completed n.world.log "imsi-001010000000001" ∧
      Completed n.world.log "imsi-001010000000002")) (by decide +kernel)
  obtain ⟨hu,hv⟩ := of_decide_eq_true hf
  exact ⟨n,hn,hu,hv,subscriber_keys_coincide _ _ _ hn _ _ hu hv⟩

theorem subscriber_keys_not_separate :
    ¬ ∀ (dig : Digests) (db : Udm.SubscriberDb) (host : Host) (n : CoreNet) (u v : String)
      (a b : Udm.Subscriber), db.get? u = some a → db.get? v = some b → a.k ≠ b.k →
      (wholeCore dig db).Reachable anyStart (startWorld host) n →
      Completed n.world.log u → Completed n.world.log v →
      ∀ cu cv su sv, n.world.state.gnb.ueContexts.get? u = some cu →
        n.world.state.gnb.ueContexts.get? v = some cv →
        n.world.state.smf.sessions.get? u = some su →
        n.world.state.smf.sessions.get? v = some sv →
        cu.kGnb ≠ cv.kGnb ∧ su.kUpEnc ≠ sv.kUpEnc := by
  intro h
  obtain ⟨n,hn,hf⟩ := reachable_of_exec (wholeCore sampleDigests twoSubscribers) anyStart freshHost
    bothComplete (fun n => decide (Completed n.world.log "imsi-001010000000001" ∧
      Completed n.world.log "imsi-001010000000002" ∧
      (n.world.state.gnb.ueContexts.get? "imsi-001010000000001").isSome ∧
      (n.world.state.gnb.ueContexts.get? "imsi-001010000000001").map UeContext.kGnb =
        (n.world.state.gnb.ueContexts.get? "imsi-001010000000002").map UeContext.kGnb ∧
      (n.world.state.smf.sessions.get? "imsi-001010000000001").isSome ∧
      (n.world.state.smf.sessions.get? "imsi-001010000000002").isSome)) (by decide +kernel)
  obtain ⟨hu,hv,hcu,hc,hsu,hsv⟩ := of_decide_eq_true hf
  obtain ⟨cu,hcu⟩ := Option.isSome_iff_exists.mp hcu
  obtain ⟨su,hsu⟩ := Option.isSome_iff_exists.mp hsu
  obtain ⟨sv,hsv⟩ := Option.isSome_iff_exists.mp hsv
  rw [hcu,Option.map_some,eq_comm,Option.map_eq_some_iff] at hc
  obtain ⟨cv,hcv,hkey⟩ := hc
  exact (h _ _ _ n _ _ _ _ rfl rfl (by decide) hn hu hv cu cv su sv hcu hcv hsu hsv).1 hkey.symm

end GrpKeySec
