import GrpKeySec.Authentication
import GrpKeySec.KeyAgreement
import GrpKeySec.ServiceHistory
set_option autoImplicit false

/-!
The records that the services keep. Each has one possible value, fixed by the subscriber
database and the UE id alone, so a record once stored stays as it is, and any two runs that
both have it have the same one. Whoever got a JSON reply finds the records behind it.
-/

namespace GrpKeySec
open Handler Service

def theKAmf : String := "K_AMF_derived_from_K_AUSF_der"

theorem kAmf_constant (k : String) : Amf.deriveKAmf (Udm.deriveKAusf k) = theKAmf := by
  have h := sliceTo_derivedKey "K_AUSF" k
  rw [Amf.deriveKAmf,Udm.deriveKAusf,derivedKey,h]
  decide +kernel

def gnbRecord (u : String) : UeContext := ⟨some u,some theKGnb,["5G-EA0","5G-IA0"]⟩

def amfRecord (db : Udm.SubscriberDb) (u : String) : Option JsonObject :=
  (db.get? u).map (fun subscriber => Ausf.success (Udm.deriveKAusf subscriber.k))

theorem SoundContext.amfRecord {db : Udm.SubscriberDb} {u : String} {context : JsonObject}
    (h : SoundContext db u context) : GrpKeySec.amfRecord db u = some context := by
  obtain ⟨subscriber,hs,rfl⟩ := h
  rw [GrpKeySec.amfRecord,hs]
  rfl

structure Core.Determined (db : Udm.SubscriberDb) (s : Core) : Prop where
  ausf : s.ausf.authenticationVectors.Sound (fun u => some (Udm.getAuthData db u))
  amf : s.amf.ueContexts.Sound (amfRecord db)
  kAmf : ∀ k, s.amf.kAmf = some k → k = theKAmf
  gnb : s.gnb.ueContexts.Sound (fun u => some (gnbRecord u))
  kGnb : ∀ k, s.gnb.kGnb = some k → k = theKGnb
  smf : s.smf.sessions.Sound (fun _ => some ⟨theKUpEnc,"active"⟩)

/-- What `s` has stored is stored in `s'` as well, with the same values. -/
structure Core.Extends (s s' : Core) : Prop where
  ausf : s.ausf.authenticationVectors.Extends s'.ausf.authenticationVectors
  amf : s.amf.ueContexts.Extends s'.amf.ueContexts
  kAmf : ∀ k, s.amf.kAmf = some k → s'.amf.kAmf = some k
  gnb : s.gnb.ueContexts.Extends s'.gnb.ueContexts
  kGnb : ∀ k, s.gnb.kGnb = some k → s'.gnb.kGnb = some k
  smf : s.smf.sessions.Extends s'.smf.sessions

structure Core.Agrees (s s' : Core) : Prop where
  ausf : ∀ u x y, s.ausf.authenticationVectors.get? u = some x →
    s'.ausf.authenticationVectors.get? u = some y → x = y
  amf : ∀ u x y, s.amf.ueContexts.get? u = some x → s'.amf.ueContexts.get? u = some y → x = y
  kAmf : ∀ k k', s.amf.kAmf = some k → s'.amf.kAmf = some k' → k = k'
  gnb : ∀ u x y, s.gnb.ueContexts.get? u = some x → s'.gnb.ueContexts.get? u = some y → x = y
  kGnb : ∀ k k', s.gnb.kGnb = some k → s'.gnb.kGnb = some k' → k = k'
  smf : ∀ u x y, s.smf.sessions.get? u = some x → s'.smf.sessions.get? u = some y → x = y

namespace Core

variable {db : Udm.SubscriberDb} {s s' : Core}

theorem extends_refl (s : Core) : s.Extends s :=
  ⟨Dict.extends_refl _,Dict.extends_refl _,fun _ h => h,Dict.extends_refl _,fun _ h => h,
    Dict.extends_refl _⟩

theorem Extends.trans {s'' : Core} (h : s.Extends s') (h' : s'.Extends s'') : s.Extends s'' :=
  ⟨h.ausf.trans h'.ausf,h.amf.trans h'.amf,fun k hk => h'.kAmf k (h.kAmf k hk),h.gnb.trans h'.gnb,
    fun k hk => h'.kGnb k (h.kGnb k hk),h.smf.trans h'.smf⟩

theorem Determined.agrees (h : s.Determined db) (h' : s'.Determined db) : s.Agrees s' where
  ausf := fun _ _ _ hx hy => h.ausf.eq h'.ausf hx hy
  amf := fun _ _ _ hx hy => h.amf.eq h'.amf hx hy
  kAmf := fun k k' hk hk' => (h.kAmf k hk).trans (h'.kAmf k' hk').symm
  gnb := fun _ _ _ hx hy => h.gnb.eq h'.gnb hx hy
  kGnb := fun k k' hk hk' => (h.kGnb k hk).trans (h'.kGnb k' hk').symm
  smf := fun _ _ _ hx hy => h.smf.eq h'.smf hx hy

def Grows (db : Udm.SubscriberDb) (s s' : Core) : Prop :=
  s.Determined db → s'.Determined db ∧ s.Extends s'

theorem grows_refl (s : Core) : s.Grows db s := fun h => ⟨h,extends_refl s⟩

theorem Grows.trans {s'' : Core} (h : s.Grows db s') (h' : s'.Grows db s'') : s.Grows db s'' := by
  intro hs
  obtain ⟨h₁,he₁⟩ := h hs
  obtain ⟨h₂,he₂⟩ := h' h₁
  exact ⟨h₂,he₁.trans he₂⟩

theorem grows_storeVector (u : String) :
    s.Grows db { s with ausf := ⟨s.ausf.authenticationVectors.set u (Udm.getAuthData db u)⟩ } :=
  fun h => ⟨⟨h.ausf.set rfl,h.amf,h.kAmf,h.gnb,h.kGnb,h.smf⟩,
    ⟨h.ausf.extends_set rfl,Dict.extends_refl _,fun _ h => h,Dict.extends_refl _,fun _ h => h,
      Dict.extends_refl _⟩⟩

theorem grows_storeContext {u : String} {context : JsonObject} (hc : SoundContext db u context) :
    s.Grows db (s.storeContext u context) :=
  fun h => ⟨⟨h.ausf,h.amf.set hc.amfRecord,h.kAmf,h.gnb,h.kGnb,h.smf⟩,
    ⟨Dict.extends_refl _,h.amf.extends_set hc.amfRecord,fun _ h => h,Dict.extends_refl _,
      fun _ h => h,Dict.extends_refl _⟩⟩

theorem grows_storeKAmf (k : String) : s.Grows db (s.storeKAmf (Udm.deriveKAusf k)) := by
  intro h
  have hk : (s.storeKAmf (Udm.deriveKAusf k)).amf.kAmf = some theKAmf :=
    congrArg some (kAmf_constant k)
  refine ⟨⟨h.ausf,h.amf,?_,h.gnb,h.kGnb,h.smf⟩,⟨Dict.extends_refl _,Dict.extends_refl _,?_,
    Dict.extends_refl _,fun _ h => h,Dict.extends_refl _⟩⟩
  · intro k' hk'
    exact (Option.some.inj (hk.symm.trans hk')).symm
  · intro k' hk'
    rw [hk,h.kAmf k' hk']

theorem grows_storeGnb (u : String) :
    s.Grows db ((s.storeGnbContext u (gnbRecord u)).storeKGnb theKGnb) := by
  intro h
  refine ⟨⟨h.ausf,h.amf,h.kAmf,h.gnb.set rfl,?_,h.smf⟩,⟨Dict.extends_refl _,Dict.extends_refl _,
    fun _ h => h,h.gnb.extends_set rfl,?_,Dict.extends_refl _⟩⟩
  · intro k hk
    exact (Option.some.inj hk).symm
  · intro k hk
    rw [h.kGnb k hk]
    rfl

theorem grows_storeSession (u : String) :
    s.Grows db (s.storeSession u ⟨Smf.deriveKey theKGnb "UP_ENC","active"⟩) := by
  rw [kUpEnc_constant]
  exact fun h => ⟨⟨h.ausf,h.amf,h.kAmf,h.gnb,h.kGnb,h.smf.set rfl⟩,
    ⟨Dict.extends_refl _,Dict.extends_refl _,fun _ h => h,Dict.extends_refl _,fun _ h => h,
      h.smf.extends_set rfl⟩⟩

theorem grows_upf (host : Host) : s.Grows db { s with upf := host } :=
  fun h => ⟨⟨h.ausf,h.amf,h.kAmf,h.gnb,h.kGnb,h.smf⟩,⟨Dict.extends_refl _,Dict.extends_refl _,
    fun _ h => h,Dict.extends_refl _,fun _ h => h,Dict.extends_refl _⟩⟩

end Core

structure Core.Registered (db : Udm.SubscriberDb) (u : String) (s : Core) : Prop where
  vector : s.ausf.authenticationVectors.get? u = some (Udm.getAuthData db u)
  context : ∃ context, SoundContext db u context ∧ s.amf.ueContexts.get? u = some context
  kAmf : s.amf.kAmf = some theKAmf

structure Core.SetUp (u : String) (s : Core) : Prop where
  context : s.gnb.ueContexts.get? u = some (gnbRecord u)
  kGnb : s.gnb.kGnb = some theKGnb

def Core.InSession (u : String) (s : Core) : Prop :=
  s.smf.sessions.get? u = some ⟨theKUpEnc,"active"⟩

/-- What is in the stores when the reply to a request is there. The AMF does not look at the
replies of gNB and SMF, so those stand here for pages of an error as well. -/
def Confirmed (db : Udm.SubscriberDb) (s : Core) : Request → Reply → Prop
  | .udmAuthData (some u), b => b = .json 200 (Udm.getAuthData db u)
  | .ausfAuthenticate (some u) _, .json _ body => SoundContext db u body ∧
      s.ausf.authenticationVectors.get? u = some (Udm.getAuthData db u)
  | .amfRegistration (some u), .json _ _ | .gnbRegistration (some u), .json _ _ => s.Registered db u
  | .gnbUeContextSetup c, _ => ∀ u, c = gnbRecord u → s.SetUp u
  | .smfSessionEstablishment q, _ => ∀ u, q.ueId = some u → s.InSession u
  | .amfSecurityComplete (some u), .json _ _ => s.SetUp u ∧ s.InSession u
  | _, _ => True

section Kept

variable {db : Udm.SubscriberDb} {s s' : Core} {u : String}

theorem Core.Registered.mono (h : s.Registered db u) (he : s.Extends s') : s'.Registered db u := by
  obtain ⟨context,hc,hget⟩ := h.context
  exact ⟨he.ausf _ _ h.vector,⟨context,hc,he.amf _ _ hget⟩,he.kAmf _ h.kAmf⟩

theorem Core.SetUp.mono (h : s.SetUp u) (he : s.Extends s') : s'.SetUp u :=
  ⟨he.gnb _ _ h.context,he.kGnb _ h.kGnb⟩

theorem Core.InSession.mono (h : s.InSession u) (he : s.Extends s') : s'.InSession u :=
  he.smf _ _ h

theorem Confirmed.mono {r : Request} {b : Reply} (h : Confirmed db s r b) (he : s.Extends s') :
    Confirmed db s' r b := by
  cases r with
  | udmAuthData u => cases u <;> exact h
  | ausfAuthenticate u net =>
    cases u <;> cases b <;> try trivial
    exact ⟨h.1,he.ausf _ _ h.2⟩
  | amfRegistration u =>
    cases u <;> cases b <;> try trivial
    exact Core.Registered.mono h he
  | gnbRegistration u =>
    cases u <;> cases b <;> try trivial
    exact Core.Registered.mono h he
  | gnbUeContextSetup c => exact fun u hu => (h u hu).mono he
  | smfSessionEstablishment q => exact fun u hu => (h u hu).mono he
  | amfSecurityComplete u =>
    cases u <;> cases b <;> try trivial
    exact ⟨h.1.mono he,h.2.mono he⟩
  | _ => trivial

theorem Core.Determined.inSession (h : s.Determined db) (hu : u ∈ s.smf.sessions) :
    s.InSession u := by
  obtain ⟨session,hs⟩ := Dict.mem_iff_get?.mp hu
  rw [Core.InSession,hs]
  exact (h.smf u session hs).symm

end Kept

def storeContract (db : Udm.SubscriberDb) : CoreContract where
  inv := fun w => w.state.Determined db
  rely := fun w w' => w.state.Extends w'.state
  guar := fun _ _ _ => True
  pre := fun r _ => match r with
    | .gnbUeContextSetup c => ∃ u, c = gnbRecord u
    | .smfSessionEstablishment q => q.kGnb = some theKGnb
    | _ => True
  post := fun r b w => Confirmed db w.state r b

section Handlers

variable {db : Udm.SubscriberDb}

theorem storeContract_ends {src : Request} {w₀ w : CoreWorld} (hi : w₀.state.Determined db)
    (hg : w₀.state.Grows db w.state) : (storeContract db).Ends src w₀ w := by
  obtain ⟨hd,he⟩ := hg hi
  exact ⟨hd,he,trivial⟩

theorem storeContract_idle {src : Request} {s : Core} {log log' : List (Event Request Reply PyError)}
    (hi : s.Determined db) : (storeContract db).Ends src ⟨s,log⟩ ⟨s,log'⟩ :=
  storeContract_ends hi (Core.grows_refl s)

theorem storeContract_closes {src : Request} {b : Reply} {w₀ : CoreWorld} {s : Core}
    {log : List (Event Request Reply PyError)} (hi : w₀.state.Determined db)
    (hg : w₀.state.Grows db s) (hb : Confirmed db s src b) :
    (storeContract db).Closes src (.ok b) w₀ ⟨s,log⟩ := by
  refine ⟨storeContract_ends hi hg,?_⟩
  intro b' hb'
  obtain rfl := Except.ok.inj hb'
  exact hb

theorem authenticate_meets_store (u net : String) {w : CoreWorld} (hi : w.state.Determined db) :
    (onAusf (flask (jsonify (Ausf.authenticate (some u))))).Meets (storeContract db) legal
      (.ausfAuthenticate (some u) net) w w := by
  apply authenticate_meets u net rfl
  · exact ⟨storeContract_idle hi,trivial⟩
  · intro o w' hi' _
    exact storeContract_closes hi' (Core.grows_refl _) trivial
  · intro status body w' hi' hp
    obtain ⟨-,rfl⟩ := Reply.json.inj (show Reply.json status body = _ from hp)
    refine storeContract_closes hi' (Core.grows_storeVector u) ?_
    cases hb : Ausf.answerFor (Udm.getAuthData db u) with
    | json status body =>
      exact ⟨(getAuthData_answer db u status body hb).2,Dict.get?_set_self _ _ _⟩
    | _ => trivial

theorem registration_meets_store (dig : Digests) (u : String) {w : CoreWorld}
    (hi : w.state.Determined db) :
    (onAmf (flask (jsonify (Amf.handleRegistration dig (some u))))).Meets (storeContract db) legal
      (.amfRegistration (some u)) w w := by
  -- the key in a sound context, and what storing both does
  have hgrows : ∀ {s : Core} {body : JsonObject} {kAusf : String}, SoundContext db u body →
      body.lookup "k_ausf" = some kAusf →
      s.Grows db ((s.storeContext u body).storeKAmf kAusf) ∧ Amf.deriveKAmf kAusf = theKAmf := by
    intro s body kAusf hsound hk
    obtain ⟨subscriber,_,_,hka⟩ := hsound.kAusf
    obtain rfl := Option.some.inj (hka.symm.trans hk)
    exact ⟨(Core.grows_storeContext hsound).trans (Core.grows_storeKAmf subscriber.k),
      kAmf_constant subscriber.k⟩
  apply registration_meets_exact dig u rfl rfl
  · exact ⟨storeContract_idle hi,trivial⟩
  · intro o w' hi' _ _
    exact storeContract_closes hi' (Core.grows_refl _) trivial
  · intro status body w' hi' hp _
    exact storeContract_closes hi' (Core.grows_storeContext hp.1) trivial
  · intro status body kAusf w' hi' hp hk
    exact ⟨storeContract_ends hi' (hgrows hp.1 hk).1,trivial⟩
  · intro c e w' hi'
    exact storeContract_closes hi' (Core.grows_refl _) trivial
  · intro status body kAusf v c b w' _ hp hk he hi'
    obtain ⟨-,hkey⟩ := hgrows (s := v.state) hp.1 hk
    have hreg : Core.Registered db u ((v.state.storeContext u body).storeKAmf kAusf) :=
      ⟨hp.2,⟨body,hp.1,Dict.get?_set_self _ _ _⟩,congrArg some hkey⟩
    exact storeContract_closes hi' (Core.grows_refl _) (hreg.mono he)

theorem securityComplete_meets_store (u : String) {w : CoreWorld} (hi : w.state.Determined db) :
    (onAmf (flask (jsonify (Amf.handleSecurityComplete (some u))))).Meets (storeContract db) legal
      (.amfSecurityComplete (some u)) w w := by
  have hsetup : ∀ k, w.state.amf.kAmf = some k →
      Amf.deriveKey k "K_gNB" = theKGnb ∧ setupRequest u k = .gnbUeContextSetup (gnbRecord u) := by
    intro k hk
    have hkey : Amf.deriveKey k "K_gNB" = theKGnb := by
      rw [hi.kAmf k hk]
      decide +kernel
    exact ⟨hkey,by rw [setupRequest,hkey,gnbRecord]⟩
  apply securityComplete_meets_exact u rfl
  · intro _
    exact storeContract_closes hi (Core.grows_refl _) trivial
  · intro k hk
    rw [(hsetup k hk).2]
    exact ⟨storeContract_idle hi,u,rfl⟩
  · intro k b w' hk _ hi' _
    exact ⟨storeContract_idle hi',congrArg some (hsetup k hk).1⟩
  · intro q e w' hi'
    exact storeContract_closes hi' (Core.grows_refl _) trivial
  · intro k b b' v w' hk hp he hi' hp'
    rw [(hsetup k hk).2] at hp
    have hs : v.state.SetUp u := hp u rfl
    exact storeContract_closes hi' (Core.grows_refl _) ⟨hs.mono he,hp' u rfl⟩

theorem contextSetup_meets_store (dig : Digests) (u : String) {w : CoreWorld}
    (hi : w.state.Determined db) :
    (onGnb (flask (jsonify (Gnb.ueContextSetup dig (gnbRecord u))))).Meets (storeContract db) legal
      (.gnbUeContextSetup (gnbRecord u)) w w := by
  apply contextSetup_meets dig (gnbRecord u) rfl
  · intro hu
    exact nomatch hu
  · intro v _ hk
    exact nomatch hk
  · intro v k hv hk
    obtain rfl := Option.some.inj hv
    obtain rfl := Option.some.inj hk
    refine storeContract_closes hi (Core.grows_storeGnb u) ?_
    intro v hv
    obtain rfl : u = v := Option.some.inj (congrArg UeContext.ueId hv)
    exact ⟨Dict.get?_set_self _ _ _,rfl⟩

theorem session_meets_store (r : SessionRequest) {w : CoreWorld} (hi : w.state.Determined db)
    (hp : r.kGnb = some theKGnb) :
    (onSmf (flask (jsonify (Smf.establishSession r)))).Meets (storeContract db) legal
      (.smfSessionEstablishment r) w w := by
  apply session_meets r rfl (K := fun _ => True) (L := fun u w => u ∈ w.state.smf.sessions) trivial
  · exact fun _ _ => trivial
  · intro u w w' hu he
    obtain ⟨session,hs⟩ := Dict.mem_iff_get?.mp hu
    exact Dict.mem_of_get? (he.smf _ _ hs)
  · intro command
    exact ⟨storeContract_idle hi,trivial⟩
  · intro q q' o w' hq hi'
    refine ⟨storeContract_idle hi',?_⟩
    cases q' <;> simp [Request.target] at hq <;> trivial
  · intro q o w' hnone hi'
    refine storeContract_closes hi' (Core.grows_refl _) ?_
    intro u hu
    rw [hu,hp] at hnone
    simp at hnone
  · intro u k q o w' _ hk hi' _
    obtain rfl := Option.some.inj (hp.symm.trans hk)
    exact ⟨storeContract_ends hi' (Core.grows_storeSession u),trivial⟩
  · intro u k log _ c
    simp [Core.storeSession]
  · intro u q o b w' hu hi' hs
    refine storeContract_closes hi' (Core.grows_refl _) ?_
    intro v hv
    obtain rfl := Option.some.inj (hu.symm.trans hv)
    exact Core.Determined.inSession hi' hs

theorem gnbRegistration_meets_store (u : Option String) {w : CoreWorld}
    (hi : w.state.Determined db) :
    (flask (jsonify (Gnb.handleRegistration u))).Meets (storeContract db) legal
      (.gnbRegistration u) w w := by
  apply gnbRegistration_meets u rfl
  · exact ⟨storeContract_idle hi,trivial⟩
  · intro status body w' hi' hp
    refine storeContract_closes hi' (Core.grows_refl _) ?_
    cases u with
    | none => trivial
    | some u => exact hp
  · intro o w' hi' _ _
    refine storeContract_closes hi' (Core.grows_refl _) ?_
    cases u <;> trivial

theorem storeContract_frame {src : Request}
    (hw : ∀ s s', Writes src s s' → s.Grows db s')
    (hc : ∀ r w, Calls src r → (storeContract db).pre r w)
    (hp : ∀ b w, (storeContract db).post src b w) :
    (storeContract db).Frame src (Writes src) (Calls src)
      (fun w₀ w => w₀.state.Determined db ∧ w₀.state.Grows db w.state) where
  start := fun hi => ⟨hi,Core.grows_refl _⟩
  update := fun hw' hm => ⟨hw'.1,hw'.2.trans (hw _ _ hm)⟩
  record := fun hw' _ => hw'
  ends := fun hw' => storeContract_ends hw'.1 hw'.2
  pre := fun {r w} hr _ => hc r w hr
  post := fun {b w} _ => hp b w

theorem storeContract_valid (dig : Digests) (db : Udm.SubscriberDb) :
    (storeContract db).Valid (wholeCore dig db) anyStart where
  rely_refl := fun w => Core.extends_refl w.state
  rely_trans := fun h₁ h₂ => h₁.trans h₂
  pre_stable := by
    intro r w w' hp _
    cases r <;> exact hp
  post_stable := fun hp he => hp.mono he
  client_pre := by
    intro r w hr _
    cases r <;> simp [wholeCore,system,fromClient] at hr <;> trivial
  environment := by
    intro r b w hs _ _
    have ht := route_eq_none (show route dig db r = none from hs)
    cases r <;> simp [Request.target] at ht <;> trivial
  serves := by
    intro r h w hs hi hp _
    have hr := (system_serve hs).2
    have hframe : (∀ s s', Writes r s s' → s.Grows db s') →
        (∀ q w, Calls r q → (storeContract db).pre q w) →
        (∀ b w, (storeContract db).post r b w) → h.Meets (storeContract db) legal r w w :=
      fun hw hc hpost => (route_footprint dig db hr).meets (storeContract_frame hw hc hpost)
        ⟨hi,Core.grows_refl _⟩
    have hsame : ∀ s s' : Core, s' = s → s.Grows db s' := by
      intro s s' h
      rw [h]
      exact Core.grows_refl s
    cases r with
    | udmAuthData u =>
      obtain rfl := Option.some.inj hr
      cases u with
      | none => exact hframe hsame (fun _ _ h => h.elim) (fun _ _ => trivial)
      | some u =>
        refine ⟨storeContract_idle hi,?_⟩
        intro b hb
        exact (Except.ok.inj hb).symm
    | ausfAuthenticate u net =>
      obtain rfl := Option.some.inj hr
      cases u with
      | none => exact ⟨storeContract_idle hi,fun _ _ => trivial⟩
      | some u => exact authenticate_meets_store u net hi
    | amfRegistration u =>
      obtain rfl := Option.some.inj hr
      cases u with
      | none => exact ⟨storeContract_idle hi,fun _ _ => trivial⟩
      | some u => exact registration_meets_store dig u hi
    | amfSecurityComplete u =>
      obtain rfl := Option.some.inj hr
      cases u with
      | none => exact ⟨storeContract_idle hi,fun _ _ => trivial⟩
      | some u => exact securityComplete_meets_store u hi
    | gnbUeContextSetup c =>
      obtain rfl := Option.some.inj hr
      obtain ⟨u,rfl⟩ := hp
      exact contextSetup_meets_store dig u hi
    | smfSessionEstablishment q =>
      obtain rfl := Option.some.inj hr
      exact session_meets_store q hi hp
    | gnbRegistration u =>
      obtain rfl := Option.some.inj hr
      exact gnbRegistration_meets_store u hi
    | upfConfigure q =>
      refine hframe ?_ ?_ (fun _ _ => trivial)
      · intro s s' hw
        rw [show s' = _ from hw]
        exact Core.grows_upf s'.upf
      · intro r w hc
        cases r <;> trivial
    | _ =>
      refine hframe hsame ?_ (fun _ _ => trivial)
      intro r w hc
      cases r <;> trivial

end Handlers

theorem core_initial_determined (db : Udm.SubscriberDb) (host : Host) :
    (startWorld host).state.Determined db := by
  constructor <;> simp [startWorld,Core.initial,Dict.Sound]

/-- In every run of the core a record that AUSF, AMF, gNB or SMF has stored for a UE, and
K_AMF and K_gNB once set, are never changed or removed; and any two runs over one subscriber
database agree on whatever both have stored. -/
theorem records_written_once (dig dig' : Digests) (db : Udm.SubscriberDb) (host host' : Host)
    {tr : List (CoreNet × Action Request Reply PyError)} {m n n' : CoreNet}
    {a : Action Request Reply PyError} (hn : (wholeCore dig db).Run (startWorld host) tr n)
    (hm : (m,a) ∈ tr) (hn' : (wholeCore dig' db).Reachable anyStart (startWorld host') n') :
    m.world.state.Extends n.world.state ∧ n.world.state.Agrees n'.world.state := by
  have hV := storeContract_valid dig db
  have h₀ := core_initial_determined db host
  have hd : n.world.state.Determined db := (hV.reachable_ok h₀ hn.reachable).inv
  have hd' : n'.world.state.Determined db :=
    ((storeContract_valid dig' db).reachable_ok (core_initial_determined db host') hn').inv
  exact ⟨hV.run_rely h₀ hn hm,hd.agrees hd'⟩

theorem records_written_once_again :
    ∃ tr m n a, (wholeCore sampleDigests Udm.subscriberDb).Run (startWorld freshHost) tr n ∧
      (m,a) ∈ tr ∧ "imsi-001010000000001" ∈ m.world.state.amf.ueContexts ∧
      m.world.state.Extends n.world.state ∧ n.world.state.Agrees m.world.state := by
  obtain ⟨m,hm,hf⟩ := reachable_of_exec (wholeCore sampleDigests Udm.subscriberDb) anyStart freshHost
    (registers "imsi-001010000000001" 0 ++
      [.client (.amfRegistration (some "imsi-001010000000001")),.start 4,.start 5,.start 6,.reply 5])
    (fun m => decide ("imsi-001010000000001" ∈ m.world.state.amf.ueContexts ∧
      ((wholeCore sampleDigests Udm.subscriberDb).step m (.reply 4)).isSome = true))
    (by decide +kernel)
  obtain ⟨hu,hstep⟩ := of_decide_eq_true hf
  obtain ⟨n,hstep⟩ := Option.isSome_iff_exists.mp hstep
  obtain ⟨tr,htr⟩ := hm.run
  have hlast : (m,Action.reply 4) ∈ tr ++ [(m,Action.reply 4)] := by simp
  exact ⟨_,m,n,_,htr.snoc hstep,hlast,hu,
    records_written_once sampleDigests sampleDigests Udm.subscriberDb freshHost freshHost
      (htr.snoc hstep) hlast hm⟩

end GrpKeySec
