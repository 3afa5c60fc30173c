import GrpKeySec.CoreRules
import GrpKeySec.KeyAgreement
import GrpKeySec.ServiceHistory
set_option autoImplicit false

/-!
Security mode: whose key the AMF derives K_gNB from, and whether the gNB ever
sends its RRC Security Mode Command.
-/

namespace GrpKeySec
open Handler Service

/-- A Security Mode Command for `u` has been sent to the UE, with whatever MAC. -/
def RrcCommandSent (log : CoreLog) (u : String) : Prop :=
  ∃ src c, c.ueId = u ∧ Event.posted src (.ueSecurityCommand c) ∈ log

/-- The gNB has answered the AMF's context for `u` with a 500 page. -/
def SetupFailed (log : CoreLog) (u : String) : Prop :=
  ∃ c, c.ueId = some u ∧ Event.answered (.amfSecurityComplete (some u)) (.gnbUeContextSetup c)
    (.ok (.html 500)) ∈ log

theorem SetupFailed.mono {log log' : CoreLog} {u : String} (h : SetupFailed log u)
    (hl : log <:+ log') : SetupFailed log' u := by
  obtain ⟨c,hu,hmem⟩ := h
  exact ⟨c,hu,hl.subset hmem⟩

theorem not_calls_ueSecurityCommand (src : Request) (c : SecurityCommand) :
    ¬ Calls src (.ueSecurityCommand c) := by cases src <;> exact id

def rrcContract : CoreContract where
  inv := fun w => ∀ u, ¬ RrcCommandSent w.log u
  rely := fun w w' => w.log <:+ w'.log
  guar := fun _ _ _ => True
  pre := fun _ _ => True
  post := fun r b w => match r with
    | .gnbUeContextSetup _ => b = .html 500
    | .amfSecurityComplete (some u) =>
        b = .json 200 [("status","registration_complete")] → SetupFailed w.log u
    | _ => True

theorem rrcContract_ends {src : Request} {w₀ : CoreWorld} {s : Core} (new : CoreLog)
    (hi : rrcContract.inv w₀) (hnew : ∀ u, ¬ RrcCommandSent new u) :
    rrcContract.Ends src w₀ ⟨s,new ++ w₀.log⟩ := by
  refine ⟨?_,List.suffix_append new w₀.log,trivial⟩
  rintro u ⟨src',c,hu,hmem⟩
  rcases List.mem_append.mp hmem with hmem | hmem
  · exact hnew u ⟨src',c,hu,hmem⟩
  · exact hi u ⟨src',c,hu,hmem⟩

theorem rrcContract_frame {src : Request} (hp : ∀ b w, rrcContract.post src b w) :
    rrcContract.Frame src (Writes src) (Calls src)
      (fun w₀ w => rrcContract.inv w ∧ w₀.log <:+ w.log) where
  start := fun hi => ⟨hi,List.suffix_rfl⟩
  update := fun hw _ => hw
  record := by
    rintro w₀ w e ⟨hi,hl⟩ he
    refine ⟨?_,hl.trans (List.suffix_cons e w.log)⟩
    rintro u ⟨src',c,hu,hmem⟩
    rcases List.mem_cons.mp hmem with rfl | hmem
    · exact not_calls_ueSecurityCommand src c he.2
    · exact hi u ⟨src',c,hu,hmem⟩
  ends := fun hw => ⟨hw.1,hw.2,trivial⟩
  pre := fun _ _ => trivial
  post := fun {b w} _ => hp b w

/-- The gNB's MAC slices an int, so its handler raises whatever it is sent. -/
theorem contextSetup_meets_rrc (dig : Digests) (c : UeContext) {w : CoreWorld}
    (hi : rrcContract.inv w) : (onGnb (flask (jsonify (Gnb.ueContextSetup dig c)))).Meets
      rrcContract legal (.gnbUeContextSetup c) w w := by
  have hclose : ∀ s, rrcContract.Closes (.gnbUeContextSetup c) (.ok (.html 500)) w ⟨s,w.log⟩ := by
    intro s
    refine ⟨rrcContract_ends [_] hi (by simp [RrcCommandSent]),?_⟩
    rintro b hb
    exact (Except.ok.inj hb).symm
  apply contextSetup_meets dig c rfl
  · exact fun _ => hclose _
  · exact fun _ _ _ => hclose _
  · exact fun _ _ _ _ => hclose _

theorem securityComplete_meets_rrc (u : String) {w : CoreWorld} (hi : rrcContract.inv w) :
    (onAmf (flask (jsonify (Amf.handleSecurityComplete (some u))))).Meets rrcContract legal
      (.amfSecurityComplete (some u)) w w := by
  apply securityComplete_meets_exact u rfl
  · intro _
    exact ⟨rrcContract_ends [_] hi (by simp [RrcCommandSent]),fun b hb h => by simp [h] at hb⟩
  · intro k _
    exact ⟨rrcContract_ends [_] hi (by simp [RrcCommandSent,setupRequest]),trivial⟩
  · intro k b w' _ _ hi' _
    exact ⟨rrcContract_ends [_,_] hi' (by simp [RrcCommandSent,sessionRequest]),trivial⟩
  · intro q e w' hi'
    exact ⟨rrcContract_ends [_,_] hi' (by simp [RrcCommandSent]),fun b hb h => by simp [h] at hb⟩
  · intro k b b' v w' _ hp hr hi' _
    refine ⟨rrcContract_ends [_,_] hi' (by simp [RrcCommandSent]),?_⟩
    intro _ _ _
    obtain rfl : b = .html 500 := hp
    have hfailed : SetupFailed (((v.record (.answered (.amfSecurityComplete (some u))
        (setupRequest u k) (.ok (.html 500)))).record (.posted (.amfSecurityComplete (some u))
        (sessionRequest u k))).log) u :=
      ⟨⟨some u,some (Amf.deriveKey k "K_gNB"),["5G-EA0","5G-IA0"]⟩,rfl,by simp [setupRequest]⟩
    exact hfailed.mono (List.IsSuffix.trans hr (List.suffix_append [_,_] w'.log))

theorem rrcContract_valid (dig : Digests) (db : Udm.SubscriberDb) :
    rrcContract.Valid (wholeCore dig db) anyStart where
  rely_refl := fun _ => List.suffix_rfl
  rely_trans := fun h₁ h₂ => h₁.trans h₂
  pre_stable := fun _ _ => trivial
  post_stable := by
    intro r b w w' hp hr
    cases r with
    | amfSecurityComplete u =>
      cases u with
      | none => trivial
      | some u => exact fun hb => (hp hb).mono hr
    | _ => exact hp
  client_pre := fun _ _ => trivial
  environment := by
    intro r b w hs _ _
    have ht := route_eq_none (show route dig db r = none from hs)
    cases r <;> simp [Request.target] at ht <;> trivial
  serves := by
    intro r h w hs hi _ _
    have hr := (system_serve hs).2
    have hframe : (∀ b w, rrcContract.post r b w) → h.Meets rrcContract legal r w w := fun hp =>
      (route_footprint dig db hr).meets (rrcContract_frame hp) ⟨hi,List.suffix_rfl⟩
    cases r with
    | gnbUeContextSetup c =>
      obtain rfl := Option.some.inj hr
      exact contextSetup_meets_rrc dig c hi
    | amfSecurityComplete u =>
      cases u with
      | none => exact hframe (fun _ _ => trivial)
      | some u =>
        obtain rfl := Option.some.inj hr
        exact securityComplete_meets_rrc u hi
    | _ => exact hframe (fun _ _ => trivial)

theorem rrcContract_initial (host : Host) : rrcContract.inv (startWorld host) := by
  rintro u ⟨src,c,_,hmem⟩
  exact nomatch hmem

theorem no_rrc_command (dig : Digests) (db : Udm.SubscriberDb) (host : Host) {n : CoreNet}
    (hn : (wholeCore dig db).Reachable anyStart (startWorld host) n) (u : String) :
    ¬ RrcCommandSent n.world.log u :=
  ((rrcContract_valid dig db).reachable_ok (rrcContract_initial host) hn).inv u

/-- The gNB's handler raises before it sends its command, and the AMF reports success all the
same: when a completion has returned, no UE has been sent any command, and the AMF has had a
500 page from the gNB for the very context that it reports as set up. -/
theorem completed_without_rrc_command (dig : Digests) (db : Udm.SubscriberDb) (host : Host)
    {n : CoreNet} (hn : (wholeCore dig db).Reachable anyStart (startWorld host) n) (u : String)
    (hu : Completed n.world.log u) :
    (∀ v, ¬ RrcCommandSent n.world.log v) ∧ SetupFailed n.world.log u := by
  refine ⟨no_rrc_command dig db host hn,?_⟩
  have hf := (rrcContract_valid dig db).reachable_fitting (rrcContract_initial host) rfl hn
  obtain ⟨later,earlier,hlog⟩ := List.append_of_mem hu
  rw [hlog] at hf ⊢
  obtain ⟨s,hpost⟩ := hf.fits _ rfl
  exact SetupFailed.mono (hpost rfl) (List.suffix_append later _)

theorem completed_without_rrc_command_shipped :
    ∃ n, (wholeCore sampleDigests Udm.subscriberDb).Reachable anyStart (startWorld freshHost) n ∧
      Completed n.world.log "imsi-001010000000001" ∧
      (∀ v, ¬ RrcCommandSent n.world.log v) ∧
      SetupFailed n.world.log "imsi-001010000000001" := by
  obtain ⟨n,hn,hf⟩ := reachable_of_exec (wholeCore sampleDigests Udm.subscriberDb) anyStart freshHost
    (registers "imsi-001010000000001" 0 ++ completes "imsi-001010000000001" 4 5 77)
    (fun n => decide (Completed n.world.log "imsi-001010000000001")) (by decide +kernel)
  have hu := of_decide_eq_true hf
  exact ⟨n,hn,hu,completed_without_rrc_command _ _ _ hn _ hu⟩

/-- Not even a command with some other MAC comes before a completion. -/
theorem rrc_command_not_before_completion :
    ¬ ∀ (dig : Digests) (db : Udm.SubscriberDb) (host : Host) (n : CoreNet),
      (wholeCore dig db).Reachable anyStart (startWorld host) n → ∀ u,
      Completed n.world.log u → RrcCommandSent n.world.log u := by
  intro h
  obtain ⟨n,hn,hf⟩ := reachable_of_exec (wholeCore sampleDigests Udm.subscriberDb) anyStart freshHost
    (registers "imsi-001010000000001" 0 ++ completes "imsi-001010000000001" 4 5 77)
    (fun n => decide (Completed n.world.log "imsi-001010000000001")) (by decide +kernel)
  exact no_rrc_command _ _ _ hn _ (h _ _ _ n hn _ (of_decide_eq_true hf))

def authAnswer : Event Request Reply PyError → Option (String × String)
  | .answered (.amfRegistration (some u)) (.ausfAuthenticate _ _) (.ok (.json _ body)) =>
      (body.lookup "k_ausf").map (fun k => (u,k))
  | _ => none

def lastAuth (log : List (Event Request Reply PyError)) : Option (String × String) :=
  log.findSome? authAnswer

def lastAuthOf (u : String) (log : List (Event Request Reply PyError)) : Option String :=
  log.findSome? (fun e => (authAnswer e).bind (fun p => if p.1 = u then some p.2 else none))

theorem lastAuth_cons (e : Event Request Reply PyError) (log : List (Event Request Reply PyError)) :
    lastAuth (e :: log) = (authAnswer e).or (lastAuth log) := by
  cases h : authAnswer e <;> simp [lastAuth,h]

theorem lastAuthOf_cons (u : String) (e : Event Request Reply PyError)
    (log : List (Event Request Reply PyError)) : lastAuthOf u (e :: log) =
      ((authAnswer e).bind (fun p => if p.1 = u then some p.2 else none)).or (lastAuthOf u log) := by
  cases h : (authAnswer e).bind (fun p => if p.1 = u then some p.2 else none) <;>
    simp [lastAuthOf,h]

structure FieldsTrackAnswers (w : CoreWorld) : Prop where
  kAmf : w.state.amf.kAmf = (lastAuth w.log).map (fun p => Amf.deriveKAmf p.2)
  contexts : ∀ u, (w.state.amf.ueContexts.get? u).bind (fun context => context.lookup "k_ausf") =
    lastAuthOf u w.log

theorem FieldsTrackAnswers.record {w : CoreWorld} (h : FieldsTrackAnswers w)
    {e : Event Request Reply PyError} (he : authAnswer e = none) :
    FieldsTrackAnswers (w.record e) := by
  constructor
  · rw [World.record_log,lastAuth_cons,he]
    exact h.kAmf
  · intro u
    rw [World.record_log,lastAuthOf_cons,he]
    exact h.contexts u

def answersContract : CoreContract where
  inv := FieldsTrackAnswers
  rely := fun _ _ => True
  guar := fun _ _ _ => True
  pre := fun _ _ => True
  post := fun r b _ => match r, b with
    | .ausfAuthenticate _ _, .json _ body => (body.lookup "k_ausf").isSome = true
    | _, _ => True

theorem FieldsTrackAnswers.store {w : CoreWorld} (h : FieldsTrackAnswers w) (u kAusf net : String)
    (status : Nat) (body : JsonObject) (hk : body.lookup "k_ausf" = some kAusf) :
    FieldsTrackAnswers ⟨(w.state.storeContext u body).storeKAmf kAusf,
      .answered (.amfRegistration (some u)) (.ausfAuthenticate (some u) net)
        (.ok (.json status body)) :: w.log⟩ := by
  have he : authAnswer (.answered (.amfRegistration (some u)) (.ausfAuthenticate (some u) net)
      (.ok (.json status body))) = some (u,kAusf) := by simp [authAnswer,hk]
  constructor
  · rw [lastAuth_cons,he]
    rfl
  · intro v
    rw [lastAuthOf_cons,he]
    simp only [Core.storeKAmf,Core.storeContext,Dict.get?_set,Option.bind_some]
    by_cases hv : v = u
    · simp [hv,hk]
    · have huv : ¬ u = v := fun h => hv h.symm
      simp [hv,huv,h.contexts v]

theorem registration_meets_answers (dig : Digests) (u : String) {w : CoreWorld}
    (hi : FieldsTrackAnswers w) :
    (onAmf (flask (jsonify (Amf.handleRegistration dig (some u))))).Meets answersContract legal
      (.amfRegistration (some u)) w w := by
  apply registration_meets dig u rfl rfl
  · exact ⟨⟨hi.record rfl,trivial,trivial⟩,trivial⟩
  · intro o w' hi' ho
    have he : authAnswer (.answered (.amfRegistration (some u))
        (.ausfAuthenticate (some u) Amf.servingNetwork) o) = none := by
      cases o with
      | error e => rfl
      | ok b =>
        cases b with
        | json status body => exact absurd rfl (ho status body)
        | html status => rfl
        | int n => rfl
    exact ⟨⟨(hi'.record he).record rfl,trivial,trivial⟩,fun _ _ => trivial⟩
  · intro status body w' _ hp hk
    have hsome : (body.lookup "k_ausf").isSome = true := hp
    simp [hk] at hsome
  · intro status body kAusf mac w' hi' _ hk
    exact ⟨⟨(hi'.store u kAusf _ status body hk).record rfl,trivial,trivial⟩,trivial⟩
  · intro c o b w' hi'
    exact ⟨⟨(hi'.record rfl).record rfl,trivial,trivial⟩,fun _ _ => trivial⟩

theorem securityComplete_meets_answers (u : String) {w : CoreWorld} (hi : FieldsTrackAnswers w) :
    (onAmf (flask (jsonify (Amf.handleSecurityComplete (some u))))).Meets answersContract legal
      (.amfSecurityComplete (some u)) w w := by
  apply securityComplete_meets u rfl
  · exact ⟨⟨hi.record rfl,trivial,trivial⟩,fun _ _ => trivial⟩
  · intro k _
    exact ⟨⟨hi.record rfl,trivial,trivial⟩,trivial⟩
  · intro k b w' _ _ hi' _
    exact ⟨⟨(hi'.record rfl).record rfl,trivial,trivial⟩,trivial⟩
  · intro q o w' hi'
    exact ⟨⟨(hi'.record rfl).record rfl,trivial,trivial⟩,fun _ _ => trivial⟩
  · intro k b w' _ hi' _
    exact ⟨⟨(hi'.record rfl).record rfl,trivial,trivial⟩,fun _ _ => trivial⟩

theorem answersContract_valid (dig : Digests) (db : Udm.SubscriberDb) :
    answersContract.Valid (amfAlone dig db) anyStart where
  rely_refl := fun _ => trivial
  rely_trans := fun _ _ => trivial
  pre_stable := fun _ _ => trivial
  post_stable := fun hp _ => hp
  client_pre := fun _ _ => trivial
  environment := by
    intro r b w _ hl _
    cases r with
    | ausfAuthenticate u net =>
      cases b with
      | json status body => exact hl
      | html status => trivial
      | int n => trivial
    | _ => trivial
  serves := by
    intro r h w hs hi _ _
    obtain ⟨hm,hr⟩ := system_serve hs
    cases r with
    | amfRegistration u =>
      obtain rfl := Option.some.inj hr
      cases u with
      | none => exact ⟨⟨hi.record rfl,trivial,trivial⟩,fun _ _ => trivial⟩
      | some u => exact registration_meets_answers dig u hi
    | amfSecurityComplete u =>
      obtain rfl := Option.some.inj hr
      cases u with
      | none => exact ⟨⟨hi.record rfl,trivial,trivial⟩,fun _ _ => trivial⟩
      | some u => exact securityComplete_meets_answers u hi
    | _ => simp [Request.target] at hm

theorem fields_track_answers (dig : Digests) (db : Udm.SubscriberDb) (host : Host) {n : CoreNet}
    (hn : (amfAlone dig db).Reachable anyStart (startWorld host) n) : FieldsTrackAnswers n.world := by
  have hstart : FieldsTrackAnswers (startWorld host) := ⟨rfl,fun _ => rfl⟩
  exact ((answersContract_valid dig db).reachable_ok hstart hn).inv

/-- `k` comes from the latest authentication of `u`, the one in the context of `u`. -/
def OwnKey (w : CoreWorld) (u k : String) : Prop :=
  ∃ context kAusf, w.state.amf.ueContexts.get? u = some context ∧
    context.lookup "k_ausf" = some kAusf ∧ lastAuthOf u w.log = some kAusf ∧
    k = Amf.deriveKAmf kAusf

/-- The latest authentication of any UE was one of `u`, or gave a k_ausf with the
same first ten characters as the latest one of `u`. -/
def LatestIsOwn (log : List (Event Request Reply PyError)) (u : String) : Prop :=
  ∃ v k kAusf, lastAuth log = some (v,k) ∧ lastAuthOf u log = some kAusf ∧
    (v = u ∨ sliceTo k 10 = sliceTo kAusf 10)

theorem lastAuthOf_of_lastAuth {log : List (Event Request Reply PyError)} {u k : String}
    (h : lastAuth log = some (u,k)) : lastAuthOf u log = some k := by
  induction log with
  | nil => simp [lastAuth] at h
  | cons e log ih =>
    rw [lastAuth_cons] at h
    rw [lastAuthOf_cons]
    cases he : authAnswer e with
    | none =>
      rw [he,Option.none_or] at h
      simpa using ih h
    | some p =>
      rw [he,Option.some_or] at h
      obtain rfl := Option.some.inj h
      simp

theorem ownKey_iff {w : CoreWorld} (h : FieldsTrackAnswers w) {k : String}
    (hk : w.state.amf.kAmf = some k) (u : String) : OwnKey w u k ↔ LatestIsOwn w.log u := by
  have hkAmf := h.kAmf
  rw [hk] at hkAmf
  obtain ⟨⟨v,latest⟩,hp,rfl⟩ := Option.map_eq_some_iff.mp hkAmf.symm
  constructor
  · rintro ⟨context,kAusf,_,_,hlast,hd⟩
    exact ⟨v,latest,kAusf,hp,hlast,.inr ((derivedKey_eq_iff "K_AMF" latest kAusf).mp hd)⟩
  · rintro ⟨v',latest',kAusf,hp',hlast,hown⟩
    rw [hp] at hp'
    obtain ⟨rfl,rfl⟩ := Prod.mk.inj (Option.some.inj hp')
    have hc := h.contexts u
    rw [hlast] at hc
    obtain ⟨context,hcontext,hlookup⟩ := Option.bind_eq_some_iff.mp hc
    have hslice : sliceTo latest 10 = sliceTo kAusf 10 := by
      rcases hown with rfl | hs
      · rw [lastAuthOf_of_lastAuth hp] at hlast
        rw [Option.some.inj hlast]
      · exact hs
    exact ⟨context,kAusf,hcontext,hlookup,hlast,(derivedKey_eq_iff "K_AMF" latest kAusf).mpr hslice⟩

/-- Every request that a completion of `u` posts is the context for the gNB or the request to
the SMF, under K_gNB of the K_AMF that this completion found when it started, and that K_AMF
is the key of `u` itself. -/
def OwnKeysSent (S : System Core Request Reply PyError) (tr : CoreTrace) : Prop :=
  ∀ m a u r, (m,a) ∈ tr → .posted (.amfSecurityComplete (some u)) r ∈ S.added m a →
    ∃ m₀ i k, a.task = some i ∧ (m₀,.start i) ∈ tr ∧ m₀.world.state.amf.kAmf = some k ∧
      (r = setupRequest u k ∨ r = sessionRequest u k) ∧ OwnKey m₀.world u k

def completionContract (tr : CoreTrace) (i : Nat) : CoreContract where
  inv := fun _ => True
  rely := fun _ _ => True
  guar := fun _ _ _ => True
  pre := fun _ w => ∀ u r, w.log.head? = some (.posted (.amfSecurityComplete (some u)) r) →
    ∃ m k, (m,.start i) ∈ tr ∧ m.tasks[i]? = some ⟨.amfSecurityComplete (some u),.queued⟩ ∧
      m.world.state.amf.kAmf = some k ∧ (r = setupRequest u k ∨ r = sessionRequest u k)
  post := fun _ _ _ => True

theorem completionContract_closes {tr : CoreTrace} {i : Nat} {src : Request} {b : Reply}
    {w₀ w : CoreWorld} : (completionContract tr i).Closes src (.ok b) w₀ w :=
  ⟨⟨trivial,trivial,trivial⟩,fun _ _ => trivial⟩

theorem registration_meets_completion {tr : CoreTrace} {i : Nat} (dig : Digests) (u : String)
    {w : CoreWorld} : (onAmf (flask (jsonify (Amf.handleRegistration dig (some u))))).Meets
      (completionContract tr i) legal (.amfRegistration (some u)) w w := by
  have hasks : ∀ {r w₀ w}, (completionContract tr i).Asks (.amfRegistration (some u)) r w₀ w := by
    intro r w₀ w
    refine ⟨⟨trivial,trivial,trivial⟩,?_⟩
    intro u' r' hhead
    exact nomatch (Event.posted.inj (Option.some.inj hhead)).1
  apply registration_meets dig u rfl rfl
  · exact hasks
  · exact fun o w' _ _ => completionContract_closes
  · exact fun status body w' _ _ _ => completionContract_closes
  · exact fun status body kAusf mac w' _ _ _ => hasks
  · exact fun c o b w' _ => completionContract_closes

theorem securityComplete_meets_completion {tr : CoreTrace} {i : Nat} {m : CoreNet} {u : String}
    (hm : (m,.start i) ∈ tr) (hi : m.tasks[i]? = some ⟨.amfSecurityComplete (some u),.queued⟩)
    (log : CoreLog) : (onAmf (flask (jsonify (Amf.handleSecurityComplete (some u))))).Meets
      (completionContract tr i) legal (.amfSecurityComplete (some u)) ⟨m.world.state,log⟩
      ⟨m.world.state,log⟩ := by
  have hasks : ∀ {k r w₀ w}, m.world.state.amf.kAmf = some k →
      r = setupRequest u k ∨ r = sessionRequest u k →
      (completionContract tr i).Asks (.amfSecurityComplete (some u)) r w₀ w := by
    intro k r w₀ w hk hr
    refine ⟨⟨trivial,trivial,trivial⟩,?_⟩
    intro u' r' hhead
    obtain ⟨hu,rfl⟩ := Event.posted.inj (Option.some.inj hhead)
    obtain rfl := Option.some.inj (Request.amfSecurityComplete.inj hu)
    exact ⟨m,k,hm,hi,hk,hr⟩
  apply securityComplete_meets u rfl
  · exact completionContract_closes
  · exact fun k hk => hasks hk (.inl rfl)
  · exact fun k b w' hk _ _ _ => hasks hk (.inr rfl)
  · exact fun q o w' _ => completionContract_closes
  · exact fun k b w' _ _ _ => completionContract_closes

theorem completionContract_own (dig : Digests) (db : Udm.SubscriberDb) (tr : CoreTrace) (i : Nat) :
    (completionContract tr i).Own (amfAlone dig db) i tr where
  inv := fun _ => trivial
  rely := fun _ _ => trivial
  starts := by
    intro m src h hm hi hg
    obtain ⟨htarget,hr⟩ := system_serve hg
    cases src with
    | amfRegistration u =>
      obtain rfl := Option.some.inj hr
      cases u with
      | none => exact completionContract_closes
      | some u => exact registration_meets_completion dig u
    | amfSecurityComplete u =>
      obtain rfl := Option.some.inj hr
      cases u with
      | none => exact completionContract_closes
      | some u => exact securityComplete_meets_completion hm hi []
    | _ => simp [Request.target] at htarget
  hears := fun _ _ _ _ => trivial

theorem securityComplete_advance {s : Core} {k : String} (hk : s.amf.kAmf = some k) (u : String) :
    ∃ kont, (onAmf (flask (jsonify (Amf.handleSecurityComplete (some u))))).advance s =
      (s,.calling (setupRequest u k) kont) := by
  obtain ⟨ausf,⟨contexts,kAmf⟩,gnb,smf,upf⟩ := s
  obtain rfl : kAmf = some k := hk
  exact ⟨_,rfl⟩

theorem start_posts_setup {dig : Digests} {db : Udm.SubscriberDb} {m m' : CoreNet} {i : Nat}
    {u k : String}
    (hs : (amfAlone dig db).step m (.start i) = some m')
    (hi : m.tasks[i]? = some ⟨.amfSecurityComplete (some u),.queued⟩)
    (hk : m.world.state.amf.kAmf = some k) :
    .posted (.amfSecurityComplete (some u)) (setupRequest u k) ∈
      (amfAlone dig db).added m (.start i) := by
  have hadds := System.adds_of_step hs
  generalize (amfAlone dig db).added m (.start i) = new at hadds ⊢
  cases hadds with
  | start hi' hg =>
    rw [hi] at hi'
    cases hi'
    obtain rfl := Option.some.inj (system_serve hg).2
    obtain ⟨kont,ha⟩ := securityComplete_advance hk u
    rw [ha]
    exact List.mem_singleton_self _
  | resume _ hend => exact nomatch hend

/-- In a run of the AMF, with any answers of the AUSF, the completions send everything under
the key of their own UE exactly when every completion that finds a K_AMF starts when the
latest authentication was one of its own UE, or of one with the same first ten characters in
its k_ausf. -/
theorem own_key_iff_latest_is_own (dig : Digests) (db : Udm.SubscriberDb) (host : Host)
    {tr : CoreTrace} {n : CoreNet} (hrun : (amfAlone dig db).Run (startWorld host) tr n) :
    OwnKeysSent (amfAlone dig db) tr ↔
    ∀ m i u, (m,Action.start i) ∈ tr →
      m.tasks[i]? = some ⟨.amfSecurityComplete (some u),.queued⟩ →
      m.world.state.amf.kAmf ≠ none → LatestIsOwn m.world.log u := by
  have htrack : ∀ m a, (m,a) ∈ tr → FieldsTrackAnswers m.world := fun m a hm =>
    fields_track_answers dig db host (hrun.reachable_of_mem hm).1
  constructor
  · intro h m i u hm hi hk
    obtain ⟨k,hk⟩ := Option.ne_none_iff_exists'.mp hk
    obtain ⟨m',hs⟩ := (hrun.reachable_of_mem hm).2
    obtain ⟨m₀,i',k',htask,hm₀,hk',_,hown⟩ := h m _ u _ hm (start_posts_setup hs hi hk)
    obtain rfl := Option.some.inj htask
    obtain rfl := hrun.start_once hm hm₀
    exact (ownKey_iff (htrack m _ hm) hk' u).mp hown
  · intro h m a u r hm hpost
    obtain ⟨i,ha⟩ := System.task_of_added hpost
    have hown := completionContract_own dig db tr i
    obtain ⟨s,earlier,hpre⟩ := hown.asked hrun (System.mem_ownLog.mpr ⟨m,a,hm,ha,hpost⟩)
    obtain ⟨m₀,k,hm₀,hi,hk,hr⟩ := hpre u r rfl
    have hlatest := h m₀ i u hm₀ hi (by simp [hk])
    exact ⟨m₀,i,k,ha,hm₀,hk,hr,(ownKey_iff (htrack m₀ _ hm₀) hk u).mpr hlatest⟩

def LatestFirst : StartCondition Core Request Reply PyError := fun r w =>
  ∀ u ∈ r.completes, w.state.amf.kAmf ≠ none → LatestIsOwn w.log u

instance (r : Request) (w : CoreWorld) : Decidable (LatestFirst r w) :=
  decidable_of_iff (∀ u ∈ r.completes, w.state.amf.kAmf ≠ none → ∃ p ∈ lastAuth w.log,
      ∃ kAusf ∈ lastAuthOf u w.log, p.1 = u ∨ sliceTo p.2 10 = sliceTo kAusf 10)
    (by simp [LatestFirst,LatestIsOwn])

def crossedRegistrations (k k' : String) : List (Action Request Reply PyError) :=
  [.client (.amfRegistration (some "ue-1")),.start 0,.answer 0 (.json 200 [("k_ausf",k)]),
   .client (.amfRegistration (some "ue-2")),.start 1,.answer 1 (.json 200 [("k_ausf",k')]),
   .client (.amfSecurityComplete (some "ue-1"))]

theorem own_key_iff_latest_is_own_equal_keys :
    ∃ tr n, (amfAlone sampleDigests Udm.subscriberDb).Run (startWorld freshHost) tr n ∧
      .posted (.amfSecurityComplete (some "ue-1"))
        (setupRequest "ue-1" (Amf.deriveKAmf "A")) ∈ n.world.log ∧
      .posted (.amfSecurityComplete (some "ue-1"))
        (sessionRequest "ue-1" (Amf.deriveKAmf "A")) ∈ n.world.log ∧
      OwnKeysSent (amfAlone sampleDigests Udm.subscriberDb) tr := by
  obtain ⟨n,hn,hf⟩ := reachable_of_exec (amfAlone sampleDigests Udm.subscriberDb) LatestFirst
    freshHost (crossedRegistrations "A" "A" ++ [.start 2,.answer 2 (.html 500)])
    (fun n => decide (.posted (.amfSecurityComplete (some "ue-1"))
        (setupRequest "ue-1" (Amf.deriveKAmf "A")) ∈ n.world.log ∧
      .posted (.amfSecurityComplete (some "ue-1"))
        (sessionRequest "ue-1" (Amf.deriveKAmf "A")) ∈ n.world.log)) (by decide +kernel)
  obtain ⟨tr,htr,hunder⟩ := hn.run_under
  obtain ⟨hsetup,hsession⟩ := of_decide_eq_true hf
  refine ⟨tr,n,htr,hsetup,hsession,(own_key_iff_latest_is_own _ _ _ htr).mpr ?_⟩
  intro m i u hm hi hk
  exact hunder m _ hm i _ rfl hi u rfl hk

/-- A second UE registering in between leaves its key to the first one's completion. -/
theorem other_key_used :
    ¬ ∀ (dig : Digests) (db : Udm.SubscriberDb) (host : Host) (tr : CoreTrace) (n : CoreNet),
      (amfAlone dig db).Run (startWorld host) tr n → OwnKeysSent (amfAlone dig db) tr := by
  intro h
  obtain ⟨m,hm,hf⟩ := reachable_of_exec (amfAlone sampleDigests Udm.subscriberDb) anyStart freshHost
    (crossedRegistrations "A" "B")
    (fun m => ((amfAlone sampleDigests Udm.subscriberDb).step m (.start 2)).isSome &&
      decide (m.world.state.amf.kAmf = some (Amf.deriveKAmf "B") ∧
        lastAuthOf "ue-1" m.world.log = some "A" ∧
        .posted (.amfSecurityComplete (some "ue-1")) (setupRequest "ue-1" (Amf.deriveKAmf "B")) ∈
          (amfAlone sampleDigests Udm.subscriberDb).added m (.start 2))) (by decide +kernel)
  obtain ⟨hstep,hfields⟩ := Bool.and_eq_true_iff.mp hf
  obtain ⟨n,hstep⟩ := Option.isSome_iff_exists.mp hstep
  obtain ⟨hk,hlast,hposted⟩ := of_decide_eq_true hfields
  obtain ⟨tr,htr⟩ := hm.run
  have hrun := htr.snoc hstep
  have hmem : (m,Action.start 2) ∈ tr ++ [(m,Action.start 2)] := by simp
  obtain ⟨m₀,i,k,htask,hm₀,hk₀,_,context,kAusf,_,_,hown,hd⟩ := h _ _ _ _ n hrun m _ _ _ hmem hposted
  obtain rfl := Option.some.inj htask
  obtain rfl := hrun.start_once hmem hm₀
  rw [hk] at hk₀
  rw [hlast] at hown
  obtain rfl := Option.some.inj hown
  exact absurd ((Option.some.inj hk₀).trans hd) (by decide +kernel)

end GrpKeySec
