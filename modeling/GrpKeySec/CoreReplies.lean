import GrpKeySec.CoreHistory
import GrpKeySec.CoreStores
import GrpKeySec.CoreWork
set_option autoImplicit false

/-!
What a client is told. Each reply of the core is the one that the subscriber database
calls for, or it is a 500 page and the run has the reason: a post of the very task that
replied, or of the task that the reply came from, raised in it, or the AMF had no key when
the task started. And what a reply reports as done stays done.
-/

namespace GrpKeySec
open Handler Service

def Event.authenticates : Event Request Reply PyError → Bool
  | .answered (.amfRegistration _) (.ausfAuthenticate _ _) (.ok (.json _ _)) => true
  | _ => false

/-- Task `i` started while the AMF had no key, no answer of the AUSF having come before. -/
def Keyless (tr : CoreTrace) (i : Nat) : Prop :=
  ∃ m, (m,.start i) ∈ tr ∧ m.world.state.amf.kAmf = none ∧
    m.world.log.any Event.authenticates = false

/-- A 500 page has its reason, any other reply is the one given. -/
def ReplyUnless (reason : Prop) (reply b : Reply) : Prop :=
  b = reply ∨ (b = .html 500 ∧ reason)

/-- How a registration of `u` at the AMF may end, `own` and `ausf` being reasons for a 500
page that a subscriber may get. -/
def RegistrationEnds (db : Udm.SubscriberDb) (u : String) (own ausf : Prop) (b : Reply) : Prop :=
  (u ∈ db ∧ b = .json 200 [("status","authentication_initiated")]) ∨
    (b = .html 500 ∧ (u ∉ db ∨ own ∨ ausf))

/-- A post of the AUSF's task raised, and task `i` had its answer from that task. -/
def AusfRaised (tr : CoreTrace) (i : Nat) (u : String) : Prop :=
  ∃ j, Took tr i (.ausfAuthenticate (some u) Amf.servingNetwork) j ∧ Raised tr j

/-- What task `i` may reply, its requests in the run `tr` being as they are. -/
def Explained (db : Udm.SubscriberDb) (tr : CoreTrace) (i : Nat) : Request → Reply → Prop
  | .udmAuthData (some u), b => b = .json 200 (Udm.getAuthData db u)
  | .ausfAuthenticate (some u) _, b =>
      ReplyUnless (Raised tr i) (Ausf.answerFor (Udm.getAuthData db u)) b
  | .amfRegistration (some u), b => RegistrationEnds db u (Raised tr i) (AusfRaised tr i u) b
  | .gnbRegistration (some u), b =>
      (∃ j, Took tr i (.amfRegistration (some u)) j ∧
        RegistrationEnds db u (Raised tr j) (AusfRaised tr j u) b) ∨
      (b = .html 500 ∧ Raised tr i)
  | .amfSecurityComplete (some _), b =>
      ReplyUnless (Raised tr i ∨ Keyless tr i) (.json 200 [("status","registration_complete")]) b
  | .gnbSecurityComplete _, b => ReplyUnless (Raised tr i) (.json 200 [("status","success")]) b
  | .amfRegistration none, b | .amfSecurityComplete none, b | .gnbRegistration none, b =>
      b = .html 500
  | _, _ => True

theorem ReplyUnless.imp {reason reason' : Prop} {reply b : Reply} (h : ReplyUnless reason reply b)
    (himp : reason → reason') : ReplyUnless reason' reply b :=
  h.imp_right (fun ⟨hb,hr⟩ => ⟨hb,himp hr⟩)

theorem RegistrationEnds.imp {db : Udm.SubscriberDb} {u : String} {own own' ausf ausf' : Prop}
    {b : Reply} (h : RegistrationEnds db u own ausf b) (hown : own → own')
    (hausf : ausf → ausf') : RegistrationEnds db u own' ausf' b :=
  h.imp_right (fun ⟨hb,hr⟩ => ⟨hb,hr.imp_right (Or.imp hown hausf)⟩)

theorem AusfRaised.mono {tr tr' : CoreTrace} {i : Nat} {u : String} (h : AusfRaised tr i u)
    (hsub : tr ⊆ tr') : AusfRaised tr' i u := by
  obtain ⟨j,htook,hr⟩ := h
  exact ⟨j,htook.mono hsub,hr.mono hsub⟩

def theNasKey : String := "NAS_INT_derived_from_K_AMF_deri"

def theNasCommand (dig : Digests) (u : String) : SecurityCommand :=
  ⟨u,"NAS Security Mode Command",Amf.calculateMac dig (strCommand "NAS Security Mode Command") theNasKey⟩

theorem nasCommand_constant (dig : Digests) (u kAusf : String) :
    nasCommand dig u kAusf = theNasCommand dig u := by
  have hkey : Amf.deriveKey (Amf.deriveKAmf kAusf) "NAS_INT" = theNasKey := by
    have h := sliceTo_derivedKey "K_AMF" kAusf
    simp only [Amf.deriveKey,Amf.deriveKAmf]
    rw [derivedKey,h]
    decide +kernel
  rw [nasCommand,hkey,theNasCommand]

def Possible (db : Udm.SubscriberDb) : Request → Reply → Prop
  | .udmAuthData (some u), b => b = .json 200 (Udm.getAuthData db u)
  | .ausfAuthenticate (some u) _, b => ReplyUnless True (Ausf.answerFor (Udm.getAuthData db u)) b
  | .amfRegistration none, b | .amfSecurityComplete none, b => b = .html 500
  | _, _ => True

def replyContract (dig : Digests) (db : Udm.SubscriberDb) : CoreContract where
  inv := fun w => w.log.any Event.authenticates = true → w.state.amf.kAmf.isSome = true
  rely := fun _ _ => True
  guar := fun _ _ _ => True
  pre := fun r _ => match r with
    | .gnbSecurityCommand c => c = theNasCommand dig c.ueId
    | _ => True
  post := fun r b _ => Possible db r b

section Handlers

variable {dig : Digests} {db : Udm.SubscriberDb}

theorem replyContract_ends {src : Request} {w₀ : CoreWorld} {s : Core} (new : CoreLog)
    (hi : (replyContract dig db).inv w₀) (hk : s.amf.kAmf = w₀.state.amf.kAmf)
    (hnew : new.any Event.authenticates = false) :
    (replyContract dig db).Ends src w₀ ⟨s,new ++ w₀.log⟩ := by
  refine ⟨?_,trivial,trivial⟩
  intro hauth
  rw [List.any_append,hnew,Bool.false_or] at hauth
  rw [hk]
  exact hi hauth

theorem replyContract_closes {src : Request} {w₀ : CoreWorld} {s : Core} {b : Reply}
    (new : CoreLog) (hi : (replyContract dig db).inv w₀) (hk : s.amf.kAmf = w₀.state.amf.kAmf)
    (hnew : new.any Event.authenticates = false) (hb : Possible db src b) :
    (replyContract dig db).Closes src (.ok b) w₀ ⟨s,new ++ w₀.log⟩ := by
  refine ⟨replyContract_ends (.returned src (.ok b) :: new) hi hk hnew,?_⟩
  rintro b' hb'
  obtain rfl := Except.ok.inj hb'
  exact hb

theorem replyContract_frame {src : Request} (hs : ∀ u, src ≠ .amfRegistration u)
    (hc : ∀ r w, Calls src r → (replyContract dig db).pre r w) (hp : ∀ b, Possible db src b) :
    (replyContract dig db).Frame src (Writes src) (Calls src)
      (fun w₀ w => (replyContract dig db).inv w₀ ∧ w.state.amf = w₀.state.amf ∧
        ∃ new : CoreLog, w.log = new ++ w₀.log ∧ new.any Event.authenticates = false) where
  start := fun hi => ⟨hi,rfl,[],rfl,rfl⟩
  update := fun hw hm => ⟨hw.1,(hm.amf_eq hs).trans hw.2.1,hw.2.2⟩
  record := by
    rintro w₀ w e ⟨hi,ha,new,hl,hn⟩ he
    refine ⟨hi,ha,e :: new,congrArg (e :: ·) hl,?_⟩
    have hauth : e.authenticates = false := by
      cases e with
      | posted src' r => rfl
      | returned src' o => rfl
      | answered src' r o =>
        obtain rfl := he.1
        cases src' with
        | amfRegistration u => exact absurd rfl (hs u)
        | _ => rfl
    rw [List.any_cons,hauth,hn]
    rfl
  ends := by
    rintro w₀ ⟨s,log⟩ ⟨hi,ha,new,rfl,hn⟩
    exact replyContract_ends new hi (congrArg Amf.kAmf ha) hn
  pre := fun {r w} hr _ => hc r w hr
  post := fun {b w} _ => hp b

theorem authenticate_meets_reply (u net : String) {w : CoreWorld}
    (hi : (replyContract dig db).inv w) :
    (onAusf (flask (jsonify (Ausf.authenticate (some u))))).Meets (replyContract dig db) legal
      (.ausfAuthenticate (some u) net) w w := by
  apply authenticate_meets u net rfl
  · exact ⟨replyContract_ends [_] hi rfl rfl,trivial⟩
  · intro o w' hi' _
    exact replyContract_closes [_] hi' rfl rfl (.inr ⟨rfl,trivial⟩)
  · intro status body w' hi' hp
    obtain ⟨-,rfl⟩ := Reply.json.inj (show Reply.json status body = _ from hp)
    exact replyContract_closes [_] hi' rfl rfl (.inl rfl)

theorem ausf_json_sound {reason : Prop} {u : String} {status : Nat} {body : JsonObject}
    (h : ReplyUnless reason (Ausf.answerFor (Udm.getAuthData db u)) (.json status body)) :
    SoundContext db u body := by
  rcases h with h | ⟨hb,_⟩
  · exact (getAuthData_answer db u status body h.symm).2
  · exact nomatch hb

theorem ausf_json_has_key {reason : Prop} {u : String} {status : Nat} {body : JsonObject}
    (h : ReplyUnless reason (Ausf.answerFor (Udm.getAuthData db u)) (.json status body)) :
    body.lookup "k_ausf" ≠ none := by
  obtain ⟨subscriber,_,_,hk⟩ := (ausf_json_sound h).kAusf
  rw [hk]
  exact Option.some_ne_none _

theorem registration_meets_reply (u : String) {w : CoreWorld} (hi : (replyContract dig db).inv w) :
    (onAmf (flask (jsonify (Amf.handleRegistration dig (some u))))).Meets (replyContract dig db)
      legal (.amfRegistration (some u)) w w := by
  apply registration_meets_exact dig u rfl rfl
  · exact ⟨replyContract_ends [_] hi rfl rfl,trivial⟩
  · intro o w' hi' _ hne
    have hnew : [Event.answered (.amfRegistration (some u))
        (.ausfAuthenticate (some u) Amf.servingNetwork) o].any Event.authenticates = false := by
      cases o with
      | error e => rfl
      | ok b =>
        cases b with
        | json status body => exact absurd rfl (hne status body)
        | _ => rfl
    exact replyContract_closes [_] hi' rfl hnew trivial
  · intro status body w' _ hp hk
    exact absurd hk (ausf_json_has_key hp)
  · intro status body kAusf w' _ _ _
    exact ⟨⟨fun _ => rfl,trivial,trivial⟩,nasCommand_constant dig u kAusf⟩
  · intro c e w' hi'
    exact replyContract_closes [_] hi' rfl rfl trivial
  · intro status body kAusf v c b w' _ _ _ _ hi'
    exact replyContract_closes [_] hi' rfl rfl trivial

theorem replyContract_valid (dig : Digests) (db : Udm.SubscriberDb) :
    (replyContract dig db).Valid (wholeCore dig db) anyStart where
  rely_refl := fun _ => trivial
  rely_trans := fun _ _ => trivial
  pre_stable := by
    intro r w w' hp _
    cases r <;> exact hp
  post_stable := fun hp _ => hp
  client_pre := by
    intro r w hr _
    cases r <;> simp [wholeCore,system,fromClient] at hr <;> trivial
  environment := by
    intro r b w hs _ _
    have ht := route_eq_none (show route dig db r = none from hs)
    cases r <;> simp [Request.target] at ht <;> trivial
  serves := by
    intro r h w hs hi _ _
    have hr := (system_serve hs).2
    have hframe : (∀ u, r ≠ .amfRegistration u) →
        (∀ q w, Calls r q → (replyContract dig db).pre q w) →
        (∀ b, Possible db r b) → h.Meets (replyContract dig db) legal r w w :=
      fun hne hc hp => (route_footprint dig db hr).meets (replyContract_frame hne hc hp)
        ⟨hi,rfl,[],rfl,rfl⟩
    cases r with
    | udmAuthData u =>
      obtain rfl := Option.some.inj hr
      cases u with
      | none => exact replyContract_closes [] hi rfl rfl trivial
      | some u => exact replyContract_closes [] hi rfl rfl rfl
    | ausfAuthenticate u net =>
      obtain rfl := Option.some.inj hr
      cases u with
      | none => exact replyContract_closes [] hi rfl rfl trivial
      | some u => exact authenticate_meets_reply u net hi
    | amfRegistration u =>
      obtain rfl := Option.some.inj hr
      cases u with
      | none => exact replyContract_closes [] hi rfl rfl rfl
      | some u => exact registration_meets_reply u hi
    | amfSecurityComplete u =>
      cases u with
      | none =>
        obtain rfl := Option.some.inj hr
        exact replyContract_closes [] hi rfl rfl rfl
      | some u =>
        refine hframe (by simp) ?_ (fun _ => trivial)
        intro q w hq
        cases q <;> trivial
    | _ =>
      refine hframe (by simp) ?_ (fun _ => trivial)
      intro q w hq
      cases q <;> trivial

end Handlers

theorem replyContract_initial (dig : Digests) (db : Udm.SubscriberDb) (host : Host) :
    (replyContract dig db).inv (startWorld host) := by
  intro h
  exact nomatch h

/-- A contract for the replies of one task, with its own log at hand. -/
def ownReplies (src : Request) (post : Request → Reply → CoreLog → Prop) : CoreContract where
  inv := fun _ => True
  rely := fun _ _ => True
  guar := fun _ _ _ => True
  pre := fun r _ => Calls src r
  post := fun r b w => post r b w.log

def RaisedIn (log : CoreLog) (src : Request) : Prop :=
  ∃ r e, Event.answered src r (.error e) ∈ log

/-- Only SMF and UPF run commands. -/
theorem calls_services {src : Request} (hsrc : src.target ≠ .smf ∧ src.target ≠ .upf) (r : Request)
    (h : Calls src r) : r.target ≠ .os := by
  cases src with
  | smfSessionEstablishment q => exact absurd rfl hsrc.1
  | upfConfigure c => exact absurd rfl hsrc.2
  | _ => cases r <;> simp [Calls] at h <;> simp [Request.target]

section Tasks

variable {dig : Digests} {db : Udm.SubscriberDb} {host : Host}
  {post : Request → Reply → CoreLog → Prop} {src : Request}

theorem ownReplies_closes {b : Reply} {w₀ w : CoreWorld}
    (hb : post src b (.returned src (.ok b) :: w.log)) :
    (ownReplies src post).Closes src (.ok b) w₀ w := by
  refine ⟨⟨trivial,trivial,trivial⟩,?_⟩
  rintro b' hb'
  obtain rfl := Except.ok.inj hb'
  exact hb

theorem raisedIn_now (src r : Request) (e : PyError) (x : Event Request Reply PyError)
    (log : CoreLog) : RaisedIn (x :: .answered src r (.error e) :: log) src := ⟨r,e,by simp⟩

variable {tr : CoreTrace} {n : CoreNet} {i : Nat}

/-- What a task has replied, from its handler and from what the tasks it asked have replied. -/
theorem ownReplies_replied (post : Request → Reply → CoreLog → Prop)
    (hn : (wholeCore dig db).Run (startWorld host) tr n) {b : Reply}
    (ht : n.tasks[i]? = some ⟨src,.finished (.ok b)⟩) {h : Service Core Reply}
    (hr : route dig db src = some h)
    (starts : ∀ m, (m,.start i) ∈ tr → h.Meets (ownReplies src post) legal src ⟨m.world.state,[]⟩
      ⟨m.world.state,[]⟩)
    (hears : ∀ {r b j tr' m log}, Calls src r → Took tr i r j →
      (wholeCore dig db).Run (startWorld host) tr' m → tr' ⊆ tr →
      m.tasks[j]? = some ⟨r,.finished (.ok b)⟩ → post r b log)
    (hos : ∀ r, Calls src r → r.target ≠ .os) : post src b ((wholeCore dig db).ownLog i tr) := by
  have hD : (ownReplies src post).Own (wholeCore dig db) i tr := by
    refine ⟨fun _ => trivial,fun _ _ => trivial,?_,?_⟩
    · intro m src' g hm hi hg
      obtain rfl : src' = src := hn.req_kept hm hi ht
      rw [(system_serve hg).2] at hr
      obtain rfl := Option.some.inj hr
      exact starts m hm
    · intro m a src' r child k b' w log hm hi hcalls he
      by_cases hs : (wholeCore dig db).serve r = none
      · exact absurd (route_eq_none hs) (hos r hcalls)
      · obtain ⟨j,tr',htook,hrun,hsub,hj⟩ := hn.heard hm hi he hs
        exact hears hcalls htook hrun hsub hj
  obtain ⟨s,hpost⟩ := hD.replied hn ht rfl
  exact hpost

theorem raised_of_raisedIn (hn : (wholeCore dig db).Run (startWorld host) tr n)
    (h : RaisedIn ((wholeCore dig db).ownLog i tr) src) : Raised tr i := by
  obtain ⟨r,e,he⟩ := h
  exact System.raised_of_ownLog hn he

theorem possible_reply (hn : (wholeCore dig db).Run (startWorld host) tr n) {r : Request}
    {b : Reply} (ht : n.tasks[i]? = some ⟨r,.finished (.ok b)⟩) : Possible db r b :=
  (((replyContract_valid dig db).reachable_ok (replyContract_initial dig db host)
    hn.reachable).tasks _ (List.mem_of_getElem? ht)) b rfl

/-- What an AUSF task is told, and what it may reply. -/
def AusfTask (db : Udm.SubscriberDb) : Request → Reply → CoreLog → Prop
  | .udmAuthData (some u), b, _ => b = .json 200 (Udm.getAuthData db u)
  | .ausfAuthenticate (some u) net, b, log =>
      ReplyUnless (RaisedIn log (.ausfAuthenticate (some u) net))
        (Ausf.answerFor (Udm.getAuthData db u)) b
  | _, _, _ => True

theorem ausf_explained (hn : (wholeCore dig db).Run (startWorld host) tr n) {u net : String}
    {b : Reply} (ht : n.tasks[i]? = some ⟨.ausfAuthenticate (some u) net,.finished (.ok b)⟩) :
    Explained db tr i (.ausfAuthenticate (some u) net) b := by
  have hpost := ownReplies_replied (AusfTask db) hn ht rfl ?_ ?_ ?_
  · exact ReplyUnless.imp hpost (raised_of_raisedIn hn)
  · intro m _
    apply authenticate_meets_exact u net rfl
    · exact ⟨⟨trivial,trivial,trivial⟩,rfl⟩
    · intro o w' _ ha hne
      refine ownReplies_closes (.inr ⟨rfl,?_⟩)
      cases o with
      | error e => exact raisedIn_now _ _ _ _ _
      | ok b => exact absurd (congrArg Except.ok (show b = _ from ha)) (hne _ _)
    · intro status body w' _ hp
      obtain ⟨-,rfl⟩ := Reply.json.inj (show Reply.json status body = _ from hp)
      exact ownReplies_closes (.inl rfl)
  · intro r b j tr' m log hcalls _ hrun _ hj
    cases r with
    | udmAuthData q =>
      obtain rfl : q = some u := hcalls
      exact possible_reply hrun hj
    | _ => exact hcalls.elim
  · exact calls_services (by simp [Request.target])

def AmfTask (db : Udm.SubscriberDb) (tr : CoreTrace) (i : Nat) : Request → Reply → CoreLog → Prop
  | .ausfAuthenticate (some u) net, b, _ => ∃ j, Took tr i (.ausfAuthenticate (some u) net) j ∧
      Explained db tr j (.ausfAuthenticate (some u) net) b
  | .amfRegistration (some u), b, log =>
      RegistrationEnds db u (RaisedIn log (.amfRegistration (some u))) (AusfRaised tr i u) b
  | .amfSecurityComplete (some u), b, log =>
      ReplyUnless (RaisedIn log (.amfSecurityComplete (some u)) ∨ Keyless tr i)
        (.json 200 [("status","registration_complete")]) b
  | _, _, _ => True

theorem ausf_page_reason {reason : Prop} {u : String} {b : Reply}
    (h : ReplyUnless reason (Ausf.answerFor (Udm.getAuthData db u)) b)
    (hb : ∀ status body, b ≠ .json status body) : u ∉ db ∨ reason := by
  rcases h with rfl | ⟨_,hr⟩
  · left
    intro hu
    obtain ⟨subscriber,hs⟩ := Dict.mem_iff_get?.mp hu
    simp only [Udm.getAuthData,hs,Ausf.answerFor,List.lookup_cons] at hb
    exact hb _ _ rfl
  · exact .inr hr

theorem registration_explained (hn : (wholeCore dig db).Run (startWorld host) tr n) {u : String}
    {b : Reply} (ht : n.tasks[i]? = some ⟨.amfRegistration (some u),.finished (.ok b)⟩) :
    Explained db tr i (.amfRegistration (some u)) b := by
  have hpost := ownReplies_replied (AmfTask db tr i) hn ht rfl ?_ ?_ ?_
  · exact RegistrationEnds.imp hpost (raised_of_raisedIn hn) id
  · intro m _
    apply registration_meets_exact dig u rfl rfl
    · exact ⟨⟨trivial,trivial,trivial⟩,rfl,rfl⟩
    · intro o w' _ ha hne
      cases o with
      | error e => exact ownReplies_closes (.inr ⟨rfl,.inr (.inl (raisedIn_now _ _ _ _ _))⟩)
      | ok b =>
        obtain ⟨j,htook,hj⟩ := ha
        refine ownReplies_closes (.inr ⟨rfl,?_⟩)
        rcases ausf_page_reason hj (fun status body h => hne status body (congrArg Except.ok h)) with
          h | h
        · exact .inl h
        · exact .inr (.inr ⟨j,htook,h⟩)
    · intro status body w' _ hp hk
      obtain ⟨j,_,hj⟩ := hp
      exact absurd hk (ausf_json_has_key hj)
    · intro status body kAusf w' _ _ _
      exact ⟨⟨trivial,trivial,trivial⟩,rfl⟩
    · intro c e w' _
      exact ownReplies_closes (.inr ⟨rfl,.inr (.inl (raisedIn_now _ _ _ _ _))⟩)
    · intro status body kAusf v c b w' _ hp _ _ _
      obtain ⟨j,_,hj⟩ := hp
      exact ownReplies_closes (.inl ⟨(ausf_json_sound hj).mem,rfl⟩)
  · intro r b j tr' m log hcalls htook hrun hsub hj
    cases r with
    | ausfAuthenticate q net =>
      obtain ⟨rfl,rfl⟩ := hcalls
      exact ⟨j,htook,ReplyUnless.imp (ausf_explained hrun hj) (fun h => h.mono hsub)⟩
    | gnbSecurityCommand c => trivial
    | _ => exact hcalls.elim
  · exact calls_services (by simp [Request.target])

theorem completion_explained (hn : (wholeCore dig db).Run (startWorld host) tr n) {u : String}
    {b : Reply} (ht : n.tasks[i]? = some ⟨.amfSecurityComplete (some u),.finished (.ok b)⟩) :
    Explained db tr i (.amfSecurityComplete (some u)) b := by
  have hpost := ownReplies_replied (AmfTask db tr i) hn ht rfl ?_ ?_ ?_
  · exact ReplyUnless.imp hpost (Or.imp_left (raised_of_raisedIn hn))
  · intro m hm
    apply securityComplete_meets_exact u rfl
    · intro hk
      -- no answer of the AUSF can be in the log yet, it would have left its key
      have hnone : m.world.log.any Event.authenticates = false := by
        have hi := ((replyContract_valid dig db).reachable_ok (replyContract_initial dig db host)
          (hn.reachable_of_mem hm).1).inv
        by_contra hauth
        have hsome := hi (eq_true_of_ne_false hauth)
        rw [show m.world.state.amf.kAmf = none from hk] at hsome
        exact nomatch hsome
      exact ownReplies_closes (.inr ⟨rfl,.inr ⟨m,hm,hk,hnone⟩⟩)
    · intro k _
      exact ⟨⟨trivial,trivial,trivial⟩,rfl⟩
    · intro k b w' _ _ _ _
      exact ⟨⟨trivial,trivial,trivial⟩,rfl⟩
    · intro q e w' _
      exact ownReplies_closes (.inr ⟨rfl,.inl (raisedIn_now _ _ _ _ _)⟩)
    · intro k b b' v w' _ _ _ _ _
      exact ownReplies_closes (.inl rfl)
  · intro r b j tr' m log hcalls htook hrun hsub hj
    cases r with
    | gnbUeContextSetup c => trivial
    | smfSessionEstablishment q => trivial
    | _ => exact hcalls.elim
  · exact calls_services (by simp [Request.target])

def GnbTask (db : Udm.SubscriberDb) (tr : CoreTrace) (i : Nat) : Request → Reply → CoreLog → Prop
  | .amfRegistration (some u), b, _ => ∃ j, Took tr i (.amfRegistration (some u)) j ∧
      Explained db tr j (.amfRegistration (some u)) b
  | .gnbRegistration (some u), b, log => (∃ j, Took tr i (.amfRegistration (some u)) j ∧
      Explained db tr j (.amfRegistration (some u)) b) ∨
      (b = .html 500 ∧ RaisedIn log (.gnbRegistration (some u)))
  | .amfRegistration none, b, _ | .gnbRegistration none, b, _ => b = .html 500
  | .gnbSecurityComplete u, b, log => ReplyUnless (RaisedIn log (.gnbSecurityComplete u))
      (.json 200 [("status","success")]) b
  | _, _, _ => True

theorem gnbRegistration_explained (hn : (wholeCore dig db).Run (startWorld host) tr n)
    {u : Option String} {b : Reply}
    (ht : n.tasks[i]? = some ⟨.gnbRegistration u,.finished (.ok b)⟩) :
    Explained db tr i (.gnbRegistration u) b := by
  have hpost := ownReplies_replied (GnbTask db tr i) hn ht rfl ?_ ?_ ?_
  · cases u with
    | none => exact hpost
    | some u =>
      exact hpost.imp_right (fun ⟨hb,hr⟩ => ⟨hb,raised_of_raisedIn hn hr⟩)
  · intro m _
    apply gnbRegistration_meets u rfl
    · exact ⟨⟨trivial,trivial,trivial⟩,rfl⟩
    · intro status body w' _ hp
      cases u with
      | none => exact nomatch (show Reply.json status body = .html 500 from hp)
      | some u =>
        obtain ⟨j,htook,hj⟩ := hp
        rcases hj with ⟨hu,hb⟩ | ⟨hb,_⟩
        · obtain ⟨-,rfl⟩ := Reply.json.inj hb
          exact ownReplies_closes (.inl ⟨j,htook,.inl ⟨hu,rfl⟩⟩)
        · exact nomatch hb
    · intro o w' _ ha hne
      cases u with
      | none => exact ownReplies_closes rfl
      | some u =>
        cases o with
        | error e => exact ownReplies_closes (.inr ⟨rfl,raisedIn_now _ _ _ _ _⟩)
        | ok b =>
          obtain ⟨j,htook,hj⟩ := ha
          rcases hj with ⟨_,rfl⟩ | ⟨rfl,hr⟩
          · exact absurd rfl (hne _ _)
          · exact ownReplies_closes (.inl ⟨j,htook,.inr ⟨rfl,hr⟩⟩)
  · intro r b j tr' m log hcalls htook hrun hsub hj
    cases r with
    | amfRegistration q =>
      obtain rfl : q = u := hcalls
      cases q with
      | none => exact possible_reply hrun hj
      | some u =>
        exact ⟨j,htook,RegistrationEnds.imp (registration_explained hrun hj)
          (fun h => h.mono hsub) (fun h => h.mono hsub)⟩
    | _ => exact hcalls.elim
  · exact calls_services (by simp [Request.target])

theorem gnbCompletion_explained (hn : (wholeCore dig db).Run (startWorld host) tr n)
    {u : Option String} {b : Reply}
    (ht : n.tasks[i]? = some ⟨.gnbSecurityComplete u,.finished (.ok b)⟩) :
    Explained db tr i (.gnbSecurityComplete u) b := by
  have hpost := ownReplies_replied (GnbTask db tr i) hn ht rfl ?_ ?_ ?_
  · exact ReplyUnless.imp hpost (raised_of_raisedIn hn)
  · intro m _
    apply gnbSecurityComplete_meets u rfl
    · exact ⟨⟨trivial,trivial,trivial⟩,rfl⟩
    · intro b w' _
      exact ownReplies_closes (.inl rfl)
    · intro e w' _
      exact ownReplies_closes (.inr ⟨rfl,raisedIn_now _ _ _ _ _⟩)
  · intro r b j tr' m log hcalls _ _ _ _
    cases r with
    | amfSecurityComplete q => trivial
    | _ => exact hcalls.elim
  · exact calls_services (by simp [Request.target])

end Tasks

/-- Whatever overlaps and fails, every request that has ended has a reply, and no client is
told anything that the run does not explain by what its own tasks did: a registration is told
that authentication has begun if and only if the UE is a subscriber, unless a post of this
registration's own tasks raised; the gNB reports a completion as a success unless its own post
raised; the AMF reports one as failed only when a post of this completion raised or nobody had
been authenticated before it started. -/
theorem replies_explained (dig : Digests) (db : Udm.SubscriberDb) (host : Host)
    {tr : CoreTrace} {n : CoreNet} (hn : (wholeCore dig db).Run (startWorld host) tr n) {i : Nat}
    {t : Task Core Request Reply PyError} (ht : n.tasks[i]? = some t) {o : Except PyError Reply}
    (ho : t.phase = .finished o) : ∃ b, o = .ok b ∧ Explained db tr i t.req b := by
  have hlinked := hn.reachable.linked (wholeCore_reliable dig db) i t ht
  rw [Task.Linked,ho] at hlinked
  obtain ⟨b,rfl⟩ := hlinked
  obtain ⟨req,phase⟩ := t
  obtain rfl : phase = .finished (.ok b) := ho
  refine ⟨b,rfl,?_⟩
  cases req with
  | udmAuthData u => cases u <;> exact possible_reply hn ht
  | ausfAuthenticate u net =>
    cases u with
    | none => trivial
    | some u => exact ausf_explained hn ht
  | amfRegistration u =>
    cases u with
    | none => exact possible_reply hn ht
    | some u => exact registration_explained hn ht
  | amfSecurityComplete u =>
    cases u with
    | none => exact possible_reply hn ht
    | some u => exact completion_explained hn ht
  | gnbRegistration u => exact gnbRegistration_explained hn ht
  | gnbSecurityComplete u => exact gnbCompletion_explained hn ht
  | _ => trivial

def replied (n : CoreNet) (i : Nat) (r : Request) (b : Reply) : Bool :=
  match n.tasks[i]? with
  | some ⟨req,.finished o⟩ => decide (req = r ∧ o = .ok b)
  | _ => false

theorem task_of_replied {n : CoreNet} {i : Nat} {r : Request} {b : Reply}
    (h : replied n i r b = true) : n.tasks[i]? = some ⟨r,.finished (.ok b)⟩ := by
  unfold replied at h
  split at h
  · rename_i req o ht
    obtain ⟨rfl,rfl⟩ := of_decide_eq_true h
    exact ht
  · simp at h

theorem replies_explained_lost :
    ∃ tr n, (wholeCore sampleDigests Udm.subscriberDb).Run (startWorld freshHost) tr n ∧
      n.tasks[4]? = some ⟨.gnbRegistration (some "imsi-001010000000001"),.finished (.ok (.html 500))⟩ ∧
      ∃ b, (.ok (.html 500) : Except PyError Reply) = .ok b ∧
        Explained Udm.subscriberDb tr 4 (.gnbRegistration (some "imsi-001010000000001")) b := by
  obtain ⟨n,hn,hf⟩ := reachable_of_exec (wholeCore sampleDigests Udm.subscriberDb) anyStart freshHost
    (registers "imsi-001010000000001" 0 ++
      [.client (.gnbRegistration (some "imsi-001010000000001")),.start 4,.start 5,
       .fail 5 .connectionError,.reply 4])
    (fun n => replied n 4 (.gnbRegistration (some "imsi-001010000000001")) (.html 500))
    (by decide +kernel)
  have ht := task_of_replied hf
  obtain ⟨tr,htr⟩ := hn.run
  exact ⟨tr,n,htr,ht,replies_explained sampleDigests Udm.subscriberDb freshHost htr ht rfl⟩

/-- Nothing that a client was told gets lost: once a registration has a JSON reply, from the
AMF or through the gNB, AUSF and AMF hold the records of its UE at every later time, and once
the AMF has reported a completion, gNB and SMF do, whatever else runs or fails in between. -/
theorem acknowledged_records_kept (dig : Digests) (db : Udm.SubscriberDb) (host : Host)
    {tr : List (CoreNet × Action Request Reply PyError)} {m n : CoreNet}
    {a : Action Request Reply PyError} (hn : (wholeCore dig db).Run (startWorld host) tr n)
    (hm : (m,a) ∈ tr) {t : Task Core Request Reply PyError} (ht : t ∈ m.tasks) {status : Nat}
    {body : JsonObject} (ho : t.phase = .finished (.ok (.json status body))) (u : String) :
    (t.req = .amfRegistration (some u) ∨ t.req = .gnbRegistration (some u) →
      n.world.state.Registered db u) ∧
    (t.req = .amfSecurityComplete (some u) →
      n.world.state.SetUp u ∧ n.world.state.InSession u) := by
  have hV := storeContract_valid dig db
  have h₀ := core_initial_determined db host
  have hok := (hV.reachable_ok h₀ (hn.reachable_of_mem hm).1).tasks t ht
  rw [Task.Ok,ho] at hok
  have hc := Confirmed.mono (hok _ rfl) (hV.run_rely h₀ hn hm)
  refine ⟨?_,?_⟩
  · rintro (hreq | hreq) <;> rw [hreq] at hc <;> exact hc
  · intro hreq
    rw [hreq] at hc
    exact hc

theorem acknowledged_records_kept_lost :
    ∃ tr m n a t, (wholeCore sampleDigests Udm.subscriberDb).Run (startWorld freshHost) tr n ∧
      (m,a) ∈ tr ∧ t ∈ m.tasks ∧ t.req = .amfSecurityComplete (some "imsi-001010000000001") ∧
      t.phase = .finished (.ok (.json 200 [("status","registration_complete")])) ∧
      n.world.state.SetUp "imsi-001010000000001" ∧
      n.world.state.InSession "imsi-001010000000001" := by
  obtain ⟨m,hm,hf⟩ := reachable_of_exec (wholeCore sampleDigests Udm.subscriberDb) anyStart freshHost
    (registers "imsi-001010000000001" 0 ++
      [.client (.amfSecurityComplete (some "imsi-001010000000001")),.start 4,.start 5,.reply 4,
       .start 6,.answer 6 (.int 0),.answer 6 (.int 0),.answer 6 (.int 0),.fail 6 .connectionError,
       .reply 4,.client (.gnbRegistration none)])
    (fun m => replied m 4 (.amfSecurityComplete (some "imsi-001010000000001"))
        (.json 200 [("status","registration_complete")]) &&
      ((wholeCore sampleDigests Udm.subscriberDb).step m (.start 8)).isSome)
    (by decide +kernel)
  obtain ⟨hreplied,hstep⟩ := Bool.and_eq_true_iff.mp hf
  have ht := List.mem_of_getElem? (task_of_replied hreplied)
  obtain ⟨n,hstep⟩ := Option.isSome_iff_exists.mp hstep
  obtain ⟨tr,htr⟩ := hm.run
  have hlast : (m,Action.start 8) ∈ tr ++ [(m,Action.start 8)] := by simp
  exact ⟨_,m,n,_,_,htr.snoc hstep,hlast,ht,rfl,rfl,
    (acknowledged_records_kept sampleDigests Udm.subscriberDb freshHost (htr.snoc hstep) hlast ht
      rfl "imsi-001010000000001").2 rfl⟩

/-- No NAS Security Mode Command depends on its subscriber: in any two runs, of any two
subscriber databases, all of them carry one MAC. -/
theorem nas_command_same_for_all (dig : Digests) (db db' : Udm.SubscriberDb) (host host' : Host)
    {n n' : CoreNet} (hn : (wholeCore dig db).Reachable anyStart (startWorld host) n)
    (hn' : (wholeCore dig db').Reachable anyStart (startWorld host') n') {src src' : Request}
    {c c' : SecurityCommand} (hc : .posted src (.gnbSecurityCommand c) ∈ n.world.log)
    (hc' : .posted src' (.gnbSecurityCommand c') ∈ n'.world.log) :
    c.command = c'.command ∧ c.mac = c'.mac := by
  have hposted : ∀ {db : Udm.SubscriberDb} {host : Host} {n : CoreNet} {src : Request}
      {c : SecurityCommand}, (wholeCore dig db).Reachable anyStart (startWorld host) n →
      .posted src (.gnbSecurityCommand c) ∈ n.world.log → c = theNasCommand dig c.ueId := by
    intro db host n src c hn hc
    have hf := (replyContract_valid dig db).reachable_fitting (replyContract_initial dig db host)
      rfl hn
    obtain ⟨later,earlier,hlog⟩ := List.append_of_mem hc
    rw [hlog] at hf
    obtain ⟨_,hpre⟩ := hf.fits
    exact hpre
  rw [hposted hn hc,hposted hn' hc']
  exact ⟨rfl,rfl⟩

def otherSubscriber : Udm.SubscriberDb :=
  (∅ : Udm.SubscriberDb).set "imsi-001010000000002"
    ⟨"0xffeeddccbbaa99887766554433221100","0x63bfa50ee6523365ff14c1f45f88737d",0⟩

theorem nas_command_same_for_all_two :
    ∃ n n' src c src' c', (wholeCore sampleDigests Udm.subscriberDb).Reachable anyStart
        (startWorld freshHost) n ∧
      (wholeCore sampleDigests otherSubscriber).Reachable anyStart (startWorld freshHost) n' ∧
      .posted src (.gnbSecurityCommand c) ∈ n.world.log ∧
      .posted src' (.gnbSecurityCommand c') ∈ n'.world.log ∧ c.ueId ≠ c'.ueId ∧
      c.command = c'.command ∧ c.mac = c'.mac := by
  obtain ⟨n,hn,hf⟩ := reachable_of_exec (wholeCore sampleDigests Udm.subscriberDb) anyStart freshHost
    (registers "imsi-001010000000001" 0)
    (fun n => decide (Event.posted (.amfRegistration (some "imsi-001010000000001"))
      (.gnbSecurityCommand (theNasCommand sampleDigests "imsi-001010000000001")) ∈ n.world.log))
    (by decide +kernel)
  obtain ⟨n',hn',hf'⟩ := reachable_of_exec (wholeCore sampleDigests otherSubscriber) anyStart freshHost
    (registers "imsi-001010000000002" 0)
    (fun n => decide (Event.posted (.amfRegistration (some "imsi-001010000000002"))
      (.gnbSecurityCommand (theNasCommand sampleDigests "imsi-001010000000002")) ∈ n.world.log))
    (by decide +kernel)
  exact ⟨n,n',_,_,_,_,hn,hn',of_decide_eq_true hf,of_decide_eq_true hf',by decide,
    nas_command_same_for_all sampleDigests _ _ _ _ hn hn' (of_decide_eq_true hf)
      (of_decide_eq_true hf')⟩

end GrpKeySec
