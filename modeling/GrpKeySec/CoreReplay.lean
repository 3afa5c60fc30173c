import GrpKeySec.CoreRules
import GrpKeySec.ServiceHistory
set_option autoImplicit false

/-!
The state of the services as the messages tell it. Each entry of the log says by itself what
the service behind it has stored by then, so whoever has the log of a run, and nothing else,
has the state.
-/

namespace GrpKeySec
open Handler Service

def Core.learn (c : Core) (u : String) (context : JsonObject) : Core :=
  match context.lookup "k_ausf" with
  | some kAusf => (c.storeContext u context).storeKAmf kAusf
  | none => c.storeContext u context

def Core.setUp (c : Core) (context : UeContext) : Core :=
  match context.ueId, context.kGnb with
  | none, _ => c
  | some u, none => c.storeGnbContext u context
  | some u, some k => (c.storeGnbContext u context).storeKGnb k

def Core.commanded (c : Core) (command : Command) (b : Reply) : Core :=
  match Upf.effect c.upf command b with
  | some host => c.setUpf host
  | none => c

def Event.apply : Event Request Reply PyError → Core → Core
  | .answered (.ausfAuthenticate (some u) _) (.udmAuthData _) (.ok (.json _ authVector)), c =>
      { c with ausf := ⟨c.ausf.authenticationVectors.set u authVector⟩ }
  | .answered (.amfRegistration (some u)) (.ausfAuthenticate _ _) (.ok (.json _ context)), c =>
      c.learn u context
  | .returned (.gnbUeContextSetup context) _, c => c.setUp context
  | .posted (.smfSessionEstablishment _) (.upfConfigure q), c =>
      c.storeSession q.ueId ⟨q.kUpEnc,"active"⟩
  | .answered (.upfConfigure _) (.subprocessRun command) (.ok b), c => c.commanded command b
  | _, c => c

/-- Nothing is stored of an answer without JSON; only the system has others. -/
theorem Event.apply_unanswered {src r : Request} {o : Except PyError Reply} (hr : r.target ≠ .os)
    (ho : ∀ status body, o ≠ .ok (.json status body)) (c : Core) :
    (Event.answered src r o).apply c = c := by
  generalize he : Event.answered src r o = e
  unfold Event.apply
  split
  · obtain ⟨-,-,rfl⟩ := Event.answered.inj he
    exact absurd rfl (ho _ _)
  · obtain ⟨-,-,rfl⟩ := Event.answered.inj he
    exact absurd rfl (ho _ _)
  · exact nomatch he
  · exact nomatch he
  · obtain ⟨-,rfl,-⟩ := Event.answered.inj he
    exact absurd rfl hr
  · rfl

def replay (host : Host) (log : List (Event Request Reply PyError)) : Core :=
  log.foldr Event.apply (Core.initial host)

abbrev replayContract (host : Host) : CoreContract := replaying Event.apply (Core.initial host)

section Handlers

variable {host : Host}

theorem authenticate_meets_replay (u net : String) {w : CoreWorld}
    (hi : (replayContract host).inv w) :
    (onAusf (flask (jsonify (Ausf.authenticate (some u))))).Meets (replayContract host) legal
      (.ausfAuthenticate (some u) net) w w := by
  apply authenticate_meets u net rfl
  · exact ⟨replaying_ends [_] hi rfl,trivial⟩
  · intro o w' hi' hne
    exact replaying_closes [_] hi' (Event.apply_unanswered (by simp [Request.target]) hne _).symm
  · intro status body w' hi' _
    exact replaying_closes [_] hi' rfl

theorem registration_meets_replay (dig : Digests) (u : String) {w : CoreWorld}
    (hi : (replayContract host).inv w) :
    (onAmf (flask (jsonify (Amf.handleRegistration dig (some u))))).Meets (replayContract host)
      legal (.amfRegistration (some u)) w w := by
  apply registration_meets dig u rfl rfl
  · exact ⟨replaying_ends [_] hi rfl,trivial⟩
  · intro o w' hi' hne
    exact replaying_closes [_] hi' (Event.apply_unanswered (by simp [Request.target]) hne _).symm
  · intro status body w' hi' _ hk
    refine replaying_closes [_] hi' ?_
    simp only [List.foldr,Event.apply,Core.learn,hk]
  · intro status body kAusf mac w' hi' _ hk
    refine ⟨replaying_ends [_,_] hi' ?_,trivial⟩
    simp only [List.foldr,Event.apply,Core.learn,hk]
  · intro c o b w' hi'
    exact replaying_closes [_] hi' rfl

theorem contextSetup_meets_replay (dig : Digests) (context : UeContext) {w : CoreWorld}
    (hi : (replayContract host).inv w) :
    (onGnb (flask (jsonify (Gnb.ueContextSetup dig context)))).Meets (replayContract host) legal
      (.gnbUeContextSetup context) w w := by
  apply contextSetup_meets dig context rfl
  · intro hu
    refine replaying_closes [] hi ?_
    simp only [List.foldr,Event.apply,Core.setUp,hu]
  · intro u hu hk
    refine replaying_closes [] hi ?_
    simp only [List.foldr,Event.apply,Core.setUp,hu,hk]
  · intro u k hu hk
    refine replaying_closes [] hi ?_
    simp only [List.foldr,Event.apply,Core.setUp,hu,hk]

theorem session_meets_replay (r : SessionRequest) {w : CoreWorld}
    (hi : (replayContract host).inv w) :
    (onSmf (flask (jsonify (Smf.establishSession r)))).Meets (replayContract host) legal
      (.smfSessionEstablishment r) w w := by
  apply session_meets r rfl (K := fun _ => True) (L := fun _ _ => True) trivial
  · exact fun _ _ => trivial
  · exact fun _ _ => trivial
  · intro command
    exact ⟨replaying_ends [_] hi rfl,trivial⟩
  · intro q q' o w' hq hi'
    refine ⟨replaying_ends [_,_] hi' ?_,trivial⟩
    cases q' with
    | upfConfigure q' => exact nomatch hq
    | _ => rfl
  · intro q o w' _ hi'
    exact replaying_closes [_] hi' rfl
  · intro u k q o w' _ _ hi' _
    exact ⟨replaying_ends [_,_] hi' rfl,trivial⟩
  · exact fun _ _ _ _ _ => trivial
  · intro u q o b w' _ hi' _
    exact replaying_closes [_] hi' rfl

theorem configure_meets_replay (q : ConfigureRequest) {w : CoreWorld}
    (hi : (replayContract host).inv w) :
    (onUpf (flask Upf.configure)).Meets (replayContract host) legal (.upfConfigure q) w w := by
  apply configure_meets q rfl
  · exact ⟨replaying_ends [_] hi rfl,trivial⟩
  · intro command command' b w' host' _ hi' he
    refine ⟨replaying_ends [_,_] hi' ?_,trivial⟩
    simp only [List.foldr,Event.apply,Core.commanded,he]
  · intro command b w' hi' he
    refine replaying_closes [_] hi' ?_
    simp only [List.foldr,Event.apply,Core.commanded,he]
  · intro b body w' hi' he
    refine replaying_closes [_] hi' ?_
    simp only [List.foldr,Event.apply,Core.commanded,he]
  · intro b body w' host' hi' he
    refine replaying_closes [_] hi' ?_
    simp only [List.foldr,Event.apply,Core.commanded,he]

theorem replayContract_valid (dig : Digests) (db : Udm.SubscriberDb) :
    (replayContract host).Valid (wholeCore dig db) anyStart := by
  apply Contract.keeping_valid
  intro r h w hs hi
  have hr := (system_serve hs).2
  have hframe : (∀ s s', Writes r s s' → s' = s) →
      (∀ e s, Event.By r (Calls r) e → e.apply s = s) →
      h.Meets (replayContract host) legal r w w :=
    fun hw he => (route_footprint dig db hr).meets (replaying_frame hw he) hi
  cases r with
  | ausfAuthenticate u net =>
    obtain rfl := Option.some.inj hr
    cases u with
    | none => exact replaying_closes [] hi rfl
    | some u => exact authenticate_meets_replay u net hi
  | amfRegistration u =>
    obtain rfl := Option.some.inj hr
    cases u with
    | none => exact replaying_closes [] hi rfl
    | some u => exact registration_meets_replay dig u hi
  | gnbUeContextSetup context =>
    obtain rfl := Option.some.inj hr
    exact contextSetup_meets_replay dig context hi
  | smfSessionEstablishment q =>
    obtain rfl := Option.some.inj hr
    exact session_meets_replay q hi
  | upfConfigure q =>
    obtain rfl := Option.some.inj hr
    exact configure_meets_replay q hi
  | _ =>
    refine hframe (fun _ _ h => h) ?_
    intro e s he
    cases e with
    | posted src r => obtain rfl := he.1; rfl
    | answered src r o => obtain rfl := he.1; rfl
    | returned src o => obtain rfl : src = _ := he; rfl

end Handlers

/-- Whatever overlaps and fails, the log alone tells the state: what AUSF, AMF, gNB and SMF
have stored, in this order, and what the UPF has made of its host, is what the messages of
the run say. -/
theorem state_replays_log (dig : Digests) (db : Udm.SubscriberDb) (host : Host) {n : CoreNet}
    (hn : (wholeCore dig db).Reachable anyStart (startWorld host) n) :
    n.world.state = replay host n.world.log :=
  ((replayContract_valid dig db).reachable_ok (show (replayContract host).inv (startWorld host)
    from rfl) hn).inv

theorem state_replays_log_two :
    ∃ n, (wholeCore sampleDigests Udm.subscriberDb).Reachable anyStart (startWorld freshHost) n ∧
      n.world.state = replay freshHost n.world.log ∧
      "imsi-001010000000001" ∈ (replay freshHost n.world.log).smf.sessions ∧
      "imsi-001010000000002" ∈ (replay freshHost n.world.log).smf.sessions ∧
      (replay freshHost n.world.log).upf.gtp0 = true := by
  obtain ⟨n,hn,hf⟩ := reachable_of_exec (wholeCore sampleDigests Udm.subscriberDb) anyStart freshHost
    (registers "imsi-001010000000001" 0 ++ completes "imsi-001010000000001" 4 5 77 ++
      completes "imsi-001010000000002" 8 2 101)
    (fun n => decide ("imsi-001010000000001" ∈ n.world.state.smf.sessions ∧
      "imsi-001010000000002" ∈ n.world.state.smf.sessions ∧ n.world.state.upf.gtp0 = true))
    (by decide +kernel)
  have hreplay := state_replays_log sampleDigests Udm.subscriberDb freshHost hn
  refine ⟨n,hn,hreplay,?_⟩
  rw [← hreplay]
  exact of_decide_eq_true hf

end GrpKeySec
