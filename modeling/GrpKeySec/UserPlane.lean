import GrpKeySec.CoreServices
import GrpKeySec.Runs
set_option autoImplicit false

/-!
Runs of SMF.establish_session, one request after another, with the UPF they
configure. The UPF runs its own handler on a host that keeps what earlier
requests left behind; which command fails for reasons of its own, which post is
lost and what randint returns is chosen anew for each request.
-/

namespace GrpKeySec
open Handler Service Serial

structure Circumstances where
  exitStatus : Command → Nat
  systemStatus : String → Nat
  reachesUpf : Bool
  replyArrives : Bool
  draw : Nat
  draw_range : 10 ≤ draw ∧ draw ≤ 254

def Circumstances.smooth (n : Nat) (hn : 10 ≤ n ∧ n ≤ 254) : Circumstances :=
  ⟨fun _ => 0,fun _ => 0,true,true,n,hn⟩

structure SessionCall where
  request : SessionRequest
  circumstances : Circumstances

/-- `answered` holds the /configure requests the UPF has answered, newest first. -/
structure UserPlane where
  smf : Smf
  upf : Host
  answered : List (ConfigureRequest × Except PyError Reply)

theorem Smf.ueIp_inj {n m : Nat} : Smf.ueIp n = Smf.ueIp m ↔ n = m := append_repr_inj _

namespace UserPlane

def start (host : Host) : UserPlane := ⟨⟨∅⟩,host,[]⟩

def tools (exitStatus : Command → Nat) (_ : Unit) : Request → Unit × Except PyError Reply
  | .subprocessRun command => ((),.ok (.int (exitStatus command)))
  | _ => ((),.error .connectionError)

def upfAnswer (exitStatus : Command → Nat) (host : Host) : Except PyError Reply × Host × Unit :=
  (flask Upf.configure).run (tools exitStatus) host ()

/-- What the SMF's calls meet. A lost post raises in the SMF, whether the UPF
has acted on it or not. -/
def surroundings (c : Circumstances) (t : Host × List (ConfigureRequest × Except PyError Reply)) :
    Request → (Host × List (ConfigureRequest × Except PyError Reply)) × Except PyError Reply
  | .osSystem command => (t,.ok (.int (c.systemStatus command)))
  | .randint _ _ => (t,.ok (.int c.draw))
  | .upfConfigure r =>
      if c.reachesUpf then
        let answer := upfAnswer c.exitStatus t.1
        ((answer.2.1,(r,answer.1) :: t.2),
          if c.replyArrives then answer.1 else .error .connectionError)
      else (t,.error .connectionError)
  | _ => (t,.error .connectionError)

def serve (t : UserPlane) (call : SessionCall) : Except PyError JsonObject × UserPlane :=
  let out := (Smf.establishSession call.request).run (surroundings call.circumstances)
    t.smf (t.upf,t.answered)
  (out.1,⟨out.2.1,out.2.2.1,out.2.2.2⟩)

def success : Except PyError Reply → Bool
  | .ok (.json status _) => decide (status = 200)
  | _ => false

/-- No gtp0 yet, and none of the commands run with check=True fails by itself. -/
def FreeHost (exitStatus : Command → Nat) (host : Host) : Prop :=
  host.gtp0 = false ∧ exitStatus .modprobeGtp = 0 ∧ exitStatus .ipLinkAddGtp0 = 0 ∧
    exitStatus .ipAddrAddGtp0 = 0 ∧ exitStatus .ipLinkSetGtp0Up = 0

instance (exitStatus : Command → Nat) (host : Host) : Decidable (FreeHost exitStatus host) :=
  inferInstanceAs (Decidable (_ ∧ _))

def checked (exitStatus : Command → Nat) (host : Host) (command : Command) : Option Host :=
  if exitStatus command = 0 then Upf.execCommand host command else none

section Creation

variable {τ : Type} {env : τ → Request → τ × Except PyError Reply} {next : τ → Command → τ}
  {exitStatus : Command → Nat}

def RunsCommands (env : τ → Request → τ × Except PyError Reply) (next : τ → Command → τ)
    (exitStatus : Command → Nat) : Prop :=
  ∀ t command,env t (.subprocessRun command) = (next t command,.ok (.int (exitStatus command)))

theorem runChecked_bind {α : Type} (henv : RunsCommands env next exitStatus) (command : Command)
    (host : Host) (t : τ) (k : Unit → Service Host α) :
    (Upf.runChecked command >>= k).run env host t =
      match checked exitStatus host command with
      | some host' => (k ()).run env host' (next t command)
      | none => (.error .calledProcessError,host,next t command) := by
  simp only [Upf.runChecked,Upf.run,bind_assoc,run_request_bind,run_read_bind,henv t command,
    Reply.number,checked]
  cases hs : exitStatus command with
  | zero => cases hc : Upf.execCommand host command <;> simp [hc]
  | succ n => simp

/-- How create_gtp_interface ends, by the command that stops it: what it returns, the
host and the commands that were run. -/
inductive Creation (exitStatus : Command → Nat) (host : Host) : Bool → Host → List Command → Prop
  | noModule (hmod : exitStatus .modprobeGtp ≠ 0) :
      Creation exitStatus host false host [.modprobeGtp]
  | noInterface (hmod : exitStatus .modprobeGtp = 0)
      (hadd : exitStatus .ipLinkAddGtp0 ≠ 0 ∨ host.gtp0 = true) :
      Creation exitStatus host false { host with moduleLoaded := true }
        [.modprobeGtp,.ipLinkAddGtp0]
  | noAddress (hmod : exitStatus .modprobeGtp = 0) (hadd : exitStatus .ipLinkAddGtp0 = 0)
      (hnew : host.gtp0 = false) (haddr : exitStatus .ipAddrAddGtp0 ≠ 0) :
      Creation exitStatus host false
        { host with moduleLoaded := true, gtp0 := true, address_on_gtp0 := fun _ => rfl }
        [.modprobeGtp,.ipLinkAddGtp0,.ipAddrAddGtp0]
  | linkDown (hmod : exitStatus .modprobeGtp = 0) (hadd : exitStatus .ipLinkAddGtp0 = 0)
      (hnew : host.gtp0 = false) (haddr : exitStatus .ipAddrAddGtp0 = 0)
      (hup : exitStatus .ipLinkSetGtp0Up ≠ 0) :
      Creation exitStatus host false
        { host with moduleLoaded := true, gtp0 := true, addressSet := true,
                    address_on_gtp0 := fun _ => rfl }
        [.modprobeGtp,.ipLinkAddGtp0,.ipAddrAddGtp0,.ipLinkSetGtp0Up]
  | created (hfree : FreeHost exitStatus host) :
      Creation exitStatus host true ⟨true,true,true,true,host.natRules,fun _ => rfl⟩
        [.modprobeGtp,.ipLinkAddGtp0,.ipAddrAddGtp0,.ipLinkSetGtp0Up]

theorem createGtpInterface_run (henv : RunsCommands env next exitStatus) (host : Host) (t : τ) :
    ∃ ok host' commands,Creation exitStatus host ok host' commands ∧
      Upf.createGtpInterface.run env host t = (.ok ok,host',commands.foldl next t) := by
  unfold Upf.createGtpInterface
  simp only [run_tryCatch,runChecked_bind henv]
  -- the commands in their order, each with its exit status
  by_cases hmod : exitStatus .modprobeGtp = 0
  · by_cases hadd : exitStatus .ipLinkAddGtp0 = 0
    · cases hnew : host.gtp0 with
      | true =>
        refine ⟨_,_,_,.noInterface hmod (.inr hnew),?_⟩
        simp [checked,Upf.execCommand,hmod,hadd,hnew]
      | false =>
        have hunset : host.addressSet = false := by
          cases hset : host.addressSet with
          | true => simp [host.address_on_gtp0 hset] at hnew
          | false => rfl
        by_cases haddr : exitStatus .ipAddrAddGtp0 = 0
        · by_cases hup : exitStatus .ipLinkSetGtp0Up = 0
          · refine ⟨_,_,_,.created ⟨hnew,hmod,hadd,haddr,hup⟩,?_⟩
            simp [checked,Upf.execCommand,hmod,hadd,hnew,hunset,haddr,hup]
          · refine ⟨_,_,_,.linkDown hmod hadd hnew haddr hup,?_⟩
            simp [checked,Upf.execCommand,hmod,hadd,hnew,hunset,haddr,hup]
        · refine ⟨_,_,_,.noAddress hmod hadd hnew haddr,?_⟩
          simp [checked,Upf.execCommand,hmod,hadd,hnew,haddr]
    · refine ⟨_,_,_,.noInterface hmod (.inl hadd),?_⟩
      simp [checked,Upf.execCommand,hmod,hadd]
  · refine ⟨_,_,_,.noModule hmod,?_⟩
    simp [checked,hmod]

theorem Creation.free_iff {host host' : Host} {ok : Bool} {commands : List Command}
    (h : Creation exitStatus host ok host' commands) : ok = decide (FreeHost exitStatus host) := by
  cases h with
  | noModule hmod => simp [FreeHost,hmod]
  | noInterface hmod hadd =>
    obtain hadd | hthere := hadd
    · simp [FreeHost,hadd]
    · simp [FreeHost,hthere]
  | noAddress hmod hadd hnew haddr => simp [FreeHost,haddr]
  | linkDown hmod hadd hnew haddr hup => simp [FreeHost,hup]
  | created hfree => simp [hfree]

end Creation

theorem upfAnswer_ok (exitStatus : Command → Nat) (host : Host) :
    ∃ reply,(upfAnswer exitStatus host).1 = .ok reply ∧
      success (.ok reply) = decide (FreeHost exitStatus host) := by
  have htools : RunsCommands (tools exitStatus) (fun _ _ => ()) exitStatus := fun _ _ => rfl
  obtain ⟨ok,host',commands,hcreation,hrun⟩ := createGtpInterface_run htools host ()
  obtain rfl := hcreation.free_iff
  simp only [upfAnswer,flask,run_tryCatch,Upf.configure,run_bind,hrun]
  by_cases hfree : FreeHost exitStatus host
  · -- the exit status of iptables is not looked at
    simp only [hfree,decide_true,if_true,Upf.run,bind_assoc,run_request_bind,run_read_bind,tools,
      Reply.number,Upf.execCommand]
    cases exitStatus .iptablesMasquerade <;> exact ⟨_,rfl,rfl⟩
  · simp only [hfree,decide_false]
    exact ⟨_,rfl,rfl⟩

def stored (smf : Smf) (ueId kGnb : String) : Smf :=
  { smf with sessions := smf.sessions.set ueId ⟨Smf.deriveKey kGnb "UP_ENC","active"⟩ }

def established (n : Nat) : JsonObject :=
  [("status","session_established"),("ue_ip",Smf.ueIp n),("dns","8.8.8.8")]

inductive Outcome (t : UserPlane) (call : SessionCall) : Except PyError JsonObject × UserPlane → Prop
  | malformed (e : PyError) (h : call.request.ueId = none ∨ call.request.kGnb = none) :
      Outcome t call (.error e,t)
  | unreached (u k : String) (hu : call.request.ueId = some u) (hk : call.request.kGnb = some k)
      (h : call.circumstances.reachesUpf = false) :
      Outcome t call (.error .connectionError,⟨stored t.smf u k,t.upf,t.answered⟩)
  | answered (u k : String) (hu : call.request.ueId = some u) (hk : call.request.kGnb = some k)
      (h : call.circumstances.reachesUpf = true) (host : Host) (reply : Reply)
      (hreply : success (.ok reply) =
        decide (FreeHost call.circumstances.exitStatus t.upf)) :
      Outcome t call
        (if call.circumstances.replyArrives then .ok (established call.circumstances.draw)
          else .error .connectionError,
        ⟨stored t.smf u k,host,(⟨u,Smf.deriveKey k "UP_ENC"⟩,.ok reply) :: t.answered⟩)

theorem serve_outcome (t : UserPlane) (call : SessionCall) : Outcome t call (serve t call) := by
  obtain ⟨⟨ueId,kGnb⟩,c⟩ := call
  simp only [serve,Smf.establishSession,run_request_bind,surroundings]
  cases ueId with
  | none => exact .malformed _ (.inl rfl)
  | some u =>
    cases kGnb with
    | none => exact .malformed _ (.inr rfl)
    | some k =>
      simp only [field,run_ofExcept_bind,run_assign_bind,run_request_bind,surroundings]
      cases hreach : c.reachesUpf with
      | false => exact .unreached u k rfl rfl hreach
      | true =>
        obtain ⟨reply,hok,hsuccess⟩ := upfAnswer_ok c.exitStatus t.upf
        have hout := @Outcome.answered t ⟨⟨some u,some k⟩,c⟩ u k rfl rfl hreach
          (upfAnswer c.exitStatus t.upf).2.1 reply hsuccess
        cases harrive : c.replyArrives with
        | false => simpa [hok,harrive,stored] using hout
        | true => simpa [hok,harrive,stored,established,Reply.number] using hout

def HadSuccess (t : UserPlane) (u : String) : Prop :=
  ∃ p ∈ t.answered,p.1.ueId = u ∧ success p.2 = true

def ActiveConfigured (t : UserPlane) : Prop :=
  ∀ u session,t.smf.sessions.get? u = some session → session.status = "active" → HadSuccess t u

/-- What a call must leave behind: every active session has had its /configure
answered with success, and the call itself reports an established session only
when the UPF has just answered its own request so. -/
def Configured (t : UserPlane) (call : SessionCall) : Prop :=
  ActiveConfigured (serve t call).2 ∧
  ∀ body,(serve t call).1 = .ok body → body.lookup "status" = some "session_established" →
    ∃ p,(serve t call).2.answered = p :: t.answered ∧ call.request.ueId = some p.1.ueId ∧
      success p.2 = true

/-- A call that cannot go wrong: it lacks a field, or it reaches the UPF on a free
host, or its post raises for a UE that has had its success before. -/
def Harmless (t : UserPlane) (call : SessionCall) : Prop :=
  call.request.ueId = none ∨ call.request.kGnb = none ∨
  (call.circumstances.reachesUpf = true ∧ FreeHost call.circumstances.exitStatus t.upf) ∨
  ((call.circumstances.reachesUpf && call.circumstances.replyArrives) = false ∧
    ∃ u,call.request.ueId = some u ∧ HadSuccess t u)

theorem hadSuccess_cons {t : UserPlane} {u v : String} {smf : Smf} {host : Host}
    {p : ConfigureRequest × Except PyError Reply} (hp : p.1.ueId = v) :
    HadSuccess ⟨smf,host,p :: t.answered⟩ u ↔ (v = u ∧ success p.2 = true) ∨ HadSuccess t u := by
  simp [HadSuccess,hp]

theorem activeConfigured_stored {t : UserPlane} (ht : ActiveConfigured t) (u k : String)
    (host : Host) (answers : List (ConfigureRequest × Except PyError Reply))
    (hmore : ∀ v,HadSuccess t v → HadSuccess ⟨stored t.smf u k,host,answers⟩ v) :
    ActiveConfigured ⟨stored t.smf u k,host,answers⟩ ↔
      HadSuccess ⟨stored t.smf u k,host,answers⟩ u := by
  constructor
  · intro h
    exact h u _ (Dict.get?_set_self _ _ _) rfl
  · intro h v session hv hactive
    by_cases hvu : v = u
    · rw [hvu]; exact h
    · simp only [stored] at hv
      rw [Dict.get?_set_ne _ _ hvu] at hv
      exact hmore v (ht v session hv hactive)

theorem configured_iff {t : UserPlane} (ht : ActiveConfigured t) (call : SessionCall) :
    Configured t call ↔ Harmless t call := by
  have hout := serve_outcome t call
  unfold Configured Harmless
  generalize serve t call = out at hout ⊢
  cases hout with
  | malformed e h =>
    constructor
    · intro _
      rcases h with h | h
      · exact .inl h
      · exact .inr (.inl h)
    · intro _
      exact ⟨ht,fun _ hbody => nomatch hbody⟩
  | unreached u k hu hk h =>
    have hactive := activeConfigured_stored ht u k t.upf t.answered (fun _ hv => hv)
    have hsame : HadSuccess ⟨stored t.smf u k,t.upf,t.answered⟩ u ↔ HadSuccess t u := Iff.rfl
    simp [hactive,hsame,hu,hk,h]
  | answered u k hu hk h host reply hreply =>
    have hactive := activeConfigured_stored ht u k host
      ((⟨u,Smf.deriveKey k "UP_ENC"⟩,.ok reply) :: t.answered)
      (fun _ hv => (hadSuccess_cons rfl).mpr (.inr hv))
    rw [hactive,hadSuccess_cons rfl]
    by_cases hfree : FreeHost call.circumstances.exitStatus t.upf
    · simp [hu,hk,h,hfree,hreply]
    · cases harrive : call.circumstances.replyArrives with
      | false => simp [hu,hk,h,hfree,hreply]
      | true =>
        -- the call reports success although the UPF has refused
        simp [hu,hk,h,hfree,hreply,established]

/-- The runs of establish_session whose active sessions are all configured are
those in which every call is harmless. -/
theorem active_sessions_configured_iff (host : Host) (calls : List SessionCall) :
    EveryCall serve Configured (start host) calls ↔
      EveryCall serve Harmless (start host) calls := by
  refine everyCall_congr serve (I := ActiveConfigured) (fun t call ht => configured_iff ht call)
    (fun t call ht h => ((configured_iff ht call).mpr h).1) ?_ calls
  intro u session hu
  exact nomatch hu

def twoSessions (n : Nat) (hn : 10 ≤ n ∧ n ≤ 254) : List SessionCall :=
  [⟨⟨some "ue-1",some "K_gNB_derived_from_K_AMF_deri"⟩,.smooth n hn⟩,
   ⟨⟨some "ue-2",some "K_gNB_derived_from_K_AMF_deri"⟩,.smooth 20 (by decide)⟩]

theorem second_session_not_configured :
    ¬ ∀ (host : Host) (calls : List SessionCall),host.gtp0 = false →
      EveryCall serve Configured (start host) calls := by
  intro h
  obtain ⟨_,hsecond,_⟩ := h freshHost (twoSessions 10 (by decide)) rfl
  have hsuccess := hsecond.1 "ue-2" ⟨"UP_ENC_derived_from_K_gNB_deri","active"⟩
    (by decide +kernel) rfl
  unfold HadSuccess at hsuccess
  exact absurd hsuccess (by decide +kernel)

/-- Some call of the run for `u` returned the address `ip`, with randint giving `n`. -/
def HandedOut (host : Host) (calls : List SessionCall) (u ip : String) (n : Nat) : Prop :=
  ∃ before call later body,calls = before ++ call :: later ∧ call.request.ueId = some u ∧
    call.circumstances.draw = n ∧ (serve (after serve (start host) before) call).1 = .ok body ∧
    body.lookup "ue_ip" = some ip

def Active (t : UserPlane) (u : String) : Prop :=
  ∃ session,t.smf.sessions.get? u = some session ∧ session.status = "active"

theorem active_stored (smf : Smf) (u k : String) (host : Host)
    (answers : List (ConfigureRequest × Except PyError Reply)) {v : String}
    (hv : v = u ∨ ∃ session,smf.sessions.get? v = some session ∧ session.status = "active") :
    Active ⟨stored smf u k,host,answers⟩ v := by
  by_cases hvu : v = u
  · exact ⟨_,by rw [hvu]; exact Dict.get?_set_self _ _ _,rfl⟩
  · obtain ⟨session,hget,hactive⟩ := hv.resolve_left hvu
    exact ⟨session,by simpa [stored,Dict.get?_set_ne _ _ hvu] using hget,hactive⟩

theorem serve_active {u : String} (t : UserPlane) (call : SessionCall) (h : Active t u) :
    Active (serve t call).2 u := by
  have hout := serve_outcome t call
  generalize serve t call = out at hout ⊢
  cases hout with
  | malformed e _ => exact h
  | unreached v k => exact active_stored _ _ _ _ _ (.inr h)
  | answered v k => exact active_stored _ _ _ _ _ (.inr h)

theorem serve_ok {t : UserPlane} {call : SessionCall} {body : JsonObject} {u : String}
    (hu : call.request.ueId = some u) (h : (serve t call).1 = .ok body) :
    body = established call.circumstances.draw ∧ Active (serve t call).2 u := by
  have hout := serve_outcome t call
  generalize serve t call = out at hout h ⊢
  cases hout with
  | malformed e _ => exact nomatch h
  | unreached v k => exact nomatch h
  | answered v k hv =>
    obtain rfl := Option.some.inj (hv.symm.trans hu)
    refine ⟨?_,active_stored _ _ _ _ _ (.inl rfl)⟩
    cases harrive : call.circumstances.replyArrives with
    | false => simp [harrive] at h
    | true =>
      simp only [harrive,if_true] at h
      exact (Except.ok.inj h).symm

theorem handedOut_spec {host : Host} {calls : List SessionCall} {u ip : String} {n : Nat}
    (h : HandedOut host calls u ip n) :
    ip = Smf.ueIp n ∧ 10 ≤ n ∧ n ≤ 254 ∧ Active (after serve (start host) calls) u := by
  obtain ⟨before,call,later,body,rfl,hu,rfl,hok,hip⟩ := h
  obtain ⟨rfl,hactive⟩ := serve_ok hu hok
  refine ⟨?_,call.circumstances.draw_range.1,call.circumstances.draw_range.2,?_⟩
  · have hget : some (Smf.ueIp call.circumstances.draw) = some ip := hip
    exact (Option.some.inj hget).symm
  · rw [after_append,after_cons]
    exact after_inv serve (fun t c ht => serve_active t c ht) hactive later

/-- Two UEs that were given addresses are both active at the end, and their
addresses differ exactly where the draws of randint did. -/
theorem addresses_differ_iff (host : Host) (calls : List SessionCall) {u v a b : String}
    {n m : Nat} (hu : HandedOut host calls u a n) (hv : HandedOut host calls v b m) :
    Active (after serve (start host) calls) u ∧ Active (after serve (start host) calls) v ∧
    (10 ≤ n ∧ n ≤ 254) ∧ (10 ≤ m ∧ m ≤ 254) ∧ (a ≠ b ↔ n ≠ m) := by
  obtain ⟨rfl,hn,hn',hactive⟩ := handedOut_spec hu
  obtain ⟨rfl,hm,hm',hactive'⟩ := handedOut_spec hv
  exact ⟨hactive,hactive',⟨hn,hn'⟩,⟨hm,hm'⟩,Smf.ueIp_inj.not⟩

theorem handedOut_smooth (host : Host) (before later : List SessionCall) (u k : String) {n : Nat}
    (hn : 10 ≤ n ∧ n ≤ 254) :
    HandedOut host (before ++ ⟨⟨some u,some k⟩,.smooth n hn⟩ :: later) u (Smf.ueIp n) n := by
  refine ⟨before,_,later,established n,rfl,rfl,rfl,?_,rfl⟩
  have hout := serve_outcome (after serve (start host) before) ⟨⟨some u,some k⟩,.smooth n hn⟩
  generalize serve _ _ = out at hout ⊢
  cases hout with
  | malformed e h => simp at h
  | unreached v k' _ _ h => exact nomatch h
  | answered => rfl

theorem twoSessions_first (n : Nat) (hn : 10 ≤ n ∧ n ≤ 254) :
    HandedOut freshHost (twoSessions n hn) "ue-1" (Smf.ueIp n) n :=
  handedOut_smooth freshHost [] _ _ _ hn

theorem twoSessions_second (n : Nat) (hn : 10 ≤ n ∧ n ≤ 254) :
    HandedOut freshHost (twoSessions n hn) "ue-2" (Smf.ueIp 20) 20 :=
  handedOut_smooth freshHost [_] [] _ _ _

theorem addresses_differ_two :
    Active (after serve (start freshHost) (twoSessions 10 (by decide))) "ue-1" ∧
    Active (after serve (start freshHost) (twoSessions 10 (by decide))) "ue-2" ∧
    "10.10.0.10" ≠ "10.10.0.20" := by
  obtain ⟨hfirst,hsecond,_,_,hdiffer⟩ := addresses_differ_iff freshHost _
    (twoSessions_first 10 (by decide)) (twoSessions_second 10 (by decide))
  exact ⟨hfirst,hsecond,hdiffer.mpr (by decide)⟩

theorem addresses_collide :
    ¬ ∀ (host : Host) (calls : List SessionCall) (u v a b : String) (n m : Nat),u ≠ v →
      HandedOut host calls u a n → HandedOut host calls v b m →
      Active (after serve (start host) calls) u → Active (after serve (start host) calls) v →
      a ≠ b := by
  intro h
  have hfirst := twoSessions_first 20 (by decide)
  have hsecond := twoSessions_second 20 (by decide)
  obtain ⟨_,_,_,hactive⟩ := handedOut_spec hfirst
  obtain ⟨_,_,_,hactive'⟩ := handedOut_spec hsecond
  exact h _ _ _ _ _ _ _ _ (by decide) hfirst hsecond hactive hactive' rfl

end UserPlane
end GrpKeySec
