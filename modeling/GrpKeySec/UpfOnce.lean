import GrpKeySec.CoreRules
import GrpKeySec.ServiceWork
set_option autoImplicit false

/-!
The UPF in runs of the whole core, where requests to /configure overlap. Each of its
commands is a request of its own, so other requests act between any two of them. The log
counts how often each command was run, and no command is run more often than the one
before it has ended.
-/

namespace GrpKeySec
open Handler Service

def runs (command : Command) (_ r : Request) : Bool := decide (r = .subprocessRun command)

def asked (command : Command) (log : List (Event Request Reply PyError)) : Nat :=
  log.countP (Event.posts (runs command))

def ended (command : Command) (log : List (Event Request Reply PyError)) : Nat :=
  log.countP (Event.answers (runs command))

def Event.configured : Event Request Reply PyError → Bool
  | .returned (.upfConfigure _) (.ok (.json status _)) => decide (status = 200)
  | _ => false

section Counts

variable (command : Command) (src r : Request) (o : Except PyError Reply)
  (log : List (Event Request Reply PyError))

@[simp] theorem asked_posted : asked command (.posted src r :: log) =
    asked command log + if r = .subprocessRun command then 1 else 0 := by
  simp [asked,List.countP_cons,Event.posts,runs]

@[simp] theorem asked_answered : asked command (.answered src r o :: log) = asked command log := by
  simp [asked,Event.posts]

@[simp] theorem asked_returned : asked command (.returned src o :: log) = asked command log := by
  simp [asked,Event.posts]

@[simp] theorem ended_posted : ended command (.posted src r :: log) = ended command log := by
  simp [ended,Event.answers]

@[simp] theorem ended_answered : ended command (.answered src r o :: log) =
    ended command log + if r = .subprocessRun command then 1 else 0 := by
  simp [ended,List.countP_cons,Event.answers,runs]

@[simp] theorem ended_returned : ended command (.returned src o :: log) = ended command log := by
  simp [ended,Event.answers]

end Counts

/-- From the start on `host`. As long as there is no gtp0 no address was set, and each
further command follows an end of the one before. -/
structure UpfLedger (host : Host) (w : CoreWorld) : Prop where
  address : asked .ipAddrAddGtp0 w.log + (!w.state.upf.gtp0).toNat ≤ (!host.gtp0).toNat
  linkUp : asked .ipLinkSetGtp0Up w.log ≤ ended .ipAddrAddGtp0 w.log
  masquerade : asked .iptablesMasquerade w.log ≤ ended .ipLinkSetGtp0Up w.log
  success : w.log.countP Event.configured ≤ ended .iptablesMasquerade w.log
  rules : w.state.upf.natRules.length ≤ host.natRules.length + ended .iptablesMasquerade w.log

namespace UpfLedger

variable {host : Host} {w : CoreWorld}

theorem congr (h : UpfLedger host w) {s : Core} (hs : s.upf = w.state.upf) :
    UpfLedger host ⟨s,w.log⟩ where
  address := by rw [hs]; exact h.address
  linkUp := h.linkUp
  masquerade := h.masquerade
  success := h.success
  rules := by rw [hs]; exact h.rules

theorem posted (h : UpfLedger host w) (src : Request) {r : Request}
    (hr : ∀ command, r ≠ .subprocessRun command) : UpfLedger host (w.record (.posted src r)) where
  address := by simpa [hr] using h.address
  linkUp := by simpa [hr] using h.linkUp
  masquerade := by simpa [hr] using h.masquerade
  success := by simpa [Event.configured] using h.success
  rules := by simpa using h.rules

theorem answered (h : UpfLedger host w) (src r : Request) (o : Except PyError Reply) :
    UpfLedger host (w.record (.answered src r o)) where
  address := by simpa using h.address
  linkUp := by simpa using Nat.le_add_right_of_le h.linkUp
  masquerade := by simpa using Nat.le_add_right_of_le h.masquerade
  success := by simpa [Event.configured] using Nat.le_add_right_of_le h.success
  rules := by simpa [Nat.add_assoc] using Nat.le_add_right_of_le h.rules

theorem returned (h : UpfLedger host w) {src : Request} {o : Except PyError Reply}
    (ho : (Event.returned src o).configured = false) :
    UpfLedger host (w.record (.returned src o)) where
  address := by simpa using h.address
  linkUp := by simpa using h.linkUp
  masquerade := by simpa using h.masquerade
  success := by simpa [ho] using h.success
  rules := by simpa using h.rules

theorem next (h : UpfLedger host w) {command command' : Command} {host' : Host}
    (hnext : (command,command') ∈
      [(Command.modprobeGtp,Command.ipLinkAddGtp0),(.ipLinkAddGtp0,.ipAddrAddGtp0),
       (.ipAddrAddGtp0,.ipLinkSetGtp0Up),(.ipLinkSetGtp0Up,.iptablesMasquerade)])
    (hexec : Upf.execCommand w.state.upf command = some host') (src : Request)
    (o : Except PyError Reply) :
    UpfLedger host ⟨w.state.setUpf host',.posted src (.subprocessRun command') ::
      .answered src (.subprocessRun command) o :: w.log⟩ := by
  obtain ⟨haddress,hlink,hmasq,hsuccess,hrules⟩ := h
  simp only [List.mem_cons,Prod.mk.injEq,List.not_mem_nil,or_false] at hnext
  rcases hnext with ⟨rfl,rfl⟩ | ⟨rfl,rfl⟩ | ⟨rfl,rfl⟩ | ⟨rfl,rfl⟩
  · obtain rfl := Option.some.inj hexec
    constructor <;> simpa [Core.setUpf,Event.configured]
  · -- the one command that the host lets through once: it makes gtp0 and needs it missing
    simp only [Upf.execCommand] at hexec
    cases hgtp : w.state.upf.gtp0 with
    | true => simp [hgtp] at hexec
    | false =>
      simp only [hgtp,Bool.false_eq_true,if_false,Option.some.injEq] at hexec
      subst hexec
      rw [hgtp] at haddress
      constructor <;> simpa [Core.setUpf,Event.configured]
  · simp only [Upf.execCommand] at hexec
    split at hexec
    · split at hexec
      · exact nomatch hexec
      · obtain rfl := Option.some.inj hexec
        constructor <;> simpa [Core.setUpf,Event.configured]
    · exact nomatch hexec
  · simp only [Upf.execCommand] at hexec
    split at hexec
    · obtain rfl := Option.some.inj hexec
      constructor <;> simpa [Core.setUpf,Event.configured]
    · exact nomatch hexec

theorem masked (h : UpfLedger host w) {host' : Host}
    (hexec : Upf.execCommand w.state.upf .iptablesMasquerade = some host') (q : ConfigureRequest)
    (o : Except PyError Reply) (body : JsonObject) :
    UpfLedger host ⟨w.state.setUpf host',.returned (.upfConfigure q) (.ok (.json 200 body)) ::
      .answered (.upfConfigure q) (.subprocessRun .iptablesMasquerade) o :: w.log⟩ := by
  obtain ⟨haddress,hlink,hmasq,hsuccess,hrules⟩ := h
  obtain rfl := Option.some.inj hexec
  constructor <;> simp [Core.setUpf,Event.configured] <;> omega

/-- The last command was refused, which the UPF does not look at. -/
theorem unmasked (h : UpfLedger host w) (q : ConfigureRequest) (o : Except PyError Reply)
    (body : JsonObject) :
    UpfLedger host ⟨w.state,.returned (.upfConfigure q) (.ok (.json 200 body)) ::
      .answered (.upfConfigure q) (.subprocessRun .iptablesMasquerade) o :: w.log⟩ := by
  obtain ⟨haddress,hlink,hmasq,hsuccess,hrules⟩ := h
  constructor <;> simp [Event.configured] <;> omega

end UpfLedger

abbrev upfContract (host : Host) : CoreContract := .keeping (UpfLedger host)

section Handlers

variable {host : Host}

theorem configure_meets_ledger (q : ConfigureRequest) {w : CoreWorld} (hi : UpfLedger host w) :
    (onUpf (flask Upf.configure)).Meets (upfContract host) legal (.upfConfigure q) w w := by
  apply configure_meets q rfl
  · refine ⟨Contract.keeping_ends ?_,trivial⟩
    obtain ⟨haddress,hlink,hmasq,hsuccess,hrules⟩ := hi
    constructor <;> simpa [Event.configured]
  · intro command command' b w' host' hnext hi' he
    exact ⟨Contract.keeping_ends (hi'.next hnext (Upf.effect_eq_some he) _ _),trivial⟩
  · intro command b w' hi' _
    exact ⟨Contract.keeping_ends ((hi'.answered _ _ _).returned rfl),fun _ _ => trivial⟩
  · intro b body w' hi' _
    exact ⟨Contract.keeping_ends (hi'.unmasked q _ body),fun _ _ => trivial⟩
  · intro b body w' host' hi' he
    exact ⟨Contract.keeping_ends (hi'.masked (Upf.effect_eq_some he) q _ body),fun _ _ => trivial⟩

theorem Calls.ne_subprocessRun {src r : Request} (h : Calls src r)
    (hs : ∀ q, src ≠ .upfConfigure q) (command : Command) : r ≠ .subprocessRun command := by
  rintro rfl
  cases src with
  | upfConfigure q => exact hs q rfl
  | _ => exact h

theorem upfContract_frame {src : Request} (hs : ∀ q, src ≠ .upfConfigure q) :
    (upfContract host).Frame src (Writes src) (Calls src) (fun _ w => UpfLedger host w) := by
  refine Contract.keeping_frame (fun hw hm => hw.congr (hm.upf_eq hs)) ?_
  intro w e hw he
  cases e with
  | posted src' r => exact hw.posted src' (he.2.ne_subprocessRun hs)
  | answered src' r o => exact hw.answered src' r o
  | returned src' o =>
    obtain rfl : src' = src := he
    apply hw.returned
    cases src' with
    | upfConfigure q => exact absurd rfl (hs q)
    | _ => rfl

theorem upfContract_valid (dig : Digests) (db : Udm.SubscriberDb) :
    (upfContract host).Valid (wholeCore dig db) anyStart := by
  apply Contract.keeping_valid
  intro r h w hs hi
  have hr := (system_serve hs).2
  have hframe : (∀ q, r ≠ .upfConfigure q) → h.Meets (upfContract host) legal r w w := fun hne =>
    (route_footprint dig db hr).meets (upfContract_frame hne) hi
  cases r with
  | upfConfigure q =>
    obtain rfl := Option.some.inj hr
    exact configure_meets_ledger q hi
  | _ => exact hframe (fun _ h => nomatch h)

end Handlers

theorem ended_le_asked {dig : Digests} {db : Udm.SubscriberDb} {host : Host} {n : CoreNet}
    (hn : (wholeCore dig db).Reachable anyStart (startWorld host) n) (command : Command) :
    ended command n.world.log ≤ asked command n.world.log := by
  have h := hn.posts_eq (runs command) rfl
  simp only [ended,asked]
  omega

/-- However many sessions are set up at once and whichever commands fail, the UPF answers
/configure with success at most once, and never on a host that has a gtp0; it adds at most
that one NAT rule. -/
theorem upf_configured_at_most_once (dig : Digests) (db : Udm.SubscriberDb) (host : Host)
    {n : CoreNet} (hn : (wholeCore dig db).Reachable anyStart (startWorld host) n) :
    n.world.log.countP Event.configured ≤ (!host.gtp0).toNat ∧
      n.world.state.upf.natRules.length ≤ host.natRules.length + (!host.gtp0).toNat := by
  have h₀ : UpfLedger host (startWorld host) := by
    constructor <;> simp [startWorld,Core.initial,asked,ended]
  obtain ⟨haddress,hlink,hmasq,hsuccess,hrules⟩ : UpfLedger host n.world :=
    ((upfContract_valid dig db).reachable_ok h₀ hn).inv
  have haddr := ended_le_asked hn .ipAddrAddGtp0
  have hset := ended_le_asked hn .ipLinkSetGtp0Up
  have hnat := ended_le_asked hn .iptablesMasquerade
  omega

theorem upf_configured_at_most_once_two :
    ∃ n, (wholeCore sampleDigests Udm.subscriberDb).Reachable anyStart (startWorld freshHost) n ∧
      1 ≤ n.world.log.countP Event.configured ∧ n.world.log.countP Event.configured ≤ 1 ∧
      n.world.state.upf.natRules.length ≤ 1 := by
  obtain ⟨n,hn,hf⟩ := reachable_of_exec (wholeCore sampleDigests Udm.subscriberDb) anyStart freshHost
    (registers "imsi-001010000000001" 0 ++ completes "imsi-001010000000001" 4 5 77 ++
      completes "imsi-001010000000002" 8 2 101)
    (fun n => decide (1 ≤ n.world.log.countP Event.configured)) (by decide +kernel)
  have h := upf_configured_at_most_once sampleDigests Udm.subscriberDb freshHost hn
  exact ⟨n,hn,of_decide_eq_true hf,h⟩

end GrpKeySec
