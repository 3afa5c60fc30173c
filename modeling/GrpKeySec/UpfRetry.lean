import GrpKeySec.UserPlane
set_option autoImplicit false

/-!
Runs of the UPF's /configure, one request after another on one host. Each request
comes with the exit statuses its commands would have by themselves; the commands
that were run are recorded.
-/

namespace GrpKeySec
open Handler Service Serial

def Host.interface (host : Host) : Bool × Bool × Bool × List String :=
  (host.gtp0,host.addressSet,host.linkUp,host.natRules)

namespace Upf
open UserPlane

def recorded (exitStatus : Command → Nat) (commands : List Command) :
    Request → List Command × Except PyError Reply
  | .subprocessRun command => (commands ++ [command],.ok (.int (exitStatus command)))
  | _ => (commands,.error .connectionError)

def serve (host : Host) (exitStatus : Command → Nat) : (Except PyError Reply × List Command) × Host :=
  let out := (flask configure).run (recorded exitStatus) host []
  ((out.1,out.2.2),out.2.1)

def creationFailed : Reply := .json 500 [("status","GTP interface creation failed")]

def upfConfigured : Reply :=
  .json 200 [("status","UPF configured"),("gtp_interface","gtp0"),("ue_gateway","10.10.0.2"),
    ("subnet","10.10.0.0/24")]

def masquerade (exitStatus : Command → Nat) : List String :=
  if exitStatus .iptablesMasquerade = 0 then ["POSTROUTING -o eth0 -j MASQUERADE"] else []

/-- How a request ends: refused as create_gtp_interface was, or with everything set up. -/
inductive Attempt (host : Host) (exitStatus : Command → Nat) :
    (Except PyError Reply × List Command) × Host → Prop
  | refused (host' : Host) (commands : List Command)
      (h : Creation exitStatus host false host' commands) :
      Attempt host exitStatus ((.ok creationFailed,commands),host')
  | configured (hfree : FreeHost exitStatus host) :
      Attempt host exitStatus
        ((.ok upfConfigured,[.modprobeGtp,.ipLinkAddGtp0,.ipAddrAddGtp0,.ipLinkSetGtp0Up,
            .iptablesMasquerade]),
          ⟨true,true,true,true,host.natRules ++ masquerade exitStatus,fun _ => rfl⟩)

theorem serve_of_refused {host host' : Host} {exitStatus : Command → Nat} {commands : List Command}
    (h : createGtpInterface.run (recorded exitStatus) host [] = (.ok false,host',commands)) :
    serve host exitStatus = ((.ok creationFailed,commands),host') := by
  simp only [serve,flask,configure,run_tryCatch,run_bind,h]
  rfl

theorem serve_of_created {host host' : Host} {exitStatus : Command → Nat} {commands : List Command}
    (h : createGtpInterface.run (recorded exitStatus) host [] = (.ok true,host',commands)) :
    serve host exitStatus = ((.ok upfConfigured,commands ++ [.iptablesMasquerade]),
      { host' with natRules := host'.natRules ++ masquerade exitStatus }) := by
  simp only [serve,flask,configure,run_tryCatch]
  rw [run_bind,h]
  simp only [if_true,run,bind_assoc,run_request_bind,run_read_bind,recorded,Reply.number,execCommand]
  cases hs : exitStatus .iptablesMasquerade with
  | zero => simp [masquerade,hs,upfConfigured]
  | succ n => simp [masquerade,hs,upfConfigured]

theorem serve_attempt (host : Host) (exitStatus : Command → Nat) :
    Attempt host exitStatus (serve host exitStatus) := by
  have hrecorded : RunsCommands (recorded exitStatus) (fun cs c => cs ++ [c]) exitStatus :=
    fun _ _ => rfl
  obtain ⟨ok,host',commands,hcreation,hrun⟩ := createGtpInterface_run hrecorded host []
  have hlog : commands.foldl (fun cs c => cs ++ [c]) [] = commands := by
    simp [← List.flatMap_def]
  rw [hlog] at hrun
  cases ok with
  | false =>
    rw [serve_of_refused hrun]
    exact .refused host' commands hcreation
  | true =>
    rw [serve_of_created hrun]
    cases hcreation with
    | created hfree => exact .configured hfree

def Undisturbed (host : Host) (exitStatus : Command → Nat) : Prop :=
  ∀ command ∈ (serve host exitStatus).1.2,exitStatus command = 0

/-- A refused request leaves gtp0, its address and the rules alone, and a request
that nothing disturbs succeeds. -/
def RetrySafe (host : Host) (exitStatus : Command → Nat) : Prop :=
  (success (serve host exitStatus).1.1 = false →
    (serve host exitStatus).2.gtp0 = host.gtp0 ∧
    (serve host exitStatus).2.addressSet = host.addressSet ∧
    (serve host exitStatus).2.natRules = host.natRules) ∧
  (Undisturbed host exitStatus → success (serve host exitStatus).1.1 = true)

/-- The request stops by itself before it could create gtp0, or it creates it and
neither the address nor the link fails. -/
def Orderly (host : Host) (exitStatus : Command → Nat) : Prop :=
  exitStatus .modprobeGtp ≠ 0 ∨ exitStatus .ipLinkAddGtp0 ≠ 0 ∨
    (host.gtp0 = false ∧ exitStatus .ipAddrAddGtp0 = 0 ∧ exitStatus .ipLinkSetGtp0Up = 0)

theorem retrySafe_iff (host : Host) (exitStatus : Command → Nat) :
    RetrySafe host exitStatus ↔ Orderly host exitStatus := by
  have hattempt := serve_attempt host exitStatus
  unfold RetrySafe Undisturbed Orderly
  generalize serve host exitStatus = out at hattempt ⊢
  cases hattempt with
  | refused host' commands hcreation =>
    cases hcreation with
    | noModule hmod => simp [hmod]
    | noInterface hmod hadd =>
      by_cases hstatus : exitStatus .ipLinkAddGtp0 = 0
      · -- gtp0 is there already: refused although nothing has failed by itself
        have hthere : host.gtp0 = true := hadd.resolve_left (fun h => h hstatus)
        simp [hmod,hstatus,hthere,success,creationFailed]
      · simp [hmod,hstatus]
    | noAddress hmod hadd hnew haddr => simp [hmod,hadd,hnew,haddr,success,creationFailed]
    | linkDown hmod hadd hnew haddr hup => simp [hmod,hadd,hnew,haddr,hup,success,creationFailed]
  | configured hfree =>
    obtain ⟨hnew,hmod,hadd,haddr,hup⟩ := hfree
    simp [hnew,haddr,hup,success,upfConfigured]

/-- An orderly request changes nothing but the module and was disturbed, or it has
made a host without gtp0 a configured one. -/
theorem orderly_cases {host : Host} {exitStatus : Command → Nat} (h : Orderly host exitStatus) :
    ((serve host exitStatus).2.interface = host.interface ∧ ¬ Undisturbed host exitStatus) ∨
    (host.gtp0 = false ∧
      (serve host exitStatus).2.interface =
        (true,true,true,host.natRules ++ masquerade exitStatus) ∧
      (Undisturbed host exitStatus → exitStatus .iptablesMasquerade = 0)) := by
  have hattempt := serve_attempt host exitStatus
  unfold Orderly at h
  unfold Undisturbed
  generalize serve host exitStatus = out at hattempt ⊢
  cases hattempt with
  | refused host' commands hcreation =>
    cases hcreation with
    | noModule hmod => exact .inl ⟨rfl,by simp [hmod]⟩
    | noInterface hmod hadd =>
      refine .inl ⟨rfl,?_⟩
      obtain hstatus | hthere := hadd
      · simp [hstatus]
      · have hstatus : exitStatus .ipLinkAddGtp0 ≠ 0 := by simpa [hmod,hthere] using h
        simp [hstatus]
    | noAddress hmod hadd hnew haddr => simp [hmod,hadd,haddr] at h
    | linkDown hmod hadd hnew haddr hup => simp [hmod,hadd,hup] at h
  | configured hfree => exact .inr ⟨hfree.1,rfl,fun hall => hall _ (by simp)⟩

theorem orderly_present {patterns : List (Command → Nat)} {host : Host}
    (h : EveryCall serve Orderly host patterns) (hthere : host.gtp0 = true) :
    (after serve host patterns).interface = host.interface ∧
      ¬ SomeCall serve Undisturbed host patterns := by
  induction patterns generalizing host with
  | nil => exact ⟨rfl,fun hsome => hsome⟩
  | cons exitStatus rest ih =>
    obtain ⟨hsame,hdisturbed⟩ | ⟨hnew,_⟩ := orderly_cases h.1
    · have hthere' : (serve host exitStatus).2.gtp0 = true :=
        (congrArg Prod.fst hsame).trans hthere
      obtain ⟨hrest,hnone⟩ := ih h.2 hthere'
      exact ⟨hrest.trans hsame,not_or.mpr ⟨hdisturbed,hnone⟩⟩
    · simp [hthere] at hnew

def ConfiguredOnce (host host' : Host) : Prop :=
  host'.gtp0 = true ∧ host'.addressSet = true ∧ host'.linkUp = true ∧
    host'.natRules = host.natRules ++ ["POSTROUTING -o eth0 -j MASQUERADE"]

theorem orderly_configuredOnce {patterns : List (Command → Nat)} {host : Host}
    (h : EveryCall serve Orderly host patterns)
    (hsome : SomeCall serve Undisturbed host patterns) :
    ConfiguredOnce host (after serve host patterns) := by
  induction patterns generalizing host with
  | nil => exact nomatch hsome
  | cons exitStatus rest ih =>
    rw [after_cons]
    obtain ⟨hsame,hdisturbed⟩ | ⟨hnew,hconfigured,hiptables⟩ := orderly_cases h.1
    · have hlater := ih h.2 (hsome.resolve_left hdisturbed)
      have hrules : (serve host exitStatus).2.natRules = host.natRules :=
        congrArg (fun i => i.2.2.2) hsame
      unfold ConfiguredOnce at hlater ⊢
      rwa [hrules] at hlater
    · obtain ⟨hrest,hnone⟩ := orderly_present h.2 (congrArg Prod.fst hconfigured)
      have hstatus := hiptables (hsome.resolve_right hnone)
      rw [hconfigured,masquerade,if_pos hstatus] at hrest
      simpa [Host.interface,ConfiguredOnce] using hrest

/-- The runs of /configure that are safe to repeat, on any host, are those in which
every request is orderly. -/
theorem retry_safe_iff_orderly (host : Host) (patterns : List (Command → Nat)) :
    (EveryCall serve RetrySafe host patterns ∧
      (SomeCall serve Undisturbed host patterns →
        ConfiguredOnce host (after serve host patterns))) ↔
    EveryCall serve Orderly host patterns := by
  have hruns : EveryCall serve RetrySafe host patterns ↔ EveryCall serve Orderly host patterns :=
    everyCall_congr serve (I := fun _ => True) (fun s c _ => retrySafe_iff s c)
      (fun _ _ _ _ => trivial) trivial patterns
  rw [hruns]
  exact and_iff_left_of_imp orderly_configuredOnce

/-- Nothing fails by itself, and yet the second request is refused; and when only
`ip addr add` fails, the refused request leaves gtp0 behind. -/
theorem second_request_refused :
    ¬ RetrySafe (after serve freshHost [fun _ => 0]) (fun _ => 0) ∧
    ¬ RetrySafe freshHost (fun command => if command = .ipAddrAddGtp0 then 2 else 0) := by
  unfold RetrySafe Undisturbed
  decide

end Upf
end GrpKeySec
