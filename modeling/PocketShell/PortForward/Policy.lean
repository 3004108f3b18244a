import PocketShell.Js.Object

/-!
# The port-forward policy

`planPortForwards`: which tunnels a reconcile pass closes and opens, from one scan,
the tunnels there are and what the user asked for.

* `planPortForwards` and the sets it is computed from, under the source's names.
* `closeReason`: why the plan closes a port.
* `opens`: what holds of every port the plan opens.
* `missing`: what its absence counters count.
-/

namespace PocketShell.PortForward

open Js (property assign keys)

inductive PortIntent
  | forceOn
  | forceOff
deriving DecidableEq

inductive ForwardOrigin
  | auto
  | manual
  | sshConfig
deriving DecidableEq

/-- A number that is not an integer is no port, like one out of range. -/
abbrev Port : Type := Int

structure PortScanResult where
  ok : Bool
  /-- The `port` of each row. -/
  ports : List Port
  error : Option String

structure ActivePortForward where
  remotePort : Port
  origin : ForwardOrigin

/-- The field defaults are `DEFAULT_PORT_FORWARD_POLICY`. -/
structure PortForwardPolicyConfig where
  skipPortsBelow : Int := 1024
  maxAutoPort : Int := 10000
  skipPorts : List Port := []
  missingScansBeforeStop : Int := 2
  failedPortTtlMs : Int := 60000
  maxActiveForwards : Nat := 8

structure PortForwardPlanInput where
  scan : PortScanResult
  activeForwards : List ActivePortForward
  desiredManualPorts : List Port
  intents : List (Port × PortIntent)
  sshConfigPorts : List Port
  autoEnabled : Bool
  priorMissingScans : List (Port × Nat)
  failedAt : List (Port × Int)
  nowMs : Int
  config : PortForwardPolicyConfig

structure PortForwardPlan where
  openPorts : List Port
  closePorts : List Port
  deferredPorts : List Port
  desiredPorts : List Port
  missingScans : List (Port × Nat)
  interestingPorts : List Port

def isValidTcpPort (port : Port) : Bool := 1 ≤ port && port ≤ 65535

def isInterestingPort (remotePort : Port) (policy : PortForwardPolicyConfig) : Bool :=
  isValidTcpPort remotePort && policy.skipPortsBelow ≤ remotePort &&
    remotePort ≤ policy.maxAutoPort && !policy.skipPorts.contains remotePort

def sortPorts (ports : List Port) : List Port := ports.insertionSort (· ≤ ·)

def uniqueValidPorts (ports : List Port) : List Port := sortPorts (ports.filter isValidTcpPort).dedup

def scanCanProveAbsence (scan : PortScanResult) : Bool := scan.ok && scan.ports.any isValidTcpPort

/-- The first loop of `planPortForwards`, for one tunnel. -/
def setActive (m : List (Port × ActivePortForward)) (active : ActivePortForward) :
    List (Port × ActivePortForward) :=
  if isValidTcpPort active.remotePort then assign active.remotePort active m else m

namespace PortForwardPlanInput

variable (input : PortForwardPlanInput)

/-- `intents[port] === 'force-off'` -/
def forcedOff (port : Port) : Bool := property port input.intents = some .forceOff

def sshConfig : List Port := uniqueValidPorts input.sshConfigPorts

def activeByPort : List (Port × ActivePortForward) := input.activeForwards.foldl setActive []

def activePorts : List Port := keys input.activeByPort

/-- The manual ports, those forced on with them and those forced off without. -/
def manualPorts : List Port :=
  let forcedOn := keys (input.intents.filter fun p => p.2 = .forceOn && isValidTcpPort p.1)
  (uniqueValidPorts input.desiredManualPorts ++ forcedOn).dedup.filter fun port =>
    !input.forcedOff port

def observedPorts : List Port := if input.scan.ok then uniqueValidPorts input.scan.ports else []

def interestingPorts : List Port :=
  input.observedPorts.filter fun port => isInterestingPort port input.config

/-- Neither silenced nor owned by the SSH configuration. -/
def eligible (port : Port) : Bool := !input.forcedOff port && !input.sshConfig.contains port

def autoTargets : List Port :=
  if input.autoEnabled then input.interestingPorts.filter input.eligible else []

def manualTargets : List Port := input.manualPorts.filter input.eligible

def desired : List Port := (input.manualTargets ++ input.autoTargets).dedup

/-- What the loop over `activeByPort` decides on one tunnel. -/
inductive Sweep
  | keep
  | close
  | missed (misses : Nat)
deriving DecidableEq

def wasAutoCreated (port : Port) (origin : ForwardOrigin) : Bool :=
  origin = .auto || (origin = .manual && !input.manualPorts.contains port)

/-- The scans that must miss a port before it is given up. -/
def enough (misses : Nat) : Bool := max 1 input.config.missingScansBeforeStop ≤ misses

def sweep (port : Port) (origin : ForwardOrigin) : Sweep :=
  if origin = .sshConfig then .keep
  else if input.forcedOff port ||
      (!input.autoEnabled && input.wasAutoCreated port origin && !input.desired.contains port) then
    .close
  else if input.manualPorts.contains port || input.desired.contains port then .keep
  else if !input.wasAutoCreated port origin then .keep
  else if !scanCanProveAbsence input.scan then .keep
  else if input.observedPorts.contains port then .keep
  else
    let misses := (property port input.priorMissingScans).getD 0 + 1
    if input.enough misses then .close else .missed misses

def closePorts : List Port :=
  keys (input.activeByPort.filter fun p => input.sweep p.1 p.2.origin = .close)

/-- The counter the loop writes for one tunnel, if it writes one. -/
def counted (p : Port × ActivePortForward) : Option (Port × Nat) :=
  match input.sweep p.1 p.2.origin with
  | .missed misses => some (p.1, misses)
  | _ => none

def missingScans : List (Port × Nat) := input.activeByPort.filterMap input.counted

def freeSlots : Nat :=
  input.config.maxActiveForwards -
    (input.activePorts.filter fun port => !input.closePorts.contains port).length

def candidates : List Port :=
  input.manualTargets.filter (fun port => !input.activePorts.contains port) ++
    input.autoTargets.filter fun port =>
      !input.activePorts.contains port && !input.manualPorts.contains port

/-- The manual ports first, each kind in ascending order. -/
def before (left right : Port) : Prop :=
  let leftManual := if input.manualPorts.contains left then 0 else 1
  let rightManual := if input.manualPorts.contains right then 0 else 1
  leftManual < rightManual ∨ (leftManual = rightManual ∧ left ≤ right)

instance : DecidableRel input.before := fun _ _ => inferInstanceAs (Decidable (_ ∨ _))

def orderedCandidates : List Port := (uniqueValidPorts input.candidates).insertionSort input.before

def isRetryable (port : Port) : Bool :=
  match property port input.failedAt with
  | none => true
  | some failedTime => input.config.failedPortTtlMs ≤ input.nowMs - failedTime

def retryable : List Port := input.orderedCandidates.filter input.isRetryable

end PortForwardPlanInput

def planPortForwards (input : PortForwardPlanInput) : PortForwardPlan where
  openPorts := input.retryable.take input.freeSlots
  closePorts := sortPorts input.closePorts
  deferredPorts := input.retryable.drop input.freeSlots
  desiredPorts := sortPorts input.desired
  missingScans := input.missingScans
  interestingPorts := input.interestingPorts

/-! ## What a plan holds -/

variable {input : PortForwardPlanInput} {port : Port}

@[simp] theorem mem_sortPorts {ports : List Port} : port ∈ sortPorts ports ↔ port ∈ ports :=
  List.mem_insertionSort _

@[simp] theorem mem_uniqueValidPorts {ports : List Port} :
    port ∈ uniqueValidPorts ports ↔ port ∈ ports ∧ isValidTcpPort port = true := by
  simp [uniqueValidPorts]

/-- The scan is evidence that nothing listens on `port`. -/
structure PortScanResult.Misses (scan : PortScanResult) (port : Port) : Prop where
  ok : scan.ok = true
  nonempty : ∃ p ∈ scan.ports, isValidTcpPort p = true
  missing : port ∉ scan.ports

/-- Why the plan closes `port`. -/
inductive CloseReason (input : PortForwardPlanInput) (port : Port) : Prop
  | forcedOff : input.forcedOff port = true → CloseReason input port
  | disabled : input.autoEnabled = false → port ∉ input.manualPorts →
      port ∉ (planPortForwards input).desiredPorts → CloseReason input port
  | gone (misses : Nat) : port ∉ input.manualPorts → port ∉ (planPortForwards input).desiredPorts →
      input.scan.Misses port → misses = (property port input.priorMissingScans).getD 0 + 1 →
      input.enough misses = true → CloseReason input port

/-- What the plan opens. -/
structure Opens (input : PortForwardPlanInput) (port : Port) : Prop where
  valid : isValidTcpPort port = true
  inactive : ∀ active ∈ input.activeForwards, active.remotePort ≠ port
  notForcedOff : input.forcedOff port = false
  notSshConfig : port ∉ input.sshConfigPorts
  desired : port ∈ (planPortForwards input).desiredPorts

theorem nodup_uniqueValidPorts (ports : List Port) : (uniqueValidPorts ports).Nodup :=
  (List.perm_insertionSort _ _).nodup_iff.mpr (List.nodup_dedup _)

namespace PortForwardPlanInput

theorem mem_desiredPorts : port ∈ (planPortForwards input).desiredPorts ↔ port ∈ input.desired :=
  mem_sortPorts

theorem mem_activeByPort {p : Port × ActivePortForward} (h : p ∈ input.activeByPort) :
    p.2 ∈ input.activeForwards ∧ p.2.remotePort = p.1 ∧ isValidTcpPort p.1 = true := by
  suffices hfold : ∀ (active : List ActivePortForward) (m : List (Port × ActivePortForward)),
      p ∈ active.foldl setActive m →
        p ∈ m ∨ (p.2 ∈ active ∧ p.2.remotePort = p.1 ∧ isValidTcpPort p.1 = true) by
    exact (hfold _ _ h).resolve_left List.not_mem_nil
  intro active
  induction active with
  | nil => exact fun m hm => .inl hm
  | cons a active ih =>
    intro m hm
    rcases ih _ hm with hm | ⟨hmem, hp⟩
    · unfold setActive at hm
      split at hm
      · next hvalid =>
        rcases Js.mem_assign hm with rfl | hm
        · exact .inr ⟨List.mem_cons_self, rfl, hvalid⟩
        · exact .inl hm
      · exact .inl hm
    · exact .inr ⟨List.mem_cons_of_mem _ hmem, hp⟩

theorem mem_activePorts {active : ActivePortForward} (h : active ∈ input.activeForwards)
    (hvalid : isValidTcpPort active.remotePort = true) : active.remotePort ∈ input.activePorts := by
  suffices hfold : ∀ (as : List ActivePortForward) (m : List (Port × ActivePortForward)),
      active.remotePort ∈ keys m ∨ active ∈ as → active.remotePort ∈ keys (as.foldl setActive m) by
    exact hfold _ _ (.inr h)
  intro as
  induction as with
  | nil => exact fun m hm => hm.resolve_right List.not_mem_nil
  | cons a as ih =>
    intro m hm
    refine ih _ ?_
    rcases hm with hm | hm
    · left
      unfold setActive
      split
      · exact Js.mem_keys_assign.mpr (.inr hm)
      · exact hm
    · rcases List.mem_cons.mp hm with rfl | hm
      · left
        rw [setActive, if_pos hvalid]
        exact Js.mem_keys_assign.mpr (.inl rfl)
      · exact .inr hm

theorem mem_closePorts : port ∈ input.closePorts ↔
    ∃ active, (port, active) ∈ input.activeByPort ∧ input.sweep port active.origin = .close := by
  simp [closePorts, keys]

theorem not_observed (hok : input.scan.ok = true) (hvalid : isValidTcpPort port = true)
    (h : input.observedPorts.contains port = false) : port ∉ input.scan.ports := by
  intro hmem
  rw [observedPorts, if_pos hok, List.contains_eq_mem, decide_eq_false_iff_not] at h
  exact h (mem_uniqueValidPorts.mpr ⟨hmem, hvalid⟩)

theorem misses_of_absent (hproof : scanCanProveAbsence input.scan = true)
    (hvalid : isValidTcpPort port = true) (h : input.observedPorts.contains port = false) :
    input.scan.Misses port := by
  unfold scanCanProveAbsence at hproof
  obtain ⟨hok, hany⟩ := Bool.and_eq_true_iff.mp hproof
  exact ⟨hok, List.any_eq_true.mp hany, not_observed hok hvalid h⟩

/-- The branches of the sweep that give a tunnel up. -/
theorem sweep_cases (origin : ForwardOrigin) (hvalid : isValidTcpPort port = true) :
    (input.sweep port origin = .keep) ∨
    (input.sweep port origin = .close ∧ input.forcedOff port = true) ∨
    (input.sweep port origin = .close ∧ input.forcedOff port = false ∧ input.autoEnabled = false ∧
      port ∉ input.desired) ∨
    (port ∉ input.manualPorts ∧ port ∉ input.desired ∧ input.scan.Misses port ∧
      input.sweep port origin =
        if input.enough ((property port input.priorMissingScans).getD 0 + 1) then .close
        else .missed ((property port input.priorMissingScans).getD 0 + 1)) := by
  unfold sweep
  split
  · exact .inl rfl
  split
  · next h =>
    rcases Bool.or_eq_true_iff.mp h with h | h
    · exact .inr (.inl ⟨rfl, h⟩)
    · by_cases hoff : input.forcedOff port = true
      · exact .inr (.inl ⟨rfl, hoff⟩)
      · simp only [Bool.and_eq_true, Bool.not_eq_true', List.contains_eq_mem,
          decide_eq_false_iff_not] at h
        exact .inr (.inr (.inl ⟨rfl, Bool.eq_false_iff.mpr hoff, h.1.1, h.2⟩))
  split
  · exact .inl rfl
  next hwanted =>
  split
  · exact .inl rfl
  split
  · exact .inl rfl
  next hproof =>
  split
  · exact .inl rfl
  next hobserved =>
  simp only [Bool.or_eq_true, List.contains_eq_mem, decide_eq_true_eq, not_or] at hwanted
  simp only [Bool.not_eq_true', Bool.not_eq_false] at hproof
  exact .inr (.inr (.inr ⟨hwanted.1, hwanted.2,
    misses_of_absent hproof hvalid (Bool.eq_false_iff.mpr hobserved), rfl⟩))

/-- A manual port that is not silenced nor the SSH configuration's is desired. -/
theorem desired_of_manual (h : port ∈ input.manualPorts) (hoff : input.forcedOff port = false)
    (hssh : port ∉ input.sshConfigPorts) : port ∈ input.desired := by
  have heligible : input.eligible port = true := by
    simp [eligible, hoff, sshConfig, hssh]
  exact List.mem_dedup.mpr (List.mem_append_left _ (List.mem_filter.mpr ⟨h, heligible⟩))

theorem closeReason (h : port ∈ (planPortForwards input).closePorts)
    (hssh : port ∉ input.sshConfigPorts) : CloseReason input port := by
  obtain ⟨active, hactive, hsweep⟩ := mem_closePorts.mp (mem_sortPorts.mp h)
  obtain ⟨-, -, hvalid⟩ := mem_activeByPort hactive
  rcases sweep_cases active.origin hvalid with
    hkeep | ⟨-, hoff⟩ | ⟨-, hoff, hauto, hdesired⟩ | ⟨hmanual, hdesired, hmisses, hend⟩
  · rw [hsweep] at hkeep
    cases hkeep
  · exact .forcedOff hoff
  · refine .disabled hauto (fun hmanual => hdesired ?_) (mt mem_desiredPorts.mp hdesired)
    exact desired_of_manual hmanual hoff hssh
  · refine .gone _ hmanual (mt mem_desiredPorts.mp hdesired) hmisses rfl ?_
    rw [hsweep] at hend
    split at hend
    · assumption
    · cases hend

/-- A counter goes up by one, on evidence. -/
theorem missing {misses : Nat} (h : property port (planPortForwards input).missingScans = some misses) :
    input.scan.Misses port ∧ misses = (property port input.priorMissingScans).getD 0 + 1 := by
  obtain ⟨p, hp, hcounted⟩ := List.mem_filterMap.mp (Js.mem_of_property h)
  obtain ⟨-, -, hvalid⟩ := mem_activeByPort hp
  unfold counted at hcounted
  split at hcounted
  · next m hsweep =>
    cases hcounted
    rcases sweep_cases p.2.origin hvalid with
      hkeep | ⟨hclose, -⟩ | ⟨hclose, -⟩ | ⟨-, -, hmisses, hend⟩
    · rw [hsweep] at hkeep
      cases hkeep
    · rw [hsweep] at hclose
      cases hclose
    · rw [hsweep] at hclose
      cases hclose
    · rw [hsweep] at hend
      split at hend
      · cases hend
      · cases hend
        exact ⟨hmisses, rfl⟩
  · cases hcounted

theorem mem_orderedCandidates (h : port ∈ input.orderedCandidates) :
    isValidTcpPort port = true ∧ port ∉ input.activePorts ∧ port ∈ input.desired ∧
      input.eligible port = true := by
  obtain ⟨hmem, hvalid⟩ := mem_uniqueValidPorts.mp ((List.mem_insertionSort _).mp h)
  refine ⟨hvalid, ?_⟩
  rcases List.mem_append.mp hmem with hmem | hmem
  · obtain ⟨htarget, hinactive⟩ := List.mem_filter.mp hmem
    refine ⟨by simpa using hinactive, ?_, (List.mem_filter.mp htarget).2⟩
    exact List.mem_dedup.mpr (List.mem_append_left _ htarget)
  · obtain ⟨htarget, hinactive⟩ := List.mem_filter.mp hmem
    simp only [Bool.and_eq_true, Bool.not_eq_true', List.contains_eq_mem,
      decide_eq_false_iff_not] at hinactive
    refine ⟨hinactive.1, List.mem_dedup.mpr (List.mem_append_right _ htarget), ?_⟩
    unfold autoTargets at htarget
    split at htarget
    · exact (List.mem_filter.mp htarget).2
    · cases htarget

theorem opens (h : port ∈ (planPortForwards input).openPorts) : Opens input port := by
  obtain ⟨hordered, -⟩ := List.mem_filter.mp (List.mem_of_mem_take h)
  obtain ⟨hvalid, hinactive, hdesired, heligible⟩ := mem_orderedCandidates hordered
  unfold eligible at heligible
  simp only [Bool.and_eq_true, Bool.not_eq_true', List.contains_eq_mem,
    decide_eq_false_iff_not] at heligible
  refine ⟨hvalid, ?_, heligible.1, ?_, mem_desiredPorts.mpr hdesired⟩
  · rintro active hactive rfl
    exact hinactive (mem_activePorts hactive hvalid)
  · exact fun hssh => heligible.2 (mem_uniqueValidPorts.mpr ⟨hssh, hvalid⟩)

theorem nodup_openPorts (input : PortForwardPlanInput) : (planPortForwards input).openPorts.Nodup := by
  have hordered : input.orderedCandidates.Nodup :=
    (List.perm_insertionSort _ _).nodup_iff.mpr (nodup_uniqueValidPorts _)
  exact (hordered.filter _).sublist (List.take_sublist _ _)

end PortForwardPlanInput

end PocketShell.PortForward
