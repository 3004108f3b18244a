import PocketShell.Coop.Log
import PocketShell.PortForward.Controller

/-!
# The invariant of the port-forward controller

* `scansApplied`, `planInForce`: what the log says of the scans of this connection
  and of the plan that is carried out.
* `Justified`: what every entry of the log owes to the entries before it.
* `Inv`, `contract`: what holds whenever nothing runs alone.
* `Ctl.closePorts_spec`, `Ctl.openPorts_spec`: the two loops of a pass.
* `sound`: every method keeps the contract.
-/

namespace PocketShell.PortForward

open Coop (Async Contract Legal Serial mem_snoc)
open Coop.Contract (Spec)
open Js (property assign remove keys)

/-! ## What the log says -/

/-- The scans applied on this connection, the last one first. -/
def Event.scans (scans : List PortScanResult) : Event → List PortScanResult
  | .connected _ => []
  | .applying input => input.scan :: scans
  | _ => scans

def scansApplied (log : List Entry) : List PortScanResult :=
  log.foldl (fun scans e => e.event.scans scans) []

def Event.plan (plan : Option PortForwardPlanInput) : Event → Option PortForwardPlanInput
  | .applying input => some input
  | _ => plan

/-- What the last plan was made from. -/
def planInForce (log : List Entry) : Option PortForwardPlanInput :=
  log.foldl (fun plan e => e.event.plan plan) none

/-- The counters count scans of this connection that missed the port, the last ones. -/
def Counted (scans : List PortScanResult) (missing : List (Port × Nat)) : Prop :=
  ∀ port misses, property port missing = some misses →
    misses ≤ scans.length ∧ ∀ scan ∈ scans.take misses, scan.Misses port

/-- The pass of this plan is under way. -/
structure InForce (options : PortForwardControllerOptions) (log : List Entry)
    (input : PortForwardPlanInput) : Prop where
  plan : planInForce log = some input
  scans : ∃ earlier, scansApplied log = input.scan :: earlier ∧ Counted earlier input.priorMissingScans
  config : input.config = options.config
  sshConfig : input.sshConfigPorts = options.sshConfigPorts
  active : ∀ active ∈ input.activeForwards, active.remotePort ∉ options.sshConfigPorts

/-- `closePortForward` was asked for the id. -/
def CloseRequested (log : List Entry) (forwardId : String) : Prop :=
  ∃ e ∈ log, ∃ closer remotePort request,
    e.event = .closing closer remotePort request ∧ request.ref.forwardId = forwardId

def Held (s : State) (forwardId : String) : Prop := ∃ p ∈ s.forwards, p.2.ref.forwardId = forwardId

/-- What an entry owes to the entries before it. -/
def Justified (options : PortForwardControllerOptions) (before : List Entry) (e : Entry) : Prop :=
  match e.event with
  | .applying input =>
    input.desiredManualPorts = sortPorts e.wishes.desiredManualPorts ∧
      input.intents = e.wishes.intents ∧ input.autoEnabled = e.wishes.autoEnabled
  | .closing .pass remotePort _ =>
    ∃ input, InForce options before input ∧ remotePort ∈ (planPortForwards input).closePorts
  | .opening request held =>
    request.remotePort ∉ held ∧
      ∃ input, InForce options before input ∧ request.remotePort ∈ (planPortForwards input).openPorts
  | _ => True

/-! ## The invariant -/

structure Inv (options : PortForwardControllerOptions) (s : State) : Prop where
  nodup : (keys s.forwards).Nodup
  ports : ∀ p ∈ s.forwards, p.2.remotePort = p.1 ∧ p.1 ∉ options.sshConfigPorts
  capacity : s.forwards.length ≤ min options.config.maxActiveForwards 8
  legal : Legal (Justified options) s.log
  accounted : ∀ e ∈ s.log, ∀ request reply forwardId, e.event = .opened request reply →
    reply.accepted request.requestId request.connection = some forwardId →
    Held s forwardId ∨ CloseRequested s.log forwardId

/-- What a call that is not queued leaves alone. -/
structure Rely (s s' : State) : Prop where
  connection : s'.connection = s.connection
  forwards : s'.forwards = s.forwards
  missing : s'.priorMissingScans = s.priorMissingScans
  log : s'.log = s.log

def contract (options : PortForwardControllerOptions) : Contract State where
  inv := Inv options
  idle := fun s => Counted (scansApplied s.log) s.priorMissingScans
  rely := Rely
  rely_refl := fun _ => ⟨rfl, rfl, rfl, rfl⟩
  rely_trans := fun _ _ _ h h' => ⟨h'.connection.trans h.connection, h'.forwards.trans h.forwards,
    h'.missing.trans h.missing, h'.log.trans h.log⟩

variable {options : PortForwardControllerOptions} {s s' : State} {log : List Entry} {e : Entry}
  {input : PortForwardPlanInput}

theorem scansApplied_snoc : scansApplied (log ++ [e]) = e.event.scans (scansApplied log) := by
  unfold scansApplied
  rw [List.foldl_append]
  rfl

theorem planInForce_snoc : planInForce (log ++ [e]) = e.event.plan (planInForce log) := by
  unfold planInForce
  rw [List.foldl_append]
  rfl

theorem CloseRequested.snoc {forwardId : String} (h : CloseRequested log forwardId) :
    CloseRequested (log ++ [e]) forwardId := by
  obtain ⟨e', he, h⟩ := h
  exact ⟨e', List.mem_append_left _ he, h⟩

/-- An entry about a tunnel leaves the plan and the scans as they are. -/
theorem InForce.snoc (h : InForce options log input) (hs : e.event.scans (scansApplied log) = scansApplied log)
    (hp : e.event.plan (planInForce log) = planInForce log) : InForce options (log ++ [e]) input where
  plan := planInForce_snoc.trans (hp.trans h.plan)
  scans := by
    obtain ⟨earlier, hscans, hcounted⟩ := h.scans
    exact ⟨earlier, scansApplied_snoc.trans (hs.trans hscans), hcounted⟩
  config := h.config
  sshConfig := h.sshConfig
  active := h.active

theorem Counted.nil (scans : List PortScanResult) : Counted scans [] :=
  fun _ _ h => by cases h

/-- One more scan that misses the port. -/
theorem Counted.next {scans : List PortScanResult} {missing : List (Port × Nat)} {port : Port}
    {scan : PortScanResult} (h : Counted scans missing) (hscan : scan.Misses port) :
    (property port missing).getD 0 + 1 ≤ (scan :: scans).length ∧
      ∀ scan' ∈ (scan :: scans).take ((property port missing).getD 0 + 1), scan'.Misses port := by
  rw [List.take_succ_cons, List.length_cons]
  cases hprior : property port missing with
  | none => simpa using hscan
  | some earlier =>
    obtain ⟨hlen, hall⟩ := h port earlier hprior
    refine ⟨Nat.succ_le_succ hlen, ?_⟩
    rintro scan' hmem
    rcases List.mem_cons.mp hmem with rfl | hmem
    · exact hscan
    · exact hall scan' hmem

/-- The counters of a plan count its scan. -/
theorem Counted.planned {scans : List PortScanResult} (h : Counted scans input.priorMissingScans) :
    Counted (input.scan :: scans) (planPortForwards input).missingScans := by
  intro port misses hport
  obtain ⟨hscan, rfl⟩ := PortForwardPlanInput.missing hport
  exact h.next hscan

/-- An entry that is justified and is no reply the controller takes. -/
theorem Inv.addLog {event : Event} (h : Inv options s) (he : Justified options s.log ⟨s.wishes, event⟩)
    (hopened : ∀ request reply, event = .opened request reply →
      reply.accepted request.requestId request.connection = none) : Inv options (s.addLog event) where
  nodup := h.nodup
  ports := h.ports
  capacity := h.capacity
  legal := h.legal.snoc he
  accounted := fun e hmem request reply forwardId heq haccepted => by
    rcases mem_snoc.mp hmem with hmem | hmem
    · exact (h.accounted e hmem request reply forwardId heq haccepted).imp id CloseRequested.snoc
    · cases hmem
      rw [hopened request reply heq] at haccepted
      cases haccepted

/-- Tunnels are dropped whose closing was asked for. -/
theorem Inv.drop (forwards : List (Port × LiveTunnel)) (h : Inv options s)
    (hsub : forwards.Sublist s.forwards)
    (hclosed : ∀ p ∈ s.forwards, p ∈ forwards ∨ CloseRequested s.log p.2.ref.forwardId) :
    Inv options { s with forwards := forwards } where
  nodup := h.nodup.sublist (hsub.map Prod.fst)
  ports := fun p hp => h.ports p (hsub.subset hp)
  capacity := hsub.length_le.trans h.capacity
  legal := h.legal
  accounted := fun e hmem request reply forwardId heq haccepted => by
    rcases h.accounted e hmem request reply forwardId heq haccepted with ⟨p, hp, hid⟩ | hrequested
    · rcases hclosed p hp with hp | hrequested
      · exact .inl ⟨p, hp, hid⟩
      · exact .inr (hid ▸ hrequested)
    · exact .inr hrequested

/-- What no clause of the invariant is about. -/
theorem Inv.minor (h : Inv options s) (hf : s'.forwards = s.forwards) (hl : s'.log = s.log) :
    Inv options s' := by
  refine ⟨hf ▸ h.nodup, hf ▸ h.ports, hf ▸ h.capacity, hl ▸ h.legal, ?_⟩
  unfold Held
  rw [hf, hl]
  exact h.accounted

theorem Inv.initial (options : PortForwardControllerOptions) (connection : SshConnectionRef) :
    Inv options (initial options connection) where
  nodup := List.nodup_nil
  ports := fun _ h => by cases h
  capacity := Nat.zero_le _
  legal := Legal.nil
  accounted := fun _ h => by cases h

variable {request : OpenRequest}

/-- A reply the controller throws away. -/
theorem Inv.rejected {reply : OpenReply} (h : Inv options s)
    (haccepted : reply.accepted request.requestId request.connection = none) :
    Inv options (s.addLog (.opened request reply)) :=
  h.addLog trivial fun _ _ heq => by cases heq; exact haccepted

theorem opened_forwards (reply : OpenReply) (forwardId : String)
    (hfree : request.remotePort ∉ keys s.forwards) :
    ((s.addLog (.opened request reply)).opened request.remotePort reply forwardId).forwards =
      s.forwards ++ [(request.remotePort, s.tunnel request.remotePort reply forwardId)] :=
  Js.assign_new hfree

/-- A reply the controller takes. -/
theorem Inv.opened {reply : OpenReply} {forwardId : String} (h : Inv options s)
    (haccepted : reply.accepted request.requestId request.connection = some forwardId)
    (hfree : request.remotePort ∉ keys s.forwards) (hssh : request.remotePort ∉ options.sshConfigPorts)
    (hcapacity : s.forwards.length < min options.config.maxActiveForwards 8) :
    Inv options ((s.addLog (.opened request reply)).opened request.remotePort reply forwardId) := by
  have hforwards := opened_forwards reply forwardId hfree
  refine ⟨Js.nodup_assign h.nodup, ?_, ?_, h.legal.snoc trivial, ?_⟩
  · intro p hp
    rw [hforwards] at hp
    rcases mem_snoc.mp hp with hp | hp
    · exact h.ports p hp
    · cases hp
      exact ⟨rfl, hssh⟩
  · rw [hforwards, List.length_append]
    exact hcapacity
  · unfold Held
    rw [hforwards]
    intro e hmem request' reply' forwardId' heq haccepted'
    rcases mem_snoc.mp hmem with hmem | hmem
    · rcases h.accounted e hmem request' reply' forwardId' heq haccepted' with ⟨p, hp, hid⟩ | hrequested
      · exact .inl ⟨p, List.mem_append_left _ hp, hid⟩
      · exact .inr hrequested.snoc
    · cases hmem
      cases heq
      rw [haccepted] at haccepted'
      cases haccepted'
      exact .inl ⟨_, List.mem_append_right _ (List.mem_singleton.mpr rfl), rfl⟩

/-! ## Closing -/

/-- The log went on with entries about tunnels. -/
structure Asks (options : PortForwardControllerOptions) (s s' : State) : Prop where
  connection : s'.connection = s.connection
  forwards : s'.forwards = s.forwards
  missing : s'.priorMissingScans = s.priorMissingScans
  scans : scansApplied s'.log = scansApplied s.log
  inForce : ∀ input, InForce options s.log input → InForce options s'.log input
  requested : ∀ forwardId, CloseRequested s.log forwardId → CloseRequested s'.log forwardId

namespace Asks

theorem refl (s : State) : Asks options s s := ⟨rfl, rfl, rfl, rfl, fun _ h => h, fun _ h => h⟩

theorem trans {s'' : State} (h : Asks options s s') (h' : Asks options s' s'') : Asks options s s'' where
  connection := h'.connection.trans h.connection
  forwards := h'.forwards.trans h.forwards
  missing := h'.missing.trans h.missing
  scans := h'.scans.trans h.scans
  inForce := fun input hinput => h'.inForce input (h.inForce input hinput)
  requested := fun forwardId hid => h'.requested forwardId (h.requested forwardId hid)

theorem rely (h : Asks options s s') {s'' : State} (hr : Rely s' s'') : Asks options s s'' := by
  refine h.trans ⟨hr.connection, hr.forwards, hr.missing, ?_, ?_, ?_⟩ <;> rw [hr.log]
  · exact fun _ h => h
  · exact fun _ h => h

theorem addLog {event : Event} (hs : event.scans (scansApplied s.log) = scansApplied s.log)
    (hp : event.plan (planInForce s.log) = planInForce s.log) : Asks options s (s.addLog event) where
  connection := rfl
  forwards := rfl
  missing := rfl
  scans := scansApplied_snoc.trans hs
  inForce := fun _ h => h.snoc hs hp
  requested := fun _ h => h.snoc

end Asks

/-- What the calls of `closeNative` leave behind that were made for these tunnels. -/
structure Asked (options : PortForwardControllerOptions) (s s' : State) (tunnels : List LiveTunnel) :
    Prop where
  inv : Inv options s'
  asks : Asks options s s'
  closing : ∀ tunnel ∈ tunnels, CloseRequested s'.log tunnel.ref.forwardId

theorem Asked.rely {s'' : State} {tunnels : List LiveTunnel} (h : Asked options s s' tunnels)
    (hr : Rely s' s'') : Asked options s s'' tunnels where
  inv := h.inv.minor hr.forwards hr.log
  asks := h.asks.rely hr
  closing := hr.log ▸ h.closing

/-- The pass that closes the port is carrying out a plan that says so. -/
def Planned (options : PortForwardControllerOptions) (closer : Closer) (log : List Entry)
    (remotePort : Port) : Prop :=
  closer = .pass →
    ∃ input, InForce options log input ∧ remotePort ∈ (planPortForwards input).closePorts

variable {closer : Closer}

theorem closing_asked (live : LiveTunnel) (hi : Inv options s)
    (hplanned : Planned options closer s.log live.remotePort) :
    Asked options s (s.closing options closer live).2 [live] := by
  have hminor : Inv options { s with requests := s.requests + 1 } := hi.minor rfl rfl
  refine ⟨hminor.addLog ?_ (fun _ _ h => by cases h), ?_, ?_⟩
  · cases closer with
    | pass => exact hplanned rfl
    | setConnection => trivial
    | closeAll => trivial
  · have hasks : Asks options s { s with requests := s.requests + 1 } := .rely (.refl s) ⟨rfl, rfl, rfl, rfl⟩
    exact hasks.trans (.addLog rfl rfl)
  · intro tunnel htunnel
    cases List.mem_singleton.mp htunnel
    exact ⟨_, List.mem_append_right _ (List.mem_singleton.mpr rfl), closer, live.remotePort, _, rfl, rfl⟩

theorem closingEach_asked (hcloser : closer ≠ .pass) (tunnels : List LiveTunnel) :
    ∀ {s : State}, Inv options s →
      Asked options s (State.closingEach options closer tunnels s).2 tunnels := by
  induction tunnels with
  | nil => exact fun hi => ⟨hi, .refl _, fun _ h => by cases h⟩
  | cons tunnel tunnels ih =>
    intro s hi
    have hfirst := closing_asked tunnel hi fun h => absurd h hcloser
    have hrest := ih hfirst.inv
    refine ⟨hrest.inv, hfirst.asks.trans hrest.asks, fun t ht => ?_⟩
    rcases List.mem_cons.mp ht with rfl | ht
    · exact hrest.asks.requested _ (hfirst.closing _ (List.mem_singleton.mpr rfl))
    · exact hrest.closing t ht

/-- The calls of `closeNative` look at no tunnel that is held. -/
theorem closingEach_forwards {forwards : List (Port × LiveTunnel)}
    {tunnels : List LiveTunnel} : ∀ {s : State},
      (State.closingEach options closer tunnels { s with forwards := forwards }).2 =
        { (State.closingEach options closer tunnels s).2 with forwards := forwards } := by
  induction tunnels with
  | nil => exact rfl
  | cons tunnel tunnels ih =>
    intro s
    exact ih (s := (s.closing options closer tunnel).2)

/-- A new connection: every tunnel of the old one was asked to close. -/
theorem swapped (connection : SshConnectionRef) (h : Inv options s) :
    let s' := (State.closingEach options .setConnection (s.forwards.map Prod.snd) (s.swap connection)).2
    Inv options s' ∧ s'.priorMissingScans = [] := by
  have hminor : Inv options { s with connection := connection, priorMissingScans := [] } :=
    h.minor rfl rfl
  have hlogged : Inv options
      ({ s with connection := connection, priorMissingScans := [] }.addLog (.connected connection)) :=
    hminor.addLog trivial fun _ _ h => by cases h
  have hcloser : Closer.setConnection ≠ .pass := by decide
  have hkept := closingEach_asked hcloser (s.forwards.map Prod.snd) hlogged
  unfold State.swap
  rw [closingEach_forwards]
  refine ⟨hkept.inv.drop _ (List.nil_sublist _) fun p hp => .inr ?_, hkept.asks.missing⟩
  rw [hkept.asks.forwards] at hp
  exact hkept.closing _ (List.mem_map_of_mem hp)

/-- The outcomes of `closeAll`, when every tunnel was asked to close. -/
theorem closeSettled_all (results : List (Port × Except String Unit)) : ∀ {s : State}, Inv options s →
    (∀ p ∈ s.forwards, CloseRequested s.log p.2.ref.forwardId) →
    Inv options (results.foldl (fun s r => s.closeSettled r.1 r.2) s) ∧
      (results.foldl (fun s r => s.closeSettled r.1 r.2) s).log = s.log ∧
      (results.foldl (fun s r => s.closeSettled r.1 r.2) s).priorMissingScans = s.priorMissingScans := by
  induction results with
  | nil => exact fun h _ => ⟨h, rfl, rfl⟩
  | cons r results ih =>
    intro s h hall
    obtain ⟨port, outcome⟩ := r
    cases outcome with
    | error => exact ih h hall
    | ok =>
      have hdrop := h.drop (remove port s.forwards) List.filter_sublist
        fun p hp => .inr (hall p hp)
      exact ih (hdrop.minor rfl rfl) fun p hp => hall p (Js.mem_remove.mp hp).1

namespace Ctl

variable {live : LiveTunnel}

theorem closeNative_spec {closer : Closer} (hi : Inv options s)
    (hplanned : Planned options closer s.log live.remotePort) :
    (contract options).Spec (closeNative options closer live) s
      (fun _ s' => Asked options s s' [live]) (fun _ s' => Asked options s s' [live]) := by
  have hasked := closing_asked live hi hplanned
  refine Spec.modifyGet (Spec.ask hasked.inv fun answer s₁ hr _ => ?_)
  split
  · exact Spec.pure (hasked.rely hr)
  · exact Spec.throw (hasked.rely hr)

theorem closeEach_spec {closer : Closer} (hcloser : closer ≠ .pass) {tunnels : List LiveTunnel}
    (hi : Inv options s) :
    (contract options).Spec (closeEach options closer tunnels) s
      (fun _ s' => Asked options s s' tunnels) (fun _ _ => False) := by
  have hasked := closingEach_asked hcloser tunnels hi
  exact Spec.modifyGet (Spec.ask hasked.inv fun _ s₁ hr _ => Spec.pure (hasked.rely hr))

/-! ## The loops of a pass -/

/-- Between two rounds of the loop over `closePorts`. -/
structure Closing (options : PortForwardControllerOptions) (input : PortForwardPlanInput) (s : State) :
    Prop where
  inv : Inv options s
  inForce : InForce options s.log input
  active : ∀ p ∈ s.forwards, ∃ active ∈ input.activeForwards, active.remotePort = p.1

theorem Closing.asked (h : Closing options input s) (ha : Asked options s s' [live]) :
    Closing options input s' :=
  ⟨ha.inv, ha.asks.inForce _ h.inForce, ha.asks.forwards ▸ h.active⟩

variable {port : Port}

/-- The tunnel was asked to close and is dropped. -/
theorem Closing.closed (h : Closing options input s)
    (hlive : property port s.forwards = some live) (ha : Asked options s s' [live]) :
    Closing options input (s'.closed port) := by
  have h' := h.asked ha
  refine ⟨?_, h'.inForce, fun p hp => h'.active p (Js.mem_remove.mp hp).1⟩
  refine (h'.inv.drop (remove port s'.forwards) List.filter_sublist ?_).minor rfl rfl
  intro p hp
  by_cases hport : p.1 = port
  · right
    have hmem : (port, live) ∈ s.forwards := Js.mem_of_property hlive
    rw [← ha.asks.forwards] at hmem
    have hp' := (Js.property_eq_some h'.inv.nodup).mpr hp
    have hlive' := (Js.property_eq_some h'.inv.nodup).mpr hmem
    rw [hport, hlive'] at hp'
    cases hp'
    exact ha.closing _ (List.mem_singleton.mpr rfl)
  · exact .inl (Js.mem_remove.mpr ⟨hp, hport⟩)

theorem closePort_spec (h : Closing options input s)
    (hport : port ∈ (planPortForwards input).closePorts) :
    (contract options).Spec (closePort options port) s (fun _ s' => Closing options input s')
      (fun _ _ => False) := by
  refine Spec.get ?_
  split
  · exact Spec.pure h
  · next live hlive =>
    have hown : live.remotePort = port := (h.inv.ports _ (Js.mem_of_property hlive)).1
    refine Spec.tryCatch (Spec.bind (closeNative_spec h.inv ?_) fun _ s' ha => ?_) fun e s' ha => ?_
    · exact fun _ => ⟨input, h.inForce, hown.symm ▸ hport⟩
    · exact Spec.modify_last (h.closed hlive ha)
    · have h' := h.asked ha
      exact Spec.modify_last ⟨h'.inv.minor rfl rfl, h'.inForce, h'.active⟩

variable {ports : List Port}

theorem closePorts_spec (hports : ∀ port ∈ ports, port ∈ (planPortForwards input).closePorts) :
    ∀ {s : State}, Closing options input s →
      (contract options).Spec (closePorts options ports) s (fun _ s' => Closing options input s')
        (fun _ _ => False) := by
  induction ports with
  | nil => exact fun h => Spec.pure h
  | cons port ports ih =>
    intro s h
    refine Spec.bind (closePort_spec h (hports _ List.mem_cons_self)) fun _ s' h' => ?_
    exact ih (fun port hport => hports port (List.mem_cons_of_mem _ hport)) h'

/-- Between two rounds of the loop over `openPorts`, with these still to come. -/
structure Opening (options : PortForwardControllerOptions) (input : PortForwardPlanInput)
    (ports : List Port) (s : State) : Prop where
  inv : Inv options s
  inForce : InForce options s.log input
  counted : Counted (scansApplied s.log) s.priorMissingScans
  nodup : ports.Nodup
  planned : ∀ port ∈ ports, port ∈ (planPortForwards input).openPorts
  free : ∀ port ∈ ports, port ∉ keys s.forwards

theorem Opening.asks (h : Opening options input ports s) (hi : Inv options s')
    (ha : Asks options s s') : Opening options input ports s' where
  inv := hi
  inForce := ha.inForce _ h.inForce
  counted := by rw [ha.scans, ha.missing]; exact h.counted
  nodup := h.nodup
  planned := h.planned
  free := ha.forwards ▸ h.free

theorem Opening.tail (h : Opening options input (port :: ports) s) : Opening options input ports s where
  inv := h.inv
  inForce := h.inForce
  counted := h.counted
  nodup := (List.nodup_cons.mp h.nodup).2
  planned := fun p hp => h.planned p (List.mem_cons_of_mem _ hp)
  free := fun p hp => h.free p (List.mem_cons_of_mem _ hp)

/-- The tunnel of the round is held. -/
theorem Opening.opened {request : OpenRequest} {reply : OpenReply} {forwardId : String}
    (h : Opening options input (request.remotePort :: ports) s)
    (haccepted : reply.accepted request.requestId request.connection = some forwardId)
    (hcapacity : s.forwards.length < min options.config.maxActiveForwards 8) :
    Opening options input ports
      ((s.addLog (.opened request reply)).opened request.remotePort reply forwardId) := by
  have hfree := h.free _ List.mem_cons_self
  have hopens := PortForwardPlanInput.opens (h.planned _ List.mem_cons_self)
  have hssh : request.remotePort ∉ options.sshConfigPorts := h.inForce.sshConfig ▸ hopens.notSshConfig
  refine ⟨h.inv.opened haccepted hfree hssh hcapacity, h.inForce.snoc rfl rfl, ?_, h.tail.nodup,
    h.tail.planned, ?_⟩
  · show Counted (scansApplied (s.log ++ [_])) _
    rw [scansApplied_snoc]
    exact h.counted
  · intro port hport hmem
    rcases Js.mem_keys_assign.mp hmem with rfl | hmem
    · exact (List.nodup_cons.mp h.nodup).1 hport
    · exact h.tail.free port hport hmem

theorem openNative_spec {request : OpenRequest}
    (h : Opening options input (request.remotePort :: ports) s) (hconnection : request.connection = s.connection)
    (hcapacity : s.forwards.length < min options.config.maxActiveForwards 8) :
    (contract options).Spec (openNative request) s (fun _ s' => Opening options input ports s')
      (fun _ s' => Opening options input ports s') := by
  refine Spec.ask h.inv fun answer s₁ hr hi₁ => ?_
  have h₁ := h.asks hi₁ (.rely (.refl s) hr)
  have hconnection₁ : request.connection = s₁.connection := hconnection.trans hr.connection.symm
  split
  · exact Spec.throw h₁.tail
  · next reply =>
    refine Spec.modifyGet (Spec.get ?_)
    have hasks : Asks options s₁ (s₁.addLog (.opened request reply)) := .addLog rfl rfl
    split
    · next haccepted =>
      have haccepted : reply.accepted request.requestId request.connection = none :=
        hconnection₁ ▸ haccepted
      exact Spec.throw (h₁.asks (hi₁.rejected haccepted) hasks).tail
    · next forwardId haccepted =>
      have haccepted : reply.accepted request.requestId request.connection = some forwardId :=
        hconnection₁ ▸ haccepted
      exact Spec.modify_last (h₁.opened haccepted (hr.forwards ▸ hcapacity))

theorem openPort_spec (h : Opening options input (port :: ports) s) :
    (contract options).Spec (openPort options port) s (fun _ s' => Opening options input ports s')
      (fun _ _ => False) := by
  refine Spec.get ?_
  split
  · exact Spec.pure h.tail
  · next hcapacity =>
    have hlen : s.forwards.length < min options.config.maxActiveForwards 8 := not_le.mp hcapacity
    have hminor : Inv options { s with requests := s.requests + 1 } := h.inv.minor rfl rfl
    have hasks : Asks options s { s with requests := s.requests + 1 } :=
      .rely (.refl s) ⟨rfl, rfl, rfl, rfl⟩
    refine Spec.modifyGet (Spec.modifyGet (Spec.bind (Spec.tryCatch (openNative_spec
      (h.asks (hminor.addLog ?_ fun _ _ h => by cases h) (hasks.trans (.addLog rfl rfl))) rfl hlen)
      fun e s' h' => ?_) fun _ s' h' => Spec.pure h'))
    · exact ⟨h.free _ List.mem_cons_self, input, h.inForce, h.planned _ List.mem_cons_self⟩
    · exact Spec.modify_last (h'.asks (h'.inv.minor rfl rfl) (.rely (.refl s') ⟨rfl, rfl, rfl, rfl⟩))

theorem openPorts_spec : ∀ {s : State}, Opening options input ports s →
    (contract options).Spec (openPorts options ports) s (fun _ s' => Opening options input [] s')
      (fun _ _ => False) := by
  induction ports with
  | nil => exact fun h => Spec.pure h
  | cons port ports ih =>
    intro s h
    refine Spec.bind (openPort_spec h) fun _ s' h' => ?_
    exact Spec.bind (ih h') fun _ s'' h'' => Spec.pure h''

/-! ## The queued methods -/

/-- What a queued method finds and leaves. -/
structure Settled (options : PortForwardControllerOptions) (s : State) : Prop where
  inv : Inv options s
  idle : Counted (scansApplied s.log) s.priorMissingScans

theorem planned_inForce (scan : PortScanResult) (h : Settled options s) :
    InForce options (s.addLog (.applying (s.planInput options scan))).log (s.planInput options scan) where
  plan := planInForce_snoc
  scans := ⟨scansApplied s.log, scansApplied_snoc, h.idle⟩
  config := rfl
  sshConfig := rfl
  active := fun active hactive => by
    obtain ⟨p, hp, rfl⟩ := List.mem_map.mp hactive
    obtain ⟨hport, hssh⟩ := h.inv.ports p hp
    exact hport.symm ▸ hssh

theorem applyScan_spec {scan : PortScanResult} (h : Settled options s) :
    (contract options).Spec (applyScan options scan) s (fun _ s' => Settled options s')
      (fun _ _ => False) := by
  have hinForce := planned_inForce scan h
  have hclosing : Closing options (s.planInput options scan)
      (s.addLog (.applying (s.planInput options scan))) := by
    refine ⟨h.inv.addLog ⟨rfl, rfl, rfl⟩ (fun _ _ h => by cases h), hinForce, fun p hp => ?_⟩
    exact ⟨_, List.mem_map_of_mem hp, (h.inv.ports p hp).1⟩
  refine Spec.get (Spec.modifyGet (Spec.bind (closePorts_spec (fun _ h => h) hclosing) fun _ s' h' =>
    Spec.modifyGet ?_))
  have hopening : Opening options (s.planInput options scan) (planPortForwards (s.planInput options scan)).openPorts
      { s' with priorMissingScans := (planPortForwards (s.planInput options scan)).missingScans } := by
    obtain ⟨earlier, hscans, hcounted⟩ := h'.inForce.scans
    refine ⟨h'.inv.minor rfl rfl, h'.inForce, ?_, PortForwardPlanInput.nodup_openPorts _,
      fun _ h => h, fun port hport hmem => ?_⟩
    · show Counted (scansApplied s'.log) _
      rw [hscans]
      exact hcounted.planned
    · obtain ⟨p, hp, rfl⟩ := List.mem_map.mp hmem
      obtain ⟨active, hactive, heq⟩ := h'.active p hp
      exact (PortForwardPlanInput.opens hport).inactive active hactive heq
  refine Spec.bind (openPorts_spec hopening) fun _ s'' h'' => Spec.get (Spec.pure ?_)
  exact ⟨h''.inv, h''.counted⟩

theorem scanAndReconcile_spec (h : Settled options s) :
    (contract options).Spec (scanAndReconcile options) s (fun _ s' => Settled options s')
      (fun _ _ => False) := by
  refine Spec.modifyGet (Spec.get (Spec.ask (h.inv.minor rfl rfl) fun scan s₁ hr hi₁ => ?_))
  refine applyScan_spec ⟨hi₁, ?_⟩
  rw [hr.log, hr.missing]
  exact h.idle

theorem setConnection_spec {connection : SshConnectionRef} (h : Settled options s) :
    (contract options).Spec (setConnection options connection) s (fun _ s' => Settled options s')
      (fun _ _ => False) := by
  refine Spec.get ?_
  split
  · exact Spec.pure h
  · obtain ⟨hinv, hmissing⟩ := swapped connection h.inv
    have hclose : (contract options).Spec (closeEach options .setConnection (s.forwards.map Prod.snd))
        (s.swap connection) (fun _ s' => Settled options s') (fun _ _ => False) := by
      refine Spec.modifyGet (Spec.ask hinv fun _ s₁ hr hi₁ => Spec.pure ⟨hi₁, ?_⟩)
      rw [hr.missing, hmissing]
      exact Counted.nil _
    exact Spec.set (Spec.bind hclose fun _ _ h' => Spec.pure h')

theorem closeAll_spec (h : Settled options s) :
    (contract options).Spec (closeAll options) s (fun _ s' => Settled options s')
      (fun _ _ => False) := by
  refine Spec.get (Spec.bind (closeEach_spec (by decide) h.inv) fun results s' ha =>
    Spec.modify_last ?_)
  have hall : ∀ p ∈ s'.forwards, CloseRequested s'.log p.2.ref.forwardId := by
    intro p hp
    rw [ha.asks.forwards] at hp
    exact ha.closing _ (List.mem_map_of_mem hp)
  obtain ⟨hinv, hlog, hmissing⟩ := closeSettled_all results ha.inv hall
  refine ⟨hinv, ?_⟩
  rw [hlog, hmissing, ha.asks.scans, ha.asks.missing]
  exact h.idle

end Ctl

/-! ## Every run -/

theorem Input.call_rely (a : Input) (s : State) : Rely s (a.call s) := by
  cases a with
  | setManualDesiredPort remotePort enabled =>
    simp only [Input.call, State.setManualDesiredPort]
    split
    · exact ⟨rfl, rfl, rfl, rfl⟩
    · exact ⟨rfl, rfl, rfl, rfl⟩
  | _ => exact ⟨rfl, rfl, rfl, rfl⟩

theorem sound (options : PortForwardControllerOptions) (connection : SshConnectionRef) :
    (contract options).Sound (controller options) (initial options connection) where
  init := .initial options connection
  initIdle := .nil _
  call := fun a s hi =>
    have hr := a.call_rely s
    ⟨hi.minor hr.forwards hr.log, hr⟩
  callIdle := fun a s _ hidle => by
    have hr : Rely s ((controller options).call a s) := a.call_rely s
    show Counted _ _
    rw [hr.log, hr.missing]
    exact hidle
  work := fun b s hi hidle => by
    have h : Ctl.Settled options s := ⟨hi, hidle⟩
    have leave : ∀ {α : Type} {p : Ctl α}, (contract options).Spec p s
        (fun _ s' => Ctl.Settled options s') (fun _ _ => False) →
      (contract options).wp (Async.thread () p) s := fun hp =>
      Contract.wp_thread (hp.mono (fun _ _ h' => ⟨h'.inv, h'.idle⟩) fun _ _ h' => h'.elim)
    cases b with
    | setConnection connection => exact leave (Ctl.setConnection_spec h)
    | scanAndReconcile => exact leave (Ctl.scanAndReconcile_spec h)
    | reconcile scan => exact leave (Ctl.applyScan_spec h)
    | closeAll => exact leave (Ctl.closeAll_spec h)

end PocketShell.PortForward
