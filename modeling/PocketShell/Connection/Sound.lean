import PocketShell.Connection.Operations

/-!
# Every call keeps the discipline

* `sound`: the controller keeps the discipline, from its construction on.
* `reach_inv`, `reach_quiet`: what holds in every reachable state.
* `step_path`: every step of a run is a chain of writes, each with what holds when
  it is made.
-/

namespace PocketShell

open Coop (Async Thread Discipline)

variable {env : Env} {ok : Allowed}

theorem quiet_initial : Quiet ok initial where
  climbing := fun h => by cases h
  shown := fun _ h => by cases h
  numbered := fun _ _ _ h => by cases h
  unique := fun _ _ _ _ h => by cases h

variable {c : Operation}

/-- The beginning of a call. -/
theorem Ctx.begin {s : State} {a : Input} (hi : (discipline env ok).inv s)
    (hok : ok s (.start a)) (hc : Acts c ∅) :
    Ctx env ok c ⟨.start a, s⟩ ∅ (Ends env ok ⟨.start a, s⟩) s :=
  (Mid.begin hok hi.1 hc (Set.empty_subset _)).settle ⟨hi.2, .start⟩

/-- The beginning of a loop's turn. -/
theorem Ctx.beginLoop {s : State} {l : Head} {o : Set Tok}
    (hi : (discipline env ok).inv s) (hok : ok s (.loop l)) (hc : Acts c o) (ho : o ⊆ minted s) :
    Ctx env ok c ⟨.loop l, s⟩ o (Ends env ok ⟨.loop l, s⟩) s :=
  (Mid.begin hok hi.1 hc ho).settle ⟨hi.2, .loop⟩

/-- Nothing is left to do. -/
theorem Stops.done {o : Set Tok} : Stops env ok c o .done := fun _ _ _ h => h.finish

theorem Goes.done {o : Set Tok} {α : Type} {I : State → Prop} :
    Goes env ok c o I (fun _ : α => .done) := fun _ _ _ _ _ h => h.finish

theorem start_runs (a : Input) (s : State) (hi : (discipline env ok).inv s) (hok : ok s (.start a)) :
    Runs env ok (Input.body env a) ∅ s (Ends env ok ⟨.start a, s⟩) := by
  have hno : ∀ {c : Operation}, (∀ n, c ≠ .ladder n) → Acts c ∅ := fun hc n hn => absurd hn (hc n)
  have h : ∀ {c : Operation}, (∀ n, c ≠ .ladder n) →
      Ctx env ok c ⟨.start a, s⟩ ∅ (Ends env ok ⟨.start a, s⟩) s := fun hc => .begin hi hok (hno hc)
  have hs : Shows ok ⟨.start a, s⟩ := .inl rfl
  cases a with
  | connect host => exact connect_spec (h (by simp)) rfl hs .done fun _ => .done
  | acceptPresentedHostKey passphrase persist =>
    exact acceptPresentedHostKey_spec rfl (h (by simp)) rfl .done fun _ => .done
  | refreshSessions =>
    exact refreshSessions_spec (h (by simp)) ⟨hs, .inr rfl⟩ .true trivial .done
  | probeSessions => exact probeSessions_spec (h (by simp)) .done
  | createSession name options => exact createSession_spec (h (by simp)) .done
  | killSession name => exact killSession_spec (h (by simp)) .done
  | attachSession session geometry =>
    exact attachSession_spec (h (by simp)) ⟨_, _, rfl⟩ ⟨hs, .inr rfl⟩ .done
  | focusSession session => exact focusSession_spec (h (by simp)) .done
  | detachSession session => exact detachSession_spec (h (by simp)) hs .done
  | runHostCommand command timeoutMs => exact runHostCommand_spec (h (by simp)) .done
  | reconnect => exact reconnect_spec (h (by simp)) ⟨hs, .inr rfl⟩ .done fun _ => .done
  | enterBackground graceMs => exact enterBackground_spec (h (by simp)) .done fun _ => .done
  | returnToForeground redial =>
    exact returnToForeground_spec (h (by simp)) rfl ⟨hs, .inr rfl⟩ .done fun _ => .done
  | close => exact close_spec (h (by simp)) rfl hs .done
  | writeTerminalBytes session bytes =>
    exact terminalOperation_spec (writeOperation_minor bytes) (h (by simp)) .done
  | resizeTerminal session geometry =>
    exact terminalOperation_spec (resizeOperation_minor geometry) (h (by simp)) .done
  | clearUncertainMutation =>
    exact (h (c := .closing) (by simp)).amend rfl rfl (.inr hs) (.inl rfl) fun _ h' => h'.finish
  | connectionState event => exact onConnectionState_spec (h (by simp)) hs .done
  | clock now =>
    exact (h (c := .closing) (by simp)).minor rfl le_rfl le_rfl fun _ _ _ h' => h'.finish
  | outputListeners n =>
    exact (h (c := .closing) (by simp)).minor rfl le_rfl le_rfl fun _ _ _ h' => h'.finish

theorem loop_runs (l : Head) (o : Set Tok) (s : State) (hi : (discipline env ok).inv s)
    (ho : o ⊆ minted s) (hl : LoopInv env l o s) (hok : ok s (.loop l)) :
    Runs env ok (Head.body env l) o s (Ends env ok ⟨.loop l, s⟩) := by
  cases l with
  | pump r pty pumpToken =>
    obtain ⟨a, ha, hk⟩ := hl
    exact pumpTurn_spec (.beginLoop hi hok (fun _ hn => by cases hn) ho) ha hk .done
  | ladderDialled host reason intent attempt delays requestId connected =>
    obtain ⟨hmem, hk⟩ := hl
    have hacts : Acts (.ladder intent) o := fun n hn => by
      cases hn
      exact hmem
    exact ladderDialled_spec (.beginLoop hi hok hacts ho) hmem ⟨.inl rfl, .inr rfl⟩ hk .done

/-- The controller keeps the discipline. -/
theorem sound : (discipline env ok).Sound initial where
  init := ⟨inv_initial ok, quiet_initial⟩
  heldMinted := Set.empty_subset _
  owedHeld := fun _ _ h => absurd h (Set.notMem_empty _)
  start := start_runs
  loop := fun l o s hi ho hl hok => loop_runs l o s hi ho.1 hl hok

/-! ## Runs -/

variable {cfg cfg' : Coop.Config State Ans Head} {l : StepLabel}

theorem reach_inv (h : (controller env).Reach ok start cfg) : Inv ok cfg.state :=
  ((sound : (discipline env ok).Sound initial).inv h).1

theorem step_path (h : (controller env).Reach ok start cfg) (hok : ok cfg.state l)
    (hs : (controller env).Step cfg l cfg') : Path ok env ⟨l, cfg.state⟩ cfg.state cfg'.state :=
  ((sound : (discipline env ok).Sound initial).seg h hok hs).1

theorem step_answered (h : (controller env).Reach ok start cfg) (hok : ok cfg.state l)
    (hs : (controller env).Step cfg l cfg') : Answered l cfg'.state.log :=
  ((sound : (discipline env ok).Sound initial).seg h hok hs).2

end PocketShell
