import PocketShell.Coop.Log
import PocketShell.SessionTabs.Launch

/-!
# A launch is typed once, into its own session

* `Sound`: what the log says of every line that was typed, and of every launch that was torn down.
* `Careful`: what a step must find. The name of a session that is armed stands for the session the
  host started; the shell that is registered then is of its connection, and no write of the launch
  is on its way; a delivered line is answered while no other launch is armed; and the panel parks no
  launch for a session that was open already.
* `launch_typed_once`: careful runs. `launch_strays`: a shell that is registered anew, a folder
  switch, and a second launch.
-/

namespace PocketShell.SessionTabs.Launch

open Js (Text ascii)
open Coop (Each each_nil mem_snoc)

variable {F C : Type}

/-! ## 1. What is to be shown -/

/-- Nothing is typed for a launch that was torn down. -/
def Quiet (before : List Event) : Event → Prop
  | .typed _ launch _ => .ended launch ∉ before
  | _ => True

structure Logged (log : List Event) : Prop where
  aimed : ∀ write launch into, .typed write launch into ∈ log →
    ∃ name reused bar, .created launch into name reused bar ∈ log
  fresh : ∀ launch target name reused bar, .created launch target name reused bar ∈ log →
    reused = false ∧ name ∉ bar
  owned : ∀ launch target name reused bar target' name' reused' bar',
    .created launch target name reused bar ∈ log →
    .created launch target' name' reused' bar' ∈ log → target = target'
  once : ∀ launch write write' into into', .typed write launch into ∈ log →
    .typed write' launch into' ∈ log → write < write' → .answered write false ∈ log
  quiet : Each Quiet log
  own : ∀ launch byLaunch, .disarmed launch byLaunch ∈ log → launch = byLaunch

/-- At most one of the writes of a launch is answered as delivered. -/
structure Sound (log : List Event) : Prop extends Logged log where
  delivered : ∀ launch write write' into into', .typed write launch into ∈ log →
    .typed write' launch into' ∈ log → .answered write true ∈ log → .answered write' true ∈ log →
    write = write'

variable (deps : Deps F C)

/-- What a step must find. -/
def Careful (s : State F C) : Action F C → Prop
  | .started i answer now => ∀ create result name, s.creates[i]? = some create →
      answer = .result result → result.started = some name → result.reused = false →
      name ∉ create.before → create.choice.isSome →
      name ∈ (s.filed create result name now).tabs deps →
      identityFor ((s.filed create result name now).rows deps) name none =
        (result.target create.connectionId name).key
  | .parkAgentLaunch _ result _ _ _ => result.reused = false
  | .collectParked now => ∀ parked, s.parkedAgentLaunch = some parked →
      parked.session ∈ s.tabs deps → now - parked.parkedAt ≤ LAUNCH_HANDOFF_TTL_MS →
      parked.isOf s.connectionId parked.session
        ((sessionMeta (s.rows deps) parked.session).bind (·.workspace)) →
      identityFor (s.rows deps) parked.session none = parked.target.key
  | .watchShell => ∀ p shell, s.pendingLaunch = some p → s.shellOfLaunch = some shell →
      s.watched ≠ some shell.id → shell.connectionId = p.target.connectionId ∧
        ∀ write ∈ s.writes, write.launch ≠ p.launch
  | .inputAnswered i delivered => delivered → ∀ write p, s.writes[i]? = some write →
      s.pendingLaunch = some p → p.launch = write.launch
  | _ => True

def CarefulFrom (s : State F C) : List (Action F C) → Prop
  | [] => True
  | a :: rest => Careful deps s a ∧ CarefulFrom (s.step deps a) rest

/-! ## 2. The invariant -/

def Event.launch : Event → Option Nat
  | .created launch _ _ _ _ | .typed _ launch _ | .ended launch => some launch
  | _ => none

def Event.write : Event → Option Nat
  | .typed write _ _ | .answered write _ => some write
  | _ => none

/-- The launches that are not armed yet. -/
def State.waiting (s : State F C) : List Nat :=
  s.parkedAgentLaunch.toList.map (·.launch) ++ s.creates.map (·.launch)

/-- An armed launch waits for the shell of its session, and what was typed for it is not answered
or was not delivered. -/
structure Armed (log : List Event) (writes : List Write) (p : PendingLaunch C) : Prop where
  key : p.key = p.target.key
  created : ∃ name reused bar, .created p.launch p.target name reused bar ∈ log
  quiet : .ended p.launch ∉ log
  typed : ∀ write into, .typed write p.launch into ∈ log →
    ⟨write, p.launch⟩ ∈ writes ∨ .answered write false ∈ log

structure Inv (s : State F C) : Prop where
  logged : Logged s.log
  answers : ∀ write delivered delivered', .answered write delivered ∈ s.log →
    .answered write delivered' ∈ s.log → delivered = delivered'
  pending : ∀ p, s.pendingLaunch = some p → Armed s.log s.writes p ∧ p.launch ∉ s.waiting
  parked : ∀ parked, s.parkedAgentLaunch = some parked →
    ∃ name reused bar, .created parked.launch parked.target name reused bar ∈ s.log
  asking : ∀ launch ∈ s.creates.map (·.launch), ∀ target name reused bar,
    .created launch target name reused bar ∉ s.log
  waiting : s.waiting.Nodup
  silent : ∀ launch ∈ s.waiting, .ended launch ∉ s.log ∧
    ∀ write into, .typed write launch into ∉ s.log
  launches : ∀ launch ∈ s.waiting, launch < s.nextLaunch
  launchesLogged : ∀ e ∈ s.log, ∀ launch, e.launch = some launch → launch < s.nextLaunch
  writesLogged : ∀ e ∈ s.log, ∀ write, e.write = some write → write < s.nextWrite
  flying : ∀ write ∈ s.writes, write.id < s.nextWrite ∧
    ∀ delivered, .answered write.id delivered ∉ s.log
  flyingOnce : (s.writes.map (·.id)).Nodup

variable {s : State F C}

theorem Inv.sound (h : Inv s) : Sound s.log where
  toLogged := h.logged
  delivered launch write write' into into' htyped htyped' htrue htrue' := by
    rcases Nat.lt_trichotomy write write' with hlt | heq | hlt
    · have hfalse := h.logged.once _ _ _ _ _ htyped htyped' hlt
      cases h.answers _ _ _ htrue hfalse
    · exact heq
    · have hfalse := h.logged.once _ _ _ _ _ htyped' htyped hlt
      cases h.answers _ _ _ htrue' hfalse

theorem logged_nil : Logged [] :=
  ⟨fun _ _ _ h => (by cases h), fun _ _ _ _ _ h => (by cases h),
    fun _ _ _ _ _ _ _ _ _ h => (by cases h), fun _ _ _ _ _ h => (by cases h), each_nil _,
    fun _ _ h => (by cases h)⟩

theorem inv_start (folder : F) : Inv (.start folder : State F C) where
  logged := logged_nil
  answers _ _ _ h := by cases h
  pending _ h := by cases h
  parked _ h := by cases h
  asking _ h := by cases h
  waiting := List.nodup_nil
  silent _ h := by cases h
  launches _ h := by cases h
  launchesLogged _ h := by cases h
  writesLogged _ h := by cases h
  flying _ h := by cases h
  flyingOnce := List.nodup_nil

/-! ## 3. What an event keeps -/

variable {log : List Event}

/-- An event that types nothing, and of which no session comes. -/
theorem Logged.snoc {e : Event} (h : Logged log)
    (htyped : ∀ write launch into, e ≠ .typed write launch into)
    (hcreated : ∀ launch target name reused bar, e ≠ .created launch target name reused bar)
    (hown : ∀ launch byLaunch, e = .disarmed launch byLaunch → launch = byLaunch) :
    Logged (log ++ [e]) := by
  have hold : ∀ {other : Event}, other ≠ e → other ∈ log ++ [e] → other ∈ log := by
    intro other hne hmem
    rcases mem_snoc.mp hmem with hmem | hmem
    · exact hmem
    · exact absurd hmem hne
  refine ⟨fun write launch into hmem => ?_, fun launch target name reused bar hmem => ?_,
    fun launch target name reused bar target' name' reused' bar' hmem hmem' => ?_,
    fun launch write write' into into' hmem hmem' hlt => ?_, h.quiet.snoc ?_,
    fun launch byLaunch hmem => ?_⟩
  · obtain ⟨name, reused, bar, hsome⟩ := h.aimed write launch into (hold (htyped _ _ _).symm hmem)
    exact ⟨name, reused, bar, List.mem_append_left _ hsome⟩
  · exact h.fresh _ _ _ _ _ (hold (hcreated _ _ _ _ _).symm hmem)
  · exact h.owned _ _ _ _ _ _ _ _ _ (hold (hcreated _ _ _ _ _).symm hmem)
      (hold (hcreated _ _ _ _ _).symm hmem')
  · exact List.mem_append_left _ (h.once _ _ _ _ _ (hold (htyped _ _ _).symm hmem)
      (hold (htyped _ _ _).symm hmem') hlt)
  · cases e with
    | typed write launch into => exact absurd rfl (htyped write launch into)
    | created | answered | ended | disarmed => trivial
  · rcases mem_snoc.mp hmem with hmem | hmem
    · exact h.own launch byLaunch hmem
    · exact hown launch byLaunch hmem.symm

variable {launch : Nat}

theorem Logged.create {target : Target} {name : Text}
    {bar : List Text} (h : Logged log) (hname : name ∉ bar)
    (hnew : ∀ target name reused bar, .created launch target name reused bar ∉ log) :
    Logged (log ++ [.created launch target name false bar]) := by
  refine ⟨fun write other into hmem => ?_, fun other target' name' reused bar' hmem => ?_,
    fun other target₁ name₁ reused₁ bar₁ target₂ name₂ reused₂ bar₂ hmem hmem' => ?_,
    fun other write write' into into' hmem hmem' hlt => ?_, h.quiet.snoc trivial,
    fun other byLaunch hmem => ?_⟩
  · rcases mem_snoc.mp hmem with hmem | hmem
    · obtain ⟨name, reused, bar, hsome⟩ := h.aimed write other into hmem
      exact ⟨name, reused, bar, List.mem_append_left _ hsome⟩
    · cases hmem
  · rcases mem_snoc.mp hmem with hmem | hmem
    · exact h.fresh _ _ _ _ _ hmem
    · cases hmem
      exact ⟨rfl, hname⟩
  · rcases List.mem_append.mp hmem with hmem | hmem <;>
      rcases List.mem_append.mp hmem' with hmem' | hmem'
    · exact h.owned _ _ _ _ _ _ _ _ _ hmem hmem'
    · cases List.mem_singleton.mp hmem'
      exact absurd hmem (hnew _ _ _ _)
    · cases List.mem_singleton.mp hmem
      exact absurd hmem' (hnew _ _ _ _)
    · cases List.mem_singleton.mp hmem
      cases List.mem_singleton.mp hmem'
      rfl
  · rcases mem_snoc.mp hmem with hmem | hmem
    · rcases mem_snoc.mp hmem' with hmem' | hmem'
      · exact List.mem_append_left _ (h.once _ _ _ _ _ hmem hmem' hlt)
      · cases hmem'
    · cases hmem
  · rcases mem_snoc.mp hmem with hmem | hmem
    · exact h.own other byLaunch hmem
    · cases hmem

theorem Logged.type {write launch : Nat} {into : Target} (h : Logged log)
    (haimed : ∃ name reused bar, .created launch into name reused bar ∈ log)
    (hquiet : .ended launch ∉ log)
    (hnew : ∀ e ∈ log, ∀ other, e.write = some other → other < write)
    (hanswered : ∀ other into', .typed other launch into' ∈ log → .answered other false ∈ log) :
    Logged (log ++ [.typed write launch into]) := by
  refine ⟨fun other launch' into' hmem => ?_, fun launch' target name reused bar hmem => ?_,
    fun launch' target₁ name₁ reused₁ bar₁ target₂ name₂ reused₂ bar₂ hmem hmem' => ?_,
    fun launch' other other' into₁ into₂ hmem hmem' hlt => List.mem_append_left _ ?_,
    h.quiet.snoc hquiet, fun launch' byLaunch hmem => ?_⟩
  · rcases mem_snoc.mp hmem with hmem | hmem
    · obtain ⟨name, reused, bar, hsome⟩ := h.aimed other launch' into' hmem
      exact ⟨name, reused, bar, List.mem_append_left _ hsome⟩
    · cases hmem
      obtain ⟨name, reused, bar, hsome⟩ := haimed
      exact ⟨name, reused, bar, List.mem_append_left _ hsome⟩
  · rcases mem_snoc.mp hmem with hmem | hmem
    · exact h.fresh _ _ _ _ _ hmem
    · cases hmem
  · rcases mem_snoc.mp hmem with hmem | hmem
    · rcases mem_snoc.mp hmem' with hmem' | hmem'
      · exact h.owned _ _ _ _ _ _ _ _ _ hmem hmem'
      · cases hmem'
    · cases hmem
  · rcases List.mem_append.mp hmem with hmem | hmem
    · rcases mem_snoc.mp hmem' with hmem' | hmem'
      · exact h.once _ _ _ _ _ hmem hmem' hlt
      · cases hmem'
        exact hanswered other into₁ hmem
    · cases List.mem_singleton.mp hmem
      rcases mem_snoc.mp hmem' with hmem' | hmem'
      · exact absurd (hnew _ hmem' other' rfl) (by omega)
      · cases hmem'
        omega
  · rcases mem_snoc.mp hmem with hmem | hmem
    · exact h.own launch' byLaunch hmem
    · cases hmem

/-! ## 4. What an operation keeps -/

def State.written (s : State F C) := (s.writes, s.nextLaunch, s.nextWrite, s.log)

/-- A step that arms, parks, asks and types nothing. -/
theorem Inv.mono {s t : State F C} (h : Inv s)
    (hpending : t.pendingLaunch = none ∨ t.pendingLaunch = s.pendingLaunch)
    (hparked : t.parkedAgentLaunch = none ∨ t.parkedAgentLaunch = s.parkedAgentLaunch)
    (hcreates : (t.creates.map (·.launch)).Sublist (s.creates.map (·.launch)))
    (hwritten : t.written = s.written) : Inv t := by
  simp only [State.written, Prod.mk.injEq] at hwritten
  obtain ⟨hwrites, hlaunch, hwrite, hlog⟩ := hwritten
  have hparkedSub : t.parkedAgentLaunch.toList.Sublist s.parkedAgentLaunch.toList := by
    rcases hparked with heq | heq <;> simp [heq]
  have hsub : t.waiting.Sublist s.waiting := (hparkedSub.map _).append hcreates
  constructor
  · rw [hlog]; exact h.logged
  · rw [hlog]; exact h.answers
  · intro p hp
    rcases hpending with heq | heq <;> rw [heq] at hp
    · cases hp
    · rw [hlog, hwrites]
      exact (h.pending p hp).imp_right fun hfree hmem => hfree (hsub.subset hmem)
  · intro parked hp
    rcases hparked with heq | heq <;> rw [heq] at hp
    · cases hp
    · rw [hlog]
      exact h.parked parked hp
  · rw [hlog]
    exact fun launch hmem => h.asking launch (hcreates.subset hmem)
  · exact h.waiting.sublist hsub
  · rw [hlog]
    exact fun launch hmem => h.silent launch (hsub.subset hmem)
  · rw [hlaunch]
    exact fun launch hmem => h.launches launch (hsub.subset hmem)
  · rw [hlog, hlaunch]; exact h.launchesLogged
  · rw [hlog, hwrite]; exact h.writesLogged
  · rw [hlog, hwrites, hwrite]; exact h.flying
  · rw [hwrites]; exact h.flyingOnce

/-- The launches and the log. -/
def State.launches (s : State F C) :=
  (s.pendingLaunch, s.parkedAgentLaunch, s.creates, s.writes, s.nextLaunch, s.nextWrite, s.log)

theorem Inv.same {s t : State F C} (h : Inv s) (hsame : t.launches = s.launches) : Inv t := by
  simp only [State.launches, Prod.mk.injEq] at hsame
  obtain ⟨hpending, hparked, hcreates, hrest⟩ := hsame
  exact h.mono (.inr hpending) (.inr hparked) (by rw [hcreates]) (by simp only [State.written, hrest])

theorem mem_snoc_of_ne {e other : Event} (h : other ∈ log ++ [e]) (hne : other ≠ e) : other ∈ log := by
  rcases mem_snoc.mp h with hmem | hmem
  · exact hmem
  · exact absurd hmem hne

/-- An event of no write. -/
theorem Inv.note (h : Inv s) {e : Event} (hlogged : Logged (s.log ++ [e]))
    (hlaunch : ∀ launch, e.launch = some launch → launch < s.nextLaunch) (hwrite : e.write = none)
    (hpending : ∀ p, s.pendingLaunch = some p → e ≠ .ended p.launch)
    (hwaiting : ∀ launch ∈ s.waiting, e ≠ .ended launch)
    (hasking : ∀ launch ∈ s.creates.map (·.launch), ∀ target name reused bar,
      e ≠ .created launch target name reused bar) : Inv (s.addLog e) := by
  have htyped : ∀ write launch into, e ≠ .typed write launch into := by
    rintro write launch into rfl
    cases hwrite
  have hanswered : ∀ write delivered, e ≠ .answered write delivered := by
    rintro write delivered rfl
    cases hwrite
  refine ⟨hlogged, fun write delivered delivered' hmem hmem' => ?_, fun p hp => ?_,
    fun parked hp => ?_, fun launch hl target name reused bar hmem => ?_, h.waiting,
    fun launch hl => ⟨fun hmem => ?_, fun write into hmem => ?_⟩, h.launches,
    fun other hmem launch heq => ?_, fun other hmem write heq => ?_,
    fun write hw => ⟨(h.flying write hw).1, fun delivered hmem => ?_⟩, h.flyingOnce⟩
  · exact h.answers write _ _ (mem_snoc_of_ne hmem (hanswered _ _).symm)
      (mem_snoc_of_ne hmem' (hanswered _ _).symm)
  · obtain ⟨harmed, hfree⟩ := h.pending p hp
    obtain ⟨name, reused, bar, hcreated⟩ := harmed.created
    refine ⟨⟨harmed.key, ⟨name, reused, bar, List.mem_append_left _ hcreated⟩,
      fun hmem => harmed.quiet (mem_snoc_of_ne hmem (hpending p hp).symm), fun write into hmem => ?_⟩,
      hfree⟩
    exact (harmed.typed write into (mem_snoc_of_ne hmem (htyped _ _ _).symm)).imp_right
      (List.mem_append_left _)
  · obtain ⟨name, reused, bar, hcreated⟩ := h.parked parked hp
    exact ⟨name, reused, bar, List.mem_append_left _ hcreated⟩
  · exact h.asking launch hl target name reused bar (mem_snoc_of_ne hmem (hasking _ hl _ _ _ _).symm)
  · exact (h.silent launch hl).1 (mem_snoc_of_ne hmem (hwaiting launch hl).symm)
  · exact (h.silent launch hl).2 write into (mem_snoc_of_ne hmem (htyped _ _ _).symm)
  · rcases mem_snoc.mp hmem with hmem | hmem
    · exact h.launchesLogged other hmem launch heq
    · rw [hmem] at heq
      exact hlaunch launch heq
  · rcases mem_snoc.mp hmem with hmem | hmem
    · exact h.writesLogged other hmem write heq
    · rw [hmem, hwrite] at heq
      cases heq
  · exact (h.flying write hw).2 delivered (mem_snoc_of_ne hmem (hanswered _ _).symm)

theorem Armed.issued (h : Inv s) {p : PendingLaunch C}
    (hp : Armed s.log s.writes p) : p.launch < s.nextLaunch := by
  obtain ⟨name, reused, bar, hcreated⟩ := hp.created
  exact h.launchesLogged _ hcreated _ rfl

/-- The armed launch is torn down. -/
theorem Inv.end {s t : State F C} (h : Inv s) {p : PendingLaunch C}
    (hp : s.pendingLaunch = some p) (hpending : t.pendingLaunch = none)
    (hparked : t.parkedAgentLaunch = s.parkedAgentLaunch) (hcreates : t.creates = s.creates)
    (hwrites : t.writes = s.writes) (hlaunch : t.nextLaunch = s.nextLaunch)
    (hwrite : t.nextWrite = s.nextWrite) (hlog : t.log = s.log ++ [.ended p.launch]) : Inv t := by
  obtain ⟨harmed, hfree⟩ := h.pending p hp
  have hcleared : Inv { s with pendingLaunch := none } :=
    h.mono (.inl rfl) (.inr rfl) (.refl _) rfl
  have hnoted : Inv (State.addLog { s with pendingLaunch := none } (.ended p.launch)) := by
    refine hcleared.note (h.logged.snoc (by simp) (by simp) (by simp)) (fun launch heq => ?_) rfl
      (fun _ heq => by cases heq) (fun launch hmem heq => ?_) (by simp)
    · cases heq
      exact harmed.issued h
    · cases heq
      exact hfree hmem
  exact hnoted.mono (.inl hpending) (.inr hparked) (by rw [hcreates]; exact .refl _)
    (by simp only [State.written, hwrites, hlaunch, hwrite, hlog]; rfl)

theorem cancelPendingLaunch_inv (h : Inv s) : Inv s.cancelPendingLaunch := by
  unfold State.cancelPendingLaunch
  cases hp : s.pendingLaunch with
  | none => exact h.mono (.inl rfl) (.inr rfl) (.refl _) rfl
  | some p => exact h.end hp rfl rfl rfl rfl rfl rfl rfl

theorem timeOut_inv (h : Inv s) : Inv (s.timeOut deps) := by
  unfold State.timeOut
  split
  case h_1 p _ hp =>
    split
    · exact h.same rfl
    · exact h.end hp rfl rfl rfl rfl rfl rfl rfl
  case h_2 => exact h.same rfl

/-- What is armed is looked up as the identity of its name. -/
theorem armLaunch_key (s : State F C) (session : Text) (choice : C) (launch : Nat)
    (target : Target) :
    ∃ p, (s.armLaunch deps session choice launch target).pendingLaunch = some p ∧
      p.key = identityFor (s.rows deps) session none ∧ p.launch = launch ∧ p.target = target := by
  refine ⟨_, rfl, ?_, rfl, rfl⟩
  simp only [PendingLaunch.key, identityFor, Option.getD_none]
  cases sessionMeta (s.rows deps) session with
  | none => rfl
  | some m => rfl

theorem armLaunch_inv (h : Inv s) {session : Text} (choice : C)
    {target : Target} (hkey : identityFor (s.rows deps) session none = target.key)
    (hcreated : ∃ name reused bar, .created launch target name reused bar ∈ s.log)
    (hquiet : .ended launch ∉ s.log) (htyped : ∀ write into, .typed write launch into ∉ s.log)
    (hfree : launch ∉ s.waiting) : Inv (s.armLaunch deps session choice launch target) := by
  obtain ⟨p, hp, hpkey, hlaunch, htarget⟩ := armLaunch_key deps s session choice launch target
  have hcleared : Inv { s with pendingLaunch := none } :=
    h.mono (.inl rfl) (.inr rfl) (.refl _) rfl
  refine { hcleared with
    pending := fun q hq => ?_ }
  cases hp.symm.trans hq
  subst hlaunch htarget
  exact ⟨⟨hpkey.trans hkey, hcreated, hquiet, fun write into hmem => absurd hmem (htyped _ _)⟩,
    hfree⟩

/-- A launch is waited for under a new number. -/
theorem State.waiting_fresh (h : Inv s) : s.nextLaunch ∉ s.waiting :=
  fun hmem => Nat.lt_irrefl _ (h.launches _ hmem)

theorem Inv.unlogged (h : Inv s) {e : Event}
    (he : e.launch = some launch) (hle : s.nextLaunch ≤ launch) : e ∉ s.log :=
  fun hmem => Nat.lt_irrefl _ (Nat.lt_of_lt_of_le (h.launchesLogged e hmem launch he) hle)

variable {create : Create C}

/-- The host is asked for a session. -/
theorem Inv.ask {s t : State F C} (h : Inv s)
    (hlaunch : create.launch = s.nextLaunch) (hpending : t.pendingLaunch = s.pendingLaunch)
    (hparked : t.parkedAgentLaunch = s.parkedAgentLaunch)
    (hcreates : t.creates = s.creates ++ [create]) (hwrites : t.writes = s.writes)
    (hnext : t.nextLaunch = s.nextLaunch + 1) (hwrite : t.nextWrite = s.nextWrite)
    (hlog : t.log = s.log) : Inv t := by
  have hwaiting : t.waiting = s.waiting ++ [s.nextLaunch] := by
    simp [State.waiting, hparked, hcreates, hlaunch]
  constructor
  · rw [hlog]; exact h.logged
  · rw [hlog]; exact h.answers
  · intro p hp
    rw [hpending] at hp
    obtain ⟨harmed, hfree⟩ := h.pending p hp
    rw [hlog, hwrites, hwaiting]
    refine ⟨harmed, fun hmem => ?_⟩
    rcases mem_snoc.mp hmem with hmem | hmem
    · exact hfree hmem
    · have hlt := harmed.issued h
      rw [hmem] at hlt
      exact Nat.lt_irrefl _ hlt
  · rw [hlog, hparked]; exact h.parked
  · rw [hlog, hcreates, List.map_append]
    intro launch hmem target name reused bar
    rcases mem_snoc.mp hmem with hmem | hmem
    · exact h.asking launch hmem target name reused bar
    · cases hmem
      exact h.unlogged rfl hlaunch.ge
  · rw [hwaiting]
    refine List.nodup_append.mpr ⟨h.waiting, List.nodup_singleton _, ?_⟩
    rintro launch hmem _ hlast rfl
    cases List.mem_singleton.mp hlast
    exact State.waiting_fresh h hmem
  · rw [hlog, hwaiting]
    intro launch hmem
    rcases mem_snoc.mp hmem with hmem | hmem
    · exact h.silent launch hmem
    · cases hmem
      exact ⟨h.unlogged rfl le_rfl, fun write into => h.unlogged rfl le_rfl⟩
  · rw [hwaiting, hnext]
    intro launch hmem
    rcases mem_snoc.mp hmem with hmem | hmem
    · exact Nat.lt_succ_of_lt (h.launches launch hmem)
    · cases hmem
      exact Nat.lt_succ_self _
  · rw [hlog, hnext]
    exact fun e he launch heq => Nat.lt_succ_of_lt (h.launchesLogged e he launch heq)
  · rw [hlog, hwrite]; exact h.writesLogged
  · rw [hlog, hwrites, hwrite]; exact h.flying
  · rw [hwrites]; exact h.flyingOnce

theorem createSession_inv (h : Inv s) (choice : Option C) : Inv (s.createSession deps choice) := by
  unfold State.createSession
  split
  · exact h
  · dsimp only
    split
    · split
      · exact h.same rfl
      · exact h.ask rfl rfl rfl rfl rfl rfl rfl rfl
    · exact h.same rfl

/-- A launch is in the slot of the session panel. -/
theorem Inv.park {s t : State F C} (h : Inv s) {parked : ParkedAgentLaunch C}
    (hnone : s.parkedAgentLaunch = none)
    (hcreated : ∃ name reused bar, .created parked.launch parked.target name reused bar ∈ s.log)
    (hfree : parked.launch ∉ s.waiting)
    (hsilent : .ended parked.launch ∉ s.log ∧ ∀ write into, .typed write parked.launch into ∉ s.log)
    (hother : ∀ p, s.pendingLaunch = some p → p.launch ≠ parked.launch)
    (hparked : t.parkedAgentLaunch = some parked) (hpending : t.pendingLaunch = s.pendingLaunch)
    (hcreates : t.creates = s.creates) (hwrites : t.writes = s.writes)
    (hlaunch : t.nextLaunch = s.nextLaunch) (hwrite : t.nextWrite = s.nextWrite)
    (hlog : t.log = s.log) : Inv t := by
  have hwaiting : t.waiting = parked.launch :: s.waiting := by
    simp [State.waiting, hparked, hcreates, hnone]
  have hissued : parked.launch < s.nextLaunch := by
    obtain ⟨name, reused, bar, hmem⟩ := hcreated
    exact h.launchesLogged _ hmem _ rfl
  constructor
  · rw [hlog]; exact h.logged
  · rw [hlog]; exact h.answers
  · intro p hp
    rw [hpending] at hp
    rw [hlog, hwrites, hwaiting]
    refine ⟨(h.pending p hp).1, fun hmem => ?_⟩
    rcases List.mem_cons.mp hmem with heq | hmem
    · exact hother p hp heq
    · exact (h.pending p hp).2 hmem
  · intro other heq
    rw [hparked] at heq
    cases heq
    rw [hlog]
    exact hcreated
  · rw [hlog, hcreates]; exact h.asking
  · rw [hwaiting]
    exact List.nodup_cons.mpr ⟨hfree, h.waiting⟩
  · rw [hlog, hwaiting]
    intro launch hmem
    rcases List.mem_cons.mp hmem with rfl | hmem
    · exact hsilent
    · exact h.silent launch hmem
  · rw [hwaiting, hlaunch]
    intro launch hmem
    rcases List.mem_cons.mp hmem with rfl | hmem
    · exact hissued
    · exact h.launches launch hmem
  · rw [hlog, hlaunch]; exact h.launchesLogged
  · rw [hlog, hwrite]; exact h.writesLogged
  · rw [hlog, hwrites, hwrite]; exact h.flying
  · rw [hwrites]; exact h.flyingOnce

/-- A number that no launch has. -/
theorem Inv.skip (h : Inv s) : Inv { s with nextLaunch := s.nextLaunch + 1 } :=
  { h with
    launches := fun launch hmem => Nat.lt_succ_of_lt (h.launches launch hmem)
    launchesLogged := fun e he launch heq => Nat.lt_succ_of_lt (h.launchesLogged e he launch heq) }

variable {result : StartSessionResult}

theorem parkAgentLaunch_inv (h : Inv s) (connectionId : Text) (folder : Text) (choice : C) (now : Int)
    (hc : result.reused = false) :
    Inv (s.parkAgentLaunch connectionId result folder choice now) := by
  unfold State.parkAgentLaunch
  split
  · exact h
  case h_2 name hname =>
    have hempty : Inv { s with parkedAgentLaunch := none } :=
      h.mono (.inr rfl) (.inl rfl) (.refl _) rfl
    have hnew : ∀ target name reused bar, .created s.nextLaunch target name reused bar ∉ s.log :=
      fun _ _ _ _ => h.unlogged rfl le_rfl
    have hlogged : Logged (s.log ++
        [.created s.nextLaunch (result.target connectionId name) name result.reused []]) := by
      rw [hc]
      exact h.logged.create (by simp) hnew
    have hnoted := hempty.skip.note hlogged (fun launch heq => by
        cases heq
        exact Nat.lt_succ_self _) rfl (by simp) (by simp) (fun launch hmem target name reused bar heq => by
        cases heq
        exact Nat.lt_irrefl _ (h.launches _ (List.mem_append_right _ hmem)))
    refine hnoted.park rfl ⟨_, _, _, List.mem_append_right _ (List.mem_singleton.mpr rfl)⟩
      (fun hmem => Nat.lt_irrefl _ (hempty.launches _ hmem)) ⟨fun hmem => ?_, fun write into hmem => ?_⟩
      (fun p hp heq => ?_) rfl rfl rfl rfl rfl rfl rfl
    · exact h.unlogged rfl le_rfl (mem_snoc_of_ne hmem (by simp))
    · exact h.unlogged rfl le_rfl (mem_snoc_of_ne hmem (by simp))
    · have hlt := (h.pending p hp).1.issued h
      rw [heq] at hlt
      exact Nat.lt_irrefl _ hlt

theorem collectParked_inv (h : Inv s) {now : Int}
    (hc : Careful deps s (.collectParked now)) : Inv (s.collectParked deps now) := by
  unfold State.collectParked
  cases hp : s.parkedAgentLaunch with
  | none => exact h
  | some parked =>
    dsimp only
    split
    · exact h
    case isFalse htab =>
      have htab : parked.session ∈ s.tabs deps := by simpa using htab
      split
      · exact h.mono (.inr rfl) (.inl rfl) (.refl _) rfl
      case isFalse hlive =>
        split
        case isFalse => exact h
        case isTrue hof =>
          have hempty : Inv { s with parkedAgentLaunch := none, selected := some parked.session } :=
            h.mono (.inr rfl) (.inl rfl) (.refl _) rfl
          have hmem : parked.launch ∈ s.waiting := by simp [State.waiting, hp]
          have hfree : parked.launch ∉ s.creates.map (·.launch) := by
            have hnodup := h.waiting
            simp only [State.waiting, hp, Option.toList_some, List.map_cons, List.map_nil,
              List.singleton_append, List.nodup_cons] at hnodup
            exact hnodup.1
          exact armLaunch_inv deps hempty parked.choice (hc parked hp htab (by omega) hof)
            (h.parked parked hp) (h.silent _ hmem).1 (h.silent _ hmem).2 hfree

variable {i : Nat}

/-- What has a key of its own is gone once it is erased. -/
theorem key_erased {α β : Type} {f : α → β} {l : List α} {x : α}
    (h : (l.map f).Nodup) (hi : l[i]? = some x) : f x ∉ (l.eraseIdx i).map f := by
  intro hmem
  obtain ⟨other, hother, heq⟩ := List.mem_map.mp hmem
  obtain ⟨j, hne, hj⟩ := List.mem_eraseIdx_iff_getElem?.mp hother
  have hlt : j < (l.map f).length := by
    rw [List.length_map]
    exact (List.getElem?_eq_some_iff.mp hj).1
  have hsame : (l.map f)[j]? = (l.map f)[i]? := by
    rw [List.getElem?_map, List.getElem?_map, hi, hj, Option.map_some, Option.map_some, heq]
  exact hne ((List.getElem?_inj hlt h).mp hsame)

/-- What is not erased stays. -/
theorem mem_erased {α : Type} {l : List α} {x y : α} (hi : l[i]? = some x) (hy : y ∈ l)
    (hne : y ≠ x) : y ∈ l.eraseIdx i := by
  obtain ⟨j, hj⟩ := List.mem_iff_getElem?.mp hy
  refine List.mem_eraseIdx_iff_getElem?.mpr ⟨j, ?_, hj⟩
  rintro rfl
  rw [hi, Option.some.injEq] at hj
  exact hne hj.symm

/-- A create that is answered no longer waits. -/
theorem Inv.unasked (h : Inv s) (hi : s.creates[i]? = some create) :
    create.launch ∉ State.waiting { s with creates := s.creates.eraseIdx i } := by
  obtain ⟨-, hnodup, hdisjoint⟩ := List.nodup_append.mp h.waiting
  have hmem : create.launch ∈ s.creates.map (·.launch) :=
    List.mem_map.mpr ⟨create, List.mem_of_getElem? hi, rfl⟩
  intro hwaiting
  rcases List.mem_append.mp hwaiting with hparked | hother
  · exact hdisjoint _ hparked _ hmem rfl
  · exact key_erased hnodup hi hother

theorem created_inv (h : Inv s) {name : Text} {now : Int} (hi : s.creates[i]? = some create)
    (hname : result.started = some name)
    (hc : Careful deps s (.started i (.result result) now)) :
    Inv (State.created deps { s with creates := s.creates.eraseIdx i } create result name now) := by
  have herased : Inv { s with creates := s.creates.eraseIdx i } :=
    h.mono (.inr rfl) (.inr rfl) ((List.eraseIdx_sublist _ _).map _) rfl
  have hfree := h.unasked hi
  have hmem : create.launch ∈ s.creates.map (·.launch) :=
    List.mem_map.mpr ⟨create, List.mem_of_getElem? hi, rfl⟩
  have hwaiting : create.launch ∈ s.waiting := List.mem_append_right _ hmem
  unfold State.created
  split
  · exact herased.same rfl
  case isFalse hnew =>
    simp only [Bool.or_eq_true, not_or, Bool.not_eq_true, List.contains_eq_mem,
      decide_eq_false_iff_not] at hnew
    have hlogged : Logged (s.log ++ [.created create.launch (result.target create.connectionId name)
        name result.reused create.before]) := by
      rw [hnew.1]
      exact h.logged.create hnew.2 (h.asking _ hmem)
    have hnoted := herased.note hlogged (fun launch heq => by
        cases heq
        exact h.launches _ hwaiting) rfl (by simp) (by simp) (fun launch hlaunch target name reused bar heq => by
        cases heq
        exact hfree (List.mem_append_right _ hlaunch))
    dsimp only
    split
    · exact hnoted.same rfl
    case isFalse htab =>
      have htab : name ∈ (s.filed create result name now).tabs deps := by
        refine List.contains_iff_mem.mp ?_
        cases hcontains : ((s.filed create result name now).tabs deps).contains name with
        | true => rfl
        | false => exact absurd (congrArg (!·) hcontains) htab
      cases hchoice : create.choice with
      | none => exact hnoted.same rfl
      | some choice =>
        have hready : Inv { (State.addLog { s with creates := s.creates.eraseIdx i }
            (.created create.launch (result.target create.connectionId name) name result.reused
              create.before)).filed create result name now with selected := some name } :=
          hnoted.same rfl
        refine armLaunch_inv deps hready choice ?_
          ⟨_, _, _, List.mem_append_right _ (List.mem_singleton.mpr rfl)⟩ (fun hold => ?_)
          (fun write into hold => ?_) hfree
        · exact hc create result name hi rfl hname hnew.1 hnew.2 (by simp [hchoice]) htab
        · exact (h.silent _ hwaiting).1 (mem_snoc_of_ne hold (by simp))
        · exact (h.silent _ hwaiting).2 write into (mem_snoc_of_ne hold (by simp))

theorem set_same {α : Type} {l : List α} {x : α} (h : l[i]? = some x) : l.set i x = l := by
  induction l generalizing i with
  | nil => rfl
  | cons head rest ih =>
    cases i with
    | zero =>
      cases h
      rfl
    | succ i => rw [List.set_cons_succ, ih h]

theorem started_inv (h : Inv s) {answer : Answer}
    {now : Int} (hi : s.creates[i]? = some create) (hc : Careful deps s (.started i answer now)) :
    Inv (s.started deps i create answer now) := by
  have herased : Inv { s with creates := s.creates.eraseIdx i } :=
    h.mono (.inr rfl) (.inr rfl) ((List.eraseIdx_sublist _ _).map _) rfl
  unfold State.started
  cases answer with
  | rejected message => exact herased.same rfl
  | result result =>
    cases hname : result.started with
    | some name =>
      simp only [hname]
      exact created_inv deps h hi hname hc
    | none =>
      simp only [hname]
      split
      · have hset : ∀ uncertain, (s.creates.set i { create with uncertain }).map (·.launch) =
            s.creates.map (·.launch) := by
          intro uncertain
          rw [List.map_set]
          exact set_same (by rw [List.getElem?_map, hi, Option.map_some])
        exact h.mono (.inr rfl) (.inr rfl) (by rw [hset]) rfl
      · exact herased.same rfl

theorem watchShell_inv (h : Inv s) (hc : Careful deps s .watchShell) : Inv s.watchShell := by
  unfold State.watchShell
  dsimp only
  split
  · exact h
  case isFalse hseen =>
    split
    case h_2 => exact h.same rfl
    case h_1 p shell hp hshell =>
      have hp : s.pendingLaunch = some p := hp
      have hshell : s.shellOfLaunch = some shell := hshell
      obtain ⟨hconnection, hfree⟩ := hc p shell hp hshell
        fun heq => hseen (by rw [hshell, heq, Option.map_some])
      obtain ⟨harmed, hwaiting⟩ := h.pending p hp
      have hinto : (⟨shell.connectionId, p.key⟩ : Target) = p.target := by
        rw [hconnection, harmed.key]
      have hanswered : ∀ write into, .typed write p.launch into ∈ s.log →
          .answered write false ∈ s.log := by
        intro write into hmem
        obtain hflying | hfalse := harmed.typed write into hmem
        · exact absurd rfl (hfree _ hflying)
        · exact hfalse
      rw [hinto]
      refine ⟨h.logged.type harmed.created harmed.quiet (fun e he other heq =>
          h.writesLogged e he other heq) hanswered, fun write delivered delivered' hmem hmem' => ?_,
        fun q hq => ?_, fun parked hparked => ?_, fun launch hl target name reused bar hmem => ?_,
        h.waiting, fun launch hl => ⟨fun hmem => ?_, fun write into hmem => ?_⟩, h.launches,
        fun e hmem launch heq => ?_, fun e hmem write heq => ?_, fun write hw => ?_, ?_⟩
      · exact h.answers write _ _ (mem_snoc_of_ne hmem (by simp)) (mem_snoc_of_ne hmem' (by simp))
      · cases hp.symm.trans hq
        obtain ⟨name, reused, bar, hcreated⟩ := harmed.created
        refine ⟨⟨harmed.key, ⟨name, reused, bar, List.mem_append_left _ hcreated⟩,
          fun hmem => harmed.quiet (mem_snoc_of_ne hmem (by simp)), fun write into hmem => ?_⟩,
          hwaiting⟩
        rcases mem_snoc.mp hmem with hmem | hmem
        · exact .inr (List.mem_append_left _ (hanswered write into hmem))
        · cases hmem
          exact .inl (List.mem_append_right _ (List.mem_singleton.mpr rfl))
      · obtain ⟨name, reused, bar, hcreated⟩ := h.parked parked hparked
        exact ⟨name, reused, bar, List.mem_append_left _ hcreated⟩
      · exact h.asking launch hl target name reused bar (mem_snoc_of_ne hmem (by simp))
      · exact (h.silent launch hl).1 (mem_snoc_of_ne hmem (by simp))
      · rcases mem_snoc.mp hmem with hmem | hmem
        · exact (h.silent launch hl).2 write into hmem
        · cases hmem
          exact hwaiting hl
      · rcases mem_snoc.mp hmem with hmem | hmem
        · exact h.launchesLogged e hmem launch heq
        · cases hmem
          cases heq
          exact harmed.issued h
      · rcases mem_snoc.mp hmem with hmem | hmem
        · exact Nat.lt_succ_of_lt (h.writesLogged e hmem write heq)
        · cases hmem
          cases heq
          exact Nat.lt_succ_self _
      · rcases mem_snoc.mp hw with hw | hw
        · exact ⟨Nat.lt_succ_of_lt (h.flying write hw).1,
            fun delivered hmem => (h.flying write hw).2 delivered (mem_snoc_of_ne hmem (by simp))⟩
        · cases hw
          refine ⟨Nat.lt_succ_self _, fun delivered hmem => ?_⟩
          exact Nat.lt_irrefl _ (h.writesLogged _ (mem_snoc_of_ne hmem (by simp)) _ rfl)
      · rw [State.addLog, List.map_append]
        refine List.nodup_append.mpr ⟨h.flyingOnce, List.nodup_singleton _, ?_⟩
        rintro id hmem other hother rfl
        cases List.mem_singleton.mp hother
        obtain ⟨write, hw, heq⟩ := List.mem_map.mp hmem
        have hlt := (h.flying write hw).1
        rw [heq] at hlt
        exact Nat.lt_irrefl _ hlt

/-- A write is answered. -/
theorem Inv.answer (h : Inv s) {write : Write} {delivered : Bool}
    (hi : s.writes[i]? = some write) (hpending : delivered = true → s.pendingLaunch = none) :
    Inv (State.addLog { s with writes := s.writes.eraseIdx i } (.answered write.id delivered)) := by
  have hflying := h.flying write (List.mem_of_getElem? hi)
  have hsub : (s.writes.eraseIdx i).Sublist s.writes := List.eraseIdx_sublist _ _
  refine ⟨h.logged.snoc (by simp) (by simp) (by simp), fun w d d' hd hd' => ?_, fun p hp => ?_,
    fun parked hparked => ?_, fun launch hl target name reused bar hcreated => ?_, h.waiting,
    fun launch hl => ⟨fun hended => ?_, fun w into htyped => ?_⟩, h.launches,
    fun e he launch heq => ?_, fun e he w heq => ?_, fun w hw => ⟨?_, fun d hd => ?_⟩,
    h.flyingOnce.sublist (hsub.map _)⟩
  · rcases List.mem_append.mp hd with hd | hd <;> rcases List.mem_append.mp hd' with hd' | hd'
    · exact h.answers w d d' hd hd'
    · cases List.mem_singleton.mp hd'
      exact absurd hd (hflying.2 d)
    · cases List.mem_singleton.mp hd
      exact absurd hd' (hflying.2 d')
    · cases List.mem_singleton.mp hd
      cases List.mem_singleton.mp hd'
      rfl
  · obtain ⟨harmed, hfree⟩ := h.pending p hp
    obtain ⟨name, reused, bar, hcreated⟩ := harmed.created
    refine ⟨⟨harmed.key, ⟨name, reused, bar, List.mem_append_left _ hcreated⟩,
      fun hended => harmed.quiet (mem_snoc_of_ne hended (by simp)), fun w into htyped => ?_⟩, hfree⟩
    obtain hfly | hfalse := harmed.typed w into (mem_snoc_of_ne htyped (by simp))
    · by_cases heq : (⟨w, p.launch⟩ : Write) = write
      · cases delivered with
        | true => cases (hpending rfl).symm.trans hp
        | false =>
          refine .inr (List.mem_append_right _ (List.mem_singleton.mpr ?_))
          rw [← heq]
      · exact .inl (mem_erased hi hfly heq)
    · exact .inr (List.mem_append_left _ hfalse)
  · obtain ⟨name, reused, bar, hcreated⟩ := h.parked parked hparked
    exact ⟨name, reused, bar, List.mem_append_left _ hcreated⟩
  · exact h.asking launch hl target name reused bar (mem_snoc_of_ne hcreated (by simp))
  · exact (h.silent launch hl).1 (mem_snoc_of_ne hended (by simp))
  · exact (h.silent launch hl).2 w into (mem_snoc_of_ne htyped (by simp))
  · rcases mem_snoc.mp he with he | he
    · exact h.launchesLogged e he launch heq
    · cases he
      cases heq
  · rcases mem_snoc.mp he with he | he
    · exact h.writesLogged e he w heq
    · cases he
      cases heq
      exact hflying.1
  · exact (h.flying w (hsub.subset hw)).1
  · rcases mem_snoc.mp hd with hd | hd
    · exact (h.flying w (hsub.subset hw)).2 d hd
    · have hid : w.id = write.id ∧ d = delivered := by simpa using hd
      refine key_erased h.flyingOnce hi ?_
      rw [← hid.1]
      exact List.mem_map_of_mem (f := (·.id)) hw

theorem inputAnswered_inv (h : Inv s) {write : Write} {delivered : Bool}
    (hi : s.writes[i]? = some write) (hc : Careful deps s (.inputAnswered i delivered)) :
    Inv (s.inputAnswered i write delivered) := by
  unfold State.inputAnswered
  cases delivered with
  | false => exact h.answer hi (by simp)
  | true =>
    have hcleared : Inv { s with pendingLaunch := none } :=
      h.mono (.inl rfl) (.inr rfl) (.refl _) rfl
    have hanswered : Inv (State.addLog
        { s with pendingLaunch := none, writes := s.writes.eraseIdx i } (.answered write.id true)) :=
      hcleared.answer hi fun _ => rfl
    dsimp only
    rw [if_pos rfl]
    cases hp : s.pendingLaunch with
    | none =>
      simp only [State.addLog]
      exact hanswered.same rfl
    | some p =>
      have hown : p.launch = write.launch := hc rfl write p hi hp
      have hlogged : Logged (s.log ++ [.answered write.id true] ++
          [.disarmed p.launch write.launch]) := by
        refine hanswered.logged.snoc (by simp) (by simp) fun launch other heq => ?_
        cases heq
        exact hown
      have hnoted := hanswered.note hlogged (by simp [Event.launch]) rfl (by simp) (by simp) (by simp)
      simp only [State.addLog]
      exact hnoted.same rfl

/-! ## 5. Steps -/

theorem inv_step (h : Inv s) {a : Action F C} (hc : Careful deps s a) : Inv (s.step deps a) := by
  cases a with
  | openLaunchDialog => exact h.same rfl
  | createSession choice => exact createSession_inv deps h choice
  | started i answer now =>
    simp only [State.step]
    split
    case h_1 create hi =>
      split
      · exact h
      · exact started_inv deps h hi hc
    case h_2 => exact h
  | refreshed i =>
    simp only [State.step]
    split
    · split
      · exact h.mono (.inr rfl) (.inr rfl) ((List.eraseIdx_sublist _ _).map _) rfl
      · exact h
    · exact h
  | parkAgentLaunch connectionId result folder choice now =>
    exact parkAgentLaunch_inv h connectionId folder choice now hc
  | collectParked now => exact collectParked_inv deps h hc
  | watchShell => exact watchShell_inv deps h hc
  | inputAnswered i delivered =>
    simp only [State.step]
    split
    case h_1 write hi => exact inputAnswered_inv deps h hi hc
    case h_2 => exact h
  | timeOut => exact timeOut_inv deps h
  | cancelPendingLaunch => exact cancelPendingLaunch_inv h
  | register key shell =>
    simp only [State.step, State.register]
    split
    · exact h
    · exact h.same rfl
  | unregister key shellId =>
    simp only [State.step, State.unregister]
    split
    · exact h
    · split
      · exact h
      · exact h.same rfl
  | showFolder folder =>
    exact (cancelPendingLaunch_inv h).same rfl
  | clearShells | connect | list => exact h.same rfl

/-! ## 6. Runs -/

theorem inv_run (h : Inv s) : ∀ {actions : List (Action F C)},
    CarefulFrom deps s actions → Inv (actions.foldl (State.step deps) s) := by
  intro actions
  induction actions generalizing s with
  | nil => exact fun _ => h
  | cons a rest ih => exact fun ⟨hc, hrest⟩ => ih (inv_step deps h hc) hrest

end PocketShell.SessionTabs.Launch
