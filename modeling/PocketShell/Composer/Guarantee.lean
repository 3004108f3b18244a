import PocketShell.Coop.Discipline
import PocketShell.Composer.Invariant

/-!
# What composer delivery guarantees

* `discipline`: an operation owns its number until its result is out.
* `Triple`: what an async function of one operation does, with what holds after a
  result and what holds after an error.
* `delivery`: the guarantee.
-/

namespace PocketShell.Composer

open Coop (Async Thread System Discipline)
open Js (Text ascii)

variable {options : ComposerDeliveryOptions} {n : Nat} {s s' : State} {tr : Transport}
  {request : ComposerDeliveryRequest} {written : List (List UInt8)} {α β : Type}

def discipline (options : ComposerDeliveryOptions) : Discipline (controller options) Nat where
  ok := System.any
  inv := Inv
  base := Later
  keep := Kept
  minted s := {n | n ≤ s.queue}
  held s := {n | n ∈ s.settled}
  owed := Set.univ
  carry q := {q.1}
  seg _ _ _ := True
  loopInv l := l.elim
  base_refl := Later.refl
  base_trans _ _ _ := Later.trans
  keep_refl := Kept.refl
  keep_trans _ _ _ _ := Kept.trans
  loop_mono l := l.elim

/-- The thread of operation `n` has the turn. -/
structure At (n : Nat) (s : State) : Prop where
  inv : Inv s
  born : n ≤ s.queue
  unsettled : n ∉ s.settled

/-- The thread keeps the discipline when it runs for `n` from `s`. -/
def Runs (options : ComposerDeliveryOptions) (n : Nat) (t : Thread State Ans Empty) (s : State) : Prop :=
  (discipline options).wp t {n} s fun s' => Inv s' ∧ True

theorem At.owns (h : At n s) : (discipline options).Owns {n} s :=
  ⟨Set.singleton_subset_iff.mpr h.born, Set.disjoint_singleton_left.mpr h.unsettled⟩

theorem Runs.write {k : Thread State Ans Empty} (ha : At n s) (w : Write n s s')
    (h : At n s' → Runs options n k s') : Runs options n (.write s' k) s := by
  obtain ⟨_, hq, hset⟩ := w.frame
  have ha' : At n s' := ⟨ha.inv.write ha.born ha.unsettled w, hq ▸ ha.born, hset ▸ ha.unsettled⟩
  refine Discipline.wp_write ha.owns w.later ?_ ?_ (fun m _ hm => w.kept hm) (h ha')
  · show {m | m ≤ s'.queue} = {m | m ≤ s.queue}
    rw [hq]
  · show {m | m ∈ s'.settled} = {m | m ∈ s.settled}
    rw [hset]

theorem Runs.ask {c : Call} {k : Ans (n, c) → Thread State Ans Empty} (ha : At n s)
    (h : ∀ s₁ a, Later s s₁ → Kept n s s₁ → At n s₁ → (controller options).ready s₁ (n, c) a = true →
      Runs options n (k a) s₁) : Runs options n (.await (n, c) k) s := by
  refine ⟨fun m hm _ => hm, ⟨ha.inv, trivial⟩, fun s₁ a hr ho hi hready _ => ?_⟩
  exact h s₁ a hr.1 (hr.2 n rfl)
    ⟨hi, ho.1 rfl, fun hm => Set.disjoint_left.mp ho.2 rfl hm⟩ hready

/-! ## Triples -/

/-- From `P` the function ends with a result and `Q`, or throws and leaves `E`. -/
def Triple (options : ComposerDeliveryOptions) (n : Nat) (P : State → Prop) (p : Ctl α)
    (Q : α → State → Prop) (E : State → Prop) : Prop :=
  ∀ s K err, At n s → P s → (∀ a s', At n s' → Q a s' → Runs options n (K a) s') →
    (∀ e s', At n s' → E s' → Runs options n (err e) s') → Runs options n (p n K err) s

/-- The others leave `P` alone. -/
def Stable (n : Nat) (P : State → Prop) : Prop := ∀ s s', Later s s' → Kept n s s' → P s → P s'

variable {P : State → Prop} {E : State → Prop}

theorem Triple.bind {p : Ctl α} {f : α → Ctl β} {Q : α → State → Prop}
    {R : β → State → Prop} (hp : Triple options n P p Q E)
    (hf : ∀ a, Triple options n (Q a) (f a) R E) : Triple options n P (p >>= f) R E := by
  intro s K err ha hP hK herr
  rw [Async.bind_apply]
  exact hp s _ err ha hP (fun a s₁ ha₁ hQ => hf a s₁ K err ha₁ hQ hK herr) herr

theorem Triple.awaited {p : Ctl α} {Q : α → State → Prop}
    (h : Triple options n P p Q E) (hQ : ∀ a, Stable n (Q a)) (hE : Stable n E) :
    Triple options n P (Ctl.awaited n p) Q E := by
  intro s K err ha hP hK herr
  simp only [Ctl.awaited, Async.bind_apply, Async.attempt_apply]
  refine h s _ _ ha hP (fun a s₁ ha₁ hq => ?_) fun e s₁ ha₁ he => ?_
  · exact Runs.ask ha₁ fun s₂ _ hl hk ha₂ _ => hK a s₂ ha₂ (hQ a s₁ s₂ hl hk hq)
  · exact Runs.ask ha₁ fun s₂ _ hl hk ha₂ _ => herr e s₂ ha₂ (hE s₁ s₂ hl hk he)

/-! ## What an operation knows -/

/-- Operation `n` was accepted over `tr`, and has its turn. -/
structure Started (n : Nat) (tr : Transport) (request : ComposerDeliveryRequest) (s : State) : Prop where
  accepted : ⟨tr, .accepted n request⟩ ∈ s.log
  turn : ∀ m < n, m ∈ s.settled

/-- It has written these segments, each acknowledged, over `tr`. -/
structure Progressing (n : Nat) (tr : Transport) (request : ComposerDeliveryRequest)
    (written : List (List UInt8)) (s : State) : Prop where
  started : Started n tr request s
  connected : tr.state = .connected
  steps : steps n s.log = complete tr written
  count : (s.progress n).writeCount = written.length

/-- It will not write the rest. -/
structure Failing (n : Nat) (tr : Transport) (request : ComposerDeliveryRequest) (s : State) : Prop where
  started : Started n tr request s
  incomplete : steps n s.log ≠ complete tr (segments request)
  count : (s.progress n).writeCount = 0 → steps n s.log = []

theorem Started.later (h : Started n tr request s) (hl : Later s s') : Started n tr request s' :=
  ⟨hl.log h.accepted, fun m hm => hl.settled (h.turn m hm)⟩

theorem Progressing.stable : Stable n (Progressing n tr request written) := fun _ _ hl hk h =>
  ⟨h.started.later hl, h.connected, hk.steps.trans h.steps, by rw [hk.progress]; exact h.count⟩

theorem Failing.stable : Stable n (Failing n tr request) := fun _ _ hl hk h =>
  ⟨h.started.later hl, by rw [hk.steps]; exact h.incomplete,
    by rw [hk.progress, hk.steps]; exact h.count⟩

/-- A generation stands for one transport. -/
theorem Started.transport (h : Started n tr request s) (hi : Inv s)
    (hg : s.transport.generation = tr.generation) : s.transport = tr :=
  ((hi.clock _ h.accepted).2 hg.symm).symm

theorem Started.isCurrent (h : Started n tr request s) (hi : Inv s) (hc : tr.state = .connected) :
    s.isCurrent tr.generation = true ↔ s.transport = tr := by
  simp only [State.isCurrent, Bool.and_eq_true, decide_eq_true_eq]
  refine ⟨fun hcur => h.transport hi hcur.2, fun he => ?_⟩
  rw [he]
  exact ⟨hc, rfl⟩

/-- While segments are left it is not complete. -/
theorem Progressing.failing (h : Progressing n tr request written s)
    (hlt : written.length < (segments request).length) : Failing n tr request s := by
  refine ⟨h.started, fun he => ?_, fun hz => ?_⟩
  · have hlen := congrArg List.length (h.steps.symm.trans he)
    rw [complete_length, complete_length] at hlen
    omega
  · have hnil : written = [] := List.eq_nil_of_length_eq_zero (h.count.symm.trans hz)
    rw [h.steps, hnil]
    rfl

/-! ## The functions -/

theorem failIfStale_spec {K : Unit → Thread State Ans Empty} {err : String → Thread State Ans Empty}
    (ha : At n s) (h : Started n tr request s) (hc : tr.state = .connected)
    (hK : s.transport = tr → Runs options n (K ()) s)
    (herr : s.transport ≠ tr → ∀ e, Runs options n (err e) s) :
    Runs options n (Ctl.failIfStale tr.generation n K err) s := by
  have hcur := h.isCurrent ha.inv hc
  unfold Ctl.failIfStale
  simp only [Async.bind_apply, Async.get_apply, Runs, Discipline.wp_read]
  split
  · next hstale =>
    refine herr (fun he => ?_) _
    rw [hcur.mpr he] at hstale
    cases hstale
  · next hlive =>
    refine hK (hcur.mp ?_)
    simpa using hlive

theorem write_triple {text : Text} (hlt : written.length < (segments request).length) :
    Triple options n (Progressing n tr request written) (Ctl.write n request tr.generation text)
      (fun _ => Progressing n tr request (written ++ [encodeComposerText text]))
      (Failing n tr request) := by
  intro s K err ha h hK herr
  simp only [Ctl.write, Async.bind_apply, Async.modify_apply, Async.get_apply]
  refine failIfStale_spec ha h.started h.connected (fun htr => ?_)
    fun _ e => herr e s ha (h.failing hlt)
  -- the write is counted, then entered
  let s₁ := s.setProgress n fun p =>
    ⟨p.bytesAttempted + (encodeComposerText text).length, p.writeCount + 1, .write⟩
  have hcount : (s₁.progress n).writeCount = written.length + 1 := by
    rw [State.setProgress_same, h.count]
  refine Runs.write ha (.progress _) fun ha₁ => ?_
  simp only [Runs, Discipline.wp_read]
  have w : Write n s₁ (s₁.addLog (.wrote n (encodeComposerText text)
      ⟨request.operationId, (s₁.progress n).writeCount⟩)) := by
    refine .wrote request _ _ (htr ▸ h.connected) h.started.turn ?_ rfl
    rw [State.setProgress_transport, htr]
    exact h.started.accepted
  refine Runs.write ha₁ w fun ha₂ => Runs.ask ha₂ fun s₃ a hl hk ha₃ _ => ?_
  have hs₁ : Started n tr request s₁ := h.started.later (Write.progress (n := n) _).later
  have hs₃ : Started n tr request s₃ := (hs₁.later w.later).later hl
  have hcount₃ : (s₃.progress n).writeCount = written.length + 1 := by
    rw [hk.progress]
    exact hcount
  have hsteps₃ : steps n s₃.log = complete tr written ++ [(tr, .wrote (encodeComposerText text))] := by
    rw [hk.steps, State.addLog_log, steps_snoc, State.setProgress_log, h.steps,
      State.setProgress_transport, htr]
    simp [Event.stepOf]
  cases a with
  | ok a =>
    refine Runs.write ha₃ .acknowledged fun ha₄ => ?_
    have hs₄ : Started n tr request (s₃.addLog (.acknowledged n)) := hs₃.later (.addLog _ _)
    have hsteps₄ : steps n (s₃.addLog (.acknowledged n)).log =
        complete tr written ++ [(tr, .wrote (encodeComposerText text)), (s₃.transport, .acknowledged)] := by
      rw [State.addLog_log, steps_snoc, hsteps₃]
      simp [Event.stepOf]
    refine failIfStale_spec ha₄ hs₄ h.connected (fun htr₄ => hK () _ ha₄ ?_) fun htr₄ e =>
      herr e _ ha₄ ?_
    · have htr₃ : s₃.transport = tr := htr₄
      refine ⟨hs₄, h.connected, ?_, ?_⟩
      · rw [hsteps₄, htr₃, complete_snoc]
      · rw [List.length_append, List.length_singleton]
        exact hcount₃
    · -- the acknowledgement came over another transport
      refine ⟨hs₄, fun he => ?_, fun hz => ?_⟩
      · have hmem : (s₃.transport, OpStep.acknowledged) ∈ complete tr (segments request) := by
          rw [← he, hsteps₄]
          simp
        exact htr₄ (mem_complete hmem).1
      · have hz' : (s₃.progress n).writeCount = 0 := hz
        omega
  | error e =>
    refine Runs.write ha₃ .rejected fun ha₄ => herr e _ ha₄ ⟨hs₃.later (.addLog _ _), fun he => ?_, fun hz => ?_⟩
    · have hmem : (s₃.transport, OpStep.rejected) ∈ complete tr (segments request) := by
        rw [← he, State.addLog_log, steps_snoc, hsteps₃]
        simp [Event.stepOf]
      exact (mem_complete hmem).2 rfl
    · have hz' : (s₃.progress n).writeCount = 0 := hz
      omega

theorem pause_triple {ms : Int} (hlt : written.length < (segments request).length) :
    Triple options n (Progressing n tr request written) (Ctl.pause n tr.generation ms)
      (fun _ => Progressing n tr request written) (Failing n tr request) := by
  intro s K err ha h hK herr
  unfold Ctl.pause
  split
  · exact hK () s ha h
  · simp only [Async.bind_apply, Async.modify_apply]
    refine failIfStale_spec ha h.started h.connected (fun _ => ?_)
      fun _ e => herr e s ha (h.failing hlt)
    refine Runs.write ha (.progress _) fun ha₁ => Runs.ask ha₁ fun s₂ a hl hk ha₂ _ => ?_
    have h₂ : Progressing n tr request written s₂ := by
      refine Progressing.stable _ _ hl hk ⟨?_, h.connected, h.steps, ?_⟩
      · exact h.started.later (Write.progress (n := n) _).later
      · rw [State.setProgress_same]
        exact h.count
    cases a with
    | ok a =>
      exact failIfStale_spec ha₂ h₂.started h₂.connected (fun _ => hK () s₂ ha₂ h₂)
        fun _ e => herr e s₂ ha₂ (h₂.failing hlt)
    | error e => exact herr e s₂ ha₂ (h₂.failing hlt)

theorem writeParts_triple (parts : List Text) :
    ∀ written, written.length + parts.length ≤ (segments request).length →
      Triple options n (Progressing n tr request written)
        (Ctl.writeParts options n request tr.generation parts)
        (fun _ => Progressing n tr request (written ++ parts.map encodeComposerText))
        (Failing n tr request) := by
  induction parts with
  | nil =>
    intro written _ s K err ha h hK _
    refine hK () s ha ?_
    rw [List.map_nil, List.append_nil]
    exact h
  | cons part parts ih =>
    intro written hle
    rw [List.length_cons] at hle
    have hlt : written.length < (segments request).length := by omega
    have hwrite : Triple options n (Progressing n tr request written)
        (Ctl.awaited n (Ctl.write n request tr.generation part))
        (fun _ => Progressing n tr request (written ++ [encodeComposerText part]))
        (Failing n tr request) :=
      (write_triple hlt).awaited (fun _ => Progressing.stable) Failing.stable
    cases parts with
    | nil => exact hwrite
    | cons part' parts =>
      rw [List.length_cons] at hle
      have hlen : (written ++ [encodeComposerText part]).length < (segments request).length := by
        rw [List.length_append, List.length_singleton]
        omega
      refine hwrite.bind fun _ => Triple.bind ((pause_triple hlen).awaited
        (fun _ => Progressing.stable) Failing.stable) fun _ => ?_
      have hrest := ih (written ++ [encodeComposerText part])
        (by rw [List.length_append, List.length_singleton, List.length_cons]; omega)
      rwa [List.append_assoc] at hrest

/-- A result whose verdict stands. -/
def Judged (n : Nat) (tr : Transport) (request : ComposerDeliveryRequest)
    (result : ComposerDeliveryResult) (s : State) : Prop :=
  Started n tr request s ∧ Verdict tr request (steps n s.log) result

theorem deliverAll_triple : Triple options n (Progressing n tr request [])
    (Ctl.deliverAll options n request tr.generation) (Judged n tr request) (Failing n tr request) := by
  have hdone : ∀ s K err, At n s → Progressing n tr request (segments request) s →
      (∀ result s', At n s' → Judged n tr request result s' → Runs options n (K result) s') →
      Runs options n ((do
        let progress := (← get).progress n
        return ⟨.delivered, request.operationId, request.intent, .clear, progress.bytesAttempted,
          progress.writeCount⟩ : Ctl ComposerDeliveryResult) n K err) s := by
    intro s K err ha h hK
    refine hK _ s ha ⟨h.started, ⟨fun _ => ⟨h.connected, h.steps⟩, fun _ => rfl⟩, ?_, ?_⟩
    · intro reason he
      cases he
    · intro _ hne
      exact absurd rfl hne
  unfold Ctl.deliverAll
  refine (writeParts_triple (composerPayloadSegments request.payload) [] ?_).bind fun _ => ?_
  · simp [segments]
  intro s K err ha h hK herr
  split
  · next hsubmit =>
    have hsegs : segments request =
        (composerPayloadSegments request.payload).map encodeComposerText ++
          [encodeComposerText SUBMIT_KEY] := by
      rw [segments, if_pos hsubmit, List.map_append]
      rfl
    have hlt : ([] ++ (composerPayloadSegments request.payload).map encodeComposerText).length <
        (segments request).length := by
      rw [hsegs, List.nil_append, List.length_append, List.length_singleton]
      exact Nat.lt_succ_self _
    simp only [Async.bind_apply]
    refine (pause_triple hlt).awaited (fun _ => Progressing.stable) Failing.stable s _ err ha h
      (fun _ s₁ ha₁ h₁ => ?_) herr
    refine (write_triple hlt).awaited (fun _ => Progressing.stable) Failing.stable s₁ _ err ha₁ h₁
      (fun _ s₂ ha₂ h₂ => ?_) herr
    rw [List.nil_append, ← hsegs] at h₂
    exact hdone s₂ K err ha₂ h₂ hK
  · next hinsert =>
    have hsegs : segments request =
        (composerPayloadSegments request.payload).map encodeComposerText := by
      rw [segments, if_neg hinsert, List.append_nil]
    rw [List.nil_append, ← hsegs] at h
    exact hdone s K err ha h hK

theorem deliverFailed_triple {e : String} : Triple options n (Failing n tr request)
    (Ctl.deliverFailed n request tr.generation e) (Judged n tr request) fun _ => False := by
  intro s K err ha h hK _
  unfold Ctl.deliverFailed
  simp only [Async.bind_apply, Async.get_apply, Runs, Discipline.wp_read]
  split
  · next hz =>
    refine hK _ s ha ⟨h.started, ⟨fun he => (by cases he), fun he => absurd he.2 h.incomplete⟩,
      fun _ _ => h.count hz, fun hne => absurd (h.count hz) hne⟩
  · exact hK _ s ha ⟨h.started, ⟨fun he => (by cases he), fun he => absurd he.2 h.incomplete⟩,
      fun _ he => (by cases he), fun _ _ => ⟨⟨_, _, _, rfl⟩, rfl⟩⟩

/-- An operation that was refused before its first write. -/
theorem Judged.notSent (h : Started n tr request s) (hnil : steps n s.log = []) (reason : NotSentReason) :
    Judged n tr request (notSent request reason) s := by
  refine ⟨h, ⟨fun he => (by cases he), fun he => ?_⟩, fun _ _ => hnil, fun hne => absurd hnil hne⟩
  have hlen := congrArg List.length (hnil.symm.trans he.2)
  rw [complete_length, List.length_nil] at hlen
  have hne := List.length_pos_of_ne_nil (segments_ne_nil request)
  omega

theorem deliverOne_triple : Triple options n
    (fun s => Started n tr request s ∧ steps n s.log = [] ∧ (s.progress n).writeCount = 0)
    (Ctl.deliverOne options n request tr.generation) (Judged n tr request) fun _ => False := by
  intro s K err ha h hK herr
  obtain ⟨hs, hnil, hz⟩ := h
  unfold Ctl.deliverOne
  simp only [Async.bind_apply, Async.get_apply, Runs, Discipline.wp_read]
  split
  · exact hK _ s ha (Judged.notSent hs hnil _)
  · split
    · exact hK _ s ha (Judged.notSent hs hnil _)
    · next hstate =>
      split
      · exact hK _ s ha (Judged.notSent hs hnil _)
      · next hgen =>
        have htr : s.transport = tr := hs.transport ha.inv (not_not.mp hgen)
        have hprog : Progressing n tr request [] s := ⟨hs, htr ▸ not_not.mp hstate, hnil, hz⟩
        rw [Async.tryCatch_apply]
        exact deliverAll_triple s K _ ha hprog hK fun e s₁ ha₁ h₁ =>
          deliverFailed_triple s₁ K err ha₁ h₁ hK herr

theorem runQueued_spec (ha : At n s) (hacc : ⟨tr, .accepted n request⟩ ∈ s.log)
    (hnil : steps n s.log = []) (hz : (s.progress n).writeCount = 0) :
    Runs options n (Async.thread n (Ctl.runQueued options n request tr.generation)) s := by
  unfold Async.thread Ctl.runQueued
  refine Runs.ask ha fun s₁ _ hl hk ha₁ hready => ?_
  have hbehind : n - 1 ∈ s₁.settled := by
    simpa [controller] using hready
  have hturn : ∀ m < n, m ∈ s₁.settled := by
    intro m hm
    rcases Nat.lt_or_eq_of_le (Nat.le_sub_one_of_lt hm) with hlt | rfl
    · exact ha₁.inv.closed _ hbehind m hlt
    · exact hbehind
  refine deliverOne_triple s₁ _ _ ha₁ ⟨⟨hl.log hacc, hturn⟩, ?_, ?_⟩ (fun result s₂ ha₂ h₂ => ?_)
    fun _ _ _ h => h.elim
  · rw [hk.steps]
    exact hnil
  · rw [hk.progress]
    exact hz
  · obtain ⟨hs₂, hv⟩ := h₂
    have hfin : Inv { s₂.addLog (.finished n result) with settled := n :: s₂.settled } := by
      refine ha₂.inv.finish result ha₂.born hs₂.turn fun tr' request' hacc' => ?_
      obtain ⟨rfl, _, rfl⟩ := ha₂.inv.unique _ _ _ _ _ _ hs₂.accepted hacc' (.inl rfl)
      exact hv
    simp only [Async.modify_apply, Runs, Discipline.wp_read]
    refine Discipline.wp_lay ha₂.owns
      ⟨List.subset_append_left _ _, List.subset_cons_self _ _, Nat.le_refl _⟩ rfl rfl ?_
      (fun m _ _ => ⟨steps_other rfl, rfl⟩) ⟨?_, hfin, trivial⟩
    · ext m
      exact List.mem_cons
    · intro m hm _
      exact hm.2 hm.1

/-! ## The whole controller -/

theorem setTransportState_spec {state : TransportState} (hi : Inv s) :
    (discipline options).wp (Async.thread 0 (Ctl.setTransportState state)) ∅ s
      fun s' => Inv s' ∧ True := by
  unfold Async.thread Ctl.setTransportState
  simp only [Async.bind_apply, Async.get_apply, Discipline.wp_read]
  have howns : (discipline options).Owns ∅ s := ⟨Set.empty_subset _, Set.empty_disjoint _⟩
  have hsettled : (discipline options).Settled ∅ := fun _ hm => hm.elim
  split
  · exact ⟨hsettled, hi, trivial⟩
  · exact Discipline.wp_write howns
      ⟨List.subset_append_left _ _, List.Subset.refl _, Nat.le_refl _⟩ rfl rfl
      (fun m _ _ => ⟨steps_other rfl, rfl⟩) ⟨hsettled, hi.change state, trivial⟩

theorem deliver_spec (hi : Inv s) :
    (discipline options).wp (Async.thread 0 (Ctl.deliver options request)) ∅ s
      fun s' => Inv s' ∧ True := by
  unfold Async.thread Ctl.deliver
  simp only [Async.bind_apply, Async.get_apply, Discipline.wp_read]
  have howns : (discipline options).Owns ∅ s := ⟨Set.empty_subset _, Set.empty_disjoint _⟩
  have hsettled : (discipline options).Settled ∅ := fun _ hm => hm.elim
  have hrefused : ∀ reason, (discipline options).wp (.write
      (s.addLog (.refused request (notSent request reason))) .done) ∅ s fun s' => Inv s' ∧ True :=
    fun reason => Discipline.wp_write howns (.addLog _ _) rfl rfl (fun m _ _ => .addLog rfl)
      ⟨hsettled, hi.refuse request reason, trivial⟩
  split
  · exact hrefused _
  · split
    · exact hrefused _
    · next hid =>
      have hinv := hi.accept request (by simpa using hid)
      have hunborn := hi.unborn (s.queue + 1) (Nat.lt_succ_self _)
      refine Discipline.wp_mint (x := s.queue + 1) howns
        ⟨List.subset_append_left _ _, List.Subset.refl _, Nat.le_succ _⟩
        (Nat.not_succ_le_self s.queue) ?_ rfl hi.settled (fun m _ _ => ⟨steps_other rfl, rfl⟩) ?_
      · ext m
        exact Nat.le_succ_iff_eq_or_le
      · have hborn : At (s.queue + 1) { s.addLog (.accepted (s.queue + 1) request) with
            operationIds := request.operationId :: s.operationIds, queue := s.queue + 1 } :=
          ⟨hinv, Nat.le_refl _, fun hm => absurd (hi.settled _ hm) (Nat.not_succ_le_self _)⟩
        have hrun : Runs options (s.queue + 1) (Async.thread (s.queue + 1)
            (Ctl.runQueued options (s.queue + 1) request s.transport.generation)) _ :=
          runQueued_spec hborn (List.mem_append_right _ List.mem_cons_self)
            ((steps_other rfl).trans hunborn.1) hunborn.2
        refine ⟨{s.queue + 1}, ∅, ?_, Set.disjoint_empty _, Discipline.wp_mono (fun s' h => ?_) hrun⟩
        · rw [Set.union_empty]
          exact insert_empty_eq _
        · exact ⟨hsettled, h⟩

theorem sound : (discipline options).Sound initial where
  init := inv_initial
  heldMinted := inv_initial.settled
  owedHeld := fun n hn _ => by
    have hz : n = 0 := Nat.le_zero.mp hn
    rw [hz]
    exact List.mem_singleton_self 0
  start := fun a s hi _ => by
    cases a with
    | deliver request => exact deliver_spec hi
    | setTransportState state => exact setTransportState_spec hi
  loop := fun l => l.elim

variable {cfg : Coop.Config State Ans Empty}

/-- Between two entries over one transport there was no change of it. -/
theorem Inv.unchanged {before mid after : List Entry} {e e' : Entry} (h : Inv s)
    (hl : s.log = before ++ e :: mid ++ e' :: after) (he : e.transport = e'.transport) :
    ∀ e'' ∈ mid, e''.event ≠ .changed := by
  intro e'' hmem hchanged
  have hr := h.rising
  rw [hl, List.append_assoc, List.cons_append] at hr
  have hr := (List.pairwise_append.mp hr).2.1
  have hlt := ((List.pairwise_cons.mp hr).1 e'' (List.mem_append_left _ hmem)).2 hchanged
  have hle := ((List.pairwise_append.mp (List.pairwise_cons.mp hr).2).2.2 e'' hmem e'
    List.mem_cons_self).1
  rw [he] at hlt
  exact absurd hlt (Nat.not_lt.mpr hle)

/-- The writes of the operations follow the order of their `deliver` calls, none of
two with one id; every write goes out while the transport is connected and as it was
at that call. An operation is reported delivered exactly when all its segments were
written and acknowledged one after the other over that transport, not sent only when
nothing was written, and uncertain, with the draft retained, otherwise. Until it is
reported it waits for something. -/
theorem delivery (h : (controller options).Reach System.any start cfg) :
    (writers cfg.state.log).Pairwise (· ≤ ·) ∧
    (∀ tr n request tr' n' request', ⟨tr, .accepted n request⟩ ∈ cfg.state.log →
      ⟨tr', .accepted n' request'⟩ ∈ cfg.state.log →
      n = n' ∨ request.operationId = request'.operationId → n = n' ∧ request = request') ∧
    (∀ tr n bytes context, ⟨tr, .wrote n bytes context⟩ ∈ cfg.state.log →
      tr.state = .connected ∧ ∃ request, ⟨tr, .accepted n request⟩ ∈ cfg.state.log ∧
        context.operationId = request.operationId) ∧
    (∀ before e mid e' after, cfg.state.log = before ++ e :: mid ++ e' :: after →
      e.transport = e'.transport → ∀ e'' ∈ mid, e''.event ≠ .changed) ∧
    (∀ tr n request tr' result, ⟨tr, .accepted n request⟩ ∈ cfg.state.log →
      ⟨tr', .finished n result⟩ ∈ cfg.state.log →
      (result.outcome = .delivered ↔
        tr.state = .connected ∧ steps n cfg.state.log = complete tr (segments request)) ∧
      ((∃ reason, result.outcome = .notSent reason) →
        ∀ tr bytes context, ⟨tr, .wrote n bytes context⟩ ∉ cfg.state.log) ∧
      (∀ tr bytes context, ⟨tr, .wrote n bytes context⟩ ∈ cfg.state.log →
        result.outcome ≠ .delivered →
        (∃ reason stage error, result.outcome = .uncertain reason stage error) ∧
          result.draftEffect = .retain)) ∧
    (∀ tr request result, ⟨tr, .refused request result⟩ ∈ cfg.state.log →
      ∃ reason, result = notSent request reason) ∧
    ∀ tr n request, ⟨tr, .accepted n request⟩ ∈ cfg.state.log →
      (∃ tr' result, ⟨tr', .finished n result⟩ ∈ cfg.state.log) ∨
        ∃ call k, .waiting (n, call) k ∈ cfg.parked := by
  have hsound : (discipline options).Sound initial := sound
  have hi : Inv cfg.state := hsound.inv h
  refine ⟨hi.ordered, fun tr n request tr' n' request' hm hm' heq => ?_, ?_, ?_, ?_, hi.refused, ?_⟩
  · exact (hi.unique _ _ _ _ _ _ hm hm' heq).2
  · intro tr n bytes context hm
    obtain ⟨hc, _, hreq⟩ := hi.wrote tr n bytes context hm
    exact ⟨hc, hreq⟩
  · exact fun _ _ _ _ _ hl he => hi.unchanged hl he
  · intro tr n request tr' result hacc hfin
    have hv := (hi.finished tr' n result hfin).2 tr request hacc
    refine ⟨hv.delivered, ?_, fun tr'' bytes context hm hne => ?_⟩
    · rintro ⟨reason, he⟩ tr'' bytes context hm
      have hstep := mem_steps_wrote hm
      rw [hv.notSent reason he] at hstep
      cases hstep
    · refine hv.retained (fun hnil => ?_) hne
      have hstep := mem_steps_wrote hm
      rw [hnil] at hstep
      cases hstep
  · intro tr n request hm
    obtain ⟨hpos, hle, _⟩ := hi.accepted tr n request hm
    rcases hsound.owed h (x := n) hle trivial with hset | ⟨q, k, hp, hn⟩
    · exact .inl (hi.reported n hset hpos)
    · obtain ⟨m, call⟩ := q
      cases hn
      exact .inr ⟨call, k, hp⟩

/-- What the platform answers when nothing goes wrong. -/
def obliging : (q : Req) → Option (Ans q)
  | (_, .turn _) => some ()
  | (_, .write ..) => some (.ok ())
  | (_, .sleep _) => some (.ok ())
  | (_, .tick) => some ()

/-- A prompt of two lines is submitted. -/
def submission : ComposerDeliveryRequest := ⟨"op-1", ascii "a\nb", .submit⟩

theorem delivery_submitted :
    ∃ cfg, (controller {}).Reach System.any start cfg ∧
      ⟨⟨.connected, 1⟩, .finished 1 ⟨.delivered, "op-1", .submit, .clear, 16, 4⟩⟩ ∈ cfg.state.log ∧
      ∀ tr n request tr' result, ⟨tr, .accepted n request⟩ ∈ cfg.state.log →
        ⟨tr', .finished n result⟩ ∈ cfg.state.log →
        (result.outcome = .delivered ↔
          tr.state = .connected ∧ steps n cfg.state.log = complete tr (segments request)) := by
  obtain ⟨cfg, hreach, hp⟩ := System.played_any (controller {}) start
    (.start (.setTransportState .connected) :: .start (.deliver submission) ::
      List.replicate 15 (.reply 0 obliging))
    (p := fun c => c.state.log.contains
      ⟨⟨.connected, 1⟩, .finished 1 ⟨.delivered, "op-1", .submit, .clear, 16, 4⟩⟩)
    (by decide +kernel)
  refine ⟨cfg, hreach, by simpa using hp, fun tr n request tr' result hacc hfin => ?_⟩
  exact ((delivery hreach).2.2.2.2.1 tr n request tr' result hacc hfin).1

end PocketShell.Composer
