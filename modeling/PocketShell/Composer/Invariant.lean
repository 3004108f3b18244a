import PocketShell.Composer.Delivery
import PocketShell.Coop.Log

/-!
# What holds between any two steps of composer delivery

* `steps`: what was written for one operation, and what came of it.
* `Verdict`: what a result says about them.
* `Inv`: the invariant, with one lemma for each write of the controller.
-/

namespace PocketShell.Composer

open Coop (mem_snoc)

/-! ## Views of the log -/

inductive OpStep
  | wrote (bytes : List UInt8)
  | acknowledged
  | rejected

def Event.stepOf (n : Nat) : Event → Option OpStep
  | .wrote m bytes _ => if m = n then some (.wrote bytes) else none
  | .acknowledged m => if m = n then some .acknowledged else none
  | .rejected m => if m = n then some .rejected else none
  | _ => none

/-- The writes of operation `n` and their answers, in their order, each beside the
transport of its time. -/
def steps (n : Nat) (log : List Entry) : List (Transport × OpStep) :=
  log.filterMap fun e => (e.event.stepOf n).map (e.transport, ·)

/-- The operations the writes belong to, in the order of the writes. -/
def writers (log : List Entry) : List Nat :=
  log.filterMap fun e =>
    match e.event with
    | .wrote n _ _ => some n
    | _ => none

/-- What is to be written for a request, one entry a write. -/
def segments (request : ComposerDeliveryRequest) : List (List UInt8) :=
  (composerPayloadSegments request.payload ++
    if request.intent = .submit then [SUBMIT_KEY] else []).map encodeComposerText

/-- Everything was written over one transport, and acknowledged before the next write. -/
def complete (transport : Transport) (written : List (List UInt8)) : List (Transport × OpStep) :=
  written.flatMap fun bytes => [(transport, .wrote bytes), (transport, .acknowledged)]

theorem steps_snoc (n : Nat) (log : List Entry) (e : Entry) :
    steps n (log ++ [e]) = steps n log ++ ((e.event.stepOf n).map (e.transport, ·)).toList := by
  unfold steps
  rw [List.filterMap_append]
  cases h : e.event.stepOf n with
  | none => simp [h]
  | some step => simp [h]

variable {log : List Entry}

theorem steps_other {n : Nat} {e : Entry} (h : e.event.stepOf n = none) :
    steps n (log ++ [e]) = steps n log := by
  rw [steps_snoc, h]
  exact List.append_nil _

theorem writers_snoc (log : List Entry) (e : Entry) (h : ∀ n bytes context, e.event ≠ .wrote n bytes context) :
    writers (log ++ [e]) = writers log := by
  unfold writers
  rw [List.filterMap_append]
  obtain ⟨tr, e⟩ := e
  cases e with
  | wrote n bytes context => exact absurd rfl (h n bytes context)
  | _ => exact List.append_nil _

theorem mem_writers {n : Nat} :
    n ∈ writers log ↔ ∃ tr bytes context, ⟨tr, .wrote n bytes context⟩ ∈ log := by
  constructor
  · intro h
    obtain ⟨⟨tr, e⟩, he, hn⟩ := List.mem_filterMap.mp h
    cases e with
    | wrote m bytes context =>
      cases hn
      exact ⟨tr, bytes, context, he⟩
    | _ => cases hn
  · rintro ⟨tr, bytes, context, h⟩
    exact List.mem_filterMap.mpr ⟨_, h, rfl⟩

theorem mem_steps_wrote {n : Nat} {tr : Transport} {bytes : List UInt8}
    {context : ComposerWriteContext} (h : ⟨tr, .wrote n bytes context⟩ ∈ log) :
    (tr, .wrote bytes) ∈ steps n log :=
  List.mem_filterMap.mpr ⟨_, h, by simp [Event.stepOf]⟩

theorem complete_snoc (tr : Transport) (written : List (List UInt8)) (bytes : List UInt8) :
    complete tr (written ++ [bytes]) =
      complete tr written ++ [(tr, .wrote bytes), (tr, .acknowledged)] := by
  simp [complete]

theorem complete_length (tr : Transport) (written : List (List UInt8)) :
    (complete tr written).length = 2 * written.length := by
  induction written with
  | nil => rfl
  | cons bytes written ih =>
    have hcons : complete tr (bytes :: written) =
        (tr, .wrote bytes) :: (tr, .acknowledged) :: complete tr written := rfl
    rw [hcons, List.length_cons, List.length_cons, ih, List.length_cons]
    omega

/-- Whatever is in a complete list is a write or an acknowledgement over its transport. -/
theorem mem_complete {tr tr' : Transport} {written : List (List UInt8)} {step : OpStep}
    (h : (tr', step) ∈ complete tr written) : tr' = tr ∧ step ≠ .rejected := by
  obtain ⟨bytes, _, h⟩ := List.mem_flatMap.mp h
  rcases List.mem_cons.mp h with h | h
  · cases h
    exact ⟨rfl, by simp⟩
  · cases List.mem_singleton.mp h
    exact ⟨rfl, by simp⟩

theorem segments_ne_nil (request : ComposerDeliveryRequest) : segments request ≠ [] := by
  unfold segments composerPayloadSegments
  split <;> simp

/-! ## The invariant -/

/-- What the result of an operation says about its steps. -/
structure Verdict (transport : Transport) (request : ComposerDeliveryRequest)
    (done : List (Transport × OpStep)) (result : ComposerDeliveryResult) : Prop where
  delivered : result.outcome = .delivered ↔
    transport.state = .connected ∧ done = complete transport (segments request)
  notSent : ∀ reason, result.outcome = .notSent reason → done = []
  retained : done ≠ [] → result.outcome ≠ .delivered →
    (∃ reason stage error, result.outcome = .uncertain reason stage error) ∧
      result.draftEffect = .retain

structure Inv (s : State) : Prop where
  /-- Of the entries of one generation all have the same transport. -/
  clock : ∀ e ∈ s.log, e.transport.generation ≤ s.transport.generation ∧
    (e.transport.generation = s.transport.generation → e.transport = s.transport)
  /-- A change of the transport begins a new generation. -/
  rising : s.log.Pairwise fun e e' => e.transport.generation ≤ e'.transport.generation ∧
    (e'.event = .changed → e.transport.generation < e'.transport.generation)
  accepted : ∀ tr n request, ⟨tr, .accepted n request⟩ ∈ s.log →
    0 < n ∧ n ≤ s.queue ∧ request.operationId ∈ s.operationIds
  /-- No two operations have one number or one id. -/
  unique : ∀ tr n request tr' n' request', ⟨tr, .accepted n request⟩ ∈ s.log →
    ⟨tr', .accepted n' request'⟩ ∈ s.log → n = n' ∨ request.operationId = request'.operationId →
    tr = tr' ∧ n = n' ∧ request = request'
  refused : ∀ tr request result, ⟨tr, .refused request result⟩ ∈ s.log →
    ∃ reason, result = notSent request reason
  wrote : ∀ tr n bytes context, ⟨tr, .wrote n bytes context⟩ ∈ s.log →
    tr.state = .connected ∧ (∀ m < n, m ∈ s.settled) ∧
      ∃ request, ⟨tr, .accepted n request⟩ ∈ s.log ∧ context.operationId = request.operationId
  ordered : (writers s.log).Pairwise (· ≤ ·)
  finished : ∀ tr n result, ⟨tr, .finished n result⟩ ∈ s.log → n ∈ s.settled ∧
    ∀ tr' request, ⟨tr', .accepted n request⟩ ∈ s.log → Verdict tr' request (steps n s.log) result
  settled : ∀ n ∈ s.settled, n ≤ s.queue
  reported : ∀ n ∈ s.settled, 0 < n → ∃ tr result, ⟨tr, .finished n result⟩ ∈ s.log
  /-- The promises settle in their order. -/
  closed : ∀ n ∈ s.settled, ∀ m < n, m ∈ s.settled
  /-- Nothing was written for an operation to come. -/
  unborn : ∀ n, s.queue < n → steps n s.log = [] ∧ (s.progress n).writeCount = 0

theorem inv_initial : Inv initial where
  clock := fun _ h => by cases h
  rising := List.Pairwise.nil
  accepted := fun _ _ _ h => by cases h
  unique := fun _ _ _ _ _ _ h => by cases h
  refused := fun _ _ _ h => by cases h
  wrote := fun _ _ _ _ h => by cases h
  ordered := List.Pairwise.nil
  finished := fun _ _ _ h => by cases h
  settled := fun n h => by
    cases List.mem_singleton.mp h
    exact Nat.le_refl _
  reported := fun n h hpos => by
    cases List.mem_singleton.mp h
    exact absurd hpos (Nat.not_lt_zero 0)
  closed := fun n h m hm => by
    cases List.mem_singleton.mp h
    exact absurd hm (Nat.not_lt_zero m)
  unborn := fun _ _ => ⟨rfl, rfl⟩

/-- What one write of the controller is, on behalf of operation `n`. -/
inductive Write (n : Nat) : State → State → Prop
  | progress {s : State} (f : Progress → Progress) : Write n s (s.setProgress n f)
  | wrote {s : State} (request : ComposerDeliveryRequest) (bytes : List UInt8)
      (context : ComposerWriteContext) : s.transport.state = .connected → (∀ m < n, m ∈ s.settled) →
      ⟨s.transport, .accepted n request⟩ ∈ s.log → context.operationId = request.operationId →
      Write n s (s.addLog (.wrote n bytes context))
  | acknowledged {s : State} : Write n s (s.addLog (.acknowledged n))
  | rejected {s : State} : Write n s (s.addLog (.rejected n))

/-- Nobody takes anything back. -/
structure Later (s s' : State) : Prop where
  log : s.log ⊆ s'.log
  settled : s.settled ⊆ s'.settled
  queue : s.queue ≤ s'.queue

theorem Later.refl (s : State) : Later s s := ⟨List.Subset.refl _, List.Subset.refl _, Nat.le_refl _⟩

theorem Later.trans {s s' s'' : State} (h : Later s s') (h' : Later s' s'') : Later s s'' :=
  ⟨List.Subset.trans h.log h'.log, List.Subset.trans h.settled h'.settled, h.queue.trans h'.queue⟩

/-- What is another operation's business only. -/
structure Kept (n : Nat) (s s' : State) : Prop where
  steps : steps n s'.log = steps n s.log
  progress : s'.progress n = s.progress n

theorem Kept.refl (n : Nat) (s : State) : Kept n s s := ⟨rfl, rfl⟩

theorem Kept.trans {n : Nat} {s s' s'' : State} (h : Kept n s s') (h' : Kept n s' s'') : Kept n s s'' :=
  ⟨h'.steps.trans h.steps, h'.progress.trans h.progress⟩

theorem Later.addLog (s : State) (e : Event) : Later s (s.addLog e) :=
  ⟨List.subset_append_left _ _, List.Subset.refl _, Nat.le_refl _⟩

theorem Kept.addLog {n : Nat} {s : State} {e : Event} (h : e.stepOf n = none) : Kept n s (s.addLog e) :=
  ⟨steps_other h, rfl⟩

theorem Write.later {n : Nat} {s s' : State} (w : Write n s s') : Later s s' := by
  cases w with
  | progress f => exact ⟨List.Subset.refl _, List.Subset.refl _, Nat.le_refl _⟩
  | wrote | acknowledged | rejected => exact .addLog _ _

theorem Write.kept {n m : Nat} {s s' : State} (hne : m ≠ n) (w : Write n s s') : Kept m s s' := by
  cases w with
  | progress f => exact ⟨rfl, if_neg hne⟩
  | wrote | acknowledged | rejected => exact .addLog (if_neg hne.symm)

theorem Write.frame {n : Nat} {s s' : State} (w : Write n s s') :
    s'.transport = s.transport ∧ s'.queue = s.queue ∧ s'.settled = s.settled := by
  cases w <;> exact ⟨rfl, rfl, rfl⟩

namespace Inv

variable {s s' : State} {n : Nat}

theorem mem_addLog {e e' : Event} {tr : Transport} (h : ⟨tr, e'⟩ ∈ (s.addLog e).log) :
    ⟨tr, e'⟩ ∈ s.log ∨ tr = s.transport ∧ e' = e := by
  rcases mem_snoc.mp h with h | h
  · exact .inl h
  · cases h
    exact .inr ⟨rfl, rfl⟩

theorem clock_addLog (h : Inv s) (e : Event) : ∀ e' ∈ (s.addLog e).log,
    e'.transport.generation ≤ s.transport.generation ∧
      (e'.transport.generation = s.transport.generation → e'.transport = s.transport) := by
  intro e' he
  rcases mem_snoc.mp he with he | he
  · exact h.clock e' he
  · cases he
    exact ⟨Nat.le_refl _, fun _ => rfl⟩

theorem rising_addLog (h : Inv s) {e : Event}
    (hc : e = .changed → ∀ e' ∈ s.log, e'.transport.generation < s.transport.generation) :
    (s.addLog e).log.Pairwise fun e e' => e.transport.generation ≤ e'.transport.generation ∧
      (e'.event = .changed → e.transport.generation < e'.transport.generation) := by
  refine List.pairwise_append.mpr ⟨h.rising, List.pairwise_singleton _ _, fun e₁ h₁ e₂ h₂ => ?_⟩
  cases List.mem_singleton.mp h₂
  exact ⟨(h.clock e₁ h₁).1, fun he => hc he e₁ h₁⟩

/-- An entry that accepts nothing, of an operation that is not over. -/
theorem addLog (h : Inv s) (e : Event) (ha : ∀ m request, e ≠ .accepted m request)
    (hc : e = .changed → ∀ e' ∈ s.log, e'.transport.generation < s.transport.generation)
    (hr : ∀ request result, e = .refused request result → ∃ reason, result = notSent request reason)
    (hw : ∀ m bytes context, e = .wrote m bytes context →
      s.transport.state = .connected ∧ (∀ k < m, k ∈ s.settled) ∧ (∀ k ∈ writers s.log, k ≤ m) ∧
        ∃ request, ⟨s.transport, .accepted m request⟩ ∈ s.log ∧
          context.operationId = request.operationId)
    (hf : ∀ m result, e = .finished m result → m ∈ s.settled ∧
      ∀ tr request, ⟨tr, .accepted m request⟩ ∈ s.log → Verdict tr request (steps m s.log) result)
    (hs : ∀ m, e.stepOf m ≠ none → m ∉ s.settled ∧ m ≤ s.queue) : Inv (s.addLog e) := by
  have hacc : ∀ {tr m request}, ⟨tr, .accepted m request⟩ ∈ (s.addLog e).log →
      ⟨tr, .accepted m request⟩ ∈ s.log := by
    intro tr m request hm
    rcases mem_addLog hm with hm | ⟨_, he⟩
    · exact hm
    · exact absurd he.symm (ha m request)
  have hsub : s.log ⊆ (s.addLog e).log := List.subset_append_left _ _
  refine {
    clock := h.clock_addLog _
    rising := h.rising_addLog hc
    accepted := fun tr m request hm => h.accepted tr m request (hacc hm)
    unique := fun tr m request tr' m' request' hm hm' => h.unique _ _ _ _ _ _ (hacc hm) (hacc hm')
    refused := fun tr request result hm => ?_
    wrote := fun tr m bytes context hm => ?_
    ordered := ?_
    finished := fun tr m result hm => ?_
    settled := h.settled
    reported := fun m hm hpos => by
      obtain ⟨tr, result, hm'⟩ := h.reported m hm hpos
      exact ⟨tr, result, hsub hm'⟩
    closed := h.closed
    unborn := fun m hm => ?_ }
  · rcases mem_addLog hm with hm | ⟨_, he⟩
    · exact h.refused tr request result hm
    · exact hr request result he.symm
  · rcases mem_addLog hm with hm | ⟨rfl, he⟩
    · obtain ⟨hc, hturn, request, hm', hid⟩ := h.wrote tr m bytes context hm
      exact ⟨hc, hturn, request, hsub hm', hid⟩
    · obtain ⟨hc, hturn, _, request, hm', hid⟩ := hw m bytes context he.symm
      exact ⟨hc, hturn, request, hsub hm', hid⟩
  · cases e with
    | wrote m bytes context =>
      have hsnoc : writers (s.addLog (.wrote m bytes context)).log = writers s.log ++ [m] := by
        simp [writers]
      rw [hsnoc]
      refine List.pairwise_append.mpr ⟨h.ordered, List.pairwise_singleton _ _, fun k hk k' hk' => ?_⟩
      rw [List.mem_singleton.mp hk']
      exact (hw m bytes context rfl).2.2.1 k hk
    | _ =>
      rw [State.addLog_log, writers_snoc _ _ (fun _ _ _ he => by cases he)]
      exact h.ordered
  · have hkept : ∀ m, m ∈ s.settled → steps m (s.addLog e).log = steps m s.log := by
      intro m hm
      refine steps_other ?_
      by_contra hne
      exact (hs m hne).1 hm
    rcases mem_addLog hm with hm | ⟨_, he⟩
    · obtain ⟨hset, hv⟩ := h.finished tr m result hm
      refine ⟨hset, fun tr' request hm' => ?_⟩
      rw [hkept m hset]
      exact hv tr' request (hacc hm')
    · obtain ⟨hset, hv⟩ := hf m result he.symm
      refine ⟨hset, fun tr' request hm' => ?_⟩
      rw [hkept m hset]
      exact hv tr' request (hacc hm')
  · have hm' : s.queue < m := hm
    refine ⟨?_, (h.unborn m hm').2⟩
    rw [State.addLog_log, steps_other, (h.unborn m hm').1]
    by_contra hne
    exact absurd (hs m hne).2 (Nat.not_le.mpr hm')

theorem write (h : Inv s) (hn : n ≤ s.queue) (hset : n ∉ s.settled) (w : Write n s s') : Inv s' := by
  have hstep : ∀ {e : Event} {m : Nat}, e.stepOf m ≠ none → (∀ k, k ≠ n → e.stepOf k = none) →
      m ∉ s.settled ∧ m ≤ s.queue := by
    intro e m hm hother
    have he : m = n := by
      by_contra hne
      exact hm (hother m hne)
    exact he ▸ ⟨hset, hn⟩
  cases w with
  | progress f =>
    refine ⟨h.clock, h.rising, h.accepted, h.unique, h.refused, h.wrote, h.ordered, h.finished,
      h.settled, h.reported, h.closed, fun m hm => ⟨(h.unborn m hm).1, ?_⟩⟩
    have hne : m ≠ n := fun he => absurd hn (Nat.not_le.mpr (he ▸ hm))
    show (if m = n then f (s.progress m) else s.progress m).writeCount = 0
    rw [if_neg hne]
    exact (h.unborn m hm).2
  | wrote request bytes context hc hturn hacc hid =>
    refine h.addLog _ (fun _ _ he => by cases he) (fun he => by cases he)
      (fun _ _ he => by cases he) (fun m b ctx he => ?_)
      (fun _ _ he => by cases he) fun m hm => hstep hm fun k hk => if_neg hk.symm
    cases he
    refine ⟨hc, hturn, fun k hk => ?_, request, hacc, hid⟩
    -- a later operation would have waited for this one
    by_contra hlt
    obtain ⟨tr, b', ctx', hm⟩ := mem_writers.mp hk
    exact hset ((h.wrote tr k b' ctx' hm).2.1 n (Nat.lt_of_not_le hlt))
  | acknowledged =>
    exact h.addLog _ (fun _ _ he => by cases he) (fun he => by cases he)
      (fun _ _ he => by cases he) (fun _ _ _ he => by cases he) (fun _ _ he => by cases he)
      fun m hm => hstep hm fun k hk => if_neg hk.symm
  | rejected =>
    exact h.addLog _ (fun _ _ he => by cases he) (fun he => by cases he)
      (fun _ _ he => by cases he) (fun _ _ _ he => by cases he) (fun _ _ he => by cases he)
      fun m hm => hstep hm fun k hk => if_neg hk.symm

/-- The transport changes. -/
theorem change (h : Inv s) (state : TransportState) :
    Inv ({ s with transport := ⟨state, s.transport.generation + 1⟩ }.addLog .changed) := by
  have hclock : Inv { s with transport := ⟨state, s.transport.generation + 1⟩ } :=
    { h with
      clock := fun e he => by
        obtain ⟨hle, _⟩ := h.clock e he
        refine ⟨Nat.le_succ_of_le hle, fun heq => ?_⟩
        rw [heq] at hle
        exact absurd hle (Nat.not_succ_le_self _) }
  exact hclock.addLog _ (fun _ _ he => by cases he)
    (fun _ e he => Nat.lt_succ_of_le (h.clock e he).1) (fun _ _ he => by cases he)
    (fun _ _ _ he => by cases he) (fun _ _ he => by cases he) fun _ hm => absurd rfl hm

theorem refuse (h : Inv s) (request : ComposerDeliveryRequest) (reason : NotSentReason) :
    Inv (s.addLog (.refused request (notSent request reason))) := by
  refine h.addLog _ (fun _ _ he => by cases he) (fun he => by cases he) (fun request' result he => ?_)
    (fun _ _ _ he => by cases he) (fun _ _ he => by cases he) fun _ hm => absurd rfl hm
  cases he
  exact ⟨reason, rfl⟩

/-- An operation with a new id is accepted. -/
theorem accept (h : Inv s) (request : ComposerDeliveryRequest)
    (hid : request.operationId ∉ s.operationIds) :
    Inv { s.addLog (.accepted (s.queue + 1) request) with
      operationIds := request.operationId :: s.operationIds, queue := s.queue + 1 } := by
  have hsub : s.log ⊆ (s.addLog (.accepted (s.queue + 1) request)).log := List.subset_append_left _ _
  have hsteps : ∀ m, steps m (s.addLog (.accepted (s.queue + 1) request)).log = steps m s.log :=
    fun m => steps_other rfl
  refine {
    clock := h.clock_addLog _
    rising := h.rising_addLog fun he => by cases he
    accepted := fun tr m request' hm => ?_
    unique := fun tr m request₁ tr' m' request₂ hm hm' heq => ?_
    refused := fun tr request' result hm => ?_
    wrote := fun tr m bytes context hm => ?_
    ordered := ?_
    finished := fun tr m result hm => ?_
    settled := fun m hm => Nat.le_succ_of_le (h.settled m hm)
    reported := fun m hm hpos => by
      obtain ⟨tr, result, hm'⟩ := h.reported m hm hpos
      exact ⟨tr, result, hsub hm'⟩
    closed := h.closed
    unborn := fun m hm => ?_ }
  · rcases mem_addLog hm with hm | ⟨_, he⟩
    · obtain ⟨hpos, hle, hid'⟩ := h.accepted tr m request' hm
      exact ⟨hpos, Nat.le_succ_of_le hle, List.mem_cons_of_mem _ hid'⟩
    · cases he
      exact ⟨Nat.succ_pos _, Nat.le_refl _, List.mem_cons_self⟩
  · -- neither the number nor the id of the new operation was used before
    have hnew : ∀ {tr m request₁}, ⟨tr, .accepted m request₁⟩ ∈ s.log →
        ¬ (m = s.queue + 1 ∨ request₁.operationId = request.operationId) := by
      intro tr m request₁ hm heq
      obtain ⟨_, hle, hid'⟩ := h.accepted tr m request₁ hm
      rcases heq with rfl | heq
      · exact absurd hle (Nat.not_succ_le_self _)
      · exact hid (heq ▸ hid')
    rcases mem_addLog hm with hm | ⟨rfl, he⟩
    · rcases mem_addLog hm' with hm' | ⟨_, he'⟩
      · exact h.unique _ _ _ _ _ _ hm hm' heq
      · cases he'
        exact absurd heq (hnew hm)
    · cases he
      rcases mem_addLog hm' with hm' | ⟨rfl, he'⟩
      · exact absurd (heq.imp Eq.symm Eq.symm) (hnew hm')
      · cases he'
        exact ⟨rfl, rfl, rfl⟩
  · rcases mem_addLog hm with hm | ⟨_, he⟩
    · exact h.refused tr request' result hm
    · cases he
  · rcases mem_addLog hm with hm | ⟨_, he⟩
    · obtain ⟨hc, hturn, request', hm', hid'⟩ := h.wrote tr m bytes context hm
      exact ⟨hc, hturn, request', hsub hm', hid'⟩
    · cases he
  · show (writers (s.log ++ [_])).Pairwise (· ≤ ·)
    rw [writers_snoc _ _ (fun _ _ _ he => by cases he)]
    exact h.ordered
  · rcases mem_addLog hm with hm | ⟨_, he⟩
    · obtain ⟨hset, hv⟩ := h.finished tr m result hm
      refine ⟨hset, fun tr' request' hm' => ?_⟩
      show Verdict tr' request' (steps m (s.addLog _).log) result
      rw [hsteps]
      rcases mem_addLog hm' with hm' | ⟨_, he⟩
      · exact hv tr' request' hm'
      · -- the new operation is not over
        cases he
        exact absurd (h.settled _ hset) (Nat.not_succ_le_self _)
    · cases he
  · obtain ⟨hnil, hzero⟩ := h.unborn m (Nat.lt_of_succ_lt hm)
    exact ⟨(hsteps m).trans hnil, hzero⟩

/-- An operation ends with a result that says what happened. -/
theorem finish (h : Inv s) (result : ComposerDeliveryResult) (hn : n ≤ s.queue)
    (hturn : ∀ m < n, m ∈ s.settled)
    (hv : ∀ tr request, ⟨tr, .accepted n request⟩ ∈ s.log → Verdict tr request (steps n s.log) result) :
    Inv { s.addLog (.finished n result) with settled := n :: s.settled } := by
  have hacc : ∀ {tr m request}, ⟨tr, .accepted m request⟩ ∈ (s.addLog (.finished n result)).log →
      ⟨tr, .accepted m request⟩ ∈ s.log := fun hm =>
    (mem_addLog hm).resolve_right fun he => by cases he.2
  have hsteps : ∀ m, steps m (s.addLog (.finished n result)).log = steps m s.log :=
    fun m => steps_other rfl
  refine {
    clock := h.clock_addLog _
    rising := h.rising_addLog fun he => by cases he
    accepted := fun tr m request hm => h.accepted tr m request (hacc hm)
    unique := fun tr m request tr' m' request' hm hm' => h.unique _ _ _ _ _ _ (hacc hm) (hacc hm')
    refused := fun tr request result' hm =>
      h.refused tr request result' ((mem_addLog hm).resolve_right fun he => by cases he.2)
    wrote := fun tr m bytes context hm => ?_
    ordered := ?_
    finished := fun tr m result' hm => ?_
    settled := fun m hm => ?_
    reported := fun m hm hpos => ?_
    closed := fun m hm k hk => ?_
    unborn := fun m hm => ⟨(hsteps m).trans (h.unborn m hm).1, (h.unborn m hm).2⟩ }
  · obtain ⟨hc, hturn, request, hm', hid⟩ :=
      h.wrote tr m bytes context ((mem_addLog hm).resolve_right fun he => by cases he.2)
    exact ⟨hc, fun k hk => List.mem_cons_of_mem _ (hturn k hk), request,
      List.mem_append_left _ hm', hid⟩
  · show (writers (s.log ++ [_])).Pairwise (· ≤ ·)
    rw [writers_snoc _ _ (fun _ _ _ he => by cases he)]
    exact h.ordered
  · show m ∈ n :: s.settled ∧ ∀ tr' request, _ → Verdict tr' request (steps m (s.addLog _).log) result'
    rw [hsteps]
    rcases mem_addLog hm with hm | ⟨_, he⟩
    · obtain ⟨hset, hv⟩ := h.finished tr m result' hm
      exact ⟨List.mem_cons_of_mem _ hset, fun tr' request hm' => hv tr' request (hacc hm')⟩
    · cases he
      exact ⟨List.mem_cons_self, fun tr' request hm' => hv tr' request (hacc hm')⟩
  · rcases List.mem_cons.mp hm with rfl | hm
    · exact hn
    · exact h.settled m hm
  · rcases List.mem_cons.mp hm with rfl | hm
    · exact ⟨s.transport, result, List.mem_append_right _ List.mem_cons_self⟩
    · obtain ⟨tr, result', hm'⟩ := h.reported m hm hpos
      exact ⟨tr, result', List.mem_append_left _ hm'⟩
  · refine List.mem_cons_of_mem _ ?_
    rcases List.mem_cons.mp hm with rfl | hm
    · exact hturn k hk
    · exact h.closed m hm k hk

end Inv

end PocketShell.Composer
