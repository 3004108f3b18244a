import PocketShell.Coop.Log
import PocketShell.Link.Channels

/-!
# What the reads of a PTY return

* `heard`: what was received for a channel between its reply and its end.
* `Fifo`: the reads return it in order, within their bounds, and all of it before the end.
* `Careful`: when a data frame can be taken; `reads_in_order`: along such frames the log is
  `Fifo`.
* `reads_lose_data`: a frame in the turn of the reply is lost, and a waiting read is given more
  than it asked for.
-/

namespace PocketShell.Link

open Js (property assign remove keys property_assign_self property_assign_other property_remove_self
  property_remove_other)

/-! ## What is promised -/

/-- What was received for a channel. -/
structure Heard where
  opened : Bool := false
  ended : Bool := false
  bytes : Bytes := []

def hear (channel : Nat) (h : Heard) : Item → Heard
  | .opened c => if c = channel then { h with opened := true } else h
  | .data c payload =>
    if c = channel ∧ h.opened = true ∧ h.ended = false then { h with bytes := h.bytes ++ payload }
    else h
  | .ended c => if c = channel ∧ h.opened = true then { h with ended := true } else h
  | .lost => { h with ended := true }
  | _ => h

def heard (channel : Nat) (log : List Item) : Heard := log.foldl (hear channel) {}

def Item.chunkOf (channel : Nat) : Item → Bytes
  | .read r => if r.options.channel = channel then r.chunk else []
  | _ => []

/-- What the reads of a channel returned. -/
def returned (channel : Nat) (log : List Item) : Bytes := log.flatMap (·.chunkOf channel)

/-- The queue is a FIFO. -/
structure Fifo (log : List Item) : Prop where
  inOrder : ∀ channel, returned channel log <+: (heard channel log).bytes
  bounded : ∀ r, .read r ∈ log → r.chunk.length ≤ r.options.limit
  /-- Before an eof is reported, all was returned that is ever received. -/
  complete : ∀ before r after, log = before ++ .read r :: after → r.eof = true →
    returned r.options.channel before = (heard r.options.channel log).bytes

/-- The channel has its reply and has not ended. -/
def Live (e : ConnectionEntry) (channel : Nat) : Prop :=
  (heard channel e.log).opened = true ∧ (heard channel e.log).ended = false

instance (e : ConnectionEntry) (channel : Nat) : Decidable (Live e channel) :=
  inferInstanceAs (Decidable (_ ∧ _))

/-- A frame of the channel reaches the buffer of its PTY. -/
def Takes (e : ConnectionEntry) (channel : Nat) : Prop :=
  property channel e.execs = none ∧ ∃ buffer ∈ property channel e.ptys, buffer.eof = false

/-- The waiting reads are given no more of `size` bytes than they asked for. -/
def Fits : List Waiter → Nat → Prop
  | [], _ => True
  | waiter :: waiters, size => min size 65536 ≤ waiter.options.limit ∧ Fits waiters (size - 65536)

/-- A data frame is for a buffer exactly when the channel is live, and its waiting reads have
room for it. -/
def Careful (e : ConnectionEntry) : Action → Prop
  | .data raw => ∀ channel payload, ConnectionEntry.parseDataFrame raw = some (channel, payload) →
    (payload = [] ∨ (Takes e channel ↔ Live e channel)) ∧
      (Takes e channel → ∀ buffer ∈ property channel e.ptys, Fits buffer.waiters payload.length)
  | _ => True

def CarefulFrom : ConnectionEntry → List Action → Prop
  | _, [] => True
  | e, action :: actions => Careful e action ∧ CarefulFrom (step e action) actions

/-! ## The log -/

section

variable {channel c : Nat} {log items : List Item} {item : Item} {reads : List PtyRead}

theorem heard_append : heard channel (log ++ items) = items.foldl (hear channel) (heard channel log) :=
  List.foldl_append

theorem heard_snoc : heard channel (log ++ [item]) = hear channel (heard channel log) item :=
  heard_append

theorem returned_append :
    returned channel (log ++ items) = returned channel log ++ returned channel items :=
  List.flatMap_append

theorem heard_reads : heard channel (log ++ reads.map .read) = heard channel log := by
  rw [heard_append]
  generalize heard channel log = h
  induction reads with
  | nil => rfl
  | cons r reads ih => exact ih

theorem returned_own (h : ∀ r ∈ reads, r.options.channel = channel) :
    returned channel (reads.map .read) = (reads.map (·.chunk)).flatten := by
  induction reads with
  | nil => rfl
  | cons r reads ih =>
    have htail := ih fun r hr => h r (List.mem_cons_of_mem _ hr)
    unfold returned at htail ⊢
    rw [List.map_cons, List.flatMap_cons, htail, List.map_cons, List.flatten_cons, Item.chunkOf,
      if_pos (h r List.mem_cons_self)]

theorem returned_other (h : ∀ r ∈ reads, r.options.channel = channel) (hne : c ≠ channel) :
    returned c (reads.map .read) = [] := by
  refine List.flatMap_eq_nil_iff.mpr fun item hitem => ?_
  obtain ⟨r, hr, rfl⟩ := List.mem_map.mp hitem
  exact if_neg fun heq => hne (heq.symm.trans (h r hr))

/-- Nothing is received before the reply. -/
theorem heard_unopened (h : (heard channel log).opened = false) : (heard channel log).bytes = [] := by
  induction log using List.reverseRecOn with
  | nil => rfl
  | append_singleton log item ih =>
    rw [heard_snoc] at h ⊢
    cases item with
    | opened c =>
      unfold hear at h ⊢
      dsimp only at h ⊢
      split at h
      · cases h
      · next hc => rw [if_neg hc]; exact ih h
    | data c payload =>
      unfold hear at h ⊢
      dsimp only at h ⊢
      split at h
      · next hc => exact absurd (hc.2.1.symm.trans h) (by decide)
      · next hc => rw [if_neg hc]; exact ih h
    | ended c =>
      unfold hear at h ⊢
      dsimp only at h ⊢
      split at h
      · next hc => exact absurd (hc.2.symm.trans h) (by decide)
      · next hc => rw [if_neg hc]; exact ih h
    | lost | read | ptyRef | executed | failed => exact ih h

/-- Nothing is received after the end. -/
theorem hear_ended (channel : Nat) (item : Item) {h : Heard} (hended : h.ended = true) :
    (hear channel h item).ended = true ∧ (hear channel h item).bytes = h.bytes := by
  cases item with
  | data c payload => rw [hear, if_neg (by simp [hended])]; exact ⟨hended, rfl⟩
  | opened c => rw [hear]; split <;> exact ⟨hended, rfl⟩
  | ended c => rw [hear]; split <;> first | exact ⟨rfl, rfl⟩ | exact ⟨hended, rfl⟩
  | lost => exact ⟨rfl, rfl⟩
  | read | ptyRef | executed | failed => exact ⟨hended, rfl⟩

theorem heard_ended (hended : (heard channel log).ended = true) :
    (heard channel (log ++ items)).ended = true ∧
      (heard channel (log ++ items)).bytes = (heard channel log).bytes := by
  rw [heard_append]
  generalize heard channel log = h at *
  induction items generalizing h with
  | nil => exact ⟨hended, rfl⟩
  | cons item items ih =>
    have hstep := hear_ended channel item hended
    exact ⟨(ih _ hstep.1).1, (ih _ hstep.1).2.trans hstep.2⟩

end

/-! ## The queue -/

section

variable {maxBytes size : Nat} {chunks : List Bytes}

theorem takeChunks_flatten : (takeChunks maxBytes size chunks).1.flatten ++
    (takeChunks maxBytes size chunks).2.flatten = chunks.flatten := by
  induction chunks generalizing size with
  | nil => rfl
  | cons chunk chunks ih =>
    unfold takeChunks
    split
    · rfl
    · split
      · simp [← List.append_assoc]
      · simp [ih]

theorem takeChunks_length : (takeChunks maxBytes size chunks).1.flatten.length =
    min (maxBytes - size) chunks.flatten.length := by
  induction chunks generalizing size with
  | nil => simp [takeChunks]
  | cons chunk chunks ih =>
    unfold takeChunks
    split
    · next h => simp [Nat.sub_eq_zero_of_le h]
    · split
      · simp only [List.flatten_cons, List.flatten_nil, List.append_nil, List.length_take,
          List.length_append]
        omega
      · simp only [List.flatten_cons, List.length_append, ih]
        omega

/-- What is taken stands before what is left. -/
theorem takeBuffered_append (maxBytes : Nat) (chunks : List Bytes) :
    (takeBuffered chunks maxBytes).1 ++ (takeBuffered chunks maxBytes).2.flatten = chunks.flatten :=
  takeChunks_flatten

theorem takeBuffered_length (maxBytes : Nat) (chunks : List Bytes) :
    (takeBuffered chunks maxBytes).1.length = min maxBytes chunks.flatten.length :=
  takeChunks_length

variable {eof : Bool} {waiters : List Waiter}

theorem deliverAll_append : ((deliverAll eof waiters chunks).1.map (·.chunk)).flatten ++
    (deliverAll eof waiters chunks).2.flatten = chunks.flatten := by
  induction waiters generalizing chunks with
  | nil => rfl
  | cons waiter waiters ih =>
    simp only [deliverAll, List.map_cons, List.flatten_cons, List.append_assoc, ih]
    exact takeBuffered_append _ _

theorem deliverAll_options {r : PtyRead} (hr : r ∈ (deliverAll eof waiters chunks).1) :
    ∃ waiter ∈ waiters, r.options = waiter.options := by
  induction waiters generalizing chunks with
  | nil => cases hr
  | cons waiter waiters ih =>
    rcases List.mem_cons.mp hr with rfl | hr
    · exact ⟨waiter, List.mem_cons_self, rfl⟩
    · obtain ⟨waiter, hmem, heq⟩ := ih hr
      exact ⟨waiter, List.mem_cons_of_mem _ hmem, heq⟩

theorem deliverAll_open {r : PtyRead} (hr : r ∈ (deliverAll false waiters chunks).1) :
    r.eof = false := by
  induction waiters generalizing chunks with
  | nil => cases hr
  | cons waiter waiters ih =>
    rcases List.mem_cons.mp hr with rfl | hr
    · rfl
    · exact ih hr

theorem deliverAll_bounded {r : PtyRead} (hfits : Fits waiters chunks.flatten.length)
    (hr : r ∈ (deliverAll eof waiters chunks).1) : r.chunk.length ≤ r.options.limit := by
  induction waiters generalizing chunks with
  | nil => cases hr
  | cons waiter waiters ih =>
    have hlength := takeBuffered_length 65536 chunks
    have htotal := congrArg List.length (takeBuffered_append 65536 chunks)
    rw [List.length_append] at htotal
    have hleft : (takeBuffered chunks 65536).2.flatten.length = chunks.flatten.length - 65536 := by
      omega
    rcases List.mem_cons.mp hr with rfl | hr
    · have hfirst := hfits.1
      rw [Nat.min_comm, ← hlength] at hfirst
      exact hfirst
    · exact ih (hleft ▸ hfits.2) hr

/-- With nothing buffered each waiting read is told of the end. -/
theorem deliverAll_ended :
    deliverAll true waiters [] = (waiters.map fun waiter => ⟨waiter.options, [], true⟩, []) := by
  induction waiters with
  | nil => rfl
  | cons waiter waiters ih =>
    have hnone : takeBuffered [] 65536 = ([], []) := rfl
    simp only [deliverAll, hnone, ih, List.map_cons]
    rfl

end

/-! ## The invariant -/

/-- A read returns no more than its bound, and an eof after everything. -/
def Faithful (before : List Item) : Item → Prop
  | .read r => r.chunk.length ≤ r.options.limit ∧
    (r.eof = true → (heard r.options.channel before).ended = true ∧
      returned r.options.channel before = (heard r.options.channel before).bytes)
  | _ => True

/-- What was received for a channel is returned or waits in its buffer. -/
structure Queued (log : List Item) (channel : Nat) (buffer : PtyBuffer) : Prop where
  opened : (heard channel log).opened = true
  bytes : returned channel log ++ buffer.chunks.flatten = (heard channel log).bytes
  ended : buffer.eof = true → (heard channel log).ended = true
  waits : buffer.waiters ≠ [] → buffer.chunks = []
  own : ∀ waiter ∈ buffer.waiters, waiter.options.channel = channel

def Job.due : Job → Option Nat
  | .ptyOpened channel _ => some channel
  | _ => none

/-- The channels whose buffer is still to be made. -/
def dueOf (jobs : List Job) : List Nat := jobs.filterMap Job.due

structure Inv (e : ConnectionEntry) : Prop where
  inOrder : ∀ channel, returned channel e.log <+: (heard channel e.log).bytes
  queued : ∀ channel buffer, property channel e.ptys = some buffer → Queued e.log channel buffer
  due : ∀ channel ∈ dueOf e.jobs, property channel e.ptys = none ∧
    (heard channel e.log).opened = true ∧ (heard channel e.log).bytes = []
  once : (dueOf e.jobs).Nodup
  asked : ∀ channel requestId, property channel e.opens = some (.pty requestId) →
    (heard channel e.log).opened = false
  fresh : ∀ channel, e.nextChannel ≤ channel →
    (heard channel e.log).opened = false ∧ property channel e.opens = none
  faithful : Coop.Each Faithful e.log

theorem Inv.initial : Inv {} where
  inOrder _ := List.prefix_rfl
  queued _ _ h := by cases h
  due _ h := by cases h
  once := List.nodup_nil
  asked _ _ h := by cases h
  fresh _ _ := ⟨rfl, rfl⟩
  faithful := Coop.each_nil _

/-! ## Steps that leave the queues alone -/

/-- Neither the reply nor the data of a PTY, nor a read. -/
def Item.Still : Item → Prop
  | .opened _ => False
  | .data _ _ => False
  | .read _ => False
  | _ => True

section

variable {e e' : ConnectionEntry} {channel : Nat} {log items : List Item} {item : Item}

theorem Item.Still.hear (channel : Nat) (h : Heard) (hstill : item.Still) :
    (hear channel h item).bytes = h.bytes ∧ (hear channel h item).opened = h.opened ∧
      (h.ended = true → (Link.hear channel h item).ended = true) := by
  cases item with
  | opened | data | read => exact hstill.elim
  | ended c => unfold Link.hear; dsimp only; split <;> exact ⟨rfl, rfl, by simp⟩
  | lost => exact ⟨rfl, rfl, fun _ => rfl⟩
  | ptyRef | executed | failed => exact ⟨rfl, rfl, id⟩

theorem Item.Still.chunkOf (hstill : item.Still) : item.chunkOf channel = [] := by
  cases item with
  | read r => exact hstill.elim
  | opened | data | ended | lost | ptyRef | executed | failed => rfl

theorem Item.Still.faithful (hstill : item.Still) : Faithful log item := by
  cases item with
  | read r => exact hstill.elim
  | opened | data | ended | lost | ptyRef | executed | failed => trivial

/-- Nothing is received or returned between the two logs. -/
structure Quiet (log log' : List Item) : Prop where
  bytes : ∀ channel, (heard channel log').bytes = (heard channel log).bytes
  opened : ∀ channel, (heard channel log').opened = (heard channel log).opened
  ended : ∀ channel, (heard channel log).ended = true → (heard channel log').ended = true
  returned : ∀ channel, returned channel log' = returned channel log
  faithful : Coop.Each Faithful log → Coop.Each Faithful log'

theorem Quiet.refl : Quiet log log := ⟨fun _ => rfl, fun _ => rfl, fun _ => id, fun _ => rfl, id⟩

theorem Quiet.trans {log' log'' : List Item} (h : Quiet log log') (h' : Quiet log' log'') :
    Quiet log log'' where
  bytes c := (h'.bytes c).trans (h.bytes c)
  opened c := (h'.opened c).trans (h.opened c)
  ended c hc := h'.ended c (h.ended c hc)
  returned c := (h'.returned c).trans (h.returned c)
  faithful hl := h'.faithful (h.faithful hl)

theorem Quiet.still (h : item.Still) : Quiet log (log ++ [item]) where
  bytes c := by rw [heard_snoc]; exact (h.hear c _).1
  opened c := by rw [heard_snoc]; exact (h.hear c _).2.1
  ended c := by rw [heard_snoc]; exact (h.hear c _).2.2
  returned c := by
    have hnone : Link.returned c [item] = [] := by
      unfold Link.returned
      rw [List.flatMap_singleton, h.chunkOf]
    rw [returned_append, hnone, List.append_nil]
  faithful hl := hl.snoc h.faithful

variable {payload : Bytes}

/-- A frame that no one is to have. -/
theorem Quiet.data (h : payload = [] ∨ ¬ ((heard channel log).opened = true ∧
    (heard channel log).ended = false)) : Quiet log (log ++ [.data channel payload]) := by
  have hsame : ∀ c, heard c (log ++ [.data channel payload]) = heard c log := by
    intro c
    rw [heard_snoc]
    unfold hear
    dsimp only
    split
    · next hc =>
      obtain ⟨rfl, hlive⟩ := hc
      rw [h.resolve_right fun hne => hne hlive, List.append_nil]
    · rfl
  refine ⟨fun c => by rw [hsame], fun c => by rw [hsame], fun c => by rw [hsame]; exact id,
    fun c => ?_, fun hl => hl.snoc trivial⟩
  rw [returned_append]
  exact List.append_nil _

/-- A read that returns nothing. -/
theorem Quiet.read {options : SshPtyReadOptions} {eof : Bool}
    (h : eof = true → (heard options.channel log).ended = true ∧
      Link.returned options.channel log = (heard options.channel log).bytes) :
    Quiet log (log ++ [.read ⟨options, [], eof⟩]) := by
  have hsame : ∀ c, heard c (log ++ [.read ⟨options, [], eof⟩]) = heard c log := fun c => heard_snoc
  refine ⟨fun c => by rw [hsame], fun c => by rw [hsame], fun c => by rw [hsame]; exact id,
    fun c => ?_, fun hl => hl.snoc ⟨Nat.zero_le _, h⟩⟩
  have hnone : Link.returned c [.read ⟨options, [], eof⟩] = [] := by
    unfold Link.returned
    rw [List.flatMap_singleton, Item.chunkOf, ite_self]
  rw [returned_append, hnone, List.append_nil]

/-- A step that no buffer takes part in. -/
structure Aside (e e' : ConnectionEntry) : Prop where
  ptys : e'.ptys = e.ptys
  next : e'.nextChannel = e.nextChannel
  opens : ∀ channel pending, property channel e'.opens = some pending →
    property channel e.opens = some pending
  due : dueOf e'.jobs = dueOf e.jobs
  log : Quiet e.log e'.log

theorem Aside.refl : Aside e e := ⟨rfl, rfl, fun _ _ => id, rfl, .refl⟩

theorem Aside.trans {e'' : ConnectionEntry} (h : Aside e e') (h' : Aside e' e'') : Aside e e'' :=
  ⟨h'.ptys.trans h.ptys, h'.next.trans h.next, fun c p hp => h.opens c p (h'.opens c p hp),
    h'.due.trans h.due, h.log.trans h'.log⟩

variable {buffer : PtyBuffer}

theorem Queued.quiet {log' : List Item} (h : Queued log channel buffer)
    (hq : Quiet log log') : Queued log' channel buffer where
  opened := (hq.opened channel).trans h.opened
  bytes := by rw [hq.returned, hq.bytes, h.bytes]
  ended hb := hq.ended channel (h.ended hb)
  waits := h.waits
  own := h.own

theorem Inv.aside (h : Inv e) (ha : Aside e e') : Inv e' := by
  refine ⟨fun c => ?_, fun c b hb => ?_, fun c hc => ?_, ha.due ▸ h.once, fun c requestId hc => ?_,
    fun c hc => ?_, ha.log.faithful h.faithful⟩
  · rw [ha.log.returned, ha.log.bytes]
    exact h.inOrder c
  · exact (h.queued c b (ha.ptys ▸ hb)).quiet ha.log
  · rw [ha.ptys, ha.log.opened, ha.log.bytes]
    exact h.due c (ha.due ▸ hc)
  · rw [ha.log.opened]
    exact h.asked c requestId (ha.opens c _ hc)
  · have hfresh := h.fresh c (ha.next ▸ hc)
    refine ⟨(ha.log.opened c).trans hfresh.1, ?_⟩
    refine Option.eq_none_iff_forall_ne_some.mpr fun pending hp => ?_
    exact absurd (hfresh.2.symm.trans (ha.opens c pending hp)) (by simp)

theorem Aside.note (h : Quiet e.log (e.log ++ items)) : Aside e (e.note items) :=
  ⟨rfl, rfl, fun _ _ => id, rfl, h⟩

variable {pending : ExecPending}

theorem aside_settleExec : Aside e (e.settleExec pending) := by
  unfold ConnectionEntry.settleExec
  split
  · exact .refl
  · exact ⟨rfl, rfl, fun _ _ => id, rfl, .refl⟩

theorem aside_resolveExec {exitCode : Option Int} : Aside e (e.resolveExec pending exitCode) := by
  refine aside_settleExec.trans (.note ?_)
  split
  · rw [List.append_nil]
    exact .refl
  · exact .still trivial

variable {error : SshCapabilityError}

theorem aside_rejectExec : Aside e (e.rejectExec pending error) := by
  refine aside_settleExec.trans (.note ?_)
  split
  · rw [List.append_nil]
    exact .refl
  · exact .still trivial

theorem aside_withExec {mainChannel : Nat} {finish : ConnectionEntry → ExecPending → ConnectionEntry}
    (h : ∀ pending, Aside e (finish e pending)) : Aside e (e.withExec mainChannel finish) := by
  unfold ConnectionEntry.withExec
  split
  · exact h _
  · exact .refl

theorem aside_finishExec {finish : ConnectionEntry → ExecPending → ConnectionEntry}
    (h : ∀ pending, Aside e (finish e pending)) : Aside e (e.finishExec channel finish) := by
  unfold ConnectionEntry.finishExec
  split
  · exact aside_withExec h
  · exact .refl

theorem aside_rejectOpen {pending : OpenPending} : Aside e (e.rejectOpen channel pending error) := by
  refine ⟨rfl, rfl, fun _ _ => id, ?_, .refl⟩
  cases pending <;> simp [ConnectionEntry.rejectOpen, dueOf, Job.due]

theorem aside_adoptErr {errCh : Option Nat} : Aside e (e.adoptErr channel errCh) := by
  unfold ConnectionEntry.adoptErr
  split
  · exact .refl
  · refine aside_finishExec fun pending => ?_
    split
    · exact ⟨rfl, rfl, fun _ _ => id, rfl, .refl⟩
    · exact .refl

theorem aside_unopen : Aside e { e with opens := remove channel e.opens } := by
  refine ⟨rfl, rfl, fun c pending hp => ?_, rfl, .refl⟩
  by_cases hc : c = channel
  · subst hc
    rw [property_remove_self] at hp
    cases hp
  · rwa [property_remove_other hc] at hp

/-! ## Steps of one buffer -/

/-- What a step has to say of the channel whose buffer it replaces, and of the others. -/
theorem Inv.put (h : Inv e) {log' : List Item} (n : Nat) (hsome : property channel e.ptys ≠ none)
    (hopened : ∀ c, (heard c log').opened = (heard c e.log).opened)
    (hother : ∀ c, c ≠ channel → heard c log' = heard c e.log ∧ returned c log' = returned c e.log)
    (hqueued : Queued log' channel buffer) (hfaithful : Coop.Each Faithful log') :
    Inv { e with ptys := assign channel buffer e.ptys, log := log', nextRead := n } := by
  have hdue : ∀ c ∈ dueOf e.jobs, c ≠ channel := by
    rintro c hc rfl
    exact hsome (h.due c hc).1
  refine ⟨fun c => ?_, fun c b hb => ?_, fun c hc => ?_, h.once, fun c requestId hc => ?_,
    fun c hc => ?_, hfaithful⟩
  · by_cases hc : c = channel
    · subst hc
      exact ⟨_, hqueued.bytes⟩
    · dsimp only
      rw [(hother c hc).1, (hother c hc).2]
      exact h.inOrder c
  · by_cases hc : c = channel
    · subst hc
      obtain rfl : buffer = b := Option.some.inj (property_assign_self.symm.trans hb)
      exact hqueued
    · have hold := h.queued c b ((property_assign_other hc).symm.trans hb)
      refine ⟨(hopened c).trans hold.opened, ?_, ?_, hold.waits, hold.own⟩
      · dsimp only
        rw [(hother c hc).1, (hother c hc).2]
        exact hold.bytes
      · dsimp only
        rw [(hother c hc).1]
        exact hold.ended
  · have hne := hdue c hc
    dsimp only
    rw [property_assign_other hne, (hother c hne).1]
    exact h.due c hc
  · exact (hopened c).trans (h.asked c requestId hc)
  · exact ⟨(hopened c).trans (h.fresh c hc).1, (h.fresh c hc).2⟩

/-- A step that hands out chunks of a buffer. -/
theorem Inv.hand (h : Inv e) {old : PtyBuffer} (buffer : PtyBuffer) (reads : List PtyRead)
    (hold : property channel e.ptys = some old) (hown : ∀ r ∈ reads, r.options.channel = channel)
    (hbytes : (reads.map (·.chunk)).flatten ++ buffer.chunks.flatten = old.chunks.flatten)
    (hended : buffer.eof = true → (heard channel e.log).ended = true)
    (hwaits : buffer.waiters ≠ [] → buffer.chunks = [])
    (hwaiters : ∀ waiter ∈ buffer.waiters, waiter.options.channel = channel)
    (hfaithful : Coop.Each Faithful (e.log ++ reads.map .read)) :
    Inv { e with
      ptys := assign channel buffer e.ptys, log := e.log ++ reads.map .read } := by
  have hq := h.queued channel old hold
  refine h.put e.nextRead (by simp [hold]) (fun c => by rw [heard_reads]) (fun c hc => ⟨heard_reads, ?_⟩)
    ⟨?_, ?_, ?_, hwaits, hwaiters⟩ hfaithful
  · rw [returned_append, returned_other hown hc, List.append_nil]
  · rw [heard_reads]
    exact hq.opened
  · rw [heard_reads, returned_append, returned_own hown, List.append_assoc, hbytes, hq.bytes]
  · rw [heard_reads]
    exact hended

variable {waiters : List Waiter}

theorem deliverAll_own {chunks : List Bytes} {eof : Bool}
    (hown : ∀ waiter ∈ waiters, waiter.options.channel = channel) :
    ∀ r ∈ (deliverAll eof waiters chunks).1, r.options.channel = channel := by
  intro r hr
  obtain ⟨waiter, hmem, heq⟩ := deliverAll_options hr
  rw [heq]
  exact hown waiter hmem

/-- Reads that are told of the end, of a channel that was returned entirely. -/
theorem faithful_ended (hlog : Coop.Each Faithful log)
    (hown : ∀ waiter ∈ waiters, waiter.options.channel = channel)
    (hended : (heard channel log).ended = true)
    (hall : waiters ≠ [] → returned channel log = (heard channel log).bytes) :
    Coop.Each Faithful (log ++ (deliverAll true waiters []).1.map .read) := by
  rw [deliverAll_ended]
  have hquiet : ∀ waiters : List Waiter, (∀ waiter ∈ waiters, waiter.options.channel = channel) →
      (waiters ≠ [] → returned channel log = (heard channel log).bytes) →
      Quiet log (log ++ (waiters.map fun waiter : Waiter => (⟨waiter.options, [], true⟩ : PtyRead)).map
        .read) := by
    intro waiters hown hall
    induction waiters using List.reverseRecOn with
    | nil => exact (List.append_nil log).symm ▸ .refl
    | append_singleton waiters waiter ih =>
      have hall := hall (by simp)
      have hstart := ih (fun w hw => hown w (List.mem_append_left _ hw)) fun _ => hall
      have hchannel := hown waiter (by simp)
      rw [List.map_append, List.map_append, ← List.append_assoc]
      refine hstart.trans (.read fun _ => ?_)
      rw [hchannel]
      exact ⟨hstart.ended _ hended, by rw [hstart.returned, hstart.bytes, hall]⟩
  exact (hquiet waiters hown hall).faithful hlog

/-- With a read waiting, all that was received was returned. -/
theorem Queued.all (h : Queued log channel buffer) (hw : buffer.waiters ≠ []) :
    returned channel log = (heard channel log).bytes := by
  have hbytes := h.bytes
  rw [h.waits hw] at hbytes
  simpa using hbytes

/-- The flush of a buffer that has ended. -/
theorem flush_ended (hw : buffer.waiters ≠ [] → buffer.chunks = []) :
    PtyBuffer.flush { buffer with eof := true } =
      ((deliverAll true buffer.waiters []).1, ⟨buffer.chunks, true, []⟩) := by
  unfold PtyBuffer.flush
  dsimp only
  by_cases hnone : buffer.waiters = []
  · rw [hnone]
    rfl
  · rw [hw hnone, deliverAll_ended]

theorem Inv.endPty (h : Inv e)
    (hended : ∀ buffer, property channel e.ptys = some buffer → (heard channel e.log).ended = true) :
    Inv (e.endPty channel) := by
  unfold ConnectionEntry.endPty
  split
  · next buffer hb =>
    have hq := h.queued channel buffer hb
    unfold ConnectionEntry.flushPty
    rw [flush_ended hq.waits]
    refine h.hand _ _ hb (deliverAll_own hq.own) ?_ (fun _ => hended buffer hb)
      (fun hne => absurd rfl hne) (fun _ hmem => by cases hmem) ?_
    · rw [deliverAll_ended]
      simp
    · exact faithful_ended h.faithful hq.own (hended buffer hb) hq.all
  · exact h

theorem heard_endPty (c : Nat) : heard c (e.endPty channel).log = heard c e.log := by
  unfold ConnectionEntry.endPty
  split
  · exact heard_reads
  · rfl

/-- The end of a channel, whatever else is done for it. -/
theorem Inv.finish (h : Inv e) (ha : Aside (e.note [.ended channel]) e') :
    Inv (e'.endPty channel) := by
  have hnote : Aside e (e.note [.ended channel]) := .note (.still trivial)
  refine (h.aside (hnote.trans ha)).endPty fun buffer hb => ?_
  have hopened := (h.queued channel buffer (hnote.ptys ▸ ha.ptys ▸ hb)).opened
  refine ha.log.ended channel ?_
  show (heard channel (e.log ++ [.ended channel])).ended = true
  rw [heard_snoc, hear, if_pos ⟨rfl, hopened⟩]

theorem faithful_open {chunks : List Bytes} (hlog : Coop.Each Faithful log)
    (hfits : Fits waiters chunks.flatten.length) :
    Coop.Each Faithful (log ++ (deliverAll false waiters chunks).1.map .read) := by
  refine hlog.append _ fun before item after heq => ?_
  have hmem : item ∈ (deliverAll false waiters chunks).1.map Item.read := by simp [heq]
  obtain ⟨r, hr, rfl⟩ := List.mem_map.mp hmem
  exact ⟨deliverAll_bounded hfits hr, fun heof => absurd (deliverAll_open hr) (by simp [heof])⟩

/-- A frame that the buffer takes. -/
theorem Inv.push (h : Inv e) (hb : property channel e.ptys = some buffer) (hopen : buffer.eof = false)
    (hlive : payload = [] ∨ Live e channel) (hfits : Fits buffer.waiters payload.length) :
    Inv ((e.note [.data channel payload]).flushPty channel
      { buffer with chunks := buffer.chunks ++ [payload] }) := by
  have hq := h.queued channel buffer hb
  have hheard : heard channel (e.log ++ [.data channel payload]) =
      { heard channel e.log with bytes := (heard channel e.log).bytes ++ payload } := by
    rw [heard_snoc]
    unfold hear
    dsimp only
    split
    · rfl
    · next hdead =>
      rw [hlive.resolve_right fun hne => hdead ⟨rfl, hne⟩, List.append_nil]
  have hothers : ∀ c, c ≠ channel →
      heard c (e.log ++ [.data channel payload]) = heard c e.log := by
    intro c hc
    rw [heard_snoc]
    exact if_neg fun h => hc h.1.symm
  have hreturned : ∀ c, returned c (e.log ++ [.data channel payload]) = returned c e.log := by
    intro c
    rw [returned_append]
    exact List.append_nil _
  have hflush : PtyBuffer.flush { buffer with chunks := buffer.chunks ++ [payload] } =
      ((deliverAll false buffer.waiters (buffer.chunks ++ [payload])).1,
        ⟨(deliverAll false buffer.waiters (buffer.chunks ++ [payload])).2, false, []⟩) := by
    unfold PtyBuffer.flush
    rw [hopen]
  unfold ConnectionEntry.flushPty ConnectionEntry.note
  rw [hflush]
  refine h.put e.nextRead (by simp [hb]) (fun c => ?_) (fun c hc => ⟨?_, ?_⟩) ⟨?_, ?_, ?_, ?_, ?_⟩ ?_
  · rw [heard_reads]
    by_cases hc : c = channel
    · subst hc
      rw [hheard]
    · rw [hothers c hc]
  · rw [heard_reads, hothers c hc]
  · rw [returned_append, returned_other (deliverAll_own hq.own) hc, List.append_nil, hreturned]
  · rw [heard_reads, hheard]
    exact hq.opened
  · rw [heard_reads, hheard, returned_append, returned_own (deliverAll_own hq.own), hreturned,
      List.append_assoc, deliverAll_append, List.flatten_append, ← List.append_assoc, hq.bytes]
    simp
  · exact fun heof => by cases heof
  · exact fun hne => absurd rfl hne
  · exact fun _ hmem => by cases hmem
  · have hlog : Coop.Each Faithful (e.log ++ [.data channel payload]) := h.faithful.snoc trivial
    by_cases hnone : buffer.waiters = []
    · rw [hnone]
      simpa [deliverAll] using hlog
    · refine faithful_open hlog ?_
      rw [hq.waits hnone]
      simpa using hfits

theorem Inv.data (h : Inv e) (htakes : payload = [] ∨ (Takes e channel ↔ Live e channel))
    (hfits : Takes e channel → ∀ buffer ∈ property channel e.ptys,
      Fits buffer.waiters payload.length) :
    Inv ((e.note [.data channel payload]).takeData channel payload) := by
  have hmissed : ¬ Takes e channel → Aside e (e.note [.data channel payload]) := by
    intro hnot
    refine .note (.data ?_)
    rcases htakes with hnone | hiff
    · exact .inl hnone
    · exact .inr fun hlive => hnot (hiff.mpr hlive)
  unfold ConnectionEntry.takeData
  split
  · -- A command has the channel.
    next mainChannel hexec =>
    have hnot : ¬ Takes e channel := fun ht => by
      have hnone : property channel (e.note [.data channel payload]).execs = none := ht.1
      rw [hexec] at hnone
      cases hnone
    refine h.aside ((hmissed hnot).trans (aside_withExec fun pending => ?_))
    exact ⟨rfl, rfl, fun _ _ => id, rfl, .refl⟩
  · next hexec =>
    split
    · next buffer hb =>
      split
      · next heof =>
        have hnot : ¬ Takes e channel := by
          rintro ⟨-, other, hother, hopen⟩
          obtain rfl : buffer = other := Option.some.inj (hb.symm.trans hother)
          rw [heof] at hopen
          cases hopen
        exact h.aside (hmissed hnot)
      · next heof =>
        have hopen : buffer.eof = false := by simpa using heof
        have ht : Takes e channel := ⟨hexec, buffer, hb, hopen⟩
        exact h.push hb hopen (htakes.imp id fun hiff => hiff.mp ht) (hfits ht buffer hb)
    · next hb =>
      have hnot : ¬ Takes e channel := by
        rintro ⟨-, other, hother, -⟩
        have hnone : property channel e.ptys = none := hb
        rw [hnone] at hother
        cases hother
      exact h.aside (hmissed hnot)

theorem Inv.readPty (h : Inv e) (options : SshPtyReadOptions) : Inv (e.readPty options) := by
  unfold ConnectionEntry.readPty
  split
  · exact h.aside (.note (.still trivial))
  · next buffer hb =>
    have hq := h.queued _ buffer hb
    split
    · next hsome =>
      have hnowait : buffer.waiters = [] := by
        by_contra hne
        exact hsome (hq.waits hne)
      have hread := h.hand { buffer with chunks := (takeBuffered buffer.chunks options.limit).2 }
        [⟨options, (takeBuffered buffer.chunks options.limit).1, false⟩] hb
      refine hread (fun r hr => by rw [List.mem_singleton.mp hr]) ?_ hq.ended
        (fun hne => absurd hnowait hne) hq.own ?_
      · simpa using takeBuffered_append options.limit buffer.chunks
      · refine h.faithful.snoc ⟨?_, fun heof => by cases heof⟩
        dsimp only
        rw [takeBuffered_length]
        exact Nat.min_le_left _ _
    · next hnone =>
      have hchunks : buffer.chunks = [] := not_not.mp hnone
      have hall : returned options.channel e.log = (heard options.channel e.log).bytes := by
        have hbytes := hq.bytes
        rw [hchunks] at hbytes
        simpa using hbytes
      split
      · next heof => exact h.aside (.note (.read fun _ => ⟨hq.ended heof, hall⟩))
      · split
        · exact h.aside (.note (.read fun heof => by cases heof))
        · refine h.put (e.nextRead + 1) (by simp [hb]) (fun _ => rfl) (fun _ _ => ⟨rfl, rfl⟩)
            ⟨hq.opened, hq.bytes, hq.ended, fun _ => hchunks, fun w hw => ?_⟩ h.faithful
          rcases List.mem_append.mp hw with hw | hw
          · exact hq.own w hw
          · rw [List.mem_singleton.mp hw]

theorem Inv.readTimedOut (h : Inv e) (id : Nat) : Inv (e.readTimedOut channel id) := by
  unfold ConnectionEntry.readTimedOut
  split
  · exact h
  · next buffer hb =>
    have hq := h.queued _ buffer hb
    split
    · exact h
    · next waiter hw =>
      have hmem := List.mem_of_find?_eq_some hw
      have hread := h.hand { buffer with waiters := buffer.waiters.filter (·.id ≠ id) }
        [⟨waiter.options, [], false⟩] hb
      refine hread (fun r hr => ?_) rfl hq.ended (fun hne => hq.waits fun hnone => hne ?_)
        (fun w hwait => hq.own w (List.mem_filter.mp hwait).1) ?_
      · rw [List.mem_singleton.mp hr]
        exact hq.own waiter hmem
      · rw [hnone]
        rfl
      · exact h.faithful.snoc ⟨Nat.zero_le _, fun heof => by cases heof⟩

/-- The buffer is gone; what it still has is never returned. -/
theorem Inv.closePty (h : Inv e) : Inv (e.closePty channel) := by
  unfold ConnectionEntry.closePty
  split
  · exact h
  · next buffer hb =>
    have hq := h.queued channel buffer hb
    have hnote : Aside e (e.note [.ended channel]) := .note (.still trivial)
    have hnoted := h.aside hnote
    have hended : (heard channel (e.log ++ [.ended channel])).ended = true := by
      rw [heard_snoc, hear, if_pos ⟨rfl, hq.opened⟩]
    have hq' := hnoted.queued channel buffer hb
    -- the readers that wait hear of the end, and no bytes are returned to them
    rw [flush_ended hq.waits]
    have hlog : e.log ++ .ended channel :: (deliverAll true buffer.waiters []).1.map Item.read =
        (e.log ++ [.ended channel]) ++ (deliverAll true buffer.waiters []).1.map Item.read := by simp
    have hchunks : ((deliverAll true buffer.waiters []).1.map (·.chunk)).flatten = [] := by
      rw [deliverAll_ended]
      simp
    have hreturned : ∀ c, returned c (e.log ++ .ended channel ::
        (deliverAll true buffer.waiters []).1.map Item.read) = returned c (e.log ++ [.ended channel]) := by
      intro c
      rw [hlog, returned_append]
      by_cases hc : c = channel
      · subst hc
        rw [returned_own (deliverAll_own hq.own), hchunks, List.append_nil]
      · rw [returned_other (deliverAll_own hq.own) hc, List.append_nil]
    have hheard : ∀ c, heard c (e.log ++ .ended channel ::
        (deliverAll true buffer.waiters []).1.map Item.read) = heard c (e.log ++ [.ended channel]) := by
      intro c
      rw [hlog, heard_reads]
    refine ⟨fun c => ?_, fun c b hc => ?_, fun c hc => ?_, h.once, fun c requestId hc => ?_,
      fun c hc => ?_, ?_⟩
    · dsimp only
      rw [hreturned, hheard]
      exact hnoted.inOrder c
    · have hne : c ≠ channel := by
        rintro rfl
        rw [property_remove_self] at hc
        cases hc
      have hold := hnoted.queued c b ((property_remove_other hne).symm.trans hc)
      refine ⟨?_, ?_, ?_, hold.waits, hold.own⟩
      · dsimp only
        rw [hheard]
        exact hold.opened
      · dsimp only
        rw [hheard, hreturned]
        exact hold.bytes
      · dsimp only
        rw [hheard]
        exact hold.ended
    · have hdue := hnoted.due c hc
      have hne : c ≠ channel := by
        rintro rfl
        exact absurd (hb.symm.trans hdue.1) (by simp)
      dsimp only
      rw [hheard, property_remove_other hne]
      exact hdue
    · dsimp only
      rw [hheard]
      exact hnoted.asked c requestId hc
    · dsimp only
      rw [hheard]
      exact hnoted.fresh c hc
    · dsimp only
      rw [hlog]
      exact faithful_ended hnoted.faithful hq.own hended hq'.all

/-! ## Steps of a channel that has no buffer -/

/-- The reply comes once, to a channel that nothing was received for. -/
theorem Inv.opened (h : Inv e) {requestId : String} (hfresh : (heard channel e.log).opened = false)
    (hnext : channel < e.nextChannel) (hopens : property channel e.opens = none) :
    Inv (e.resolveOpen channel (.pty requestId)) := by
  have hbytes := heard_unopened hfresh
  have hnobuffer : property channel e.ptys = none := by
    refine Option.eq_none_iff_forall_ne_some.mpr fun buffer hb => ?_
    exact absurd ((h.queued channel buffer hb).opened.symm.trans hfresh) (by decide)
  have hnotdue : channel ∉ dueOf e.jobs := fun hmem =>
    absurd ((h.due channel hmem).2.1.symm.trans hfresh) (by decide)
  have hself : heard channel (e.log ++ [.opened channel]) =
      { heard channel e.log with opened := true } := by
    rw [heard_snoc, hear, if_pos rfl]
  have hother : ∀ c, c ≠ channel → heard c (e.log ++ [.opened channel]) = heard c e.log := by
    intro c hc
    rw [heard_snoc, hear, if_neg (Ne.symm hc)]
  have hreturned : ∀ c, returned c (e.log ++ [.opened channel]) = returned c e.log := by
    intro c
    rw [returned_append]
    exact List.append_nil _
  have hdue : dueOf (e.jobs ++ [.ptyOpened channel requestId]) = dueOf e.jobs ++ [channel] := by
    simp [dueOf, Job.due]
  unfold ConnectionEntry.resolveOpen
  refine ⟨fun c => ?_, fun c buffer hb => ?_, fun c hc => ?_, ?_, fun c id hc => ?_, fun c hc => ?_,
    h.faithful.snoc trivial⟩
  · dsimp only
    by_cases hc : c = channel
    · subst hc
      rw [hreturned, hself]
      exact h.inOrder c
    · rw [hreturned, hother c hc]
      exact h.inOrder c
  · have hne : c ≠ channel := by
      rintro rfl
      exact absurd (hnobuffer.symm.trans hb) (by simp)
    have hold := h.queued c buffer hb
    refine ⟨?_, ?_, ?_, hold.waits, hold.own⟩
    · dsimp only
      rw [hother c hne]
      exact hold.opened
    · dsimp only
      rw [hother c hne, hreturned]
      exact hold.bytes
    · dsimp only
      rw [hother c hne]
      exact hold.ended
  · dsimp only at hc ⊢
    rw [hdue] at hc
    rcases List.mem_append.mp hc with hc | hc
    · have hne : c ≠ channel := fun heq => hnotdue (heq ▸ hc)
      rw [hother c hne]
      exact h.due c hc
    · rw [List.mem_singleton.mp hc, hself]
      exact ⟨hnobuffer, rfl, hbytes⟩
  · dsimp only
    rw [hdue]
    exact List.nodup_append.mpr ⟨h.once, List.nodup_singleton _, fun a ha b hb heq =>
      hnotdue (List.mem_singleton.mp hb ▸ heq ▸ ha)⟩
  · have hne : c ≠ channel := by
      rintro rfl
      exact absurd (hopens.symm.trans hc) (by simp)
    dsimp only
    rw [hother c hne]
    exact h.asked c id hc
  · have hne : c ≠ channel := fun heq => absurd hnext (not_lt.mpr (heq ▸ hc))
    dsimp only
    rw [hother c hne]
    exact h.fresh c hc

theorem Inv.handleOpened (h : Inv e) (frame : LinkControlFrame) :
    Inv (e.handleOpened frame channel) := by
  unfold ConnectionEntry.handleOpened
  split
  · exact h
  · next pending hp =>
    dsimp only
    split
    · have ha : Aside e (({ e with opens := remove channel e.opens }).adoptErr channel frame.errCh) :=
        aside_unopen.trans aside_adoptErr
      cases pending with
      | exec => exact h.aside ha
      | pty requestId =>
        refine (h.aside ha).opened ?_ ?_ ?_
        · rw [ha.log.opened]
          exact h.asked channel requestId hp
        · rw [ha.next]
          by_contra hge
          exact absurd ((h.fresh channel (not_lt.mp hge)).2.symm.trans hp) (by simp)
        · refine Option.eq_none_iff_forall_ne_some.mpr fun pending hq => ?_
          have hremoved := aside_adoptErr.opens channel pending hq
          rw [property_remove_self] at hremoved
          cases hremoved
    · exact h.aside (aside_unopen.trans aside_rejectOpen)

/-- The buffer is made once, for a channel that nothing was received for. -/
theorem Inv.registered (h : Inv e) {requestId : String} {jobs : List Job}
    (hjobs : e.jobs = .ptyOpened channel requestId :: jobs) :
    Inv { e with jobs, ptys := assign channel {} e.ptys } := by
  have hcons : dueOf e.jobs = channel :: dueOf jobs := by
    rw [hjobs]
    rfl
  have hmem : channel ∈ dueOf e.jobs := hcons ▸ List.mem_cons_self
  obtain ⟨-, hopened, hbytes⟩ := h.due channel hmem
  obtain ⟨hnotdue, honce⟩ := List.nodup_cons.mp (hcons ▸ h.once)
  have hreturned : returned channel e.log = [] := by
    have hin := h.inOrder channel
    rw [hbytes] at hin
    exact List.prefix_nil.mp hin
  refine ⟨h.inOrder, fun c buffer hb => ?_, fun c hc => ?_, honce, h.asked, h.fresh, h.faithful⟩
  · by_cases hc : c = channel
    · subst hc
      obtain rfl : {} = buffer := Option.some.inj (property_assign_self.symm.trans hb)
      refine ⟨hopened, ?_, fun heof => (by cases heof), fun hne => absurd rfl hne,
        fun _ hw => (by cases hw)⟩
      rw [hreturned, hbytes]
      rfl
    · exact h.queued c buffer ((property_assign_other hc).symm.trans hb)
  · have hne : c ≠ channel := fun heq => hnotdue (heq ▸ hc)
    have hdue := h.due c (hcons ▸ List.mem_cons_of_mem _ hc)
    exact ⟨(property_assign_other hne).trans hdue.1, hdue.2⟩

theorem Inv.runJob (h : Inv e) : Inv e.runJob := by
  unfold ConnectionEntry.runJob
  split
  · exact h
  · next channel requestId jobs hjobs => exact (h.registered hjobs).aside (.note (.still trivial))
  · next requestId error jobs hjobs =>
    have hdue : dueOf jobs = dueOf e.jobs := by
      rw [hjobs]
      rfl
    exact h.aside ⟨rfl, rfl, fun _ _ => id, hdue, .still trivial⟩
  · next mainChannel error jobs hjobs =>
    have hdue : dueOf jobs = dueOf e.jobs := by
      rw [hjobs]
      rfl
    have ha : Aside e { e with jobs } := ⟨rfl, rfl, fun _ _ => id, hdue, .refl⟩
    exact h.aside (ha.trans (aside_withExec fun pending => aside_rejectExec))

/-- A channel number is given out once. -/
theorem Inv.allocated (h : Inv e) (pending : OpenPending) :
    Inv { e with
      nextChannel := e.nextChannel + 1, opens := assign e.nextChannel pending e.opens } := by
  refine ⟨h.inOrder, h.queued, h.due, h.once, fun c requestId hc => ?_, fun c hc => ?_, h.faithful⟩
  · by_cases heq : c = e.nextChannel
    · exact (h.fresh c heq.ge).1
    · exact h.asked c requestId ((property_assign_other heq).symm.trans hc)
  · have hle : e.nextChannel + 1 ≤ c := hc
    have hfresh := h.fresh c (by omega)
    exact ⟨hfresh.1, (property_assign_other (by omega)).trans hfresh.2⟩

/-! ## The end of a connection -/

theorem aside_foldl {α : Type} (f : ConnectionEntry → α → ConnectionEntry)
    (hf : ∀ e a, Aside e (f e a)) (list : List α) (e : ConnectionEntry) :
    Aside e (list.foldl f e) := by
  induction list generalizing e with
  | nil => exact .refl
  | cons a list ih => exact (hf e a).trans (ih (f e a))

theorem Inv.endAll (h : Inv e) (hended : ∀ c, (heard c e.log).ended = true) (channels : List Nat) :
    Inv (channels.foldl ConnectionEntry.endPty e) := by
  induction channels generalizing e with
  | nil => exact h
  | cons channel channels ih =>
    exact ih (h.endPty fun _ _ => hended channel) fun c => (heard_endPty c).symm ▸ hended c

theorem Inv.abandon (h : Inv e) (error : SshCapabilityError) : Inv (e.abandon error) := by
  unfold ConnectionEntry.abandon
  dsimp only
  have hlost : Aside e (e.note [.lost]) := .note (.still trivial)
  have hexecs := aside_foldl (fun (e : ConnectionEntry) mainChannel =>
      e.withExec mainChannel fun e pending => e.rejectExec pending error)
    (fun e mainChannel => aside_withExec fun pending => aside_rejectExec) (e.execs.map Prod.snd)
    (e.note [.lost])
  generalize ((e.execs.map Prod.snd).foldl (fun (e : ConnectionEntry) mainChannel =>
    e.withExec mainChannel fun e pending => e.rejectExec pending error) (e.note [.lost])) = e₁ at *
  have hopens := aside_foldl (fun (e : ConnectionEntry) (pending : Nat × OpenPending) =>
    e.rejectOpen pending.1 pending.2 error) (fun e pending => aside_rejectOpen) e₁.opens e₁
  generalize (e₁.opens.foldl (fun (e : ConnectionEntry) (pending : Nat × OpenPending) =>
    e.rejectOpen pending.1 pending.2 error) e₁) = e₂ at *
  have hclear : Aside e₂ { e₂ with opens := [] } :=
    ⟨rfl, rfl, fun _ _ hp => (by cases hp), rfl, .refl⟩
  have hsince := hexecs.trans (hopens.trans hclear)
  refine (h.aside (hlost.trans hsince)).endAll (fun c => hsince.log.ended c ?_) _
  show (heard c (e.log ++ [.lost])).ended = true
  rw [heard_snoc]
  rfl

/-! ## Every step, and every run -/

theorem Inv.step (h : Inv e) {action : Action} (hcareful : Careful e action) :
    Inv (step e action) := by
  cases action with
  | openPty requestId =>
    unfold Link.step ConnectionEntry.openPty
    dsimp only
    split
    · exact h.allocated _
    · exact h.aside (.note (.still trivial))
  | exec requestId =>
    unfold Link.step ConnectionEntry.exec
    dsimp only
    split
    · exact (h.allocated .exec).aside ⟨rfl, rfl, fun _ _ => id, rfl, .refl⟩
    · exact h.aside (.note (.still trivial))
  | readPty options => exact h.readPty options
  | closePty channel => exact h.closePty
  | closeConnection =>
    have hclosed : Aside e { e with state := .closed } := ⟨rfl, rfl, fun _ _ => id, rfl, .refl⟩
    exact (h.aside hclosed).abandon _
  | control frame =>
    unfold Link.step ConnectionEntry.handleControl
    dsimp only
    split
    · exact h
    · split
      · exact h.handleOpened frame
      · exact h.finish (aside_finishExec fun pending => aside_resolveExec)
      · exact h.finish .refl
      · exact h.finish (aside_finishExec fun pending => aside_rejectExec)
      · exact h
  | data raw =>
    unfold Link.step ConnectionEntry.handleData
    dsimp only
    split
    · next channel payload hparse =>
      have hc := hcareful channel payload hparse
      exact h.data hc.1 hc.2
    · exact h
  | lose reason =>
    unfold Link.step ConnectionEntry.loseConnection
    dsimp only
    split
    · have hlost : Aside e { e with state := .lost } := ⟨rfl, rfl, fun _ _ => id, rfl, .refl⟩
      exact (h.aside hlost).abandon _
    · exact h
  | openTimedOut channel =>
    unfold Link.step ConnectionEntry.openTimedOut
    dsimp only
    split
    · exact h.aside (aside_unopen.trans aside_rejectOpen)
    · exact h
  | execTimedOut mainChannel =>
    have ha : Aside e (e.execTimedOut mainChannel) := by
      refine aside_withExec fun pending => ?_
      split
      · exact .refl
      · exact aside_resolveExec
    exact h.aside ha
  | readTimedOut channel id => exact h.readTimedOut id
  | runJob => exact h.runJob

theorem Inv.run (h : Inv e) {actions : List Action} (hcareful : CarefulFrom e actions) :
    Inv (run e actions) := by
  induction actions generalizing e with
  | nil => exact h
  | cons action actions ih => exact ih (h.step hcareful.1) hcareful.2

theorem Inv.fifo (h : Inv e) : Fifo e.log := by
  refine ⟨h.inOrder, fun r hr => ?_, fun before r after heq heof => ?_⟩
  · obtain ⟨before, after, heq⟩ := List.append_of_mem hr
    exact (h.faithful before _ after heq).1
  · obtain ⟨hended, hall⟩ := (h.faithful before _ after heq).2 heof
    rw [heq, (heard_ended hended).2, hall]

/-- Along frames that are for a buffer exactly when their channel is live, and that leave no
waiting read with more than it asked for, the queue of each PTY is a FIFO. -/
theorem reads_in_order (actions : List Action) (h : CarefulFrom {} actions) :
    Fifo (run {} actions).log := (Inv.initial.run h).fifo

end

/-- A PTY is opened, with its reply in the turn of what follows. -/
def replied : List Action := [.openPty "open", .control { t := .opened, ch := some 1, ok := true }]

def readOne (sequence : Nat) : SshPtyReadOptions :=
  { channel := 1, requestId := "read", sequence, maxBytes := some 2, waitMs := some 100 }

/-- A waiting read is given a frame, and the next read the end. -/
def quietTerminal : List Action :=
  replied ++ [.runJob, .readPty (readOne 0), .data [0, 0, 0, 1, 97, 98], .readPty (readOne 1),
    .control { t := .eof, ch := some 1 }]

theorem reads_in_order_quietTerminal : Fifo (run {} quietTerminal).log := by
  refine reads_in_order quietTerminal
    ⟨trivial, trivial, trivial, trivial, fun channel payload h => ?_, trivial, trivial, trivial⟩
  cases h
  refine ⟨.inr ⟨fun _ => by decide, fun _ => ⟨by decide, _, rfl, rfl⟩⟩, fun _ buffer hb => ?_⟩
  cases hb
  exact ⟨by decide, trivial⟩

/-- A frame in the turn of the reply is lost, and a waiting read is given two bytes where it
asked for one. -/
theorem reads_lose_data :
    ¬ Fifo (run {} (replied ++ [.data [0, 0, 0, 1, 97], .runJob, .data [0, 0, 0, 1, 98],
        .readPty (readOne 0)])).log ∧
      ¬ Fifo (run {} (replied ++ [.runJob, .readPty { readOne 0 with maxBytes := some 1 },
        .data [0, 0, 0, 1, 97, 98]])).log := by
  constructor
  · intro h
    exact absurd (h.inOrder 1) (by decide)
  · intro h
    exact absurd (h.bounded ⟨{ readOne 0 with maxBytes := some 1 }, [97, 98], false⟩ (by decide))
      (by decide)

end PocketShell.Link
