import Mathlib

/-!
# The vault's header and the server's verifier

A change of passphrase writes the header and then the server's verifier, with the old AUTH as its
proof. A proof the server has not accepted is kept in memory for a later retry.

* `KeyDerivation`, `Header`, `Server`: the keys of a passphrase, what they seal, and a server that
  applies `setVerifier` when the proof and the epoch are right.
* `Phase`: an operation on its way, one constructor for each point where it waits.
* `State` and the operations, one at a time, while `lock` may come at any point.
-/

namespace PocketShell.KeyVault

/-! ## 1. Keys, header and server -/

/-- `derivePassphraseKeys`: a master key from the passphrase, and the KEK and AUTH from it. No two
master keys have one KEK. -/
structure KeyDerivation (P K M E A : Type) where
  deriveMasterKey : P → K → M
  kek : M → E
  auth : M → A
  kek_injective : ∀ m m', kek m = kek m' → m = m'

/-- `kek` is the key that its check value and its DEK are sealed with, `check` tells one sealing
from another. -/
structure Header (K E I : Type) where
  vaultId : Nat
  epoch : Nat
  kdf : K
  kek : E
  check : Nat
  index : I

structure Server (K E A I : Type) where
  auth : Option A
  epoch : Nat
  header : Header K E I
  version : Nat

inductive SetVerifierResult
  | ok
  | epochMismatch (epoch : Nat)
  | refused
  | unavailable
  deriving DecidableEq

inductive VerifyResult
  | ok
  | wrong
  | locked
  | noVerifier
  | unavailable

variable {P K M E A I : Type}

/-- `POST /vault/verifier` -/
def Server.setVerifier [DecidableEq A] (server : Server K E A I) (auth : A)
    (currentAuth : Option A) (epoch : Nat) : SetVerifierResult × Server K E A I :=
  if epoch ≠ server.epoch then (.epochMismatch server.epoch, server)
  else if server.auth = none ∨ server.auth = currentAuth then
    (.ok, { server with auth := some auth })
  else (.refused, server)

/-- The slot takes a header that is written over the version it has. -/
def Server.push (server : Server K E A I) (header : Header K E I) : Server K E A I :=
  { server with header, version := server.version + 1 }

/-! ## 2. Operations on their way -/

/-- What an unlocked vault has in memory. -/
structure Unlocked (K E I : Type) where
  header : Header K E I
  version : Nat

/-- A verifier update the server has not accepted yet. `setBy` is the generation of the change that
keeps it. -/
structure PendingVerifier (A : Type) where
  auth : A
  currentAuth : A
  epoch : Nat
  setBy : Nat

/-- A verifier update that is being published. -/
structure Publish (A : Type) where
  auth : A
  currentAuth : Option A
  epoch : Nat
  /-- The server's epoch was adopted already. -/
  adopted : Bool := false

inductive Work (P K I : Type)
  | changePassphrase (current next : P) (kdf : K)
  | retryVerifierPublish
  | unlock (passphrase : P)
  | writeIndex (mutate : I → Option I)

/-- A queued call, with the generation it was asked for in. -/
structure Job (P K I : Type) where
  work : Work P K I
  generation : Nat

/-- A change of passphrase. `verifiedCheck` is the sealing the current passphrase was verified
on. -/
structure Change (P K E I : Type) where
  generation : Nat
  current : P
  next : P
  kdf : K
  state : Unlocked K E I
  verifiedCheck : Nat
  /-- The parameters the current passphrase was verified under. -/
  oldKdf : K
  attempt : Nat := 0

structure IndexWrite (K E I : Type) where
  generation : Nat
  mutate : I → Option I
  state : Unlocked K E I
  attempt : Nat := 0

structure Unlock (P : Type) where
  generation : Nat
  passphrase : P
  /-- The epoch that the server's status told. -/
  epoch : Option Nat := none

inductive Phase (P K E A I : Type)
  | changeDeriving (change : Change P K E I)
  | changePushing (change : Change P K E I) (header : Header K E I)
  | changeRebasing (change : Change P K E I)
  | changePublishing (change : Change P K E I) (publish : Publish A)
  | retrying (publish : Publish A)
  | unlockStatus (unlock : Unlock P)
  | unlockVerifying (unlock : Unlock P) (kdf : K)
  | unlockPulling (unlock : Unlock P) (verdict : Option VerifyResult)
  | unlockVerdict (unlock : Unlock P) (opened : Unlocked K E I)
  | unlockPublishing (unlock : Unlock P) (opened : Unlocked K E I) (publish : Publish A)
      (repairs : Bool)
  | unlockOpening (unlock : Unlock P) (opened : Unlocked K E I)
  | indexPushing (write : IndexWrite K E I) (header : Header K E I)
  | indexRebasing (write : IndexWrite K E I)

/-- What a wait ends with. A call that is not `reached` was not applied. -/
inductive Reply (K : Type)
  | unavailable
  | reached
  | gated
  | status (kdf : Option K) (rateLimited : Bool) (epoch : Nat)
  | verdict (verdict : VerifyResult)

def CONFLICT_RETRIES : Nat := 3

structure State (P K E A I : Type) where
  server : Server K E A I
  unlocked : Option (Unlocked K E I) := none
  generation : Nat := 0
  pendingVerifier : Option (PendingVerifier A) := none
  queue : List (Job P K I) := []
  running : Option (Phase P K E A I) := none
  nextCheck : Nat := 1

variable [DecidableEq E] [DecidableEq A] (keys : KeyDerivation P K M E A)

def KeyDerivation.kekOf (passphrase : P) (kdf : K) : E :=
  keys.kek (keys.deriveMasterKey passphrase kdf)

def KeyDerivation.authOf (passphrase : P) (kdf : K) : A :=
  keys.auth (keys.deriveMasterKey passphrase kdf)

namespace State

variable (s : State P K E A I)

/-- The operation has ended. -/
def ended : State P K E A I := { s with running := none }

def wait (phase : Phase P K E A I) : State P K E A I := { s with running := some phase }

/-- Forget the DEK and index. Wins over any operation in flight. -/
def lock : State P K E A I :=
  { s with generation := s.generation + 1, pendingVerifier := none, unlocked := none }

/-- What an operation writes to the vault it holds. A vault that was locked meanwhile is its
own copy. -/
def keep (generation : Nat) (state : Unlocked K E I) : State P K E A I :=
  if generation = s.generation then { s with unlocked := some state } else s

/-! ## 3. Publishing -/

/-- The answer to `setVerifier`, and what is asked next: the server's epoch is adopted once. -/
def publishReply (publish : Publish A) (reply : Reply K) :
    State P K E A I × Except (Publish A) SetVerifierResult :=
  match reply with
  | .reached =>
    let (result, server) := s.server.setVerifier publish.auth publish.currentAuth publish.epoch
    let s := { s with server }
    match result, publish.adopted with
    | .epochMismatch epoch, false => (s, .error { publish with epoch, adopted := true })
    | result, _ => (s, .ok result)
  | _ => (s, .ok .unavailable)

/-! ## 4. Changing the passphrase -/

/-- The head of the loop: nothing is written after a lock, or over a header the current passphrase
was not verified on. -/
def changeLoop (change : Change P K E I) : State P K E A I :=
  if CONFLICT_RETRIES < change.attempt then s.ended
  else if change.generation ≠ s.generation then s.ended
  else if change.state.header.check ≠ change.verifiedCheck then s.ended
  else
    let header := { change.state.header with
      kdf := change.kdf
      kek := keys.kekOf change.next change.kdf
      check := s.nextCheck }
    wait { s with nextCheck := s.nextCheck + 1 } (.changePushing change header)

/-- The current passphrase is verified on the header in memory. -/
def changeDerived (change : Change P K E I) : State P K E A I :=
  if keys.kekOf change.current change.oldKdf = change.state.header.kek then
    s.changeLoop keys change
  else s.ended

/-- The proof that a change keeps. -/
def proofOf (change : Change P K E I) (epoch : Nat) : PendingVerifier A :=
  ⟨keys.authOf change.next change.kdf, keys.authOf change.current change.oldKdf, epoch,
    change.generation⟩

/-- The header is pushed: the header first, then the verifier with the old AUTH as proof. -/
def changePushed (change : Change P K E I) (header : Header K E I) (reply : Reply K) :
    State P K E A I :=
  match reply with
  | .reached =>
    if change.state.version = s.server.version then
      let state := ⟨header, s.server.version + 1⟩
      let s := keep { s with server := s.server.push header } change.generation state
      s.wait (.changePublishing { change with state } ⟨keys.authOf change.next change.kdf,
        some (keys.authOf change.current change.oldKdf), header.epoch, false⟩)
    else s.wait (.changeRebasing change)
  | _ => s.ended

def changePublished (change : Change P K E I) (result : SetVerifierResult) : State P K E A I :=
  ended { s with
    pendingVerifier :=
      if result = .ok then none else some (proofOf keys change change.state.header.epoch) }

/-- Re-pull the header after a conflict. A vault that is not the one in memory locks the store. -/
def rebase (state : Unlocked K E I) (reply : Reply K) :
    State P K E A I × Option (Unlocked K E I) :=
  match reply with
  | .reached =>
    if s.server.header.vaultId = state.header.vaultId ∧ s.server.header.epoch = state.header.epoch then
      (s, some ⟨s.server.header, s.server.version⟩)
    else (s.lock, none)
  | _ => (s, none)

def changeRebased (change : Change P K E I) (reply : Reply K) : State P K E A I :=
  match s.rebase change.state reply with
  | (s, none) => s.ended
  | (s, some state) =>
    (s.keep change.generation state).changeLoop keys
      { change with state, attempt := change.attempt + 1 }

/-! ## 5. The index -/

def writeLoop (write : IndexWrite K E I) : State P K E A I :=
  if CONFLICT_RETRIES < write.attempt then s.ended
  else
    match write.mutate write.state.header.index with
    | none => s.ended
    | some index =>
      if write.generation ≠ s.generation then s.ended
      else s.wait (.indexPushing write { write.state.header with index })

def indexPushed (write : IndexWrite K E I) (header : Header K E I) (reply : Reply K) :
    State P K E A I :=
  match reply with
  | .reached =>
    if write.state.version = s.server.version then
      ended (keep { s with server := s.server.push header } write.generation
        ⟨header, s.server.version + 1⟩)
    else if write.generation ≠ s.generation then s.ended
    else s.wait (.indexRebasing write)
  | _ => s.ended

def indexRebased (write : IndexWrite K E I) (reply : Reply K) : State P K E A I :=
  match s.rebase write.state reply with
  | (s, none) => s.ended
  | (s, some state) =>
    if write.generation ≠ s.generation then s.ended
    else (s.keep write.generation state).writeLoop
      { write with state, attempt := write.attempt + 1 }

/-! ## 6. Retrying -/

def retryStart : State P K E A I :=
  match s.pendingVerifier with
  | none => s.ended
  | some pending => s.wait (.retrying ⟨pending.auth, some pending.currentAuth, pending.epoch, false⟩)

/-- The proof is dropped once the server has accepted it. -/
def settleRetry (result : SetVerifierResult) : State P K E A I :=
  if result = .ok then { s with pendingVerifier := none } else s

/-! ## 7. Unlocking -/

def unlockChecked (unlock : Unlock P) (opened : Unlocked K E I) (verdict : VerifyResult) :
    State P K E A I :=
  let auth := keys.authOf unlock.passphrase opened.header.kdf
  if keys.kekOf unlock.passphrase opened.header.kdf ≠ opened.header.kek then s.ended
  else
    match verdict, s.pendingVerifier with
    | .noVerifier, _ =>
      s.wait (.unlockPublishing unlock opened
        ⟨auth, none, unlock.epoch.getD opened.header.epoch, false⟩ false)
    | .wrong, some pending =>
      if pending.auth = auth then
        s.wait (.unlockPublishing unlock opened
          ⟨pending.auth, some pending.currentAuth, pending.epoch, false⟩ true)
      else s.wait (.unlockOpening unlock opened)
    | _, _ => s.wait (.unlockOpening unlock opened)

/-- Install the opened vault unless a lock came since the unlock was asked for. -/
def install (unlock : Unlock P) (opened : Unlocked K E I) : State P K E A I :=
  if unlock.generation ≠ s.generation then s.ended
  else ended { s with unlocked := some opened }

/-! ## 8. One operation at a time -/

/-- The next queued call starts. `backoff` tells that an attempt is not allowed yet. -/
def next (backoff : Bool) : State P K E A I :=
  match s.running, s.queue with
  | none, job :: rest =>
    let s := { s with queue := rest }
    match job.work with
    | .changePassphrase current next kdf =>
      match s.unlocked with
      | some state =>
        if job.generation ≠ s.generation || backoff then s
        else s.wait (.changeDeriving ⟨job.generation, current, next, kdf, state,
          state.header.check, state.header.kdf, 0⟩)
      | none => s
    | .retryVerifierPublish => s.retryStart
    | .unlock passphrase =>
      if backoff then s else s.wait (.unlockStatus ⟨job.generation, passphrase, none⟩)
    | .writeIndex mutate =>
      match s.unlocked with
      | some state => s.writeLoop ⟨s.generation, mutate, state, 0⟩
      | none => s
  | _, _ => s

/-- The operation on its way goes on. -/
def reply (reply : Reply K) : State P K E A I :=
  match s.running with
  | none => s
  | some (.changeDeriving change) => s.changeDerived keys change
  | some (.changePushing change header) => s.changePushed keys change header reply
  | some (.changeRebasing change) => s.changeRebased keys change reply
  | some (.changePublishing change publish) =>
    match s.publishReply publish reply with
    | (s, .error publish) => s.wait (.changePublishing change publish)
    | (s, .ok result) => s.changePublished keys change result
  | some (.retrying publish) =>
    match s.publishReply publish reply with
    | (s, .error publish) => s.wait (.retrying publish)
    | (s, .ok result) => (s.settleRetry result).ended
  | some (.unlockStatus unlock) =>
    match reply with
    | .status _ true _ => s.ended
    | .status (some kdf) false epoch => s.wait (.unlockVerifying { unlock with epoch := some epoch } kdf)
    | .status none false epoch => s.wait (.unlockPulling { unlock with epoch := some epoch } none)
    | _ => s.wait (.unlockPulling unlock none)
  | some (.unlockVerifying unlock _) =>
    match reply with
    | .verdict .locked => s.ended
    | .verdict .wrong => s.ended
    | .verdict verdict => s.wait (.unlockPulling unlock (some verdict))
    | _ => s.wait (.unlockPulling unlock (some .unavailable))
  | some (.unlockPulling unlock verdict) =>
    match reply, verdict with
    | .reached, some verdict => s.unlockChecked keys unlock ⟨s.server.header, s.server.version⟩ verdict
    | .reached, none => s.wait (.unlockVerdict unlock ⟨s.server.header, s.server.version⟩)
    | _, _ => s.ended
  | some (.unlockVerdict unlock opened) =>
    match reply with
    | .verdict .locked => s.ended
    | .verdict verdict => s.unlockChecked keys unlock opened verdict
    | _ => s.unlockChecked keys unlock opened .unavailable
  | some (.unlockPublishing unlock opened publish repairs) =>
    match s.publishReply publish reply with
    | (s, .error publish) => s.wait (.unlockPublishing unlock opened publish repairs)
    | (s, .ok result) =>
      (if repairs then s.settleRetry result else s).wait (.unlockOpening unlock opened)
  | some (.unlockOpening unlock opened) => s.install unlock opened
  | some (.indexPushing write header) => s.indexPushed write header reply
  | some (.indexRebasing write) => s.indexRebased write reply

end State

/-! ## 9. Runs -/

inductive Action (P K I : Type)
  | call (work : Work P K I)
  | next (backoff : Bool)
  | reply (reply : Reply K)
  | lock

def State.step (s : State P K E A I) : Action P K I → State P K E A I
  | .call work => { s with queue := s.queue ++ [⟨work, s.generation⟩] }
  | .next backoff => s.next backoff
  | .reply reply => s.reply keys reply
  | .lock => s.lock

def State.run (s : State P K E A I) (actions : List (Action P K I)) : State P K E A I :=
  actions.foldl (State.step keys) s

/-- A vault that was created with a passphrase, and a server that has its verifier. -/
def State.created (passphrase : P) (kdf : K) (vaultId epoch serverEpoch : Nat) (index : I) :
    State P K E A I where
  server := {
    auth := some (keys.authOf passphrase kdf)
    epoch := serverEpoch
    header := ⟨vaultId, epoch, kdf, keys.kekOf passphrase kdf, 0, index⟩
    version := 1 }

end PocketShell.KeyVault
