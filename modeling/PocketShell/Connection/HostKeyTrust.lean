import Mathlib

/-!
# Host-key pins

The pins a trust store holds for a host and the verdict on a key the host
presents (`hostKeyTrustCore.ts`, `knownHostsCore.ts`).
-/

namespace PocketShell

/-- A key as the platform presents it (`PresentedHostKey`). -/
structure PresentedHostKey where
  keyType : String
  keyB64 : String
  fingerprintSha256 : String
deriving DecidableEq

/-- A persisted pin: an old fingerprint row, or the key blob itself. -/
inductive HostKeyTrustPin
  | sha256Fingerprint (fingerprintSha256 : String)
  | wireKey (key : PresentedHostKey)
deriving DecidableEq

inductive KnownHostsVerdict
  | trusted
  | mismatch
  | unknown
deriving DecidableEq

/-- `verifyHostKeyPin`: the stored blob against the presented one. -/
def verifyHostKeyPin (pin : PresentedHostKey) (keyType keyB64 : String) : KnownHostsVerdict :=
  if pin.keyType ≠ keyType ∨ pin.keyB64 ≠ keyB64 then .mismatch else .trusted

/-- Compare a presented key in the format the pin stores. -/
def verifyHostKeyTrustPin (pin : Option HostKeyTrustPin) (presented : PresentedHostKey) :
    KnownHostsVerdict :=
  match pin with
  | none => .unknown
  | some (.sha256Fingerprint fingerprint) =>
    if fingerprint = presented.fingerprintSha256 then .trusted else .mismatch
  | some (.wireKey key) => verifyHostKeyPin key presented.keyType presented.keyB64

/-- The pin an accepted key is stored as: a fingerprint row keeps its format. -/
def acceptedHostKeyPin (previous : Option HostKeyTrustPin) (presented : PresentedHostKey) :
    HostKeyTrustPin :=
  match previous with
  | some (.sha256Fingerprint _) => .sha256Fingerprint presented.fingerprintSha256
  | _ => .wireKey presented

/-- Only a host without a pin is unknown. -/
theorem verify_unknown_iff {pin : Option HostKeyTrustPin} {presented : PresentedHostKey} :
    verifyHostKeyTrustPin pin presented = .unknown ↔ pin = none := by
  constructor
  · intro h
    cases pin with
    | none => rfl
    | some p =>
      cases p with
      | sha256Fingerprint f =>
        simp only [verifyHostKeyTrustPin] at h
        split at h <;> cases h
      | wireKey k =>
        simp only [verifyHostKeyTrustPin, verifyHostKeyPin] at h
        split at h <;> cases h
  · rintro rfl
    rfl

/-- The key a user accepts is trusted from then on. -/
theorem verify_accepted (previous : Option HostKeyTrustPin) (presented : PresentedHostKey) :
    verifyHostKeyTrustPin (some (acceptedHostKeyPin previous presented)) presented = .trusted := by
  cases previous with
  | none => simp [acceptedHostKeyPin, verifyHostKeyTrustPin, verifyHostKeyPin]
  | some p => cases p <;> simp [acceptedHostKeyPin, verifyHostKeyTrustPin, verifyHostKeyPin]

end PocketShell
