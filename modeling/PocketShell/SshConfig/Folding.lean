import PocketShell.SshConfig.Core

/-!
# Which occurrence of a keyword wins

OpenSSH takes the first value that it reads. `buildHosts` overwrites a value with each later
occurrence (`buildHosts_last`), so it is the documented fold just when the last occurrence of every
keyword says what the first one does (`buildHosts_first_iff`).
-/

namespace PocketShell.SshConfig

open Js (Text ascii)

/-! ## 1. The documented entries -/

/-- A `Host` line and the directives up to the next one. -/
structure Block where
  names : List Text
  body : List Directive

/-- What stands before the first `Host` is in no block. -/
def blocks : List Directive → List Block
  | [] => []
  | d :: ds =>
    if d.key = ascii "host" then
      ⟨words d.value, ds.takeWhile (·.key ≠ ascii "host")⟩ :: blocks ds
    else blocks ds

/-- Which of the directives with a keyword counts. -/
abbrev Occurrence : Type := List Directive → Option Directive

def first : Occurrence := List.head?

def last : Occurrence := List.getLast?

namespace Block

variable (toLowerCase : Text → Text) (occurrence : Occurrence) (block : Block)

/-- The directives of the block with a keyword. -/
def all (key : Text) : List Directive := block.body.filter (·.key = key)

def value (key : Text) : Option Text := (occurrence (block.all key)).map (·.value)

/-- The entry of a name, with the documented defaults. -/
def entry (name : Text) : HostEntry where
  name
  hostname := (block.value occurrence (ascii "hostname")).getD name
  port := ((block.value occurrence (ascii "port")).map parsePort).getD DEFAULT_PORT
  user := (block.value occurrence (ascii "user")).getD []
  identityFile := block.value occurrence (ascii "identityfile")
  proxyJump := block.value occurrence (ascii "proxyjump")
  forwardAgent :=
    ((block.value occurrence (ascii "forwardagent")).map (isYes toLowerCase)).getD false
  localForwards := (block.all (ascii "localforward")).map fun d => parseForward d.value .local
  remoteForwards := (block.all (ascii "remoteforward")).map fun d => parseForward d.value .remote
  fromConfig := true

def entries : List HostEntry := block.names.map (block.entry toLowerCase occurrence)

/-- The last occurrence of a keyword says what the first one does. -/
def Repeats {β : Type} (key : Text) (read : Text → β) : Prop :=
  (block.value last key).map read = (block.value first key).map read

structure Consistent : Prop where
  hostname : block.Repeats (ascii "hostname") id
  port : block.Repeats (ascii "port") parsePort
  user : block.Repeats (ascii "user") id
  identityFile : block.Repeats (ascii "identityfile") id
  proxyJump : block.Repeats (ascii "proxyjump") id
  forwardAgent : block.Repeats (ascii "forwardagent") (isYes toLowerCase)

end Block

/-! ## 2. What a block folds to -/

variable (toLowerCase : Text → Text)

/-- A field that each directive with its keyword overwrites has the last one's value. -/
theorem foldl_set_last {β : Type} (get : PartialHost → β) (key : Text) (read : Text → β)
    (hset : ∀ p d, get (PartialHost.set toLowerCase p d) =
      if d.key = key then read d.value else get p)
    (body : List Directive) (p : PartialHost) :
    get (body.foldl (PartialHost.set toLowerCase) p) =
      ((last (body.filter (·.key = key))).map fun d => read d.value).getD (get p) := by
  induction body using List.reverseRecOn with
  | nil => rfl
  | append_singleton body d ih =>
    rw [List.foldl_append, List.foldl_cons, List.foldl_nil, hset, List.filter_append]
    by_cases hkey : d.key = key
    · simp [hkey, last]
    · rw [if_neg hkey, ih]
      simp [hkey]

/-- A field that each directive with its keyword adds to has all of them. -/
theorem foldl_set_all {β : Type} (get : PartialHost → List β) (key : Text) (read : Text → β)
    (hset : ∀ p d, get (PartialHost.set toLowerCase p d) =
      if d.key = key then get p ++ [read d.value] else get p)
    (body : List Directive) (p : PartialHost) :
    get (body.foldl (PartialHost.set toLowerCase) p) =
      get p ++ (body.filter (·.key = key)).map fun d => read d.value := by
  induction body using List.reverseRecOn with
  | nil => simp
  | append_singleton body d ih =>
    rw [List.foldl_append, List.foldl_cons, List.foldl_nil, hset, List.filter_append]
    by_cases hkey : d.key = key
    · simp [hkey, ih]
    · rw [if_neg hkey, ih]
      simp [hkey]

theorem foldl_set_names (body : List Directive) (p : PartialHost) :
    (body.foldl (PartialHost.set toLowerCase) p).names = p.names := by
  induction body generalizing p with
  | nil => rfl
  | cons d body ih =>
    rw [List.foldl_cons, ih]
    unfold PartialHost.set
    split_ifs <;> rfl

/-- A directive sets the field of its keyword, and no other one. -/
theorem PartialHost.set_fields (p : PartialHost) (d : Directive) :
    (p.set toLowerCase d).hostname =
        (if d.key = ascii "hostname" then some d.value else p.hostname) ∧
      (p.set toLowerCase d).port =
        (if d.key = ascii "port" then some (parsePort d.value) else p.port) ∧
      (p.set toLowerCase d).user = (if d.key = ascii "user" then some d.value else p.user) ∧
      (p.set toLowerCase d).identityFile =
        (if d.key = ascii "identityfile" then some d.value else p.identityFile) ∧
      (p.set toLowerCase d).proxyJump =
        (if d.key = ascii "proxyjump" then some d.value else p.proxyJump) ∧
      (p.set toLowerCase d).forwardAgent =
        (if d.key = ascii "forwardagent" then isYes toLowerCase d.value else p.forwardAgent) ∧
      (p.set toLowerCase d).localForwards =
        (if d.key = ascii "localforward" then p.localForwards ++ [parseForward d.value .local]
          else p.localForwards) ∧
      (p.set toLowerCase d).remoteForwards =
        (if d.key = ascii "remoteforward" then p.remoteForwards ++ [parseForward d.value .remote]
          else p.remoteForwards) := by
  unfold PartialHost.set
  split_ifs <;> simp_all +decide

theorem finalizeHost_last (names : List Text) (body : List Directive) (name : Text) :
    finalizeHost (body.foldl (PartialHost.set toLowerCase) { names }) name =
      Block.entry toLowerCase last ⟨names, body⟩ name := by
  have hset := PartialHost.set_fields toLowerCase
  have hhostname := foldl_set_last toLowerCase (·.hostname) (ascii "hostname") some
    (fun p d => (hset p d).1) body { names }
  have hport := foldl_set_last toLowerCase (·.port) (ascii "port") (fun v => some (parsePort v))
    (fun p d => (hset p d).2.1) body { names }
  have huser := foldl_set_last toLowerCase (·.user) (ascii "user") some
    (fun p d => (hset p d).2.2.1) body { names }
  have hidentity := foldl_set_last toLowerCase (·.identityFile) (ascii "identityfile") some
    (fun p d => (hset p d).2.2.2.1) body { names }
  have hjump := foldl_set_last toLowerCase (·.proxyJump) (ascii "proxyjump") some
    (fun p d => (hset p d).2.2.2.2.1) body { names }
  have hagent := foldl_set_last toLowerCase (·.forwardAgent) (ascii "forwardagent")
    (isYes toLowerCase) (fun p d => (hset p d).2.2.2.2.2.1) body { names }
  have hlocal := foldl_set_all toLowerCase (·.localForwards) (ascii "localforward")
    (parseForward · .local) (fun p d => (hset p d).2.2.2.2.2.2.1) body { names }
  have hremote := foldl_set_all toLowerCase (·.remoteForwards) (ascii "remoteforward")
    (parseForward · .remote) (fun p d => (hset p d).2.2.2.2.2.2.2) body { names }
  unfold finalizeHost Block.entry Block.value Block.all
  simp only [hhostname, hport, huser, hidentity, hjump, hagent, hlocal, hremote, List.nil_append,
    Option.map_map, HostEntry.mk.injEq, true_and, and_true]
  refine ⟨?_, ?_, ?_, ?_, ?_, rfl⟩
  · cases last (body.filter (·.key = ascii "hostname")) <;> rfl
  · cases last (body.filter (·.key = ascii "port")) <;> rfl
  · cases last (body.filter (·.key = ascii "user")) <;> rfl
  · cases last (body.filter (·.key = ascii "identityfile")) <;> rfl
  · cases last (body.filter (·.key = ascii "proxyjump")) <;> rfl

/-! ## 3. What a file folds to -/

/-- The directives up to the next `Host` go to the block that is being read. -/
theorem foldl_block (ds : List Directive) (hosts : List HostEntry) (current : Option PartialHost) :
    (ds.foldl (Fold.step toLowerCase) ⟨hosts, current⟩).pushCurrent.hosts =
      (Fold.mk hosts (current.map ((ds.takeWhile (·.key ≠ ascii "host")).foldl
        (PartialHost.set toLowerCase)))).pushCurrent.hosts ++
      (blocks ds).flatMap (Block.entries toLowerCase last) := by
  induction ds generalizing hosts current with
  | nil => cases current <;> simp [blocks, Fold.pushCurrent]
  | cons d ds ih =>
    rw [List.foldl_cons]
    by_cases hhost : d.key = ascii "host"
    · have hentries : (words d.value).map (finalizeHost ((ds.takeWhile
          (·.key ≠ ascii "host")).foldl (PartialHost.set toLowerCase) { names := words d.value })) =
          Block.entries toLowerCase last
            ⟨words d.value, ds.takeWhile (·.key ≠ ascii "host")⟩ :=
        List.map_congr_left fun name _ => finalizeHost_last toLowerCase _ _ name
      have hstep : Fold.step toLowerCase ⟨hosts, current⟩ d =
          ⟨(Fold.mk hosts current).pushCurrent.hosts, some { names := words d.value }⟩ := by
        simp [Fold.step, hhost]
      rw [hstep, ih]
      cases current with
      | none => simpa [blocks, hhost, Fold.pushCurrent, foldl_set_names] using hentries
      | some p => simpa [blocks, hhost, Fold.pushCurrent, foldl_set_names] using hentries
    · have hstep : Fold.step toLowerCase ⟨hosts, current⟩ d =
          ⟨hosts, current.map fun p => p.set toLowerCase d⟩ := by
        cases current <;> simp [Fold.step, hhost]
      rw [hstep, ih]
      cases current <;> simp [blocks, hhost]

/-- Every entry has the values of the last occurrences, in order of block and name. -/
theorem buildHosts_last (ds : List Directive) :
    buildHosts toLowerCase ds = (blocks ds).flatMap (Block.entries toLowerCase last) :=
  foldl_block toLowerCase ds [] none

/-! ## 4. When it is the first one -/

theorem last_isSome (ds : List Directive) : (last ds).isSome = (first ds).isSome := by
  cases ds <;> simp [last, first]

/-- The default is compared with itself: a keyword occurs last when it occurs first. -/
theorem getD_repeats {β : Type} (block : Block) (key : Text) (read : Text → β) (fallback : β) :
    ((block.value last key).map read).getD fallback =
      ((block.value first key).map read).getD fallback ↔ block.Repeats key read := by
  have hsome := last_isSome (block.all key)
  unfold Block.Repeats Block.value
  cases hfirst : first (block.all key) with
  | none =>
    have hlast : last (block.all key) = none := by simpa [hfirst] using hsome
    simp [hlast]
  | some d =>
    obtain ⟨d', hlast⟩ := Option.isSome_iff_exists.mp (hsome.trans (by rw [hfirst]; rfl))
    simp [hlast]

theorem entry_eq_iff {block : Block} {name : Text} :
    block.entry toLowerCase last name = block.entry toLowerCase first name ↔
      block.Consistent toLowerCase := by
  have hid : ∀ key fallback : Text, (block.value last key).getD fallback =
      (block.value first key).getD fallback ↔ block.Repeats key id := by
    intro key fallback
    simpa using getD_repeats block key id fallback
  have hnone : ∀ key : Text, block.value last key = block.value first key ↔
      block.Repeats key id := by
    intro key
    simp [Block.Repeats]
  simp only [Block.entry, HostEntry.mk.injEq, true_and, and_true, hid, hnone, getD_repeats]
  constructor
  · rintro ⟨hhostname, hport, huser, hidentity, hjump, hagent⟩
    exact ⟨hhostname, hport, huser, hidentity, hjump, hagent⟩
  · rintro ⟨hhostname, hport, huser, hidentity, hjump, hagent⟩
    exact ⟨hhostname, hport, huser, hidentity, hjump, hagent⟩

theorem entries_eq_iff {block : Block} :
    block.entries toLowerCase last = block.entries toLowerCase first ↔
      (block.names ≠ [] → block.Consistent toLowerCase) := by
  unfold Block.entries
  rw [List.map_inj_left]
  simp only [entry_eq_iff]
  constructor
  · intro h hsome
    obtain ⟨name, hname⟩ := List.exists_mem_of_ne_nil _ hsome
    exact h name hname
  · intro h name hname
    exact h (List.ne_nil_of_mem hname)

/-- The entries are the documented ones just when, in every block with a name, the last occurrence
of each keyword says what the first one does. -/
theorem buildHosts_first_iff (ds : List Directive) :
    buildHosts toLowerCase ds = (blocks ds).flatMap (Block.entries toLowerCase first) ↔
      ∀ block ∈ blocks ds, block.names ≠ [] → block.Consistent toLowerCase := by
  rw [buildHosts_last]
  simp only [← entries_eq_iff]
  generalize blocks ds = bs
  induction bs with
  | nil => simp
  | cons block bs ih =>
    rw [List.forall_mem_cons, ← ih, List.flatMap_cons, List.flatMap_cons]
    constructor
    · intro h
      exact List.append_inj h (by simp [Block.entries])
    · rintro ⟨hblock, hrest⟩
      rw [hblock, hrest]

/-- `Host web`, with two ports. -/
def twoPorts : List Directive :=
  [ascii "Host web", ascii "  Port 2201", ascii "  Port 2202"].zipIdx.filterMap fun line =>
    parseDirectiveLine (·.map fun unit => if 0x41 ≤ unit && unit ≤ 0x5a then unit + 0x20 else unit)
      line.1 (line.2 + 1)

theorem buildHosts_later_port :
    (buildHosts id twoPorts).map (·.port) = [2202] ∧
      buildHosts id twoPorts ≠ (blocks twoPorts).flatMap (Block.entries id first) := by
  decide +kernel

end PocketShell.SshConfig
