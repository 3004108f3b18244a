import PocketShell.SessionTree.Rows

/-!
# Roots

The top level of the session panel: the roots a user registered, the home directory they are
resolved against, and which of them a directory belongs to.

* `resolveRoots`: the registered list, each directory once.
* `bestRootForPath`: the longest registered root around a directory.
* `rootForPath`, `rootFromSessionName`: roots derived from a path, and recovered from a name.
-/

namespace PocketShell.SessionTree

open Js (Text ascii)
open Workspaces

variable {R : Type}

/-- Sentinel key for the catch-all root. -/
def OTHER_ROOT : Text := ascii "::other::"

def OTHER_LABEL : Text := ascii "other"

/-! ## Names -/

def dash : UInt16 := 0x2d

/-- Each run of units with `p` replaced by one unit. `inRun` tells that the unit before
is in a run. -/
def replaceRuns (p : UInt16 → Bool) (unit : UInt16) (inRun : Bool) : Text → Text
  | [] => []
  | first :: rest =>
    if p first then
      if inRun then replaceRuns p unit true rest else unit :: replaceRuns p unit true rest
    else first :: replaceRuns p unit false rest

/-- `[A-Za-z0-9_-]` -/
def isNameUnit (unit : UInt16) : Bool :=
  isDriveLetter unit || (0x30 ≤ unit && unit ≤ 0x39) || unit = 0x5f || unit = dash

def normalisePart (part : Text) : Text :=
  replaceRuns (!isNameUnit ·) dash false (replaceRuns (fun unit => unit = 0x2e || unit = 0x3a) 0x5f false part)

/-- A path component in the characters of a name. -/
def sanitisePart (part : Text) : Text :=
  ((normalisePart part).dropWhile (· = dash)).rdropWhile (· = dash)

/-! ## Registered roots -/

structure ResolvedRoot where
  key : Text
  label : Text
  source : Text

def labelRootsApart (roots : List ResolvedRoot) : List ResolvedRoot :=
  let counts := roots.foldl (fun counts root => Js.file root.label 1 (· + 1) counts) []
  roots.map fun root =>
    if (Js.property root.label counts).getD 0 < 2 then root
    else { root with label := if homePrefix.isPrefixOf root.key then root.key.drop 2 else root.key }

/-- The valid roots whose key has not been `seen`. -/
def resolveFrom (hostHome : Option Text) : List Text → List Text → List ResolvedRoot
  | [], _ => []
  | source :: rest, seen =>
    match normaliseRootPath source with
    | none => resolveFrom hostHome rest seen
    | some canonical =>
      let key := directoryKey canonical hostHome
      if key ∈ seen then resolveFrom hostHome rest seen
      else ⟨key, defaultLabelForPath key, canonical⟩ :: resolveFrom hostHome rest (key :: seen)

/-- The stored list against one host's home, in registered order. -/
def resolveRoots (roots : List Text) (hostHome : Option Text) : List ResolvedRoot :=
  labelRootsApart (resolveFrom hostHome roots [])

/-- Is `path` at or below `root`? -/
def pathWithinRoot (path root : Text) : Bool :=
  path = root || (if root.getLast? = some slash then root else root ++ [slash]).isPrefixOf path

/-- The loop over the roots: the best so far. -/
def bestRoot (key : Text) (best : Option ResolvedRoot) (root : ResolvedRoot) : Option ResolvedRoot :=
  if !pathWithinRoot key root.key then best
  else match best with
    | none => some root
    | some held => if held.key.length < root.key.length then some root else best

def bestRootForPath (folderPath : Text) (hostHome : Option Text) (roots : List ResolvedRoot) :
    Option ResolvedRoot :=
  if folderPath = untrackedPath then none
  else roots.foldl (bestRoot (directoryKey folderPath hostHome)) none

/-! ## The home directory -/

def HOME_PARENTS : List Text := [ascii "/home", ascii "/Users", ascii "/var/home"]

def ROOT_HOME : Text := ascii "/root"

/-- The home directory that one path speaks for. -/
def homeCandidate (path : Text) : Option Text :=
  if path = ROOT_HOME || (ROOT_HOME ++ [slash]).isPrefixOf path then some ROOT_HOME
  else match HOME_PARENTS.find? fun parent => (parent ++ [slash]).isPrefixOf path with
    | none => none
    | some parent =>
      let user := (path.drop (parent.length + 1)).takeWhile (· ≠ slash)
      if user = [] then none else some (parent ++ slash :: user)

/-- The candidate with the most votes, the first of them on a tie. -/
def mostVotes : Option (Text × Nat) → Text × Nat → Option (Text × Nat)
  | none, vote => if 0 < vote.2 then some vote else none
  | some best, vote => if best.2 < vote.2 then some vote else some best

/-- `$HOME` guessed from the paths. -/
def inferHome (paths : List (Option Text)) : Option Text :=
  let candidates := paths.filterMap fun raw =>
    let path := canonicalisePath (raw.getD [])
    if path = untrackedPath then none else homeCandidate path
  let votes := candidates.foldl (fun votes candidate => Js.file candidate 1 (· + 1) votes) []
  (votes.foldl mostVotes none).map Prod.fst

/-! ## Derived roots -/

structure Placement where
  key : Text
  label : Text

def otherPlacement : Placement := ⟨OTHER_ROOT, OTHER_LABEL⟩

/-- The child of `$HOME` that a working directory is in. -/
def rootForPath (folderPath : Text) (hostHome : Option Text) : Placement :=
  if folderPath = untrackedPath then otherPlacement
  else match homeRelative folderPath hostHome with
    | none => otherPlacement
    | some relative =>
      match (relative.splitOn slash).find? (· ≠ []) with
      | none => otherPlacement
      | some first => ⟨homePrefix ++ first, first⟩

/-- The root label that a session name starts with. -/
def rootFromSessionName (name : Text) (knownLabels : List Text) : Option Text :=
  match (name.splitOn dash).find? (· ≠ []) with
  | none => none
  | some first => knownLabels.find? fun label => sanitisePart label = first

/-! ## Keys -/

theorem isPrefixOf_slash {root path : Text} : (root ++ [slash]).isPrefixOf path = true ↔
    ∃ rest, path = root ++ slash :: rest := by
  rw [List.isPrefixOf_iff_prefix]
  constructor
  · rintro ⟨rest, rfl⟩
    exact ⟨rest, by rw [List.append_assoc, List.singleton_append]⟩
  · rintro ⟨rest, rfl⟩
    exact ⟨rest, by rw [List.append_assoc, List.singleton_append]⟩

/-- `root` is `path`, or a prefix of it on a `/` boundary. -/
def Around (root path : Text) : Prop :=
  path = root ∨ ∃ rest, path = root ++ rest ∧ (root.getLast? = some slash ∨ rest.head? = some slash)

theorem pathWithinRoot_iff {path root : Text} : pathWithinRoot path root = true ↔ Around root path := by
  unfold pathWithinRoot Around
  rw [Bool.or_eq_true, decide_eq_true_eq]
  refine or_congr_right ?_
  split
  · next hend =>
    rw [List.isPrefixOf_iff_prefix]
    constructor
    · rintro ⟨rest, rfl⟩
      exact ⟨rest, rfl, .inl hend⟩
    · rintro ⟨rest, rfl, -⟩
      exact ⟨rest, rfl⟩
  · next hend =>
    rw [isPrefixOf_slash]
    constructor
    · rintro ⟨rest, rfl⟩
      exact ⟨slash :: rest, rfl, .inr rfl⟩
    · rintro ⟨rest, rfl, hroot | hrest⟩
      · exact absurd hroot hend
      · obtain ⟨_, rest⟩ := rest
        · cases hrest
        · obtain rfl := Option.some.inj hrest
          exact ⟨_, rfl⟩

theorem Around.prefix {root path : Text} (h : Around root path) : root <+: path := by
  rcases h with rfl | ⟨rest, rfl, -⟩
  · exact List.prefix_refl _
  · exact List.prefix_append _ _

/-- The sentinel of the bucket is not the key of a root. -/
theorem key_ne_other {source canonical : Text} (h : normaliseRootPath source = some canonical)
    (hostHome : Option Text) : directoryKey canonical hostHome ≠ OTHER_ROOT := by
  have hanchored : isAnchored canonical = true := by
    unfold normaliseRootPath at h
    split at h
    · cases h
    · dsimp only at h
      split at h
      · cases h
      · split at h
        · cases h
        · split at h
          · next hanchored =>
            obtain rfl := Option.some.inj h
            exact hanchored
          · cases h
  unfold directoryKey
  intro hkey
  split at hkey
  · cases hkey
  · split at hkey
    · subst hkey
      exact absurd hanchored (by decide)
    · split at hkey
      · exact absurd hkey (by decide)
      · have hhead : some (0x7e : UInt16) = some 0x3a := congrArg List.head? hkey
        exact absurd hhead (by decide)

theorem resolveFrom_cons (hostHome : Option Text) (source : Text) (rest seen : List Text) :
    resolveFrom hostHome (source :: rest) seen =
      match normaliseRootPath source with
      | none => resolveFrom hostHome rest seen
      | some canonical =>
        if directoryKey canonical hostHome ∈ seen then resolveFrom hostHome rest seen
        else
          ⟨directoryKey canonical hostHome, defaultLabelForPath (directoryKey canonical hostHome), canonical⟩ ::
            resolveFrom hostHome rest (directoryKey canonical hostHome :: seen) := rfl

/-- The keys of the valid roots, in registered order, each at its first place. -/
theorem keys_resolveFrom (hostHome : Option Text) (roots seen : List Text) :
    (resolveFrom hostHome roots seen).map (·.key) =
      (((roots.filterMap normaliseRootPath).map (directoryKey · hostHome)).filter
        (!seen.contains ·)).eraseDups := by
  induction roots generalizing seen with
  | nil => rfl
  | cons source rest ih =>
    rw [resolveFrom_cons]
    cases hcanonical : normaliseRootPath source with
    | none => rw [List.filterMap_cons_none hcanonical]; exact ih seen
    | some canonical =>
      rw [List.filterMap_cons_some hcanonical, List.map_cons]
      dsimp only
      by_cases hseen : directoryKey canonical hostHome ∈ seen
      · rw [if_pos hseen, ih, List.filter_cons_of_neg (by simp [hseen])]
      · rw [if_neg hseen, List.map_cons, ih, List.filter_cons_of_pos (by simp [hseen]),
          List.eraseDups_cons, List.filter_filter]
        congr 2
        refine List.filter_congr fun key _ => ?_
        rw [List.contains_cons, Bool.not_or, Bool.and_comm]

theorem map_labelRootsApart {Y : Type} {f : ResolvedRoot → Y}
    (h : ∀ (root : ResolvedRoot) label, f { root with label } = f root) (roots : List ResolvedRoot) :
    (labelRootsApart roots).map f = roots.map f := by
  unfold labelRootsApart
  rw [List.map_map]
  refine List.map_congr_left fun root _ => ?_
  dsimp only [Function.comp_apply]
  split
  · rfl
  · exact h root _

theorem keys_resolveRoots (roots : List Text) (hostHome : Option Text) :
    (resolveRoots roots hostHome).map (·.key) =
      ((roots.filterMap normaliseRootPath).map (directoryKey · hostHome)).eraseDups := by
  rw [resolveRoots, map_labelRootsApart (fun _ _ => rfl), keys_resolveFrom]
  simp

theorem nodup_resolveRoots (roots : List Text) (hostHome : Option Text) :
    ((resolveRoots roots hostHome).map (·.key)).Nodup := by
  rw [keys_resolveRoots]
  exact Js.nodup_eraseDups _

theorem other_not_resolved (roots : List Text) (hostHome : Option Text) :
    OTHER_ROOT ∉ (resolveRoots roots hostHome).map (·.key) := by
  intro h
  rw [keys_resolveRoots, List.mem_eraseDups] at h
  obtain ⟨canonical, hmem, hkey⟩ := List.mem_map.mp h
  obtain ⟨source, -, hcanonical⟩ := List.mem_filterMap.mp hmem
  exact key_ne_other hcanonical hostHome hkey

/-! ## The longest root -/

/-- `best` is the longest of the roots that were looked at. -/
def IsBest (key : Text) (roots : List ResolvedRoot) (best : Option ResolvedRoot) : Prop :=
  match best with
  | none => ∀ root ∈ roots, ¬ Around root.key key
  | some best => best ∈ roots ∧ Around best.key key ∧
      ∀ root ∈ roots, Around root.key key → root.key.length ≤ best.key.length

theorem IsBest.step {key : Text} {roots : List ResolvedRoot} {best : Option ResolvedRoot}
    (h : IsBest key roots best) (root : ResolvedRoot) : IsBest key (roots ++ [root]) (bestRoot key best root) := by
  have hforall : ∀ {P : ResolvedRoot → Prop}, (∀ r ∈ roots, P r) → P root → ∀ r ∈ roots ++ [root], P r := by
    intro P hold hnew r hr
    rcases List.mem_append.mp hr with hr | hr
    · exact hold r hr
    · exact List.mem_singleton.mp hr ▸ hnew
  have hlast : root ∈ roots ++ [root] := List.mem_append_right _ (List.mem_singleton_self root)
  unfold bestRoot
  by_cases hwithin : Around root.key key
  · rw [pathWithinRoot_iff.mpr hwithin]
    cases best with
    | none => exact ⟨hlast, hwithin, hforall (fun r hr hr' => absurd hr' (h r hr)) fun _ => le_rfl⟩
    | some held =>
      obtain ⟨hmem, hheld, hmax⟩ := h
      by_cases hlt : held.key.length < root.key.length
      · simp only [Bool.not_true, Bool.false_eq_true, if_false, if_pos hlt]
        exact ⟨hlast, hwithin, hforall (fun r hr hr' => (hmax r hr hr').trans hlt.le) fun _ => le_rfl⟩
      · simp only [Bool.not_true, Bool.false_eq_true, if_false, if_neg hlt]
        exact ⟨List.mem_append_left _ hmem, hheld, hforall hmax fun _ => Nat.le_of_not_lt hlt⟩
  · have hfalse : pathWithinRoot key root.key = false :=
      Bool.eq_false_iff.mpr fun htrue => hwithin (pathWithinRoot_iff.mp htrue)
    rw [hfalse]
    cases best with
    | none => exact hforall h hwithin
    | some held =>
      obtain ⟨hmem, hheld, hmax⟩ := h
      exact ⟨List.mem_append_left _ hmem, hheld, hforall hmax fun hr => absurd hr hwithin⟩

theorem bestRoot_isBest (key : Text) (roots : List ResolvedRoot) :
    IsBest key roots (roots.foldl (bestRoot key) none) := by
  induction roots using List.reverseRecOn with
  | nil => exact fun root h => absurd h List.not_mem_nil
  | append_singleton roots root ih =>
    rw [List.foldl_append]
    exact ih.step root

/-- Two roots around one directory differ in length. -/
theorem Around.eq_of_length {key root root' : Text} (h : Around root key) (h' : Around root' key)
    (hlen : root'.length = root.length) : root' = root :=
  (List.prefix_of_prefix_length_le h'.prefix h.prefix hlen.le).eq_of_length hlen

end PocketShell.SessionTree
