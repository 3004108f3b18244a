import PocketShell.Preview.Paths

/-!
# Remote paths

`remotePathPolicy.ts`: the lexical rules by which the Files tab builds its targets. A
normal path is the list of its names, read from the root. Containment is the prefix order
of these lists, and the functions on texts compute on them.
-/

namespace PocketShell.RemotePaths

open Js (Text ascii)
open Preview (slash split join Proper)

/-! ## The functions of the source -/

inductive Refusal
  | emptyName
  | dotSegment
  | separator
  | nul
  | invalidDirectory
deriving DecidableEq

inductive RemoteChildPathResult
  | ok (path : Text)
  | failed (reason : Refusal)
deriving DecidableEq

/-- The loop of `normalizeRemotePath`. -/
def fold (segments : List Text) : List Text → List Text
  | [] => segments
  | segment :: rest =>
    if segment = [] ∨ segment = ascii "." then fold segments rest
    -- `pop` of an empty list: `..` clamps at the root.
    else if segment = ascii ".." then fold segments.dropLast rest
    else fold (segments ++ [segment]) rest

def normalizeRemotePath (path : Text) : Option Text :=
  if (0 : UInt16) ∈ path then none
  else
    let segments := fold [] (split path)
    some (if segments = [] then [slash] else slash :: join segments)

/-- True when a path uses the host's login-home shorthand. -/
def isHomeRelativeRemotePath (path : Text) : Bool :=
  path = ascii "~" || (ascii "~/").isPrefixOf path || path = ascii "$HOME" ||
    (ascii "$HOME/").isPrefixOf path

/-- `none` when a home-relative path cannot be resolved. -/
def expandRemoteHome (path : Text) (home : Option Text) : Option Text :=
  if (0 : UInt16) ∈ path then none
  else if isHomeRelativeRemotePath path = false then some path
  else
    let known := home.bind fun home =>
      if Js.trim home = [] then none else normalizeRemotePath (Js.trim home)
    known.bind fun normalizedHome =>
      if path = ascii "~" ∨ path = ascii "$HOME" then some normalizedHome
      else
        let tail := if (ascii "~/").isPrefixOf path then path.drop 2 else path.drop 6
        normalizeRemotePath (normalizedHome ++ slash :: tail)

/-- Absolute paths ignore `base`, home-relative ones need `home`, others use `base`. -/
def resolveRemotePath (path : Text) (base home : Option Text) : Option Text :=
  if (0 : UInt16) ∈ path then none
  else
    (expandRemoteHome path home).bind fun expanded =>
      if expanded.head? = some slash then normalizeRemotePath expanded
      -- `~other` is another user's home.
      else if expanded.head? = some 0x7e then none
      else
        let expandedBase :=
          if base.getD [] = [] then some [slash] else expandRemoteHome (base.getD []) home
        (expandedBase.bind normalizeRemotePath).bind fun normalizedBase =>
          normalizeRemotePath (normalizedBase ++ slash :: expanded)

def joinRemoteChildPath (directory name : Text) : RemoteChildPathResult :=
  if (0 : UInt16) ∈ name then .failed .nul
  else if name = [] then .failed .emptyName
  else if name = ascii "." ∨ name = ascii ".." then .failed .dotSegment
  else if slash ∈ name then .failed .separator
  else match normalizeRemotePath directory with
    | none => .failed .invalidDirectory
    | some base => .ok (if base = [slash] then slash :: name else base ++ slash :: name)

/-- `lastIndexOf('/')`, `none` for `-1`. -/
def lastSlash : Text → Option Nat
  | [] => none
  | unit :: rest =>
    match lastSlash rest with
    | some at' => some (at' + 1)
    | none => if unit = slash then some 0 else none

def parentRemotePath (path : Text) : Option Text :=
  (normalizeRemotePath path).map fun normalized =>
    if normalized = [slash] then normalized
    else match lastSlash normalized with
      | some (at' + 1) => normalized.take (at' + 1)
      | _ => [slash]

def remotePathName (path : Text) : Option Text :=
  (normalizeRemotePath path).map fun normalized =>
    if normalized = [slash] then normalized
    else match lastSlash normalized with
      | some at' => normalized.drop (at' + 1)
      | none => normalized

def isRemotePathWithin (root candidate : Text) : Bool :=
  match normalizeRemotePath root, normalizeRemotePath candidate with
  | some normalizedRoot, some normalizedCandidate =>
    normalizedCandidate = normalizedRoot ||
      if normalizedRoot = [slash] then normalizedCandidate.head? = some slash
      else (normalizedRoot ++ [slash]).isPrefixOf normalizedCandidate
  | _, _ => false

/-! ## Directories -/

/-- A directory, or a file, by its names from the root. -/
@[ext]
structure RemotePath where
  names : List Text
  proper : ∀ name ∈ names, Proper name

/-- Above or equal. -/
instance : PartialOrder RemotePath where
  le root path := root.names <+: path.names
  le_refl path := List.prefix_refl path.names
  le_trans _ _ _ h h' := h.trans h'
  le_antisymm _ _ h h' := RemotePath.ext (List.IsPrefix.eq_of_length h (h.length_le.antisymm h'.length_le))

namespace RemotePath

/-- The spelling without empty, `.` and `..` segments. -/
def text (path : RemotePath) : Text := slash :: join path.names

def child (path : RemotePath) (name : Text) (h : Proper name) : RemotePath where
  names := path.names ++ [name]
  proper := List.forall_mem_append.mpr ⟨path.proper, List.forall_mem_singleton.mpr h⟩

theorem le_child (path : RemotePath) {name : Text} (h : Proper name) : path ≤ path.child name h :=
  List.prefix_append path.names [name]

end RemotePath

variable {path root candidate name : Text} {segments out : List Text}

/-! ## The loop -/

/-- Where the preview's loop finds no `..` above the root, the two agree. -/
theorem fold_of_preview :
    ∀ {segments out result : List Text}, Preview.fold out segments = some result →
      fold out segments = result
  | [], out, result, h => Option.some.inj h
  | segment :: rest, out, result, h => by
    rw [Preview.fold] at h
    rw [fold]
    split at h
    · next hskip =>
      rw [if_pos hskip]
      exact fold_of_preview h
    · next hskip =>
      rw [if_neg hskip]
      split at h
      · next hdots =>
        rw [if_pos hdots]
        split at h
        · cases h
        · exact fold_of_preview h
      · next hdots =>
        rw [if_neg hdots]
        exact fold_of_preview h

theorem fold_proper (h : ∀ s ∈ segments, slash ∉ s ∧ (0 : UInt16) ∉ s) :
    ∀ {out : List Text}, (∀ s ∈ out, Proper s) → ∀ s ∈ fold out segments, Proper s := by
  induction segments with
  | nil => exact fun ho => ho
  | cons s segments ih =>
    obtain ⟨hs, hr⟩ := List.forall_mem_cons.mp h
    intro out ho
    rw [fold]
    split
    · exact ih hr ho
    · next hskip =>
      obtain ⟨hempty, hdot⟩ := not_or.mp hskip
      split
      · exact ih hr fun t ht => ho t (List.mem_of_mem_dropLast ht)
      · next hdots =>
        refine ih hr (List.forall_mem_append.mpr ⟨ho, List.forall_mem_singleton.mpr ?_⟩)
        exact ⟨hempty, hdot, hdots, hs.1, hs.2⟩

/-- The pieces of a path without NUL. -/
theorem split_pieces (h : (0 : UInt16) ∉ path) : ∀ s ∈ split path, slash ∉ s ∧ (0 : UInt16) ∉ s := by
  intro s hs
  refine ⟨Preview.split_flat s hs, fun hm => h ?_⟩
  have hmem := Preview.mem_join_of hs hm
  rwa [Preview.join_split] at hmem

/-- The directory that a text names. -/
def read (path : Text) : Option RemotePath :=
  if h : (0 : UInt16) ∈ path then none
  else some ⟨fold [] (split path), fold_proper (split_pieces h) (fun _ hs => by cases hs)⟩

theorem read_none : read path = none ↔ (0 : UInt16) ∈ path := by
  unfold read
  split <;> simp [*]

theorem read_some (h : (0 : UInt16) ∉ path) : ∃ place, read path = some place := by
  rw [read, dif_neg h]
  exact ⟨_, rfl⟩

theorem normalize_eq : normalizeRemotePath path = (read path).map RemotePath.text := by
  unfold normalizeRemotePath read
  split
  · rfl
  · simp only [Option.map_some, RemotePath.text]
    split
    · next h => rw [h]; rfl
    · rfl

namespace RemotePath

variable {place below : RemotePath}

theorem text_nul (place : RemotePath) : (0 : UInt16) ∉ place.text := by
  intro h
  rcases List.mem_cons.mp h with h | h
  · cases h
  · rcases Preview.mem_join h with h | ⟨s, hs, h⟩
    · cases h
    · exact (place.proper s hs).text h

/-- A normal path is read as what it spells. -/
theorem read_text (place : RemotePath) : read place.text = some place := by
  rw [read, dif_neg place.text_nul]
  exact congrArg some (RemotePath.ext (fold_of_preview (Preview.fold_normal place.proper)))

theorem text_injective : Function.Injective text := by
  intro a b h
  have hread := congrArg read h
  rw [read_text, read_text] at hread
  exact Option.some.inj hread

theorem text_root (place : RemotePath) : place.text = [slash] ↔ place.names = [] := by
  constructor
  · intro h
    have hroot : place = ⟨[], fun _ hs => by cases hs⟩ := text_injective h
    rw [hroot]
  · intro h
    rw [text, h]
    rfl

theorem normalize_text (place : RemotePath) : normalizeRemotePath place.text = some place.text := by
  rw [normalize_eq, read_text]
  rfl

theorem join_append {left right : List Text} (hl : left ≠ []) (hr : right ≠ []) :
    join (left ++ right) = join left ++ slash :: join right := by
  unfold join
  induction left with
  | nil => exact absurd rfl hl
  | cons s left ih =>
    cases left with
    | nil =>
      obtain ⟨t, right, rfl⟩ := List.exists_cons_of_ne_nil hr
      simp [List.intercalate_cons_cons]
    | cons t left =>
      have hstep := ih (List.cons_ne_nil t left)
      simp only [List.cons_append] at hstep ⊢
      rw [List.intercalate_cons_cons, List.intercalate_cons_cons, hstep]
      simp

/-- The spelling of a child, the case of the root apart. -/
theorem text_child (place : RemotePath) (h : Proper name) :
    (place.child name h).text = if place.text = [slash] then slash :: name else place.text ++ slash :: name := by
  split
  · next hroot =>
    have hnames := place.text_root.mp hroot
    simp [text, child, hnames, join]
  · next hroot =>
    have hnames : place.names ≠ [] := fun h => hroot (place.text_root.mpr h)
    have hlast : join [name] = name := List.intercalate_singleton
    show slash :: join (place.names ++ [name]) = slash :: join place.names ++ slash :: name
    rw [join_append hnames (List.cons_ne_nil name []), hlast, List.cons_append]

end RemotePath

/-! ## Containment -/

/-- Below at a separator is below in the order. -/
theorem separator_prefix {place below : RemotePath} (hroot : place.names ≠ []) :
    place.text ++ [slash] <+: below.text ↔ place.names <+: below.names ∧ place ≠ below := by
  constructor
  · rintro ⟨rest, hrest⟩
    have hcut : join place.names ++ slash :: rest = join below.names := by
      have h : slash :: (join place.names ++ slash :: rest) = slash :: join below.names := by
        rw [← RemotePath.text, ← hrest, RemotePath.text]
        simp
      exact (List.cons.inj h).2
    have hbelow : below.names ≠ [] := by
      intro h
      rw [h] at hcut
      exact absurd hcut (by simp [join])
    have hsplit : place.names ++ split rest = below.names := by
      have h : split (join place.names) ++ split rest = split (join below.names) := by
        rw [← hcut]
        exact (List.splitOn_append_cons_self (join place.names) rest).symm
      rwa [Preview.split_join hroot fun s hs => (place.proper s hs).flat,
        Preview.split_join hbelow fun s hs => (below.proper s hs).flat] at h
    refine ⟨⟨split rest, hsplit⟩, ?_⟩
    rintro rfl
    exact List.splitOn_ne_nil slash rest (List.append_right_eq_self.mp hsplit)
  · rintro ⟨⟨more, hmore⟩, hne⟩
    have hnonempty : more ≠ [] := by
      rintro rfl
      exact hne (RemotePath.ext (by rw [← hmore, List.append_nil]))
    refine ⟨join more, ?_⟩
    rw [RemotePath.text, RemotePath.text, ← hmore, RemotePath.join_append hroot hnonempty]
    simp

/-- The check on texts is the order of directories. -/
theorem within_iff :
    isRemotePathWithin root candidate = true ↔
      ∃ place below, read root = some place ∧ read candidate = some below ∧ place ≤ below := by
  unfold isRemotePathWithin
  rw [normalize_eq, normalize_eq]
  cases hroot : read root with
  | none => simp
  | some place =>
    cases hcandidate : read candidate with
    | none => simp
    | some below =>
      simp only [Option.map_some, Bool.or_eq_true, decide_eq_true_eq, Option.some.injEq,
        exists_and_left, exists_eq_left']
      by_cases htop : place.text = [slash]
      · have hle : place ≤ below := by
          show place.names <+: below.names
          rw [place.text_root.mp htop]
          exact List.nil_prefix
        rw [if_pos htop]
        exact iff_of_true (.inr (by simp [RemotePath.text])) hle
      · have hnames : place.names ≠ [] := fun h => htop (place.text_root.mpr h)
        rw [if_neg htop, List.isPrefixOf_iff_prefix, separator_prefix hnames]
        constructor
        · rintro (h | h)
          · exact (RemotePath.text_injective h) ▸ le_refl _
          · exact h.1
        · intro h
          by_cases heq : place = below
          · exact .inl (heq ▸ rfl)
          · exact .inr ⟨h, heq⟩

theorem within_refl : isRemotePathWithin path path = true ↔ (0 : UInt16) ∉ path := by
  rw [within_iff]
  constructor
  · rintro ⟨place, _, hread, _, _⟩ hnul
    rw [read_none.mpr hnul] at hread
    cases hread
  · intro h
    obtain ⟨place, hread⟩ := read_some h
    exact ⟨place, place, hread, hread, le_refl place⟩

theorem within_trans {middle : Text} (h : isRemotePathWithin root middle = true)
    (h' : isRemotePathWithin middle candidate = true) : isRemotePathWithin root candidate = true := by
  obtain ⟨place, between, hroot, hmiddle, hle⟩ := within_iff.mp h
  obtain ⟨between', below, hmiddle', hcandidate, hle'⟩ := within_iff.mp h'
  cases hmiddle.symm.trans hmiddle'
  exact within_iff.mpr ⟨place, below, hroot, hcandidate, hle.trans hle'⟩

theorem within_antisymm (h : isRemotePathWithin root candidate = true)
    (h' : isRemotePathWithin candidate root = true) :
    normalizeRemotePath root = normalizeRemotePath candidate := by
  obtain ⟨place, below, hroot, hcandidate, hle⟩ := within_iff.mp h
  obtain ⟨below', place', hcandidate', hroot', hle'⟩ := within_iff.mp h'
  cases hroot.symm.trans hroot'
  cases hcandidate.symm.trans hcandidate'
  rw [normalize_eq, normalize_eq, hroot, hcandidate, le_antisymm hle hle']

/-! ## Normal forms -/

variable {normalized : Text}

theorem normalize_ok (h : normalizeRemotePath path = some normalized) :
    ∃ place, read path = some place ∧ place.text = normalized := by
  rw [normalize_eq] at h
  exact Option.map_eq_some_iff.mp h

theorem normalize_none : normalizeRemotePath path = none ↔ (0 : UInt16) ∈ path := by
  rw [normalize_eq, Option.map_eq_none_iff, read_none]

theorem normalize_idempotent (h : normalizeRemotePath path = some normalized) :
    normalizeRemotePath normalized = some normalized := by
  obtain ⟨place, _, rfl⟩ := normalize_ok h
  exact place.normalize_text

theorem normalize_normal (h : normalizeRemotePath path = some normalized) :
    Preview.Normal normalized := by
  obtain ⟨place, _, rfl⟩ := normalize_ok h
  exact ⟨place.names, place.proper, rfl⟩

/-- Every answer of `resolveRemotePath` was normalized last. -/
theorem resolve_normalized {base home : Option Text} {resolved : Text}
    (h : resolveRemotePath path base home = some resolved) :
    ∃ source, normalizeRemotePath source = some resolved := by
  unfold resolveRemotePath at h
  split at h
  · cases h
  · obtain ⟨expanded, _, h⟩ := Option.bind_eq_some_iff.mp h
    split at h
    · exact ⟨expanded, h⟩
    · split at h
      · cases h
      · obtain ⟨normalizedBase, _, h⟩ := Option.bind_eq_some_iff.mp h
        exact ⟨_, h⟩

/-- An absolute path is resolved without base or home. -/
theorem resolve_absolute (hnul : (0 : UInt16) ∉ path) (habs : path.head? = some slash)
    (base home : Option Text) : resolveRemotePath path base home = normalizeRemotePath path := by
  obtain ⟨rest, rfl⟩ : ∃ rest, path = slash :: rest := by
    cases path with
    | nil => cases habs
    | cons unit rest => exact ⟨rest, by rw [Option.some.inj habs]⟩
  have hhome : isHomeRelativeRemotePath (slash :: rest) = false := by
    simp [isHomeRelativeRemotePath, ascii, List.isPrefixOf, slash]
  unfold resolveRemotePath expandRemoteHome
  rw [if_neg hnul, if_pos hhome, if_neg hnul, Option.bind_some, if_pos habs]

/-! ## Children -/

theorem join_ok {directory joined : Text} (h : joinRemoteChildPath directory name = .ok joined) :
    ∃ (hname : Proper name) (place : RemotePath),
      read directory = some place ∧ (place.child name hname).text = joined := by
  unfold joinRemoteChildPath at h
  split at h
  · cases h
  · next hnul =>
    split at h
    · cases h
    · next hempty =>
      split at h
      · cases h
      · next hdots =>
        obtain ⟨hdot, hdotdot⟩ := not_or.mp hdots
        split at h
        · cases h
        · next hflat =>
          split at h
          · cases h
          · next base hbase =>
            obtain ⟨place, hread, rfl⟩ := normalize_ok hbase
            have hname : Proper name := ⟨hempty, hdot, hdotdot, hflat, hnul⟩
            refine ⟨hname, place, hread, ?_⟩
            rw [RemotePath.text_child]
            exact RemoteChildPathResult.ok.inj h

theorem lastSlash_flat (h : slash ∉ name) : lastSlash name = none := by
  induction name with
  | nil => rfl
  | cons unit name ih =>
    obtain ⟨hunit, hname⟩ := List.ne_and_not_mem_of_not_mem_cons h
    rw [lastSlash, ih hname]
    exact if_neg (Ne.symm hunit)

theorem lastSlash_append (left : Text) (h : slash ∉ name) :
    lastSlash (left ++ slash :: name) = some left.length := by
  induction left with
  | nil =>
    rw [List.nil_append, lastSlash, lastSlash_flat h]
    exact if_pos rfl
  | cons unit left ih =>
    rw [List.cons_append, lastSlash, ih]
    rfl

namespace RemotePath

variable {place : RemotePath} {h : Proper name}

theorem text_child_ne : (place.child name h).text ≠ [slash] := by
  intro he
  exact absurd ((place.child name h).text_root.mp he) (List.append_ne_nil_of_right_ne_nil _ (by simp))

theorem parent_child : parentRemotePath (place.child name h).text = some place.text := by
  rw [parentRemotePath, normalize_text, Option.map_some, if_neg text_child_ne, text_child]
  refine congrArg some ?_
  by_cases hroot : place.text = [slash]
  · have hlast : lastSlash (slash :: name) = some 0 := lastSlash_append [] h.flat
    rw [if_pos hroot, hlast, hroot]
  · rw [if_neg hroot, lastSlash_append _ h.flat]
    exact List.take_left' rfl

theorem name_child : remotePathName (place.child name h).text = some name := by
  rw [remotePathName, normalize_text, Option.map_some, if_neg text_child_ne, text_child]
  refine congrArg some ?_
  by_cases hroot : place.text = [slash]
  · have hlast : lastSlash (slash :: name) = some 0 := lastSlash_append [] h.flat
    rw [if_pos hroot, hlast]
    rfl
  · rw [if_neg hroot, lastSlash_append _ h.flat]
    show (place.text ++ slash :: name).drop (place.text.length + 1) = name
    rw [List.drop_append]
    simp

end RemotePath

theorem join_child {directory joined : Text} (h : joinRemoteChildPath directory name = .ok joined) :
    parentRemotePath joined = normalizeRemotePath directory ∧ remotePathName joined = some name ∧
      isRemotePathWithin directory joined = true ∧
      ∀ base home, resolveRemotePath joined base home = some joined := by
  obtain ⟨hname, place, hread, rfl⟩ := join_ok h
  refine ⟨?_, RemotePath.name_child, ?_, fun base home => ?_⟩
  · rw [RemotePath.parent_child, normalize_eq, hread]
    rfl
  · exact within_iff.mpr
      ⟨place, place.child name hname, hread, RemotePath.read_text _, place.le_child hname⟩
  · rw [resolve_absolute (RemotePath.text_nul _) rfl]
    exact RemotePath.normalize_text _

/-- The algebra of remote paths. Containment is reflexive where there is no NUL: a text
with one names no path. -/
theorem remotePath_algebra :
    (∀ path, normalizeRemotePath path = none ↔ (0 : UInt16) ∈ path) ∧
    (∀ path normalized, normalizeRemotePath path = some normalized →
      Preview.Normal normalized ∧ normalizeRemotePath normalized = some normalized) ∧
    (∀ directory name joined, joinRemoteChildPath directory name = .ok joined →
      parentRemotePath joined = normalizeRemotePath directory ∧ remotePathName joined = some name ∧
        isRemotePathWithin directory joined = true ∧
        ∀ base home, resolveRemotePath joined base home = some joined) ∧
    (∀ path, isRemotePathWithin path path = true ↔ (0 : UInt16) ∉ path) ∧
    (∀ root middle candidate, isRemotePathWithin root middle = true →
      isRemotePathWithin middle candidate = true → isRemotePathWithin root candidate = true) ∧
    (∀ root candidate, isRemotePathWithin root candidate = true →
      isRemotePathWithin candidate root = true →
      normalizeRemotePath root = normalizeRemotePath candidate) ∧
    (∀ path base home resolved, resolveRemotePath path base home = some resolved →
      normalizeRemotePath resolved = some resolved) := by
  refine ⟨fun _ => normalize_none, fun _ _ h => ⟨normalize_normal h, normalize_idempotent h⟩,
    fun _ _ _ h => join_child h, fun _ => within_refl, fun _ _ _ h h' => within_trans h h',
    fun _ _ h h' => within_antisymm h h', fun _ _ _ _ h => ?_⟩
  obtain ⟨source, hsource⟩ := resolve_normalized h
  exact normalize_idempotent hsource

/-- A name in a directory whose spelling climbs above the root. -/
theorem remotePath_algebra_log :
    parentRemotePath (ascii "/srv/log") = some (ascii "/srv") ∧
      remotePathName (ascii "/srv/log") = some (ascii "log") ∧
      resolveRemotePath (ascii "/srv/log") (some (ascii "~")) none = some (ascii "/srv/log") := by
  have h := remotePath_algebra.2.2.1 (ascii "../srv//./x/..") (ascii "log") (ascii "/srv/log") (by decide)
  exact ⟨h.1, h.2.1, h.2.2.2 _ _⟩

/-- A text with NUL is not within itself. -/
theorem nul_not_within : isRemotePathWithin [0] [0] = false := rfl

end PocketShell.RemotePaths
