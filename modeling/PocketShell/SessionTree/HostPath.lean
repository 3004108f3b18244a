import PocketShell.SessionTree.Roots

/-!
# The directory that a key names

`rootHostPath` takes the key of a row back to the directory that the picker browses. A home of the
form `/c/…` is taken for that of a Git-for-Windows host, whose directories reach SFTP as `/C:/…`;
on any other host the way back is the inverse of `directoryKey` (`rootHostPath_directoryKey`).
-/

namespace PocketShell.SessionTree

open Js (Text ascii)
open Workspaces (slash untrackedPath home homePrefix isWindowsDrivePath isDriveLetter isLineEnd
  toUpper msysToDrivePath normaliseHome homeRelative directoryKey sameSpelling)

def MAINTENANCE_ROOT : Text := ascii "::maintenance::"

/-- `^\/[A-Za-z]\/` -/
def isMsysMount : Text → Bool
  | first :: drive :: second :: _ => first = slash && isDriveLetter drive && second = slash
  | _ => false

/-- The spelling that SFTP takes on a host of this home. -/
def toSftp (known path : Text) : Text :=
  if isMsysMount known then
    match msysToDrivePath path with
    | some drive => slash :: drive
    | none => path
  else path

/-- The path on the host that a root key names. -/
def rootHostPath (key : Text) (hostHome : Option Text) : Option Text :=
  if key = OTHER_ROOT ∨ key = untrackedPath ∨ key = MAINTENANCE_ROOT then none
  else if key = home ∨ key = ascii "$HOME" then
    (normaliseHome hostHome).map fun known => toSftp known known
  else if homePrefix.isPrefixOf key then
    (normaliseHome hostHome).map fun known =>
      let rest := Workspaces.stripSlashes (key.drop 2)
      toSftp known (if rest = [] then known else known ++ [slash] ++ rest)
  else if isWindowsDrivePath key then some (slash :: key)
  else if key.head? = some slash then some key
  else none

/-! ## There and back -/

def Absolute (path : Text) : Prop := path.head? = some slash

/-- An absolute path without a trailing slash, or the root. -/
def Canonical (path : Text) : Prop :=
  Absolute path ∧ (path = [slash] ∨ path.getLast? ≠ some slash)

/-- The home directory or below it. -/
def InHome (path hostHome : Text) : Prop :=
  ∃ known ∈ normaliseHome (some hostHome), path = known ∨ known ++ [slash] <+: path

/-- The home is taken for that of a Git-for-Windows host. -/
def MsysHome (hostHome : Text) : Prop :=
  ∃ known ∈ normaliseHome (some hostHome), isMsysMount known = true

variable {path : Text}

theorem Absolute.cons (h : Absolute path) : ∃ tail, path = slash :: tail := by
  obtain ⟨tail, rfl⟩ := List.head?_eq_some_iff.mp h
  exact ⟨tail, rfl⟩

theorem Absolute.not_drive (h : Absolute path) : isWindowsDrivePath path = false := by
  obtain ⟨tail, rfl⟩ := h.cons
  rcases tail with _ | ⟨second, _ | ⟨third, rest⟩⟩
  · rfl
  · rfl
  · have hletter : isDriveLetter slash = false := by decide
    simp [isWindowsDrivePath, hletter]

/-- A known home is absolute and has no trailing slash. -/
theorem normaliseHome_absolute {hostHome known : Text} (h : Absolute hostHome)
    (hknown : known ∈ normaliseHome (some hostHome)) :
    Absolute known ∧ known.getLast? ≠ some slash := by
  obtain ⟨tail, rfl⟩ := h.cons
  have hslash : Js.isSpace slash = false := by decide
  have hstart : Js.trimStart (slash :: tail) = slash :: tail :=
    Js.trimStart_of_head fun unit hunit => by
      obtain rfl := Option.some.inj hunit
      exact hslash
  unfold normaliseHome at hknown
  dsimp only [Option.getD_some] at hknown
  split at hknown
  · cases hknown
  · next hsome =>
    cases hknown
    constructor
    · -- What is left of the home is a nonempty prefix of it.
      have hprefix : Workspaces.stripSlashes (Js.trim (slash :: tail)) <+: slash :: tail := by
        unfold Js.trim
        rw [hstart, Js.trimEnd_eq]
        exact (List.rdropWhile_prefix _ _).trans (List.rdropWhile_prefix _ _)
      obtain ⟨rest, hrest⟩ := hprefix
      cases hcut : Workspaces.stripSlashes (Js.trim (slash :: tail)) with
      | nil => exact absurd hcut hsome
      | cons unit units =>
        rw [hcut] at hrest
        exact congrArg some (List.cons.inj hrest).1
    · intro hlast
      have hnot := List.rdropWhile_last_not (fun unit => decide (unit = slash))
        (Js.trim (slash :: tail)) hsome
      rw [List.getLast?_eq_some_getLast hsome] at hlast
      exact hnot (decide_eq_true (Option.some.inj hlast))

/-- A key that starts with a slash is its own path. -/
theorem rootHostPath_absolute (h : Absolute path) (hostHome : Option Text) :
    rootHostPath path hostHome = some path := by
  have hdrive := h.not_drive
  have hhead : path.head? = some slash := h
  obtain ⟨tail, rfl⟩ := h.cons
  have hother : slash :: tail ≠ OTHER_ROOT := fun heq => by cases heq
  have huntracked : slash :: tail ≠ untrackedPath := fun heq => by cases heq
  have hmaintenance : slash :: tail ≠ MAINTENANCE_ROOT := fun heq => by cases heq
  have hhome : slash :: tail ≠ home := fun heq => by cases heq
  have hvariable : slash :: tail ≠ ascii "$HOME" := fun heq => by cases heq
  have houtside : homePrefix.isPrefixOf (slash :: tail) = false := rfl
  unfold rootHostPath
  rw [if_neg (by simp only [hother, huntracked, hmaintenance, or_self, not_false_eq_true]),
    if_neg (by simp only [hhome, hvariable, or_self, not_false_eq_true]),
    if_neg (by simp only [houtside, Bool.false_eq_true, not_false_eq_true]), if_neg (by simp [hdrive]), if_pos hhead]

variable {hostHome : Option Text}

/-- A key below the home is expanded, and spelled for SFTP. -/
theorem rootHostPath_home {known rest : Text}
    (hknown : normaliseHome hostHome = some known) (hlast : rest.getLast? ≠ some slash)
    (hrest : rest ≠ []) : rootHostPath (homePrefix ++ rest) hostHome =
      some (toSftp known (known ++ [slash] ++ rest)) := by
  have hstrip : Workspaces.stripSlashes rest = rest := by
    refine List.rdropWhile_eq_self_iff.mpr fun hne hslash => hlast ?_
    rw [List.getLast?_eq_some_getLast hne]
    exact congrArg some (of_decide_eq_true hslash)
  have hother : homePrefix ++ rest ≠ OTHER_ROOT := fun heq => by cases heq
  have huntracked : homePrefix ++ rest ≠ untrackedPath := fun heq => by cases heq
  have hmaintenance : homePrefix ++ rest ≠ MAINTENANCE_ROOT := fun heq => by cases heq
  have hhome : homePrefix ++ rest ≠ home := fun heq => by cases heq
  have hvariable : homePrefix ++ rest ≠ ascii "$HOME" := fun heq => by cases heq
  have hprefix : homePrefix.isPrefixOf (homePrefix ++ rest) = true :=
    List.isPrefixOf_iff_prefix.mpr (List.prefix_append _ _)
  have hdrop : (homePrefix ++ rest).drop 2 = rest := rfl
  unfold rootHostPath
  rw [if_neg (by simp only [hother, huntracked, hmaintenance, or_self, not_false_eq_true]),
    if_neg (by simp only [hhome, hvariable, or_self, not_false_eq_true]), if_pos hprefix, hknown,
    Option.map_some, hdrop, hstrip]
  dsimp only
  rw [if_neg hrest]

/-- The home itself. -/
theorem rootHostPath_tilde (hostHome : Option Text) : rootHostPath home hostHome =
    (normaliseHome hostHome).map fun known => toSftp known known := by
  unfold rootHostPath
  rw [if_neg (by decide), if_pos (.inl rfl)]

theorem Absolute.not_relative {path : Text} (hpath : Absolute path) :
    (decide (path = home) || decide (path = ascii "$HOME")) = false ∧ homePrefix.isPrefixOf path = false := by
  obtain ⟨tail, rfl⟩ := hpath.cons
  have hne : slash :: tail ≠ home := fun heq => by cases heq
  have hne' : slash :: tail ≠ ascii "$HOME" := fun heq => by cases heq
  exact ⟨by simp [hne, hne'], rfl⟩

/-- Between absolute paths no spelling is rewritten. -/
theorem homeRelative_absolute {path known : Text} (hpath : Absolute path)
    (habsolute : Absolute known) (hknown : normaliseHome hostHome = some known) :
    homeRelative path hostHome = if path = known then some []
      else if (known ++ [slash]).isPrefixOf path then some (path.drop (known.length + 1))
      else none := by
  have hspelling : sameSpelling path known = (path, known) := by
    unfold sameSpelling
    rw [hpath.not_drive, habsolute.not_drive]
    rfl
  obtain ⟨hhome, hprefix⟩ := hpath.not_relative
  unfold homeRelative
  rw [hhome, if_neg (by simp), hprefix, if_neg (by simp), hknown]
  dsimp only
  rw [hspelling]

theorem homeRelative_unknown (hpath : Absolute path)
    (hknown : normaliseHome hostHome = none) : homeRelative path hostHome = none := by
  obtain ⟨hhome, hprefix⟩ := hpath.not_relative
  unfold homeRelative
  rw [hhome, if_neg (by simp), hprefix, if_neg (by simp), hknown]

/-- The way back gives the path, in the spelling of the host when it is in the home. -/
theorem rootHostPath_key {hostHome path : Text} (hhome : Absolute hostHome)
    (hpath : Canonical path) :
    rootHostPath (directoryKey path (some hostHome)) (some hostHome) = some path ∧
        ¬ InHome path hostHome ∨
      ∃ known ∈ normaliseHome (some hostHome), InHome path hostHome ∧
        rootHostPath (directoryKey path (some hostHome)) (some hostHome) =
          some (toSftp known path) := by
  have huntracked : path ≠ untrackedPath := by
    obtain ⟨tail, rfl⟩ := hpath.1.cons
    exact fun heq => by cases heq
  have habsolute := rootHostPath_absolute hpath.1 (some hostHome)
  unfold directoryKey
  rw [if_neg huntracked]
  cases hknown : normaliseHome (some hostHome) with
  | none =>
    rw [homeRelative_unknown hpath.1 hknown]
    refine .inl ⟨habsolute, ?_⟩
    rintro ⟨known, hmem, -⟩
    cases hknown.symm.trans hmem
  | some known =>
    obtain ⟨hslash, -⟩ := normaliseHome_absolute hhome hknown
    rw [homeRelative_absolute hpath.1 hslash hknown]
    by_cases hsame : path = known
    · rw [if_pos hsame]
      refine .inr ⟨known, rfl, ⟨known, hknown, .inl hsame⟩, ?_⟩
      dsimp only
      rw [if_pos rfl, rootHostPath_tilde, hknown, hsame]
      rfl
    rw [if_neg hsame]
    by_cases hbelow : (known ++ [slash]).isPrefixOf path = true
    · rw [if_pos hbelow]
      have hprefix := List.isPrefixOf_iff_prefix.mp hbelow
      obtain ⟨rest, hrest⟩ := hprefix
      have hdrop : path.drop (known.length + 1) = rest := by
        rw [← hrest]
        simp
      -- The path is not the root, and it has no trailing slash.
      have hlast : path.getLast? ≠ some slash := by
        rcases hpath.2 with hroot | hlast
        · rw [hroot] at hrest
          obtain ⟨tail, rfl⟩ := hslash.cons
          simp at hrest
        · exact hlast
      have hsome : rest ≠ [] := by
        rintro rfl
        exact hlast (by rw [← hrest]; simp)
      have hrestLast : rest.getLast? ≠ some slash := by
        intro heq
        refine hlast ?_
        rw [← hrest, List.getLast?_append, heq]
        rfl
      refine .inr ⟨known, rfl, ⟨known, hknown, .inr ⟨rest, hrest⟩⟩, ?_⟩
      dsimp only
      rw [hdrop, if_neg hsome, rootHostPath_home hknown hrestLast hsome, hrest]
    · rw [if_neg hbelow]
      refine .inl ⟨habsolute, ?_⟩
      rintro ⟨other, hmem, hin⟩
      obtain rfl : known = other := Option.some.inj (hknown.symm.trans hmem)
      rcases hin with heq | hin
      · exact hsame heq
      · exact hbelow (List.isPrefixOf_iff_prefix.mpr hin)

theorem isMsysMount_shape {known : Text} (h : isMsysMount known = true) :
    ∃ drive tail, known = slash :: drive :: slash :: tail ∧ isDriveLetter drive = true := by
  match known, h with
  | first :: drive :: second :: tail, h =>
    simp only [isMsysMount, Bool.and_eq_true, decide_eq_true_eq] at h
    obtain ⟨⟨rfl, hdrive⟩, rfl⟩ := h
    exact ⟨drive, tail, rfl, hdrive⟩

/-- Below a home of that form every path without a line end has a drive spelling. -/
theorem msysToDrivePath_inHome {hostHome path : Text} (hhome : MsysHome hostHome)
    (hin : InHome path hostHome) (hline : ∀ unit ∈ path, isLineEnd unit = false) :
    ∃ drive rest, path = slash :: drive :: rest ∧
      msysToDrivePath path = some (toUpper drive :: 0x3a :: rest) := by
  obtain ⟨known, hknown, hmount⟩ := hhome
  obtain ⟨other, hother, hpath⟩ := hin
  obtain rfl : known = other := Option.some.inj (hknown.symm.trans hother)
  obtain ⟨drive, tail, rfl, hdrive⟩ := isMsysMount_shape hmount
  obtain ⟨rest, rfl⟩ : ∃ rest, path = slash :: drive :: slash :: rest := by
    rcases hpath with rfl | ⟨more, rfl⟩
    · exact ⟨tail, rfl⟩
    · exact ⟨_, rfl⟩
  refine ⟨drive, slash :: rest, rfl, ?_⟩
  have hrest : (slash :: rest).any isLineEnd = false :=
    List.any_eq_false.mpr fun unit hunit =>
      Bool.eq_false_iff.mp (hline unit (.tail _ (.tail _ hunit)))
  simp [msysToDrivePath, hdrive, hrest]

theorem isLineEnd_not_letter {unit : UInt16} (hline : isLineEnd unit = true) :
    isDriveLetter unit ≠ true := by
  simp only [isLineEnd, Bool.or_eq_true, decide_eq_true_eq] at hline
  rcases hline with ((rfl | rfl) | rfl) | rfl <;> decide

/-- The pattern of a drive mount does not match across a line end. -/
theorem msysToDrivePath_lineEnd {unit : UInt16} (hunit : unit ∈ path)
    (hline : isLineEnd unit = true) : msysToDrivePath path = none := by
  match path, hunit with
  | [_], _ => rfl
  | first :: drive :: rest, hunit =>
    refine if_neg ?_
    simp only [Bool.and_eq_true, decide_eq_true_eq, Bool.not_eq_true', List.any_eq_false]
    rintro ⟨⟨⟨rfl, hdrive⟩, -⟩, hrest⟩
    rcases List.mem_cons.mp hunit with rfl | hunit
    · exact absurd hline (by decide)
    rcases List.mem_cons.mp hunit with rfl | hunit
    · exact isLineEnd_not_letter hline hdrive
    · exact hrest unit hunit hline

/-- The way back is the inverse of the key, but for a path in a home that is taken for one of
Git-for-Windows: it is spelled as a drive for SFTP. -/
theorem rootHostPath_directoryKey (hostHome path : Text) (hhome : Absolute hostHome)
    (hpath : Canonical path) :
    (¬ (MsysHome hostHome ∧ InHome path hostHome) →
        rootHostPath (directoryKey path (some hostHome)) (some hostHome) = some path) ∧
      (MsysHome hostHome ∧ InHome path hostHome →
        rootHostPath (directoryKey path (some hostHome)) (some hostHome) =
          some (((msysToDrivePath path).map (slash :: ·)).getD path)) ∧
      (rootHostPath (directoryKey path (some hostHome)) (some hostHome) = some path ↔
        ¬ (MsysHome hostHome ∧ InHome path hostHome ∧ ∀ unit ∈ path, isLineEnd unit = false)) := by
  have hmsys : MsysHome hostHome → InHome path hostHome →
      rootHostPath (directoryKey path (some hostHome)) (some hostHome) =
        some (((msysToDrivePath path).map (slash :: ·)).getD path) := by
    rcases rootHostPath_key hhome hpath with ⟨-, hout⟩ | ⟨known, hknown, -, hback⟩
    · exact fun _ hin => absurd hin hout
    · rintro ⟨other, hother, hmount⟩ -
      obtain rfl : known = other := Option.some.inj (hknown.symm.trans hother)
      rw [hback, toSftp, if_pos hmount]
      cases msysToDrivePath path <;> rfl
  have hplain : ¬ (MsysHome hostHome ∧ InHome path hostHome) →
      rootHostPath (directoryKey path (some hostHome)) (some hostHome) = some path := by
    rcases rootHostPath_key hhome hpath with ⟨hback, -⟩ | ⟨known, hknown, hin, hback⟩
    · exact fun _ => hback
    · intro hnot
      rw [hback, toSftp, if_neg fun hmount => hnot ⟨⟨known, hknown, hmount⟩, hin⟩]
  refine ⟨hplain, fun h => hmsys h.1 h.2, ?_, fun hnot => ?_⟩
  · rintro hback ⟨hhost, hin, hline⟩
    obtain ⟨drive, rest, hpath, hdrive⟩ := msysToDrivePath_inHome hhost hin hline
    rw [hmsys hhost hin, hdrive, hpath] at hback
    -- The drive spelling is longer by its colon.
    have hlength := congrArg List.length (Option.some.inj hback)
    simp at hlength
  · by_cases hhost : MsysHome hostHome ∧ InHome path hostHome
    · have hline : ∃ unit ∈ path, isLineEnd unit = true := by
        by_contra hnone
        refine hnot ⟨hhost.1, hhost.2, fun unit hunit => ?_⟩
        cases hend : isLineEnd unit
        · rfl
        · exact absurd ⟨unit, hunit, hend⟩ hnone
      obtain ⟨unit, hunit, hend⟩ := hline
      rw [hmsys hhost.1 hhost.2, msysToDrivePath_lineEnd hunit hend]
      rfl
    · exact hplain hhost

theorem rootHostPath_directoryKey_posix :
    rootHostPath (directoryKey (ascii "/home/me/git") (some (ascii "/home/me")))
      (some (ascii "/home/me")) = some (ascii "/home/me/git") := by
  refine (rootHostPath_directoryKey (ascii "/home/me") (ascii "/home/me/git") rfl
    ⟨rfl, .inr (by decide)⟩).1 ?_
  rintro ⟨⟨known, hknown, hmount⟩, -⟩
  obtain rfl : ascii "/home/me" = known := Option.some.inj ((by decide +kernel : normaliseHome
    (some (ascii "/home/me")) = some (ascii "/home/me")).symm.trans hknown)
  exact absurd hmount (by decide)

/-- A home with a first segment of one letter. -/
theorem rootHostPath_msysHome :
    directoryKey (ascii "/u/me/git") (some (ascii "/u/me")) = ascii "~/git" ∧
      rootHostPath (ascii "~/git") (some (ascii "/u/me")) = some (ascii "/U:/me/git") := by
  decide +kernel

end PocketShell.SessionTree
