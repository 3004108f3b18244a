import PocketShell.Workspaces.Paths

/-!
# Canonical path keys

`canonicalisePath` trims and then strips the slashes at the end, so that white space before those
slashes is at the end of its answer and goes when the answer is made canonical again.

* `canonicalisePath_self`: an answer that does not end in white space is its own canonical form.
* `directoryKey_canonical`: which paths have the directory key of their canonical form.
* `path_keys`: the keys of a path and of its canonical form.
* `path_keys_slash`: a path that has another directory key than its canonical form.
-/

namespace PocketShell.Workspaces

open Js (Text ascii isSpace)

/-- The text ends in white space. -/
def EndsInSpace (text : Text) : Prop := ∃ unit ∈ text.getLast?, isSpace unit = true

variable {path rest windows root : Text} {letter unit : UInt16}

theorem not_endsInSpace (h : ¬EndsInSpace path) : ∀ unit ∈ path.getLast?, isSpace unit = false :=
  fun unit hunit => Bool.eq_false_iff.mpr fun hspace => h ⟨unit, hunit, hspace⟩

/-! ## 1. Slashes at the end -/

theorem stripSlashes_split (path : Text) :
    ∃ n, path = stripSlashes path ++ List.replicate n slash := by
  refine ⟨(path.rtakeWhile (· = slash)).length, ?_⟩
  have hslashes : path.rtakeWhile (· = slash) =
      List.replicate (path.rtakeWhile (· = slash)).length slash :=
    List.eq_replicate_of_mem fun unit hunit => by simpa using List.mem_rtakeWhile_imp hunit
  rw [← hslashes]
  exact List.rdropWhile_append_rtakeWhile.symm

theorem stripSlashes_twice (path : Text) : stripSlashes (stripSlashes path) = stripSlashes path :=
  List.rdropWhile_idempotent _ _

theorem stripSlashes_start (path : Text) : stripSlashes path <+: path := List.rdropWhile_prefix _ _

/-! ## 2. Drive paths -/

theorem drivePath_slashes (h : drivePath path = some (letter, rest)) (n : Nat) :
    drivePath (path ++ List.replicate n slash) = some (letter, rest ++ List.replicate n slash) := by
  match path with
  | [] => cases h
  | [_] => cases h
  | drive :: colon :: tail =>
    simp only [drivePath] at h
    split at h
    next hdrive =>
      cases h
      simp only [Bool.and_eq_true, Bool.not_eq_true'] at hdrive
      obtain ⟨⟨hletter, hhead⟩, hlines⟩ := hdrive
      have hends : (List.replicate n slash).any isLineEnd = false := by
        rw [List.any_eq_false]
        intro unit hunit
        rw [List.eq_of_mem_replicate hunit]
        decide
      have hhead := of_decide_eq_true hhead
      simp only [drivePath, List.cons_append]
      rw [if_pos]
      rw [List.any_append, hlines, hends, List.head?_append, hhead]
      simp only [Option.some_or, decide_true, Bool.or_self, Bool.not_false, Bool.and_true]
      exact Bool.and_eq_true_iff.mpr hletter
    next => cases h

theorem normaliseWindowsPath_slashes (h : normaliseWindowsPath path = some windows) (n : Nat) :
    normaliseWindowsPath (path ++ List.replicate n slash) = some (windows ++ List.replicate n slash) := by
  have hslashed : (List.replicate n slash).map (fun unit => if unit = 0x5c then slash else unit) =
      List.replicate n slash := by
    rw [List.map_replicate]
    rfl
  unfold normaliseWindowsPath at h ⊢
  dsimp only at h ⊢
  rw [List.map_append, hslashed]
  obtain ⟨⟨letter, rest⟩, hdrive, rfl⟩ := Option.map_eq_some_iff.mp h
  refine Option.map_eq_some_iff.mpr ⟨(letter, rest ++ List.replicate n slash), ?_, rfl⟩
  cases hpath : path.map fun unit => if unit = 0x5c then slash else unit with
  | nil =>
    rw [hpath] at hdrive
    cases hdrive
  | cons first tail =>
    rw [hpath] at hdrive
    rw [List.cons_append]
    dsimp only at hdrive ⊢
    split at hdrive
    next hslash =>
      rw [if_pos hslash]
      exact drivePath_slashes hdrive n
    next hslash =>
      rw [if_neg hslash]
      exact drivePath_slashes hdrive n

/-- A drive path in the one spelling. -/
structure DriveForm (windows : Text) (letter : UInt16) (rest : Text) : Prop where
  form : windows = letter :: 0x3a :: rest
  upper : isUpper letter = true
  root : rest.head? = some slash
  line : rest.any isLineEnd = false
  forward : (0x5c : UInt16) ∉ rest

theorem isUpper_toUpper (h : isDriveLetter letter = true) : isUpper (toUpper letter) = true := by
  unfold toUpper
  split
  next hlower =>
    simp only [isLower, Bool.and_eq_true, decide_eq_true_eq, UInt16.le_iff_toNat_le, UInt16.reduceToNat] at hlower
    have hle : (0x20 : UInt16) ≤ letter := by
      simp only [UInt16.le_iff_toNat_le, UInt16.reduceToNat]
      omega
    simp only [isUpper, Bool.and_eq_true, decide_eq_true_eq, UInt16.le_iff_toNat_le,
      UInt16.toNat_sub_of_le _ _ hle, UInt16.reduceToNat]
    omega
  next hlower =>
    unfold isDriveLetter at h
    rw [Bool.eq_false_iff.mpr hlower, Bool.or_false] at h
    exact h

theorem windows_parts (h : normaliseWindowsPath path = some windows) : ∃ letter rest,
    windows = toUpper letter :: 0x3a :: rest ∧ isDriveLetter letter = true ∧ rest.head? = some slash ∧
      rest.any isLineEnd = false ∧ rest ⊆ path.map fun unit => if unit = 0x5c then slash else unit := by
  unfold normaliseWindowsPath at h
  obtain ⟨⟨letter, rest⟩, hdrive, rfl⟩ := Option.map_eq_some_iff.mp h
  have hsource : ∃ source, drivePath source = some (letter, rest) ∧
      source ⊆ path.map fun unit => if unit = 0x5c then slash else unit := by
    cases hpath : path.map fun unit => if unit = 0x5c then slash else unit with
    | nil =>
      rw [hpath] at hdrive
      cases hdrive
    | cons first tail =>
      rw [hpath] at hdrive
      dsimp only at hdrive
      split at hdrive
      · exact ⟨tail, hdrive, List.subset_cons_self first tail⟩
      · exact ⟨first :: tail, hdrive, List.Subset.refl _⟩
  obtain ⟨source, hsource, hsubset⟩ := hsource
  match source with
  | [] => cases hsource
  | [_] => cases hsource
  | drive :: colon :: tail =>
    simp only [drivePath] at hsource
    split at hsource
    next hletter =>
      cases hsource
      simp only [Bool.and_eq_true, Bool.not_eq_true', decide_eq_true_eq] at hletter
      exact ⟨_, _, rfl, hletter.1.1.1, hletter.1.2, hletter.2, fun unit hunit =>
        hsubset (List.mem_cons_of_mem _ (List.mem_cons_of_mem _ hunit))⟩
    next => cases hsource

theorem driveForm (h : normaliseWindowsPath path = some windows) :
    ∃ letter rest, DriveForm windows letter rest := by
  obtain ⟨letter, rest, hform, hletter, hroot, hline, hsubset⟩ := windows_parts h
  refine ⟨_, rest, hform, isUpper_toUpper hletter, hroot, hline, fun hmem => ?_⟩
  obtain ⟨original, -, hback⟩ := List.mem_map.mp (hsubset hmem)
  split at hback
  · exact absurd hback (by decide)
  next hother => exact hother hback

theorem DriveForm.self (h : DriveForm windows letter rest) : normaliseWindowsPath windows = some windows := by
  have hupper : 0x41 ≤ letter.toNat ∧ letter.toNat ≤ 0x5a := by
    simpa only [isUpper, Bool.and_eq_true, decide_eq_true_eq, UInt16.le_iff_toNat_le,
      UInt16.reduceToNat] using h.upper
  have hback : letter ≠ 0x5c := by
    rintro rfl
    exact absurd hupper (by decide)
  have hslash : letter ≠ slash := by
    rintro rfl
    exact absurd hupper (by decide)
  have hlower : isLower letter = false := by
    simp only [isLower, Bool.and_eq_false_iff, decide_eq_false_iff_not, UInt16.le_iff_toNat_le,
      UInt16.reduceToNat]
    omega
  have hforward : windows.map (fun unit => if unit = 0x5c then slash else unit) = windows := by
    rw [h.form, List.map_cons, List.map_cons, if_neg hback]
    have hrest : rest.map (fun unit => if unit = 0x5c then slash else unit) = rest :=
      (List.map_congr_left fun unit hunit => if_neg (ne_of_mem_of_not_mem hunit h.forward)).trans (List.map_id _)
    rw [hrest]
    rfl
  unfold normaliseWindowsPath
  dsimp only
  rw [hforward, h.form]
  dsimp only
  rw [if_neg hslash]
  have hdrive : drivePath (letter :: 0x3a :: rest) = some (letter, rest) := by
    simp only [drivePath]
    rw [if_pos]
    rw [h.line, h.root, isDriveLetter, h.upper]
    rfl
  rw [hdrive, Option.map_some, toUpper, if_neg (by rw [hlower]; exact Bool.false_ne_true)]

theorem DriveForm.strip (h : DriveForm windows letter rest) (hlong : 2 < (stripSlashes windows).length) :
    ∃ rest', DriveForm (stripSlashes windows) letter rest' := by
  obtain ⟨n, hn⟩ := stripSlashes_split windows
  obtain ⟨tail, htail⟩ : ∃ tail, stripSlashes windows = letter :: 0x3a :: tail := by
    obtain ⟨more, hmore⟩ := stripSlashes_start windows
    rw [h.form] at hmore hlong ⊢
    cases hstripped : stripSlashes (letter :: 0x3a :: rest) with
    | nil =>
      rw [hstripped] at hlong
      cases hlong
    | cons a tail =>
      cases tail with
      | nil =>
        rw [hstripped] at hlong
        exact absurd hlong (by simp)
      | cons b tail =>
        rw [hstripped] at hmore
        cases hmore
        exact ⟨tail, rfl⟩
  have hrest : rest = tail ++ List.replicate n slash := by
    have hwhole := h.form.symm.trans hn
    rw [htail] at hwhole
    exact (List.cons.inj (List.cons.inj hwhole).2).2
  refine ⟨tail, htail, h.upper, ?_, ?_, fun hmem => h.forward (hrest ▸ List.mem_append_left _ hmem)⟩
  · have hroot := h.root
    rw [hrest] at hroot
    cases tail with
    | nil =>
      rw [htail] at hlong
      exact absurd hlong (by simp)
    | cons _ _ => exact hroot
  · have hline := h.line
    rw [hrest, List.any_append, Bool.or_eq_false_iff] at hline
    exact hline.1

/-! ## 3. The canonical form -/

/-- What `canonicalisePath` answers. -/
inductive Canonical : Text → Prop
  | untracked : Canonical untrackedPath
  | drive {windows : Text} {letter : UInt16} {rest : Text} : DriveForm windows letter rest →
    stripSlashes windows = windows ∨ (stripSlashes windows).length ≤ 2 → Canonical windows
  | plain {path : Text} : (∀ unit ∈ path.head?, isSpace unit = false) → path ≠ [] →
    normaliseWindowsPath path = none → stripSlashes path = path → Canonical path
  | slash : Canonical [slash]

theorem canonicalisePath_canonical (path : Text) : Canonical (canonicalisePath path) := by
  unfold canonicalisePath
  dsimp only
  split
  · exact .untracked
  next hne =>
    split
    next windows hwindows =>
      obtain ⟨letter, rest, hform⟩ := driveForm hwindows
      split
      next hlong =>
        obtain ⟨rest', hform'⟩ := hform.strip hlong
        exact .drive hform' (.inl (stripSlashes_twice _))
      next hshort => exact .drive hform (.inr (Nat.le_of_not_lt hshort))
    next hposix =>
      split
      · exact .slash
      next hsome =>
        refine .plain ?_ hsome ?_ (stripSlashes_twice _)
        · intro unit hunit
          obtain ⟨more, hmore⟩ := stripSlashes_start (Js.trim path)
          refine Js.trim_head path unit ?_
          rw [← hmore, List.head?_append, hunit]
          rfl
        · refine Option.eq_none_iff_forall_ne_some.mpr fun windows hwindows => ?_
          obtain ⟨n, hn⟩ := stripSlashes_split (Js.trim path)
          have hagain := normaliseWindowsPath_slashes hwindows n
          rw [← hn, hposix] at hagain
          cases hagain

/-- An answer that does not end in white space is its own canonical form. -/
theorem Canonical.self (h : Canonical path) (hends : ¬EndsInSpace path) : canonicalisePath path = path := by
  have hlast := not_endsInSpace hends
  cases h with
  | untracked => decide
  | slash => decide
  | @drive _ letter rest hform hstripped =>
    have hhead : ∀ unit ∈ path.head?, isSpace unit = false := by
      intro unit hunit
      rw [hform.form, List.head?_cons, Option.mem_some_iff] at hunit
      have hupper := hform.upper
      rw [hunit] at hupper
      simp only [isUpper, Bool.and_eq_true, decide_eq_true_eq, UInt16.le_iff_toNat_le, UInt16.reduceToNat] at hupper
      simp only [isSpace, Bool.or_eq_false_iff, Bool.and_eq_false_iff, decide_eq_false_iff_not,
        UInt16.le_iff_toNat_le, ← UInt16.toNat_inj, UInt16.reduceToNat]
      omega
    have hne : path ≠ [] := by
      rw [hform.form]
      exact List.cons_ne_nil _ _
    unfold canonicalisePath
    dsimp only
    rw [Js.trim_self hhead hlast, if_neg hne, hform.self]
    dsimp only
    rcases hstripped with hsame | hshort
    · rw [hsame, ite_self]
    · rw [if_neg (Nat.not_lt.mpr hshort)]
  | plain hhead hne hposix hstripped =>
    unfold canonicalisePath
    dsimp only
    rw [Js.trim_self hhead hlast, if_neg hne, hposix]
    dsimp only
    rw [hstripped, if_neg hne]

theorem canonicalisePath_self (h : ¬EndsInSpace (canonicalisePath path)) :
    canonicalisePath (canonicalisePath path) = canonicalisePath path :=
  (canonicalisePath_canonical path).self h

/-! ## 4. Roots -/

theorem windows_printable (hpath : ∀ unit ∈ path, ¬unit < 0x20)
    (h : normaliseWindowsPath path = some windows) : ∀ unit ∈ windows, ¬unit < 0x20 := by
  have hslashed : ∀ unit ∈ path.map (fun unit => if unit = 0x5c then slash else unit), ¬unit < 0x20 := by
    intro unit hunit
    obtain ⟨original, horiginal, rfl⟩ := List.mem_map.mp hunit
    split
    · decide
    · exact hpath original horiginal
  obtain ⟨letter, rest, rfl, hletter, -, -, hsubset⟩ := windows_parts h
  have hupper := isUpper_toUpper hletter
  simp only [isUpper, Bool.and_eq_true, decide_eq_true_eq, UInt16.le_iff_toNat_le, UInt16.reduceToNat] at hupper
  intro unit hunit
  rcases List.mem_cons.mp hunit with rfl | hunit
  · simp only [UInt16.lt_iff_toNat_lt, UInt16.reduceToNat]
    omega
  · rcases List.mem_cons.mp hunit with rfl | hunit
    · decide
    · exact hslashed unit (hsubset hunit)

theorem canonicalisePath_printable (h : path.any (· < 0x20) = false) :
    (canonicalisePath path).any (· < 0x20) = false := by
  have hpath : ∀ unit ∈ path, ¬unit < 0x20 := by simpa using h
  have htrim : ∀ unit ∈ Js.trim path, ¬unit < 0x20 := fun unit hunit =>
    hpath unit (((List.rdropWhile_prefix isSpace _).sublist.trans (List.dropWhile_suffix _).sublist).subset hunit)
  rw [List.any_eq_false]
  simp only [decide_eq_true_eq]
  unfold canonicalisePath
  dsimp only
  split
  · have hall : untrackedPath.all (fun unit => ¬unit < 0x20) = true := by decide
    simpa using hall
  · split
    next windows hwindows =>
      have hprintable : ∀ unit ∈ windows, ¬unit < 0x20 := windows_printable htrim hwindows
      split
      · exact fun unit hunit => hprintable unit ((stripSlashes_start windows).subset hunit)
      · exact hprintable
    next =>
      split
      · simp [slash]
      · exact fun unit hunit => htrim unit ((stripSlashes_start _).subset hunit)

theorem normaliseRootPath_self (h : normaliseRootPath path = some root) (hends : ¬EndsInSpace root) :
    normaliseRootPath root = some root := by
  unfold normaliseRootPath at h
  rw [Option.ite_none_left_eq_some] at h
  obtain ⟨hprintable, h⟩ := h
  dsimp only at h
  rw [Option.ite_none_left_eq_some, Option.ite_none_left_eq_some, Option.ite_none_right_eq_some] at h
  obtain ⟨htracked, hdots, hanchored, hroot⟩ := h
  have hroot : canonicalisePath path = root := Option.some.inj hroot
  have hprintable' := canonicalisePath_printable (Bool.eq_false_iff.mpr hprintable)
  rw [hroot] at htracked hdots hanchored hprintable'
  have hself : canonicalisePath root = root := by
    rw [← hroot] at hends ⊢
    exact canonicalisePath_self hends
  unfold normaliseRootPath
  dsimp only
  rw [hself, if_neg (by rw [hprintable']; exact Bool.false_ne_true), if_neg htracked, if_neg hdots,
    if_pos hanchored]

/-! ## 5. Directory keys -/

def homeVariable : Text := ascii "$HOME"

/-- With the home unknown, the key of a path is the path, unless it spells the home. -/
theorem directoryKey_unknown (path : Text) :
    directoryKey path none = if path = homeVariable ∨ path = homePrefix then home else path := by
  have hknown : normaliseHome none = none := rfl
  unfold directoryKey homeRelative
  rw [hknown]
  split
  next huntracked =>
    rw [huntracked, if_neg]
    decide
  · split
    next hnone =>
      split at hnone
      · cases hnone
      next hnot =>
        split at hnone
        · cases hnone
        next hprefix =>
          rw [if_neg]
          rintro (rfl | rfl)
          · exact hnot (by simp [homeVariable])
          · exact hprefix (by decide)
    next relative hsome =>
      split at hsome
      next hnamed =>
        cases hsome
        rw [if_pos rfl]
        rcases Bool.or_eq_true_iff.mp hnamed with hhome | hvariable
        · rw [of_decide_eq_true hhome, ite_self]
        · rw [of_decide_eq_true hvariable, if_pos (.inl rfl)]
      next hnamed =>
        split at hsome
        next hprefix =>
          cases hsome
          obtain ⟨below, rfl⟩ := List.isPrefixOf_iff_prefix.mp hprefix
          have hdrop : (homePrefix ++ below).drop 2 = below := List.drop_left' (by decide)
          rw [hdrop]
          split
          next hnil =>
            rw [hnil, List.append_nil, if_pos (.inr rfl)]
          next hbelow =>
            rw [if_neg]
            rintro (hvariable | hempty)
            · exact hnamed (by simp [hvariable, homeVariable])
            · exact hbelow (List.append_right_eq_self.mp hempty)
        · cases hsome

theorem directoryKey_homePrefix (hostHome : Option Text) : directoryKey homePrefix hostHome = home := by
  have hkey : homeRelative homePrefix hostHome = some [] := by
    unfold homeRelative
    rw [if_neg (by decide), if_pos (by decide)]
    decide
  unfold directoryKey
  rw [if_neg (by decide), hkey]
  rfl

theorem directoryKey_home (hostHome : Option Text) : directoryKey home hostHome = home := by
  have hkey : homeRelative home hostHome = some [] := rfl
  unfold directoryKey
  rw [if_neg (by decide), hkey]
  rfl

theorem Canonical.ne_homePrefix (h : Canonical path) : path ≠ homePrefix := by
  rintro rfl
  cases h with
  | drive hform => exact absurd hform.form (by simp [homePrefix, ascii])
  | plain _ _ _ hstripped => exact absurd hstripped (by decide)

/-- A path has the directory key of its canonical form on every host where it is that form, or
`~/`. -/
theorem directoryKey_canonical (path : Text) :
    (∀ hostHome, directoryKey (canonicalisePath path) hostHome = directoryKey path hostHome) ↔
      canonicalisePath path = path ∨ path = homePrefix := by
  constructor
  · intro h
    by_cases hprefix : path = homePrefix
    · exact .inr hprefix
    refine .inl ?_
    by_cases hvariable : path = homeVariable
    · rw [hvariable]
      decide
    have hkeys := h none
    rw [directoryKey_unknown, directoryKey_unknown path, if_neg (not_or.mpr ⟨hvariable, hprefix⟩)] at hkeys
    split at hkeys
    next hspelled =>
      rcases hspelled with hspelled | hspelled
      · rw [← hkeys] at hspelled
        exact absurd hspelled (by decide)
      · exact absurd hspelled (canonicalisePath_canonical path).ne_homePrefix
    · exact hkeys
  · rintro (hself | rfl) hostHome
    · rw [hself]
    · have hhome : canonicalisePath homePrefix = home := by decide
      rw [hhome, directoryKey_home, directoryKey_homePrefix]

/-- A key that does not end in white space is found again from itself, and the directory key sees
the difference between a path and its canonical form wherever there is one. -/
theorem path_keys (path : Text) :
    (¬EndsInSpace (canonicalisePath path) →
      canonicalisePath (canonicalisePath path) = canonicalisePath path) ∧
    (∀ root, normaliseRootPath path = some root → ¬EndsInSpace root → normaliseRootPath root = some root) ∧
    ((∀ hostHome, directoryKey (canonicalisePath path) hostHome = directoryKey path hostHome) ↔
      canonicalisePath path = path ∨ path = homePrefix) :=
  ⟨canonicalisePath_self, fun _ => normaliseRootPath_self, directoryKey_canonical path⟩

theorem path_keys_home :
    canonicalisePath (canonicalisePath (ascii "~/git/")) = canonicalisePath (ascii "~/git/") ∧
    normaliseRootPath (ascii "~/git") = some (ascii "~/git") ∧
    ∀ hostHome, directoryKey (canonicalisePath (ascii "~/")) hostHome = directoryKey (ascii "~/") hostHome := by
  have hends : ∀ path, path.getLast? = some 0x74 → ¬EndsInSpace path := by
    rintro path hlast ⟨unit, hunit, hspace⟩
    cases hlast.symm.trans hunit
    exact absurd hspace (by decide)
  exact ⟨(path_keys _).1 (hends _ (by decide +kernel)),
    (path_keys (ascii "~/git/")).2.1 _ (by decide +kernel) (hends _ (by decide +kernel)),
    (path_keys _).2.2.mpr (.inr (by decide +kernel))⟩

/-- With a slash at its end a directory has another key than without. -/
theorem path_keys_slash : ¬∀ path : Text,
    canonicalisePath (canonicalisePath path) = canonicalisePath path ∧
    (∀ root, normaliseRootPath path = some root → normaliseRootPath root = some root) ∧
    ∀ hostHome, directoryKey (canonicalisePath path) hostHome = directoryKey path hostHome := by
  intro h
  have hkeys := (h (ascii "/srv/app/")).2.2 none
  exact absurd hkeys (by decide +kernel)

end PocketShell.Workspaces
