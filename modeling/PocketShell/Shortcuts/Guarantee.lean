import PocketShell.Shortcuts.Bindings

/-!
# Bindings stay consistent

* `Consistent`: no two bindings that can be pressed at one moment hold one chord, and no binding
  the user may move holds a chord that may not be bound. It holds of the map that any overrides
  resolve to.
* `replay_agree`: two maps that differ in one binding stay that way while overrides are applied,
  unless one of those overrides is for a chord of that binding.
* `bindings_consistent`: what a rebind, a reset and a load leave, after any calls.
* `reset_moves_another`: a reset takes a chord back that another binding was moved to.
-/

namespace PocketShell.Shortcuts

open Js (Text Json Raw ascii isSpace keys property assign remove)

variable {casing : Casing}

/-! ## 1. Chords of a binding -/

/-- The chords a binding has in the map. -/
def held (m : Bindings) (id : Text) : List Chord := (property id m).getD []

/-- The map has the bindings of the registry. -/
def Shaped (m : Bindings) : Prop := keys m = SHORTCUTS.map (·.id)

/-- A text as one number, which is compared in one step. -/
def numeral (text : Text) : Nat := text.foldl (fun n unit => n * 0x10000 + unit.toNat) 0

theorem ids_nodup : (SHORTCUTS.map (·.id)).Nodup := by
  have hnumerals : ((SHORTCUTS.map (·.id)).map numeral).Nodup := by decide +kernel
  exact hnumerals.of_map numeral

variable {m : Bindings}

theorem Shaped.once (h : Shaped m) : (keys m).Nodup := h ▸ ids_nodup

variable {id : Text}

theorem keys_assign {chords : List Chord} (h : id ∈ keys m) : keys (assign id chords m) = keys m := by
  induction m with
  | nil => cases h
  | cons binding rest ih =>
    obtain ⟨key, value⟩ := binding
    rw [assign]
    split
    next hk => simp [keys, hk]
    next hk =>
      have hrest : id ∈ keys rest := by
        rcases List.mem_cons.mp h with he | hmem
        · exact absurd he.symm hk
        · exact hmem
      have ih' := ih hrest
      unfold keys at ih' ⊢
      rw [List.map_cons, List.map_cons, ih']

variable {spec : ShortcutSpec}

theorem shortcutById_mem (h : shortcutById id = some spec) : spec ∈ SHORTCUTS ∧ spec.id = id :=
  ⟨List.mem_of_find?_eq_some h, by simpa using List.find?_some h⟩

theorem shortcutById_self (h : spec ∈ SHORTCUTS) : shortcutById spec.id = some spec := by
  have hsome : (shortcutById spec.id).isSome := by
    rw [shortcutById, List.find?_isSome]
    exact ⟨spec, h, by simp⟩
  obtain ⟨found, hfound⟩ := Option.isSome_iff_exists.mp hsome
  obtain ⟨hmem, hid⟩ := shortcutById_mem hfound
  rw [hfound, List.inj_on_of_nodup_map ids_nodup hmem h hid]

theorem Shaped.assign (h : Shaped m)
    (hid : shortcutById id = some spec) (chords : List Chord) : Shaped (assign id chords m) := by
  obtain ⟨hmem, rfl⟩ := shortcutById_mem hid
  have hkey : spec.id ∈ keys m := by
    rw [h]
    exact List.mem_map_of_mem hmem
  exact (keys_assign hkey).trans h

@[simp] theorem held_assign_self (m : Bindings) (id : Text) (chords : List Chord) :
    held (assign id chords m) id = chords := by simp [held]

theorem held_assign_other {id other : Text} (h : other ≠ id)
    (chords : List Chord) : held (assign id chords m) other = held m other := by
  rw [held, Js.property_assign_other h, held]

theorem Shaped.mem_held (h : Shaped m) {binding : Text × List Chord}
    (hmem : binding ∈ m) : held m binding.1 = binding.2 := by
  rw [held, (Js.property_eq_some h.once).mpr hmem]
  rfl

theorem Shaped.held_mem (h : Shaped m) (hmem : spec ∈ SHORTCUTS) : (spec.id, held m spec.id) ∈ m := by
  have hkey : spec.id ∈ keys m := by
    rw [h]
    exact List.mem_map_of_mem hmem
  cases hp : property spec.id m with
  | none => exact absurd hkey (Js.property_eq_none.mp hp)
  | some chords =>
    have hheld : held m spec.id = chords := by simp [held, hp]
    rw [hheld]
    exact Js.mem_of_property hp

/-! ## 2. What the validator lets through -/

theorem rivals_symm (spec other : ShortcutSpec) : rivals spec other = rivals other spec := by
  have hladders : spec.ladders.any (other.ladders.contains ·) =
      other.ladders.any (spec.ladders.contains ·) := by
    rw [Bool.eq_iff_iff]
    simp only [List.any_eq_true, List.contains_iff_mem]
    constructor <;> rintro ⟨ladder, h, h'⟩ <;> exact ⟨ladder, h', h⟩
  rw [rivals, rivals, surfacesCollide_symm, hladders]

/-- A chord that some binding the user may move can hold. -/
structure Legal (spec : ShortcutSpec) (chord : Chord) : Prop where
  zoom : chordToString chord ∉ ZOOM_OWNED
  menu : ∀ entry ∈ MENU_CLAIMED_UNSUPPRESSIBLE, entry.chord ≠ chordToString chord
  modifier : chord.ctrl = true ∨ chord.alt = true
  reserved : reachesAShell spec.surface = true →
    ∀ entry ∈ RESERVED_CHORDS, entry.chord ≠ chordToString chord
  bareAlt : reachesAShell spec.surface = true → ¬(chord.alt = true ∧ chord.ctrl = false)

variable {chord : Chord}

theorem legal_of_refusedAlone (h : refusedAlone casing spec chord = none) : Legal spec chord := by
  unfold refusedAlone at h
  dsimp only at h
  split at h
  · cases h
  split at h
  · cases h
  next hzoom =>
    split at h
    · cases h
    next hmenu =>
      split at h
      · cases h
      next hbare =>
        have hmodifier : chord.ctrl = true ∨ chord.alt = true := by
          cases hc : chord.ctrl <;> cases ha : chord.alt <;> simp_all
        have hmenu' : ∀ entry ∈ MENU_CLAIMED_UNSUPPRESSIBLE, entry.chord ≠ chordToString chord := by
          simpa using List.find?_eq_none.mp hmenu
        have hzoom' : chordToString chord ∉ ZOOM_OWNED := by simpa using hzoom
        split at h
        next hshell =>
          split at h
          · cases h
          next hreserved =>
            split at h
            · cases h
            next halt =>
              refine ⟨hzoom', hmenu', hmodifier, fun _ => ?_, fun _ => ?_⟩
              · simpa using List.find?_eq_none.mp hreserved
              · simpa using halt
        next hshell =>
          exact ⟨hzoom', hmenu', hmodifier, fun hr => absurd hr hshell, fun hr => absurd hr hshell⟩

/-- The validator says yes. -/
theorem validateBinding_none (hm : Shaped m) : validateBinding casing id chord m = none ↔
      ∃ spec, shortcutById id = some spec ∧ spec.rebindable = true ∧
        refusedAlone casing spec chord = none ∧
        ∀ other ∈ SHORTCUTS, clashes spec id chord (other.id, held m other.id) = false := by
  have hclash : ∀ spec : ShortcutSpec, (m.find? (clashes spec id chord)).map Prod.fst = none ↔
      ∀ other ∈ SHORTCUTS, clashes spec id chord (other.id, held m other.id) = false := by
    intro spec
    rw [Option.map_eq_none_iff, List.find?_eq_none]
    constructor
    · intro h other hother
      simpa using h _ (hm.held_mem hother)
    · intro h binding hbinding
      have hkey : binding.1 ∈ SHORTCUTS.map (·.id) := hm ▸ List.mem_map_of_mem hbinding
      obtain ⟨other, hother, hid⟩ := List.mem_map.mp hkey
      have hfree := h other hother
      rw [hid, hm.mem_held hbinding] at hfree
      simp [hfree]
  unfold validateBinding
  cases hs : shortcutById id with
  | none => simp
  | some spec =>
    cases hr : spec.rebindable with
    | false => simp [hr]
    | true =>
      cases ha : refusedAlone casing spec chord with
      | some refusal => simp [hr, ha]
      | none =>
        have hconflict : conflictingBinding id chord m =
            (m.find? (clashes spec id chord)).map Prod.fst := by
          simp [conflictingBinding, hs]
        cases hc : conflictingBinding id chord m with
        | none =>
          rw [hconflict, hclash] at hc
          simpa [hr, ha] using hc
        | some clash =>
          rw [hconflict] at hc
          have hnot := mt (hclash spec).mpr (by rw [hc]; simp)
          simpa [hr, ha] using hnot

/-- One override: it changes its own binding to the chord it reads as, or nothing. -/
theorem applyOverride_cases (casing : Casing) (m : Bindings) (entry : Text × Text) :
    (∃ spec chord, shortcutById entry.1 = some spec ∧ parseChord casing entry.2 = some chord ∧
      validateBinding casing entry.1 chord m = none ∧
      applyOverride casing m entry = assign entry.1 [chord] m) ∨
    applyOverride casing m entry = m := by
  unfold applyOverride
  cases hs : shortcutById entry.1 with
  | none => exact .inr rfl
  | some spec =>
    cases hr : spec.rebindable with
    | false => exact .inr (by simp [hr])
    | true =>
      cases hp : parseChord casing entry.2 with
      | none => exact .inr (by simp)
      | some chord =>
        cases hv : validateBinding casing entry.1 chord m with
        | none => exact .inl ⟨spec, chord, rfl, rfl, hv, by simp [hr, hv]⟩
        | some refusal => exact .inr (by simp [hv])

theorem applyOverride_valid (hm : Shaped m) {entry : Text × Text}
    (hp : parseChord casing entry.2 = some chord)
    (hv : validateBinding casing entry.1 chord m = none) :
    applyOverride casing m entry = assign entry.1 [chord] m := by
  obtain ⟨spec, hs, hr, -, -⟩ := (validateBinding_none hm).mp hv
  unfold applyOverride
  simp [hs, hr, hp, hv]

theorem Shaped.apply (hm : Shaped m) (entry : Text × Text) : Shaped (applyOverride casing m entry) := by
  rcases applyOverride_cases casing m entry with ⟨spec, chord, hs, -, -, heq⟩ | heq <;> rw [heq]
  · exact hm.assign hs [chord]
  · exact hm

/-- The overrides of `entries`, one after another. -/
def replay (casing : Casing) (m : Bindings) (entries : List (Text × Text)) : Bindings :=
  entries.foldl (applyOverride casing) m

theorem Shaped.replay (hm : Shaped m) (entries : List (Text × Text)) :
    Shaped (replay casing m entries) := by
  induction entries generalizing m with
  | nil => exact hm
  | cons entry rest ih => exact ih (hm.apply entry)

theorem held_apply_other {entry : Text × Text} (h : id ≠ entry.1) :
    held (applyOverride casing m entry) id = held m id := by
  rcases applyOverride_cases casing m entry with ⟨-, chord, -, -, -, heq⟩ | heq <;> rw [heq]
  exact held_assign_other h _

variable {entries : List (Text × Text)}

theorem held_replay_other (h : id ∉ keys entries) : held (replay casing m entries) id = held m id := by
  induction entries generalizing m with
  | nil => rfl
  | cons entry rest ih =>
    obtain ⟨hentry, hrest⟩ := not_or.mp (mt List.mem_cons.mpr h)
    exact (ih hrest).trans (held_apply_other hentry)

/-! ## 3. The map is consistent -/

/-- Bindings that can be pressed together hold different chords, and those that can be moved hold
legal ones. -/
structure Consistent (m : Bindings) : Prop where
  apart : ∀ spec ∈ SHORTCUTS, ∀ other ∈ SHORTCUTS, spec.id ≠ other.id → rivals spec other = true →
    ∀ c ∈ held m spec.id, ∀ d ∈ held m other.id, chordToString c ≠ chordToString d
  legal : ∀ spec ∈ SHORTCUTS, spec.rebindable = true → ∀ c ∈ held m spec.id, Legal spec c

/-- No clash: the two are one binding, they are not rivals, or the chords differ. -/
theorem clashes_false {spec other : ShortcutSpec} (hother : other ∈ SHORTCUTS) {chords : List Chord} :
    clashes spec id chord (other.id, chords) = false ↔
      (other.id ≠ id → rivals spec other = true →
        ∀ c ∈ chords, chordToString c ≠ chordToString chord) := by
  simp only [clashes, shortcutById_self hother]
  by_cases hid : other.id = id
  · simp [hid]
  · cases hr : rivals spec other <;> simp [hid]

theorem Consistent.assign (h : Consistent m) (hm : Shaped m)
    (hv : validateBinding casing id chord m = none) :
    Consistent (assign id [chord] m) := by
  obtain ⟨spec, hs, -, halone, hfree⟩ := (validateBinding_none hm).mp hv
  obtain ⟨hmem, rfl⟩ := shortcutById_mem hs
  have hnew : ∀ other ∈ SHORTCUTS, spec.id ≠ other.id → rivals spec other = true →
      ∀ d ∈ held m other.id, chordToString d ≠ chordToString chord :=
    fun other hother hne hr => (clashes_false hother).mp (hfree other hother) (Ne.symm hne) hr
  constructor
  · intro a ha b hb hne hr c hc d hd
    by_cases hia : a.id = spec.id
    · cases List.inj_on_of_nodup_map ids_nodup ha hmem hia
      rw [held_assign_self] at hc
      rw [held_assign_other (Ne.symm hne)] at hd
      cases List.mem_singleton.mp hc
      exact (hnew b hb hne hr d hd).symm
    · by_cases hib : b.id = spec.id
      · cases List.inj_on_of_nodup_map ids_nodup hb hmem hib
        rw [held_assign_self] at hd
        rw [held_assign_other hne] at hc
        cases List.mem_singleton.mp hd
        exact hnew a ha (Ne.symm hne) (by rw [rivals_symm]; exact hr) c hc
      · rw [held_assign_other hia] at hc
        rw [held_assign_other hib] at hd
        exact h.apart a ha b hb hne hr c hc d hd
  · intro a ha hr c hc
    by_cases hia : a.id = spec.id
    · cases List.inj_on_of_nodup_map ids_nodup ha hmem hia
      rw [held_assign_self] at hc
      cases List.mem_singleton.mp hc
      exact legal_of_refusedAlone halone
    · rw [held_assign_other hia] at hc
      exact h.legal a ha hr c hc

theorem Consistent.replay (h : Consistent m) (hm : Shaped m)
    (entries : List (Text × Text)) : Consistent (replay casing m entries) := by
  induction entries generalizing m with
  | nil => exact h
  | cons entry rest ih =>
    refine ih ?_ (hm.apply entry)
    rcases applyOverride_cases casing m entry with ⟨-, chord, -, -, hv, heq⟩ | heq <;> rw [heq]
    · exact h.assign hm hv
    · exact h

/-! ## 4. The shipped defaults -/

theorem capitals : ∀ n < 26, isSpace (UInt16.ofNat (65 + n)) = false ∧
    UInt16.ofNat (65 + n) ≠ plus ∧ upperUnit (UInt16.ofNat (65 + n)) = UInt16.ofNat (65 + n) := by
  decide

theorem upperUnit_cases (unit : UInt16) :
    upperUnit unit = unit ∨ ∃ n < 26, upperUnit unit = UInt16.ofNat (65 + n) := by
  unfold upperUnit
  split
  next hsmall =>
    simp only [Bool.and_eq_true, decide_eq_true_eq, UInt16.le_iff_toNat_le,
      UInt16.reduceToNat] at hsmall
    refine .inr ⟨unit.toNat - 97, by omega, UInt16.toNat_inj.mp ?_⟩
    have hle : (0x20 : UInt16) ≤ unit := by
      simp only [UInt16.le_iff_toNat_le, UInt16.reduceToNat]
      omega
    rw [UInt16.toNat_sub_of_le _ _ hle, UInt16.toNat_ofNat_of_lt' (by
      simp only [UInt16.size]
      omega)]
    simp only [UInt16.reduceToNat]
    omega
  next => exact .inl rfl

/-- The casing of a text in ASCII. -/
def Casing.plain : Casing where
  toUpperCase text := text.map upperUnit
  ofAscii _ _ := rfl
  again text := by
    rw [List.map_map]
    refine List.map_congr_left fun unit _ => ?_
    show upperUnit (upperUnit unit) = upperUnit unit
    rcases upperUnit_cases unit with h | ⟨n, hn, h⟩ <;> rw [h]
    · exact h
    · exact (capitals n hn).2.2
  kept text h := List.map_eq_nil_iff.mp h
  marks text unit h hmark := by
    obtain ⟨other, hother, rfl⟩ := List.mem_map.mp h
    rcases upperUnit_cases other with hsame | ⟨n, hn, hupper⟩
    · rw [hsame]
      exact hother
    · rw [hupper] at hmark
      obtain ⟨hspace, hplus, -⟩ := capitals n hn
      rcases hmark with hmark | hmark
      · rw [hspace] at hmark
        cases hmark
      · exact absurd hmark hplus

/-- A trimmed text is part of the text. -/
theorem trim_sublist (text : Text) : (Js.trim text).Sublist text :=
  (List.rdropWhile_prefix isSpace _).sublist.trans (List.dropWhile_suffix _).sublist

theorem parseChord_ascii {raw : Text} (h : raw.all (· < 0x80) = true) :
    parseChord casing raw = parseChord .plain raw := by
  unfold parseChord
  dsimp only
  split
  · rfl
  · split
    · rfl
    next held rest hpeel =>
      have hrest : rest.all (· < 0x80) = true := by
        have hsub := (peel_suffix hpeel).1.sublist.trans (trim_sublist raw)
        rw [List.all_eq_true] at h ⊢
        exact fun unit hunit => h unit (hsub.subset hunit)
      have hkey : canonicalKey casing rest = canonicalKey .plain rest := by
        simp only [canonicalKey, casing.ofAscii rest hrest, Casing.plain]
      rw [hkey]

/-- Every default is spelled as it is read. -/
theorem defaults_spelled : ∀ spec ∈ SHORTCUTS, ∀ raw ∈ spec.defaults,
    raw.all (· < 0x80) = true ∧ (parseChord .plain raw).map chordToString = some raw := by
  decide +kernel

/-- Two bindings that are pressed at one moment have no default in common. -/
abbrev DefaultsApart (spec other : ShortcutSpec) : Prop :=
  rivals spec other = true → ∀ a ∈ spec.defaults.map numeral, ∀ b ∈ other.defaults.map numeral, a ≠ b

instance : Std.Symm DefaultsApart where
  symm spec other h hrival a ha b hb hab :=
    h ((rivals_symm spec other).trans hrival) b hb a ha hab.symm

theorem defaults_apart : ∀ spec ∈ SHORTCUTS, ∀ other ∈ SHORTCUTS, spec.id ≠ other.id →
    rivals spec other = true → ∀ a ∈ spec.defaults, ∀ b ∈ other.defaults, a ≠ b := by
  have hpairwise : SHORTCUTS.Pairwise DefaultsApart := by decide +kernel
  intro spec hspec other hother hne hrival a ha b hb hab
  have hapart : DefaultsApart spec other :=
    hpairwise.forall hspec hother fun he => hne (congrArg ShortcutSpec.id he)
  exact hapart hrival _ (List.mem_map_of_mem ha) _ (List.mem_map_of_mem hb) (congrArg numeral hab)

/-- The validator would let every default of a binding that can be moved stand. -/
theorem defaults_legal : ∀ spec ∈ SHORTCUTS, spec.rebindable = true → ∀ raw ∈ spec.defaults,
    ∀ chord ∈ parseChord .plain raw, refusedAlone .plain spec chord = none := by
  decide +kernel

theorem shaped_default : Shaped (defaultBindings casing) := by
  simp [Shaped, defaultBindings, keys]

theorem held_default (h : spec ∈ SHORTCUTS) :
    held (defaultBindings casing) spec.id = spec.defaults.filterMap (parseChord casing) :=
  shaped_default.mem_held (List.mem_map_of_mem (f := fun spec : ShortcutSpec =>
    (spec.id, spec.defaults.filterMap (parseChord casing))) h)

/-- A default chord is read of its own spelling, with any casing. -/
theorem mem_default (h : spec ∈ SHORTCUTS) (hmem : chord ∈ held (defaultBindings casing) spec.id) :
    chordToString chord ∈ spec.defaults ∧ parseChord .plain (chordToString chord) = some chord := by
  rw [held_default h] at hmem
  obtain ⟨raw, hraw, hparse⟩ := List.mem_filterMap.mp hmem
  obtain ⟨hascii, hspelled⟩ := defaults_spelled spec h raw hraw
  rw [parseChord_ascii hascii] at hparse
  rw [hparse] at hspelled
  cases hspelled
  exact ⟨hraw, hparse⟩

theorem consistent_default : Consistent (defaultBindings casing) := by
  constructor
  · intro spec hspec other hother hne hr c hc d hd
    exact defaults_apart spec hspec other hother hne hr _ (mem_default hspec hc).1 _
      (mem_default hother hd).1
  · intro spec hspec hr c hc
    obtain ⟨hmem, hparse⟩ := mem_default hspec hc
    exact legal_of_refusedAlone (defaults_legal spec hspec hr _ hmem c hparse)

/-! ## 5. Maps that differ in one binding -/

/-- The two maps agree on every binding but `id`. -/
def Agree (id : Text) (m m' : Bindings) : Prop := ∀ other, other ≠ id → held m other = held m' other

/-- No clash with the chords that `id` has in the map. -/
def Free (spec : ShortcutSpec) (key : Text) (chord : Chord) (id : Text) (m : Bindings) : Prop :=
  clashes spec key chord (id, held m id) = false

/-- What is accepted in one map is accepted in the other, if it does not clash there with the
binding in which they differ. -/
theorem Agree.valid {m m' : Bindings} (h : Agree id m m') (hm : Shaped m) (hm' : Shaped m') {key : Text}
    (hs : shortcutById key = some spec) (hfree : Free spec key chord id m')
    (hv : validateBinding casing key chord m = none) :
    validateBinding casing key chord m' = none := by
  obtain ⟨spec', hs', hr, halone, hclash⟩ := (validateBinding_none hm).mp hv
  cases hs.symm.trans hs'
  refine (validateBinding_none hm').mpr ⟨spec, hs, hr, halone, fun other hother => ?_⟩
  by_cases hid : other.id = id
  · rw [hid]
    exact hfree
  · rw [← h other.id hid]
    exact hclash other hother

theorem Agree.symm {m m' : Bindings} (h : Agree id m m') : Agree id m' m :=
  fun other hne => (h other hne).symm

theorem Agree.assign {m m' : Bindings} (h : Agree id m m') (key : Text)
    (chords : List Chord) : Agree id (assign key chords m) (assign key chords m') := by
  intro other hne
  by_cases hk : other = key
  · rw [hk, held_assign_self, held_assign_self]
  · rw [held_assign_other hk, held_assign_other hk, h other hne]

/-- The overrides of other bindings keep two maps in agreement, when none of them is for a chord
that the one map has for `id`, and none that stands clashes with what the other has for it. -/
theorem replay_agree (hnodup : (keys entries).Nodup)
    (hid : id ∉ keys entries) : ∀ {m m' : Bindings}, Shaped m → Shaped m' → Agree id m m' →
    (∀ entry ∈ entries, ∀ spec chord, shortcutById entry.1 = some spec →
      parseChord casing entry.2 = some chord → Free spec entry.1 chord id m ∧
        (held (replay casing m entries) entry.1 = [chord] → Free spec entry.1 chord id m')) →
    Agree id (replay casing m entries) (replay casing m' entries) := by
  induction entries with
  | nil => exact fun _ _ hagree _ => hagree
  | cons entry rest ih =>
    intro m m' hm hm' hagree hfree
    obtain ⟨hentry, hrest⟩ := List.nodup_cons.mp hnodup
    obtain ⟨hidentry, hidrest⟩ := not_or.mp (mt List.mem_cons.mpr hid)
    have hnext : Agree id (applyOverride casing m entry) (applyOverride casing m' entry) := by
      rcases applyOverride_cases casing m entry with ⟨spec, chord, hs, hp, hv, heq⟩ | heq
      · have hstands : held (replay casing m (entry :: rest)) entry.1 = [chord] := by
          show held (replay casing (applyOverride casing m entry) rest) entry.1 = _
          rw [held_replay_other hentry, heq, held_assign_self]
        have hfree' := (hfree entry List.mem_cons_self spec chord hs hp).2 hstands
        rw [heq, applyOverride_valid hm' hp (hagree.valid hm hm' hs hfree' hv)]
        exact hagree.assign entry.1 [chord]
      · rcases applyOverride_cases casing m' entry with ⟨spec, chord, hs, hp, hv', heq'⟩ | heq'
        · have hfree' := (hfree entry List.mem_cons_self spec chord hs hp).1
          have hv := hagree.symm.valid hm' hm hs hfree' hv'
          rw [applyOverride_valid hm hp hv, heq']
          exact hagree.assign entry.1 [chord]
        · rw [heq, heq']
          exact hagree
    refine ih hrest hidrest (hm.apply entry) (hm'.apply entry) hnext fun e he spec chord hs hp => ?_
    obtain ⟨hone, hother⟩ := hfree e (List.mem_cons_of_mem _ he) spec chord hs hp
    unfold Free at hone hother ⊢
    rw [held_apply_other hidentry, held_apply_other hidentry]
    exact ⟨hone, hother⟩

/-! ## 6. What a call leaves -/

/-- The overrides that were stored after that of `id`, none if it has none. -/
def storedAfter (entries : List (Text × Text)) (id : Text) : List (Text × Text) :=
  (entries.dropWhile (·.1 ≠ id)).tail

theorem split_entries (h : id ∈ keys entries) (hn : (keys entries).Nodup) :
    ∃ before raw, entries = before ++ (id, raw) :: storedAfter entries id ∧
      (∀ value, assign id value entries = before ++ (id, value) :: storedAfter entries id) ∧
      remove id entries = before ++ storedAfter entries id := by
  induction entries with
  | nil => cases h
  | cons entry rest ih =>
    obtain ⟨key, value⟩ := entry
    obtain ⟨hkey, hrest⟩ := List.nodup_cons.mp hn
    by_cases hk : key = id
    · subst hk
      have hafter : storedAfter ((key, value) :: rest) key = rest := by simp [storedAfter]
      have hremove : remove key ((key, value) :: rest) = rest := by
        have hall : rest.filter (·.1 ≠ key) = rest := by
          refine List.filter_eq_self.mpr fun e he => ?_
          have hne : e.1 ≠ key := by
            rintro rfl
            exact hkey (List.mem_map.mpr ⟨e, he, rfl⟩)
          simp [hne]
        rw [remove, List.filter_cons, hall]
        simp
      rw [hafter, hremove]
      exact ⟨[], value, rfl, fun v => by simp [assign], rfl⟩
    · have hmem : id ∈ keys rest := by
        rcases List.mem_cons.mp h with he | he
        · exact absurd he.symm hk
        · exact he
      obtain ⟨before, raw, heq, hassign, hremove⟩ := ih hmem hrest
      have hafter : storedAfter ((key, value) :: rest) id = storedAfter rest id := by
        simp [storedAfter, hk]
      rw [hafter]
      refine ⟨(key, value) :: before, raw, by rw [List.cons_append, ← heq], fun v => ?_, ?_⟩
      · rw [assign, if_neg hk, hassign, List.cons_append]
      · rw [List.cons_append, ← hremove]
        simp [remove, hk]

variable (casing)

/-- No override stored after that of `id` is for one of `chords`, on a surface that collides with
that of `id`. -/
def NoneWants (o : Overrides) (id : Text) (chords : List Chord) : Prop :=
  ∀ entry ∈ storedAfter o.entries id, ∀ spec chord, shortcutById entry.1 = some spec →
    parseChord casing entry.2 = some chord → clashes spec entry.1 chord (id, chords) = false

/-- No binding whose override was stored after that of `id` has `chord` by default, on a surface
that collides with that of `id`. -/
def NoneHad (o : Overrides) (id : Text) (chord : Chord) : Prop :=
  ∀ entry ∈ storedAfter o.entries id, ∀ spec, shortcutById id = some spec →
    clashes spec id chord (entry.1, held (defaultBindings casing) entry.1) = false

variable {N : Type}

/-- A chord that is bound is read again from its spelling, it is not the default chord of a
binding moved later, and no override stored later waits for the chord that is given up. After a
reset none of those is for the default chord that comes back either. -/
def Careful (o : Overrides) : Action N → Prop
  | .rebindShortcut id chord => Readable casing chord ∧ NoneHad casing o id chord ∧
      NoneWants casing o id (held (resolveBindings casing o.entries) id)
  | .resetShortcut id => NoneWants casing o id (held (resolveBindings casing o.entries) id) ∧
      NoneWants casing o id (held (defaultBindings casing) id)
  | _ => True

/-- A rebind that succeeds takes effect and touches no other binding, a reset touches no other
binding, and what was stored loads as the same map. -/
def Keeps (o : Overrides) : Action N → Prop
  | .rebindShortcut id chord => ∀ o', rebindShortcut casing o id chord = (o', none) →
      held (resolveBindings casing o'.entries) id = [chord] ∧
        Agree id (resolveBindings casing o.entries) (resolveBindings casing o'.entries)
  | .resetShortcut id =>
      Agree id (resolveBindings casing o.entries)
        (resolveBindings casing (resetShortcut o id).entries)
  | .reload =>
      resolveBindings casing (loadOverrides casing (some (o.toJson (N := N)))).entries =
        resolveBindings casing o.entries
  | _ => True

variable {casing}

theorem resolve_append (before after : List (Text × Text)) :
    resolveBindings casing (before ++ after) =
      replay casing (resolveBindings casing before) after := by
  simp [resolveBindings, replay]

theorem shaped_resolve (entries : List (Text × Text)) : Shaped (resolveBindings casing entries) :=
  shaped_default.replay entries

theorem consistent_resolve (entries : List (Text × Text)) :
    Consistent (resolveBindings casing entries) :=
  consistent_default.replay shaped_default entries

/-- Clashing goes both ways. -/
theorem clashes_symm {spec other : ShortcutSpec} (hspec : spec ∈ SHORTCUTS)
    (hother : other ∈ SHORTCUTS) {c d : Chord}
    (h : clashes spec spec.id c (other.id, [d]) = false) :
    clashes other other.id d (spec.id, [c]) = false := by
  rw [clashes_false hother] at h
  rw [clashes_false hspec]
  intro hne hr e he
  cases List.mem_singleton.mp he
  exact (h (Ne.symm hne) (by rw [rivals_symm]; exact hr) d List.mem_cons_self).symm

variable {before after : List (Text × Text)}

theorem keys_split {id raw : Text} (h : (keys (before ++ (id, raw) :: after)).Nodup) :
    id ∉ keys before ∧ id ∉ keys after ∧ (keys after).Nodup ∧
      ∀ key ∈ keys after, key ∉ keys before := by
  rw [keys, List.map_append, List.map_cons, List.nodup_append] at h
  obtain ⟨-, hcons, hdisjoint⟩ := h
  obtain ⟨hid, hafter⟩ := List.nodup_cons.mp hcons
  exact ⟨fun hb => hdisjoint id hb id List.mem_cons_self rfl, hid, hafter,
    fun key hkey hb => hdisjoint key hb key (List.mem_cons_of_mem _ hkey) rfl⟩

/-- The overrides before that of `id` leave it its default. -/
theorem held_before {before : List (Text × Text)} (h : id ∉ keys before) :
    held (resolveBindings casing before) id = held (defaultBindings casing) id :=
  held_replay_other h

/-- The chord that is valid in the end was valid in the place of the override. -/
theorem valid_in_place {id raw : Text} (hn : (keys (before ++ (id, raw) :: after)).Nodup)
    (hhad : ∀ entry ∈ after, ∀ spec, shortcutById id = some spec →
      clashes spec id chord (entry.1, held (defaultBindings casing) entry.1) = false)
    (hv : validateBinding casing id chord
      (resolveBindings casing (before ++ (id, raw) :: after)) = none) :
    validateBinding casing id chord (resolveBindings casing before) = none := by
  obtain ⟨-, -, -, hdisjoint⟩ := keys_split hn
  obtain ⟨spec, hs, hr, halone, hclash⟩ := (validateBinding_none (shaped_resolve _)).mp hv
  refine (validateBinding_none (shaped_resolve _)).mpr ⟨spec, hs, hr, halone, fun other hother => ?_⟩
  by_cases hid : other.id = id
  · simp [clashes, hid]
  · by_cases hlater : other.id ∈ keys after
    · obtain ⟨entry, hentry, hkey⟩ := List.mem_map.mp hlater
      have hfree := hhad entry hentry spec hs
      rw [hkey] at hfree
      rw [held_before (hdisjoint _ hlater)]
      exact hfree
    · have hsame : held (resolveBindings casing (before ++ (id, raw) :: after)) other.id =
          held (resolveBindings casing before) other.id := by
        rw [resolve_append]
        refine held_replay_other fun hmem => ?_
        rcases List.mem_cons.mp hmem with he | he
        · exact hid he
        · exact hlater he
      rw [← hsame]
      exact hclash other hother

/-- **Rebind.** -/
theorem rebind_keeps {o : Overrides} (hread : Readable casing chord) (hhad : NoneHad casing o id chord)
    (hwants : NoneWants casing o id (held (resolveBindings casing o.entries) id))
    (hv : validateBinding casing id chord (resolveBindings casing o.entries) = none) :
    held (resolveBindings casing (assign id (chordToString chord) o.entries)) id = [chord] ∧
      Agree id (resolveBindings casing o.entries)
        (resolveBindings casing (assign id (chordToString chord) o.entries)) := by
  obtain ⟨spec, hs, hr, halone, hclash⟩ := (validateBinding_none (shaped_resolve _)).mp hv
  by_cases hmem : id ∈ keys o.entries
  · obtain ⟨before, raw, heq, hassign, -⟩ := split_entries hmem o.once
    unfold NoneHad at hhad
    unfold NoneWants at hwants
    have hn := o.once
    rw [hassign]
    generalize storedAfter o.entries id = after at *
    rw [heq] at hn hv hwants hclash ⊢
    obtain ⟨hbefore, hafter, hnodup, hdisjoint⟩ := keys_split hn
    have hplace := valid_in_place hn hhad hv
    have happly : applyOverride casing (resolveBindings casing before) (id, chordToString chord) =
        assign id [chord] (resolveBindings casing before) :=
      applyOverride_valid (shaped_resolve _) hread hplace
    have hheld : held (applyOverride casing (resolveBindings casing before) (id, raw)) id =
        held (resolveBindings casing (before ++ (id, raw) :: after)) id := by
      rw [resolve_append]
      exact (held_replay_other hafter).symm
    have hstart : Agree id (applyOverride casing (resolveBindings casing before) (id, raw))
        (assign id [chord] (resolveBindings casing before)) := by
      intro other hne
      rw [held_apply_other hne, held_assign_other hne]
    have hshaped : Shaped (assign id [chord] (resolveBindings casing before)) :=
      happly ▸ (shaped_resolve before).apply _
    rw [resolve_append, resolve_append]
    show held (replay casing (applyOverride casing _ (id, chordToString chord)) after) id = _ ∧
      Agree id (replay casing (applyOverride casing _ (id, raw)) after)
        (replay casing (applyOverride casing _ (id, chordToString chord)) after)
    rw [happly]
    refine ⟨by rw [held_replay_other hafter, held_assign_self], ?_⟩
    refine replay_agree hnodup hafter ((shaped_resolve before).apply _) hshaped hstart
      fun entry hentry other c hother hp => ⟨?_, fun hstands => ?_⟩
    · unfold Free
      rw [hheld]
      exact hwants entry hentry other c hother hp
    · obtain ⟨hspecmem, rfl⟩ := shortcutById_mem hs
      obtain ⟨hothermem, hotherid⟩ := shortcutById_mem hother
      unfold Free
      rw [held_assign_self, ← hotherid]
      refine clashes_symm hspecmem hothermem ?_
      have hfree := hclash other hothermem
      rw [resolve_append] at hfree
      have hfinal : held (replay casing (resolveBindings casing before)
          ((spec.id, raw) :: after)) other.id = [c] := by
        rw [hotherid]
        exact hstands
      rw [hfinal] at hfree
      exact hfree
  · rw [Js.assign_new hmem, resolve_append]
    have happly : replay casing (resolveBindings casing o.entries) [(id, chordToString chord)] =
        assign id [chord] (resolveBindings casing o.entries) :=
      applyOverride_valid (shaped_resolve _) hread hv
    rw [happly]
    exact ⟨held_assign_self _ _ _, fun other hne => (held_assign_other hne _).symm⟩

/-- **Reset.** -/
theorem reset_keeps {o : Overrides}
    (hwants : NoneWants casing o id (held (resolveBindings casing o.entries) id))
    (hback : NoneWants casing o id (held (defaultBindings casing) id)) :
    Agree id (resolveBindings casing o.entries)
      (resolveBindings casing (resetShortcut o id).entries) := by
  unfold resetShortcut
  split
  case isFalse => exact fun _ _ => rfl
  case isTrue hsome =>
    have hmem : id ∈ keys o.entries := by
      by_contra hnot
      rw [Js.property_eq_none.mpr hnot] at hsome
      cases hsome
    obtain ⟨before, raw, heq, -, hremove⟩ := split_entries hmem o.once
    unfold NoneWants at hwants hback
    have hn := o.once
    show Agree id _ (resolveBindings casing (remove id o.entries))
    rw [hremove]
    generalize storedAfter o.entries id = after at *
    rw [heq] at hn hwants ⊢
    obtain ⟨hbefore, hafter, hnodup, -⟩ := keys_split hn
    have hheld : held (applyOverride casing (resolveBindings casing before) (id, raw)) id =
        held (resolveBindings casing (before ++ (id, raw) :: after)) id := by
      rw [resolve_append]
      exact (held_replay_other hafter).symm
    rw [resolve_append, resolve_append]
    refine replay_agree hnodup hafter ((shaped_resolve before).apply _) (shaped_resolve before)
      (fun other hne => held_apply_other hne) fun entry hentry other c hother hp =>
        ⟨?_, fun _ => ?_⟩
    · unfold Free
      rw [hheld]
      exact hwants entry hentry other c hother hp
    · unfold Free
      rw [held_before hbefore]
      exact hback entry hentry other c hother hp

/-- What is kept of the overrides that are loaded. -/
def keptEntry (casing : Casing) (entry : Text × Text) : Option (Text × Text) :=
  match shortcutById entry.1 with
  | none => none
  | some spec =>
    if !spec.rebindable then none
    else (parseChord casing entry.2).map fun chord => (entry.1, chordToString chord)

theorem keptEntry_key {entry kept : Text × Text} (h : keptEntry casing entry = some kept) :
    kept.1 = entry.1 := by
  unfold keptEntry at h
  split at h
  · cases h
  · split at h
    · cases h
    · obtain ⟨chord, -, rfl⟩ := Option.map_eq_some_iff.mp h
      rfl

theorem keepEntry_str (out : Overrides) (entry : Text × Text) :
    keepEntry casing out (entry.1, (Raw.str entry.2 : Raw N)) =
      match keptEntry casing entry with
      | none => out
      | some kept => out.set kept.1 kept.2 := by
  unfold keepEntry keptEntry
  dsimp only
  cases shortcutById entry.1 with
  | none => rfl
  | some spec =>
    cases hr : spec.rebindable with
    | false => simp [hr]
    | true =>
      cases parseChord casing entry.2 with
      | none => simp [hr]
      | some chord => simp [hr]

/-- An entry that is kept has the same effect as the one that was stored. -/
theorem apply_kept (m : Bindings) (entry : Text × Text) :
    (keptEntry casing entry).elim m (applyOverride casing m) = applyOverride casing m entry := by
  unfold keptEntry
  cases hs : shortcutById entry.1 with
  | none => simp [applyOverride, hs]
  | some spec =>
    cases hr : spec.rebindable with
    | false => simp [applyOverride, hs, hr]
    | true =>
      cases hp : parseChord casing entry.2 with
      | none => simp [applyOverride, hs, hr, hp]
      | some chord =>
        have hagain : parseChord casing (chordToString chord) = some chord := readable_parse hp
        simp [applyOverride, hs, hr, hp, hagain]

theorem replay_kept (entries : List (Text × Text)) (m : Bindings) :
    replay casing m (entries.filterMap (keptEntry casing)) = replay casing m entries := by
  induction entries generalizing m with
  | nil => rfl
  | cons entry rest ih =>
    have hstep : (keptEntry casing entry).elim m (applyOverride casing m) =
        applyOverride casing m entry := apply_kept m entry
    show _ = replay casing (applyOverride casing m entry) rest
    rw [← hstep]
    cases hk : keptEntry casing entry with
    | none => rw [List.filterMap_cons_none hk, ih]; rfl
    | some kept => rw [List.filterMap_cons_some hk]; exact ih _

/-- A load keeps the entries in their order. -/
theorem load_entries (hn : (keys entries).Nodup) :
    ∀ out : Overrides, (∀ key ∈ keys entries, key ∉ keys out.entries) →
      ((entries.map fun entry => (entry.1, (Raw.str entry.2 : Raw N))).foldl
        (keepEntry casing) out).entries = out.entries ++ entries.filterMap (keptEntry casing) := by
  induction entries with
  | nil => simp
  | cons entry rest ih =>
    intro out hout
    obtain ⟨hkey, hrest⟩ := List.nodup_cons.mp hn
    rw [List.map_cons, List.foldl_cons, keepEntry_str]
    cases hk : keptEntry casing entry with
    | none =>
      rw [List.filterMap_cons_none hk]
      exact ih hrest out fun key hmem => hout key (List.mem_cons_of_mem _ hmem)
    | some kept =>
      have hkept := keptEntry_key hk
      have hnew : kept.1 ∉ keys out.entries := hkept ▸ hout entry.1 List.mem_cons_self
      rw [List.filterMap_cons_some hk]
      dsimp only
      rw [ih hrest]
      · show Js.assign kept.1 kept.2 out.entries ++ _ = _
        rw [Js.assign_new hnew, List.append_assoc]
        rfl
      · intro key hmem hin
        rcases Js.mem_keys_assign.mp hin with he | hin
        · exact hkey (hkept ▸ he ▸ hmem)
        · exact hout key (List.mem_cons_of_mem _ hmem) hin

/-- **Reload.** -/
theorem reload_keeps (o : Overrides) :
    resolveBindings casing (loadOverrides casing (some (o.toJson (N := N)))).entries =
      resolveBindings casing o.entries := by
  have hload : (loadOverrides casing (some (o.toJson (N := N)))).entries =
      o.entries.filterMap (keptEntry casing) :=
    load_entries o.once .empty (by simp [Overrides.empty, keys])
  rw [hload]
  exact replay_kept o.entries _

/-- After any loads, rebinds and resets the map in force is consistent, and a careful call does
what it says. -/
theorem bindings_consistent (casing : Casing) (actions : List (Action N)) :
    Consistent (resolveBindings casing (run casing actions).entries) ∧
      ∀ action : Action N, Careful casing (run casing actions) action →
        Keeps casing (run casing actions) action := by
  refine ⟨consistent_resolve _, fun action hc => ?_⟩
  cases action with
  | load stored => trivial
  | reload => exact reload_keeps _
  | rebindShortcut id chord =>
    obtain ⟨hread, hhad, hwants⟩ := hc
    intro o' ho'
    unfold rebindShortcut at ho'
    split at ho'
    next => cases ho'
    next hv =>
      cases ho'
      exact rebind_keeps hread hhad hwants hv
  | resetShortcut id => exact reset_keeps hc.1 hc.2
  | resetAllShortcuts => trivial

theorem noneWants_of_all {o : Overrides} {id : Text} {chords : List Chord}
    (h : ((storedAfter o.entries id).all fun entry => (shortcutById entry.1).all fun spec =>
      (parseChord casing entry.2).all fun chord => !clashes spec entry.1 chord (id, chords)) = true) :
    NoneWants casing o id chords := by
  intro entry hentry spec chord hspec hchord
  have hall := List.all_eq_true.mp h entry hentry
  rw [hspec, hchord] at hall
  simpa using hall

theorem noneHad_of_all {o : Overrides} {id : Text} {chord : Chord}
    (h : ((storedAfter o.entries id).all fun entry => (shortcutById id).all fun spec =>
      !clashes spec id chord (entry.1, held (defaultBindings casing) entry.1)) = true) :
    NoneHad casing o id chord := by
  intro entry hentry spec hspec
  have hall := List.all_eq_true.mp h entry hentry
  rw [hspec] at hall
  simpa using hall

/-- Two bindings are moved to chords that no other has. -/
def movedAside : List (Action Empty) :=
  [.rebindShortcut (ascii "sessions.new") ⟨true, false, true, ascii "G"⟩,
    .rebindShortcut (ascii "terminal.copyScreen") ⟨true, false, true, ascii "J"⟩]

/-- The first is moved on, or reset, over the override of the second. -/
theorem bindings_consistent_aside :
    Keeps .plain (run .plain movedAside)
      (.rebindShortcut (ascii "sessions.new") ⟨true, false, true, ascii "H"⟩ : Action Empty) ∧
    Keeps .plain (run .plain movedAside) (.resetShortcut (ascii "sessions.new") : Action Empty) := by
  have hkeeps := (bindings_consistent .plain movedAside).2
  have hwants := @noneWants_of_all .plain (run .plain movedAside) (ascii "sessions.new")
  exact ⟨hkeeps _ ⟨by unfold Readable; decide +kernel, noneHad_of_all (by decide +kernel),
      hwants (by decide +kernel)⟩,
    hkeeps _ ⟨hwants (by decide +kernel), hwants (by decide +kernel)⟩⟩

/-- A binding is moved, and another one is moved to the chord that is free then. -/
def movedOver : List (Action Empty) :=
  [.rebindShortcut (ascii "sessions.new") ⟨true, false, true, ascii "G"⟩,
    .rebindShortcut (ascii "terminal.copyScreen") ⟨true, false, true, ascii "N"⟩]

/-- The reset of the first takes the chord back from the second, which falls to its default. -/
theorem reset_moves_another :
    ¬∀ (casing : Casing) (actions : List (Action Empty)) (action : Action Empty),
      Keeps casing (run casing actions) action := by
  intro h
  have hagree := h .plain movedOver (.resetShortcut (ascii "sessions.new"))
  have hsame := hagree (ascii "terminal.copyScreen") (by decide)
  exact absurd hsame (by decide +kernel)

end PocketShell.Shortcuts
