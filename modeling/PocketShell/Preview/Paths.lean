import PocketShell.Js.Uri

/-!
# Paths of the HTML preview

`previewPaths.ts`: which remote path a request of a preview names. The URL parser is a
parameter: the path of the URL that a text is.
-/

namespace PocketShell.Preview

open Js (Text ascii wellFormed encodeURIComponent decodeURIComponent isEncodedUnit)

def slash : UInt16 := 0x2f

def split (path : Text) : List Text := List.splitOn slash path

def join (segments : List Text) : Text := List.intercalate [slash] segments

/-- The loop of `normalisePosixPath`. -/
def fold (out : List Text) : List Text → Option (List Text)
  | [] => some out
  | segment :: rest =>
    if segment = [] ∨ segment = ascii "." then fold out rest
    else if segment = ascii ".." then if out = [] then none else fold out.dropLast rest
    else fold (out ++ [segment]) rest

/-- Fold `.` and `..` out of an absolute path. -/
def normalisePosixPath (path : Text) : Option Text :=
  if path.head? ≠ some slash then none
  else if (0 : UInt16) ∈ path then none
  else (fold [] (split path)).map fun out => slash :: join out

/-- What the paths below `base` begin with. -/
def inside (base : Text) : Text := if base = [slash] then [slash] else base ++ [slash]

/-- Is `path` at or beneath `root`? -/
def containedIn (root path : Text) : Bool :=
  let base := if 1 < root.length ∧ root.getLast? = some slash then root.dropLast else root
  path = base || (inside base).isPrefixOf path

inductive PreviewPathError
  | malformed
  | outsideRoot
deriving DecidableEq

/-- `pathname` of the URL that a text is; `none` when it does not parse. -/
abbrev UrlParser : Type := Text → Option Text

def resolveRequestPath (pathname : UrlParser) (rawUrl root : Text) : Except PreviewPathError Text :=
  match pathname rawUrl with
  | none => .error .malformed
  | some encoded =>
    match (decodeURIComponent encoded).bind normalisePosixPath with
    | none => .error .malformed
    | some normalised => if containedIn root normalised then .ok normalised else .error .outsideRoot

def urlPrefix (token : Text) : Text := ascii "psview://" ++ token

/-- `none` when `encodeURIComponent` throws. -/
def previewUrlFor (token path : Text) : Option Text :=
  ((split path).mapM encodeURIComponent).map fun encoded => urlPrefix token ++ join encoded

/-! ## Normal paths -/

/-- A name that a directory can have. -/
structure Proper (segment : Text) : Prop where
  nonempty : segment ≠ []
  dot : segment ≠ ascii "."
  dots : segment ≠ ascii ".."
  flat : slash ∉ segment
  text : (0 : UInt16) ∉ segment

/-- An absolute path of proper names. -/
def Normal (path : Text) : Prop := ∃ segments, (∀ s ∈ segments, Proper s) ∧ path = slash :: join segments

/-- `path` is `root`, or below it at a separator. -/
def Below (root path : Text) : Prop := path = root ∨ inside root <+: path

variable {path root : Text} {segments out : List Text}

theorem fold_proper (h : ∀ s ∈ segments, Proper s) : ∀ out, fold out segments = some (out ++ segments) := by
  induction segments with
  | nil => exact fun out => by rw [fold, List.append_nil]
  | cons s segments ih =>
    obtain ⟨hs, hr⟩ := List.forall_mem_cons.mp h
    intro out
    rw [fold, if_neg (not_or.mpr ⟨hs.nonempty, hs.dot⟩), if_neg hs.dots, ih hr, List.append_assoc]
    rfl

theorem fold_sound (h : ∀ s ∈ segments, slash ∉ s ∧ (0 : UInt16) ∉ s) :
    ∀ {out result : List Text}, (∀ s ∈ out, Proper s) → fold out segments = some result →
      ∀ s ∈ result, Proper s := by
  induction segments with
  | nil =>
    intro out result ho hf
    cases hf
    exact ho
  | cons s segments ih =>
    obtain ⟨hs, hr⟩ := List.forall_mem_cons.mp h
    intro out result ho hf
    rw [fold] at hf
    split at hf
    · exact ih hr ho hf
    · next hne =>
      obtain ⟨hempty, hdot⟩ := not_or.mp hne
      split at hf
      · split at hf
        · cases hf
        · exact ih hr (fun t ht => ho t (List.mem_of_mem_dropLast ht)) hf
      · next hdots =>
        refine ih hr (List.forall_mem_append.mpr ⟨ho, List.forall_mem_singleton.mpr ?_⟩) hf
        exact ⟨hempty, hdot, hdots, hs.1, hs.2⟩

theorem mem_join {unit : UInt16} : unit ∈ join segments → unit = slash ∨ ∃ s ∈ segments, unit ∈ s := by
  unfold join
  induction segments with
  | nil => exact nofun
  | cons s segments ih =>
    cases segments with
    | nil => exact fun h => .inr ⟨s, List.mem_cons_self, by simpa using h⟩
    | cons t segments =>
      rw [List.intercalate_cons_cons]
      intro h
      rcases List.mem_append.mp h with h | h
      · rcases List.mem_append.mp h with h | h
        · exact .inr ⟨s, List.mem_cons_self, h⟩
        · exact .inl (List.mem_singleton.mp h)
      · exact (ih h).imp id fun ⟨r, hr, hu⟩ => ⟨r, List.mem_cons_of_mem _ hr, hu⟩

theorem split_flat : ∀ s ∈ split path, slash ∉ s := Js.splitOn_free

theorem mem_join_of {s : Text} {unit : UInt16} (hs : s ∈ segments) (hu : unit ∈ s) : unit ∈ join segments := by
  unfold join
  induction segments with
  | nil => cases hs
  | cons t segments ih =>
    cases segments with
    | nil => simpa using List.mem_singleton.mp hs ▸ hu
    | cons r segments =>
      rw [List.intercalate_cons_cons]
      rcases List.mem_cons.mp hs with rfl | hs
      · exact List.mem_append_left _ (List.mem_append_left _ hu)
      · exact List.mem_append_right _ (ih hs)

theorem join_split : join (split path) = path := List.intercalate_splitOn slash

theorem split_slash : split (slash :: path) = [] :: split path := by
  unfold split
  rw [List.splitOn_cons_eq_if_modifyHead, if_pos (by decide)]

theorem split_join (hne : segments ≠ []) (h : ∀ s ∈ segments, slash ∉ s) : split (join segments) = segments :=
  List.splitOn_intercalate slash h hne

/-- The names of a normal path, when it is split. -/
theorem fold_normal (h : ∀ s ∈ segments, Proper s) :
    fold [] (split (slash :: join segments)) = some segments := by
  rw [split_slash, fold, if_pos (.inl rfl)]
  by_cases hne : segments = []
  · subst hne
    rfl
  · rw [split_join hne fun s hs => (h s hs).flat]
    exact fold_proper h []

theorem normalise_normal (h : Normal path) : normalisePosixPath path = some path := by
  obtain ⟨segments, hp, rfl⟩ := h
  have htext : (0 : UInt16) ∉ slash :: join segments := fun hm => by
    rcases List.mem_cons.mp hm with hm | hm
    · cases hm
    · rcases mem_join hm with hm | ⟨s, hs, hm⟩
      · cases hm
      · exact (hp s hs).text hm
  rw [normalisePosixPath, if_neg (by simp), if_neg htext, fold_normal hp]
  rfl

theorem normalise_sound {normalised : Text} (h : normalisePosixPath path = some normalised) :
    Normal normalised := by
  unfold normalisePosixPath at h
  split at h
  · cases h
  split at h
  · cases h
  · next htext =>
    obtain ⟨out, ho, rfl⟩ := Option.map_eq_some_iff.mp h
    refine ⟨out, fold_sound (fun s hs => ⟨split_flat s hs, fun hm => htext ?_⟩)
      (fun _ h => by cases h) ho, rfl⟩
    have hm' := mem_join_of hs hm
    rwa [join_split] at hm'

theorem normalise_iff : normalisePosixPath path = some path ↔ Normal path :=
  ⟨normalise_sound, normalise_normal⟩

/-! ## Containment -/

/-- What stands before a separator of a normal path is a normal path. -/
theorem normal_left {rest : Text} (h : Normal (root ++ slash :: rest)) (hne : root ≠ []) : Normal root := by
  obtain ⟨segments, hp, he⟩ := h
  obtain ⟨unit, more, rfl⟩ := List.exists_cons_of_ne_nil hne
  obtain ⟨rfl, he'⟩ := List.cons.inj he
  have he : more ++ slash :: rest = join segments := he'
  have hs : split more ++ split rest = split (join segments) := by
    rw [← he]
    exact (List.splitOn_append_cons_self more rest).symm
  have hmore : segments ≠ [] := by
    rintro rfl
    simp [join] at he
  rw [split_join hmore fun s hs => (hp s hs).flat] at hs
  refine ⟨split more, fun s hm => hp s (hs ▸ List.mem_append_left _ hm), ?_⟩
  rw [join_split]

/-- A separator at the end of a normal path changes nothing. -/
theorem normalise_trailing (h : Normal root) : normalisePosixPath (root ++ [slash]) = some root := by
  obtain ⟨segments, hp, rfl⟩ := h
  have htext : (0 : UInt16) ∉ slash :: join segments ++ [slash] := fun hm => by
    rcases List.mem_append.mp hm with hm | hm
    · rcases List.mem_cons.mp hm with hm | hm
      · cases hm
      · rcases mem_join hm with hm | ⟨s, hs, hm⟩
        · cases hm
        · exact (hp s hs).text hm
    · cases List.mem_singleton.mp hm
  have hsplit : split (slash :: join segments ++ [slash]) = split (slash :: join segments) ++ [[]] :=
    List.splitOn_append_cons_self _ _
  have hfold : ∀ (segs out : List Text), fold out (segs ++ [[]]) = fold out segs := by
    intro segs
    induction segs with
    | nil => exact fun _ => rfl
    | cons s segs ih =>
      intro out
      rw [List.cons_append, fold, fold]
      simp only [ih]
  rw [normalisePosixPath, if_neg (by simp), if_neg htext, hsplit, hfold, fold_normal hp]
  rfl

/-- A normal path that is contained in a root lies at its normal form or below it. -/
theorem contained_below (hroot : root ≠ []) (hn : Normal path) (h : containedIn root path = true) :
    ∃ r, normalisePosixPath root = some r ∧ Below r path := by
  have key : ∀ base, base ≠ [] → (root = base ∨ root = base ++ [slash]) → Below base path →
      ∃ r, normalisePosixPath root = some r ∧ Below r path := by
    intro base hne hbase hpath
    have hb : Normal base := by
      rcases hpath with rfl | hp
      · exact hn
      · by_cases hb : base = [slash]
        · exact ⟨[], nofun, hb⟩
        · rw [inside, if_neg hb] at hp
          obtain ⟨rest, rfl⟩ := hp
          rw [List.append_assoc] at hn
          exact normal_left hn hne
    refine ⟨base, ?_, hpath⟩
    rcases hbase with rfl | rfl
    · exact normalise_normal hb
    · exact normalise_trailing hb
  have h' : Below (if 1 < root.length ∧ root.getLast? = some slash then root.dropLast else root) path := by
    rcases Bool.or_eq_true_iff.mp h with h | h
    · exact .inl (of_decide_eq_true h)
    · exact .inr (List.isPrefixOf_iff_prefix.mp h)
  split at h'
  · next hb =>
    obtain ⟨hlen, hlast⟩ := hb
    have hne : root.dropLast ≠ [] := by
      intro he
      have := congrArg List.length he
      simp at this
      omega
    have hsplit : root = root.dropLast ++ [slash] := by
      conv_lhs => rw [← List.dropLast_append_getLast hroot]
      rw [List.getLast?_eq_some_getLast hroot] at hlast
      rw [Option.some.inj hlast]
    exact key root.dropLast hne (.inr hsplit) h'
  · exact key root hroot (.inl rfl) h'

/-- A normal path other than `/` does not end with a separator. -/
theorem normal_last (hr : Normal root) : ¬(1 < root.length ∧ root.getLast? = some slash) := by
  rintro ⟨hlen, hlast⟩
  have hroot : root ≠ [] := by
    rintro rfl
    cases hlast
  have hsplit : root = root.dropLast ++ slash :: [] := by
    conv_lhs => rw [← List.dropLast_append_getLast hroot]
    rw [List.getLast?_eq_some_getLast hroot] at hlast
    rw [Option.some.inj hlast]
  have hne : root.dropLast ≠ [] := by
    intro he
    have := congrArg List.length he
    simp at this
    omega
  rw [hsplit] at hr
  have htrail := normalise_trailing (normal_left hr hne)
  rw [normalise_normal hr] at htrail
  have := congrArg List.length (Option.some.inj htrail)
  simp at this

theorem below_contained (hr : Normal root) (h : Below root path) : containedIn root path = true := by
  unfold containedIn
  rw [if_neg (normal_last hr)]
  rcases h with rfl | h
  · simp
  · simp [List.isPrefixOf_iff_prefix.mpr h]

/-! ## Round trip -/

theorem wellFormed_slash : ∀ a b : Text, wellFormed (a ++ slash :: b) = (wellFormed a && wellFormed b)
  | [], [] => rfl
  | [], v :: b => by
    have h : wellFormed (slash :: v :: b) = (true && wellFormed (v :: b)) := rfl
    exact h
  | [u], b => by
    have h : (Js.isHigh u && Js.isLow slash) = false := Bool.and_false _
    have hb := wellFormed_slash [] b
    rw [List.nil_append] at hb
    rw [List.singleton_append]
    conv_lhs => rw [wellFormed, h]
    rw [hb]
    rfl
  | u :: v :: a, b => by
    have h₁ := wellFormed_slash a b
    have h₂ := wellFormed_slash (v :: a) b
    rw [List.cons_append] at h₂
    rw [List.cons_append, List.cons_append, wellFormed, wellFormed]
    split
    · exact h₁
    · rw [h₂, Bool.and_assoc]

theorem wellFormed_names (h : wellFormed (join segments) = true) : ∀ s ∈ segments, wellFormed s = true := by
  unfold join at h
  induction segments with
  | nil => exact nofun
  | cons s segments ih =>
    cases segments with
    | nil => exact List.forall_mem_singleton.mpr (by simpa using h)
    | cons t segments =>
      rw [List.intercalate_cons_cons, List.append_assoc, List.singleton_append, wellFormed_slash] at h
      obtain ⟨hs, hr⟩ := Bool.and_eq_true_iff.mp h
      exact List.forall_mem_cons.mpr ⟨hs, ih hr⟩

theorem decode_slash {rest : Text} : Js.decodeUriFrom .idle (slash :: rest) =
    (Js.decodeUriFrom .idle rest).map (slash :: ·) := by
  conv_lhs => unfold Js.decodeUriFrom
  rfl

/-- What the segments of a path are encoded to is decoded to the path. -/
theorem decode_join : ∀ {segments encoded : List Text}, segments.mapM encodeURIComponent = some encoded →
    decodeURIComponent (join encoded) = some (join segments)
  | [], _, h => by
    cases h
    rfl
  | s :: segments, encoded, h => by
    rw [List.mapM_cons] at h
    obtain ⟨e, he, h⟩ := Option.bind_eq_some_iff.mp h
    obtain ⟨es, hes, h⟩ := Option.bind_eq_some_iff.mp h
    cases h
    have hd := decode_join hes
    cases segments with
    | nil =>
      cases hes
      simpa [join] using Js.decode_encode he
    | cons t segments =>
      rw [List.mapM_cons] at hes
      obtain ⟨f, _, hes⟩ := Option.bind_eq_some_iff.mp hes
      obtain ⟨fs, _, hes⟩ := Option.bind_eq_some_iff.mp hes
      cases hes
      unfold join decodeURIComponent at hd ⊢
      rw [List.intercalate_cons_cons, List.intercalate_cons_cons, List.append_assoc,
        List.singleton_append, Js.decodeUriFrom_encode he, decode_slash, hd, List.append_assoc]
      rfl

theorem mapM_encode (h : ∀ s ∈ segments, wellFormed s = true) :
    ∃ encoded, segments.mapM encodeURIComponent = some encoded ∧
      ∀ e ∈ encoded, (∀ u ∈ e, isEncodedUnit u = true) ∧ ∃ s ∈ segments, encodeURIComponent s = some e := by
  induction segments with
  | nil => exact ⟨[], rfl, nofun⟩
  | cons s segments ih =>
    obtain ⟨hs, hr⟩ := List.forall_mem_cons.mp h
    obtain ⟨e, he, hu⟩ := Js.encode_some hs
    obtain ⟨es, hes, hus⟩ := ih hr
    refine ⟨e :: es, by rw [List.mapM_cons, he, hes]; rfl, List.forall_mem_cons.mpr ⟨?_, fun f hf => ?_⟩⟩
    · exact ⟨hu, s, List.mem_cons_self, he⟩
    · obtain ⟨hfu, t, ht, hft⟩ := hus f hf
      exact ⟨hfu, t, List.mem_cons_of_mem _ ht, hft⟩

/-- What the URL parser takes for `.`. -/
def dots : List Text := [ascii ".", ascii "%2e", ascii "%2E"]

/-- A segment that the URL parser folds away. -/
def isDotSegment (segment : Text) : Bool := dots.any fun a => segment = a || dots.any fun b => segment = a ++ b

theorem encode_not_dot {s e : Text} (hd : s ≠ ascii ".") (hdd : s ≠ ascii "..")
    (h : encodeURIComponent s = some e) : isDotSegment e = false := by
  have hall : ∀ a ∈ dots, decodeURIComponent a = some (ascii ".") ∧
      ∀ b ∈ dots, decodeURIComponent (a ++ b) = some (ascii "..") := by decide
  refine Bool.eq_false_iff.mpr fun hdot => ?_
  obtain ⟨a, ha, hor⟩ := List.any_eq_true.mp hdot
  have hdec := Js.decode_encode h
  rcases Bool.or_eq_true_iff.mp hor with he | he
  · rw [of_decide_eq_true he, (hall a ha).1] at hdec
    exact hd (Option.some.inj hdec).symm
  · obtain ⟨b, hb, he⟩ := List.any_eq_true.mp he
    rw [of_decide_eq_true he, (hall a ha).2 b hb] at hdec
    exact hdd (Option.some.inj hdec).symm

/-- A unit that does not end the host of a URL: no `/`, `?`, `#` or backslash, and no `@` or `:`. -/
def isHostUnit (unit : UInt16) : Bool :=
  unit ≠ slash && unit ≠ 0x3f && unit ≠ 0x23 && unit ≠ 0x5c && unit ≠ 0x40 && unit ≠ 0x3a

/-- The token is the host of its URL. -/
structure HostToken (pathname : UrlParser) (token : Text) : Prop where
  units : ∀ unit ∈ token, isHostUnit unit = true
  parsed : pathname (urlPrefix token ++ [slash]) = some [slash]

/-- The parser keeps the path of a URL whose host is a token, when it is made of
encoded segments of which none is a dot segment. -/
def KeepsPaths (pathname : UrlParser) : Prop :=
  ∀ token, HostToken pathname token →
    ∀ encoded : List Text, (∀ e ∈ encoded, (∀ u ∈ e, isEncodedUnit u = true) ∧ isDotSegment e = false) →
      pathname (urlPrefix token ++ slash :: join encoded) = some (slash :: join encoded)

theorem join_cons_nil {encoded : List Text} (h : encoded ≠ []) : join ([] :: encoded) = slash :: join encoded := by
  obtain ⟨e, es, rfl⟩ := List.exists_cons_of_ne_nil h
  unfold join
  rw [List.intercalate_cons_cons]
  rfl

/-- The URL of a normal path is resolved to it. -/
theorem resolve_previewUrl {pathname : UrlParser} (hurl : KeepsPaths pathname) {token : Text}
    (htoken : HostToken pathname token) (hn : Normal path)
    (hw : wellFormed path = true) (hc : containedIn root path = true) :
    ∃ url, previewUrlFor token path = some url ∧ resolveRequestPath pathname url root = .ok path := by
  obtain ⟨segments, hp, rfl⟩ := id hn
  -- the path below its first separator is one empty name at least
  have hsplit : ∀ s ∈ split (join segments), s ≠ ascii "." ∧ s ≠ ascii ".." := by
    intro s hs
    by_cases hne : segments = []
    · subst hne
      cases List.mem_singleton.mp hs
      exact ⟨by decide, by decide⟩
    · rw [split_join hne fun t ht => (hp t ht).flat] at hs
      exact ⟨(hp s hs).dot, (hp s hs).dots⟩
  have hw' : wellFormed (join (split (join segments))) = true := by
    have h := wellFormed_slash [] (join segments)
    rw [List.nil_append, hw] at h
    rw [join_split]
    simpa [wellFormed] using h.symm
  obtain ⟨encoded, he, henc⟩ := mapM_encode (wellFormed_names hw')
  have hne : encoded ≠ [] := by
    rintro rfl
    obtain ⟨s, rest, hs⟩ := List.exists_cons_of_ne_nil (List.splitOn_ne_nil slash (join segments))
    rw [split, hs, List.mapM_cons] at he
    obtain ⟨e, _, he⟩ := Option.bind_eq_some_iff.mp he
    obtain ⟨es, _, he⟩ := Option.bind_eq_some_iff.mp he
    cases he
  have hmap : (split (slash :: join segments)).mapM encodeURIComponent = some ([] :: encoded) := by
    rw [split_slash, List.mapM_cons, he]
    rfl
  have hpath : pathname (urlPrefix token ++ join ([] :: encoded)) = some (join ([] :: encoded)) := by
    rw [join_cons_nil hne]
    refine hurl token htoken encoded fun e hm => ?_
    obtain ⟨hu, s, hs, hes⟩ := henc e hm
    exact ⟨hu, encode_not_dot (hsplit s hs).1 (hsplit s hs).2 hes⟩
  have hdec : decodeURIComponent (join ([] :: encoded)) = some (slash :: join segments) := by
    rw [decode_join hmap, join_split]
  refine ⟨urlPrefix token ++ join ([] :: encoded), by rw [previewUrlFor, hmap]; rfl, ?_⟩
  unfold resolveRequestPath
  rw [hpath]
  simp only [hdec, Option.bind_some, normalise_normal hn, hc, if_true]

/-- What is answered is a normalised path at the root or below it, and every normalised
path there is answered for the URL that is made of it. -/
theorem preview_paths (pathname : UrlParser) (hurl : KeepsPaths pathname) :
    (∀ rawUrl root path, root ≠ [] → resolveRequestPath pathname rawUrl root = .ok path →
      normalisePosixPath path = some path ∧
        ∃ r, normalisePosixPath root = some r ∧ Below r path) ∧
    ∀ token root path, HostToken pathname token → normalisePosixPath root = some root →
      normalisePosixPath path = some path → Below root path → wellFormed path = true →
      ∃ url, previewUrlFor token path = some url ∧ resolveRequestPath pathname url root = .ok path := by
  constructor
  · intro rawUrl root path hroot h
    unfold resolveRequestPath at h
    split at h
    · cases h
    · split at h
      · cases h
      · next normalised hdec =>
        split at h
        · next hc =>
          cases h
          obtain ⟨decoded, _, hnorm⟩ := Option.bind_eq_some_iff.mp hdec
          have hn := normalise_sound hnorm
          exact ⟨normalise_normal hn, contained_below hroot hn hc⟩
        · cases h
  · intro token root path htoken hroot hpath hb hw
    exact resolve_previewUrl hurl htoken (normalise_iff.mp hpath) hw
      (below_contained (normalise_iff.mp hroot) hb)

/-- A parser for URLs of the scheme whose path has nothing to fold. -/
def plainUrl : UrlParser := fun rawUrl =>
  let rest := rawUrl.drop 9
  let path := rest.dropWhile (· ≠ slash)
  if rawUrl.take 9 = ascii "psview://" ∧ path ≠ [] ∧
      rawUrl.all (fun unit => unit ≠ 0x3f && unit ≠ 0x23) = true then some path else none

theorem plainUrl_keeps : KeepsPaths plainUrl := by
  intro token htoken encoded henc
  have hdrop : ∀ rest : Text, (urlPrefix token ++ rest).drop 9 = token ++ rest := by
    intro rest
    have hlen : (ascii "psview://").length = 9 := by decide
    rw [urlPrefix, List.append_assoc, ← hlen, List.drop_left]
  have htake : ∀ rest : Text, (urlPrefix token ++ rest).take 9 = ascii "psview://" := by
    intro rest
    have hlen : (ascii "psview://").length = 9 := by decide
    rw [urlPrefix, List.append_assoc, ← hlen, List.take_left]
  have hdropWhile : ∀ as rest : Text, slash ∉ as →
      (as ++ slash :: rest).dropWhile (· ≠ slash) = slash :: rest := by
    intro as rest has
    rw [List.dropWhile_append_of_pos fun unit hu => by
      simpa using fun he : unit = slash => has (he ▸ hu)]
    simp
  have hflat : slash ∉ token := fun hm => by
    have hunit := htoken.units slash hm
    simp [isHostUnit] at hunit
  unfold plainUrl
  simp only [hdrop, htake]
  rw [hdropWhile token _ hflat]
  refine if_pos ⟨trivial, by simp, List.all_eq_true.mpr fun unit hu => ?_⟩
  have hquery : unit ≠ 0x3f ∧ unit ≠ 0x23 := by
    rcases List.mem_append.mp hu with hu | hu
    · rcases List.mem_append.mp hu with hu | hu
      · have hscheme : (ascii "psview://").all (fun unit => unit ≠ 0x3f && unit ≠ 0x23) = true := by decide
        have hunit := List.all_eq_true.mp hscheme unit hu
        simpa using hunit
      · have hunit := htoken.units unit hu
        simp only [isHostUnit, Bool.and_eq_true, decide_eq_true_eq] at hunit
        exact ⟨hunit.1.1.1.1.2, hunit.1.1.1.2⟩
    · rcases List.mem_cons.mp hu with rfl | hu
      · exact ⟨by decide, by decide⟩
      · rcases mem_join hu with rfl | ⟨e, he, hu⟩
        · exact ⟨by decide, by decide⟩
        · have hencoded := (henc e he).1 unit hu
          constructor <;> rintro rfl <;> cases hencoded
  simp [hquery.1, hquery.2]

theorem preview_paths_space : ∃ url, previewUrlFor (ascii "t") (ascii "/home/a b%2e") = some url ∧
    resolveRequestPath plainUrl url (ascii "/home") = .ok (ascii "/home/a b%2e") :=
  (preview_paths plainUrl plainUrl_keeps).2 _ _ _
    ⟨fun unit hunit => List.mem_singleton.mp hunit ▸ rfl, by decide +kernel⟩
    (by decide +kernel) (by decide +kernel) (.inr ⟨ascii "a b%2e", by decide +kernel⟩) (by decide +kernel)

/-- A root that is no path has no normal form, and half of a pair has no encoding. -/
theorem preview_paths_literal :
    resolveRequestPath plainUrl (ascii "psview://t/etc/passwd") [] = .ok (ascii "/etc/passwd") ∧
      normalisePosixPath [] = none ∧
      normalisePosixPath [slash, 0xd800] = some [slash, 0xd800] ∧ Below [slash] [slash, 0xd800] ∧
      previewUrlFor (ascii "t") [slash, 0xd800] = none :=
  ⟨by decide +kernel, by decide +kernel, by decide +kernel, .inr ⟨[0xd800], by decide +kernel⟩,
    by decide +kernel⟩

end PocketShell.Preview
