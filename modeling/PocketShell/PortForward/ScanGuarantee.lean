import PocketShell.PortForward.Scan

/-!
# What a scan for listening ports guarantees

* `listeners_merged`: the ports are those of the first listing that has any, and a process is one
  that a listing names for the port.
* `printed_read`: what the four listings print is read as the rows of each.
* `scan_settled`: when a scan lists ports, and that the second command only labels them.
* `given_up_unlisted`: which tunnels a plan gives up on a scan.
-/

namespace PocketShell.PortScan

open Js (Text ascii property assign keys)
open SshConfig (isDigit words isLineEnd)

/-- A later assignment is over an earlier one. -/
theorem property_last {K V X : Type} [DecidableEq K] {keyOf : X → K} {value : X → V} {xs : List X} {key : K} :
    property key (xs.foldl (fun o x => assign (keyOf x) (value x) o) []) =
      ((xs.filter (keyOf · = key)).getLast?).map value := by
  induction xs using List.reverseRecOn with
  | nil => rfl
  | append_singleton xs x ih =>
    rw [List.foldl_append, List.filter_append, List.foldl_cons, List.foldl_nil]
    by_cases hkey : keyOf x = key
    · subst hkey
      rw [Js.property_assign_self, List.filter_cons_of_pos (by simp), List.filter_nil, List.getLast?_concat]
      rfl
    · rw [Js.property_assign_other (Ne.symm hkey), ih, List.filter_cons_of_neg (by simpa using hkey),
        List.filter_nil, List.append_nil]

/-! ## Collapsed rows -/

section

variable {rows : List RemotePort} {n : Nat}

/-- One row for the rows of a port. -/
def gathered : List RemotePort → Option RemotePort
  | [] => none
  | row :: more => some (more.foldl RemotePort.fill row)

theorem gathered_snoc (l : List RemotePort) (p : RemotePort) :
    gathered (l ++ [p]) = some (match gathered l with | none => p | some existing => existing.fill p) := by
  cases l with
  | nil => rfl
  | cons row more =>
    show some ((more ++ [p]).foldl RemotePort.fill row) = _
    rw [List.foldl_append]
    rfl

theorem gathered_eq_none : gathered rows = none ↔ rows = [] := by
  cases rows <;> simp [gathered]

theorem seePort_eq (seen : List (Nat × RemotePort)) (p : RemotePort) :
    seePort seen p = assign p.port (match property p.port seen with | none => p | some e => e.fill p) seen := by
  unfold seePort
  split <;> next h => rw [h]

/-- What is filed under a port is gathered of its rows. -/
theorem property_seen : property n (rows.foldl seePort []) = gathered (rows.filter (·.port = n)) := by
  induction rows using List.reverseRecOn with
  | nil => rfl
  | append_singleton rows p ih =>
    rw [List.foldl_append, List.filter_append]
    show property n (seePort _ p) = _
    rw [seePort_eq]
    by_cases hport : p.port = n
    · subst hport
      rw [Js.property_assign_self, ih, List.filter_cons_of_pos (by simp), List.filter_nil, gathered_snoc]
    · rw [Js.property_assign_other (Ne.symm hport), ih, List.filter_cons_of_neg (by simpa using hport),
        List.filter_nil, List.append_nil]

theorem nodup_seen : (keys (rows.foldl seePort [])).Nodup := by
  induction rows using List.reverseRecOn with
  | nil => exact List.nodup_nil
  | append_singleton rows p ih =>
    rw [List.foldl_append]
    show (keys (seePort _ p)).Nodup
    rw [seePort_eq]
    exact Js.nodup_assign ih

theorem port_foldl_fill (row : RemotePort) (more : List RemotePort) :
    (more.foldl RemotePort.fill row).port = row.port := by
  induction more generalizing row with
  | nil => rfl
  | cons p more ih => exact ih (row.fill p)

variable {p : RemotePort}

theorem port_gathered (h : gathered (rows.filter (·.port = n)) = some p) : p.port = n := by
  cases hrows : rows.filter (·.port = n) with
  | nil =>
    rw [hrows] at h
    cases h
  | cons row more =>
    rw [hrows] at h
    obtain rfl := Option.some.inj h
    have hrow : row ∈ rows.filter (·.port = n) := hrows ▸ List.mem_cons_self
    rw [port_foldl_fill]
    exact of_decide_eq_true (List.mem_filter.mp hrow).2

theorem mem_dedupe : p ∈ dedupe rows ↔ gathered (rows.filter (·.port = p.port)) = some p := by
  unfold dedupe
  rw [List.mem_mergeSort, List.mem_map]
  constructor
  · rintro ⟨⟨k, q⟩, hq, rfl⟩
    have hgathered := property_seen ▸ (Js.property_eq_some nodup_seen).mpr hq
    rw [port_gathered hgathered]
    exact hgathered
  · intro h
    exact ⟨(p.port, p), (Js.property_eq_some nodup_seen).mp (property_seen.trans h), rfl⟩

/-- A collapsed row is the first row of its port, filled from the others. -/
theorem exists_of_dedupe (hp : p ∈ dedupe rows) :
    ∃ first more, rows.filter (·.port = p.port) = first :: more ∧ more.foldl RemotePort.fill first = p := by
  have hgathered := mem_dedupe.mp hp
  cases hrows : rows.filter (·.port = p.port) with
  | nil =>
    rw [hrows] at hgathered
    cases hgathered
  | cons first more =>
    rw [hrows] at hgathered
    exact ⟨first, more, rfl, Option.some.inj hgathered⟩

/-- The ports stand in their order, each once. -/
theorem dedupe_sorted (rows : List RemotePort) : (dedupe rows).Pairwise (·.port < ·.port) := by
  have hle : (dedupe rows).Pairwise fun a b => a.port ≤ b.port := by
    refine (List.pairwise_mergeSort (fun a b c h h' => ?_) (fun a b => ?_) _).imp fun h => of_decide_eq_true h
    · exact decide_eq_true ((of_decide_eq_true h).trans (of_decide_eq_true h'))
    · simpa using le_total a.port b.port
  have hmem : ∀ q ∈ rows.foldl seePort [], q.2.port = q.1 := fun q hq =>
    port_gathered (property_seen ▸ (Js.property_eq_some nodup_seen).mpr hq)
  have hkeys : ((rows.foldl seePort []).map Prod.snd).map (·.port) = keys (rows.foldl seePort []) := by
    rw [List.map_map]
    exact List.map_congr_left fun q hq => hmem q hq
  -- The ports are those the map is keyed by, so that sorting them weakly sorts them strictly.
  have hperm : (dedupe rows).Perm ((rows.foldl seePort []).map Prod.snd) := List.mergeSort_perm _ _
  have hnodup : ((dedupe rows).map (·.port)).Nodup :=
    (hperm.map _).nodup_iff.mpr (hkeys ▸ nodup_seen)
  exact hle.imp₂ (fun a b h h' => lt_of_le_of_ne h h') (List.pairwise_map.mp hnodup)

theorem mem_ports_dedupe : n ∈ (dedupe rows).map (·.port) ↔ n ∈ rows.map (·.port) := by
  rw [List.mem_map, List.mem_map]
  constructor
  · rintro ⟨p, hp, rfl⟩
    obtain ⟨first, more, hrows, -⟩ := exists_of_dedupe hp
    have hfirst : first ∈ rows.filter (·.port = p.port) := hrows ▸ List.mem_cons_self
    exact ⟨first, (List.mem_filter.mp hfirst).1, of_decide_eq_true (List.mem_filter.mp hfirst).2⟩
  · rintro ⟨row, hrow, rfl⟩
    have hne : gathered (rows.filter (·.port = row.port)) ≠ none := by
      rw [Ne, gathered_eq_none]
      exact List.ne_nil_of_mem (List.mem_filter.mpr ⟨hrow, decide_eq_true rfl⟩)
    obtain ⟨p, hp⟩ := Option.ne_none_iff_exists'.mp hne
    have hport : p.port = row.port := port_gathered hp
    exact ⟨p, mem_dedupe.mpr (hport ▸ hp), hport⟩

theorem dedupe_eq_nil : dedupe rows = [] ↔ rows = [] := by
  have h : ∀ {l : List RemotePort}, l = [] ↔ l.map (·.port) = [] := List.map_eq_nil_iff.symm
  rw [h, h (l := rows), List.eq_nil_iff_forall_not_mem, List.eq_nil_iff_forall_not_mem]
  exact forall_congr' fun n => not_congr mem_ports_dedupe

/-- The number of the process is the first one listed. -/
theorem pid_foldl_fill (row : RemotePort) (more : List RemotePort) :
    (more.foldl RemotePort.fill row).pid = (row :: more).findSome? (·.pid) := by
  induction more generalizing row with
  | nil => cases h : row.pid <;> simp [h]
  | cons p more ih =>
    rw [List.foldl_cons, ih]
    have hpid : (row.fill p).pid = row.pid.or p.pid := rfl
    cases h : row.pid <;> simp [List.findSome?_cons, hpid, h]

variable {more : List RemotePort}

/-- A name is listed in one of the rows. -/
theorem process_foldl_fill {row : RemotePort} {process : Text}
    (h : (more.foldl RemotePort.fill row).process = some process) : ∃ r ∈ row :: more, r.process = some process := by
  induction more generalizing row with
  | nil => exact ⟨row, List.mem_cons_self, h⟩
  | cons p more ih =>
    obtain ⟨r, hr, hprocess⟩ := ih h
    rcases List.mem_cons.mp hr with rfl | hr
    · unfold RemotePort.fill at hprocess
      dsimp only at hprocess
      split at hprocess
      · exact ⟨p, List.mem_cons_of_mem _ List.mem_cons_self, hprocess⟩
      · exact ⟨row, List.mem_cons_self, hprocess⟩
    · exact ⟨r, List.mem_cons_of_mem _ (List.mem_cons_of_mem _ hr), hprocess⟩

theorem cwd_foldl_fill {row : RemotePort} (h : ∀ r ∈ row :: more, r.cwd = none) :
    (more.foldl RemotePort.fill row).cwd = none := by
  induction more generalizing row with
  | nil => exact h row List.mem_cons_self
  | cons p more ih =>
    refine ih fun r hr => ?_
    rcases List.mem_cons.mp hr with rfl | hr
    · unfold RemotePort.fill truthy
      simp [h row List.mem_cons_self, h p (List.mem_cons_of_mem _ List.mem_cons_self)]
    · exact h r (List.mem_cons_of_mem _ (List.mem_cons_of_mem _ hr))

/-- What `p` says of its process is said by one of the rows of its port. -/
structure SaidIn (rows : List RemotePort) (p : RemotePort) : Prop where
  pid : ∀ pid, p.pid = some pid → ∃ row ∈ rows, row.port = p.port ∧ row.pid = some pid
  process : ∀ process, p.process = some process → ∃ row ∈ rows, row.port = p.port ∧ row.process = some process

theorem SaidIn.mono (h : SaidIn rows p) (hsub : rows ⊆ more) : SaidIn more p where
  pid pid hpid := by
    obtain ⟨row, hrow, hsaid⟩ := h.pid pid hpid
    exact ⟨row, hsub hrow, hsaid⟩
  process process hprocess := by
    obtain ⟨row, hrow, hsaid⟩ := h.process process hprocess
    exact ⟨row, hsub hrow, hsaid⟩

theorem dedupe_said (hp : p ∈ dedupe rows) : SaidIn rows p := by
  obtain ⟨first, more, hrows, heq⟩ := exists_of_dedupe hp
  have hmem : ∀ row ∈ first :: more, row ∈ rows ∧ row.port = p.port := by
    intro row hrow
    rw [← hrows] at hrow
    exact ⟨(List.mem_filter.mp hrow).1, of_decide_eq_true (List.mem_filter.mp hrow).2⟩
  constructor
  · intro pid hpid
    rw [← heq, pid_foldl_fill] at hpid
    obtain ⟨row, hrow, hsaid⟩ := List.exists_of_findSome?_eq_some hpid
    exact ⟨row, (hmem row hrow).1, (hmem row hrow).2, hsaid⟩
  · intro process hprocess
    obtain ⟨row, hrow, hsaid⟩ := process_foldl_fill (heq ▸ hprocess)
    exact ⟨row, (hmem row hrow).1, (hmem row hrow).2, hsaid⟩

theorem dedupe_cwd (hp : p ∈ dedupe rows) (h : ∀ row ∈ rows, row.cwd = none) : p.cwd = none := by
  obtain ⟨first, more, hrows, rfl⟩ := exists_of_dedupe hp
  exact cwd_foldl_fill fun row hrow => h row (List.mem_filter.mp (hrows ▸ hrow)).1

/-- A process that one row of the port knows is not lost. -/
theorem dedupe_knows {p row : RemotePort} (hp : p ∈ dedupe rows) (hrow : row ∈ rows) (hport : row.port = p.port)
    (hpid : row.pid.isSome) : p.pid.isSome := by
  have hfiltered : row ∈ rows.filter (·.port = p.port) := List.mem_filter.mpr ⟨hrow, decide_eq_true hport⟩
  obtain ⟨first, more, hrows, heq⟩ := exists_of_dedupe hp
  rw [← heq, pid_foldl_fill, List.findSome?_isSome_iff]
  exact ⟨row, hrows ▸ hfiltered, hpid⟩

end

/-! ## The rows of a listing -/

section

variable {platform : Platform} {line : Text} {row : RemotePort} {n : Nat}

theorem readNumber_small {digits : Text} {bound : Nat} (hbound : bound < 2 ^ 53) :
    (platform.readNumber digits).filter (· ≤ bound) = some n ↔ Js.readNatural digits = n ∧ n ≤ bound := by
  unfold Platform.readNumber
  rw [Option.filter_eq_some_iff]
  by_cases hlarge : 2 ^ 53 ≤ Js.readNatural digits
  · constructor
    · -- A numeral that a double may round is at least as large after it, so that no bound lets it through.
      rintro ⟨hdouble, hle⟩
      have hn := platform.double_large _ hlarge n hdouble
      have hle' : n ≤ bound := of_decide_eq_true hle
      exact absurd (hn.trans hle') (Nat.not_le.mpr hbound)
    · rintro ⟨rfl, hle⟩
      exact absurd (hlarge.trans hle) (Nat.not_le.mpr hbound)
  · rw [platform.double_exact _ (Nat.le_of_not_le hlarge), Option.some.injEq, decide_eq_true_iff]

/-- The last colon stands before what follows it. -/
theorem last_colon {addr : Text} (h : (0x3a : UInt16) ∈ addr) :
    ∃ host, addr = host ++ 0x3a :: addr.rtakeWhile (· ≠ 0x3a) := by
  induction addr using List.reverseRecOn with
  | nil => cases h
  | append_singleton addr unit ih =>
    by_cases hunit : unit = 0x3a
    · refine ⟨addr, ?_⟩
      rw [List.rtakeWhile_concat_neg _ _ _ (by simp [hunit]), hunit]
    · have hmem : (0x3a : UInt16) ∈ addr := by simpa [Ne.symm hunit] using h
      obtain ⟨host, hhost⟩ := ih hmem
      refine ⟨host, ?_⟩
      rw [List.rtakeWhile_concat_pos _ _ _ (by simp [hunit]), ← List.cons_append, ← List.append_assoc, ← hhost]

/-- A port is read off exactly the addresses that end in a colon and its digits. -/
theorem extractPort_iff {addr : Text} : extractPort platform addr = some n ↔
    ∃ host digits, addr = host ++ 0x3a :: digits ∧ digits ≠ [] ∧ digits.all isDigit = true ∧
      Js.readNatural digits = n ∧ n ≤ MAX_PORT := by
  have htail : ∀ host digits : Text, digits.all isDigit = true →
      (host ++ 0x3a :: digits).rtakeWhile (· ≠ 0x3a) = digits := by
    intro host digits hdigits
    have hkept : digits.reverse.takeWhile (fun unit => decide (unit ≠ 0x3a)) = digits.reverse := by
      refine List.takeWhile_eq_self_iff.mpr fun unit hunit => decide_eq_true ?_
      rintro rfl
      have hcolon := List.all_eq_true.mp hdigits _ (List.mem_reverse.mp hunit)
      cases hcolon
    unfold List.rtakeWhile
    rw [List.reverse_append, List.reverse_cons, List.append_assoc, List.takeWhile_append, hkept]
    simp
  unfold extractPort
  constructor
  · intro h
    split at h
    · next hcolon =>
      dsimp only at h
      split at h
      · next hdigits =>
        obtain ⟨hread, hle⟩ := (readNumber_small (by decide)).mp h
        obtain ⟨host, hhost⟩ := last_colon hcolon
        exact ⟨host, _, hhost, hdigits.1, hdigits.2, hread, hle⟩
      · cases h
    · cases h
  · rintro ⟨host, digits, rfl, hne, hdigits, hread, hle⟩
    rw [if_pos (by simp)]
    dsimp only
    rw [htail host digits hdigits, if_pos ⟨hne, hdigits⟩]
    exact (readNumber_small (by decide)).mpr ⟨hread, hle⟩

theorem extractPort_le {addr : Text} (h : extractPort platform addr = some n) : n ≤ MAX_PORT := by
  obtain ⟨-, -, -, -, -, -, hle⟩ := extractPort_iff.mp h
  exact hle

/-- What holds of a row that was read. -/
structure RemotePort.Read (row : RemotePort) : Prop where
  port : row.port ≤ MAX_PORT
  pid : ∀ pid ∈ row.pid, 0 < pid
  process : ∀ process ∈ row.process, process ≠ []
  cwd : row.cwd = none

theorem quoted_ne_nil {text name : Text} (h : quoted text = some name) : name ≠ [] := by
  induction text with
  | nil => cases h
  | cons unit rest ih =>
    unfold quoted at h
    dsimp only at h
    split at h
    · next hname => exact Option.some.inj h ▸ hname.2.1
    · exact ih h

theorem parseProcessInfo_read (platform : Platform) (blob : Text) :
    (∀ pid ∈ (parseProcessInfo platform blob).pid, 0 < pid) ∧
      ∀ name ∈ (parseProcessInfo platform blob).name, name ≠ [] := by
  unfold parseProcessInfo
  dsimp only
  split
  · exact ⟨fun _ h => (Option.not_mem_none _ h).elim, fun _ h => (Option.not_mem_none _ h).elim⟩
  · constructor
    · intro pid hpid
      obtain ⟨digits, -, hdigits⟩ := Option.bind_eq_some_iff.mp hpid
      exact of_decide_eq_true (Option.filter_eq_some_iff.mp hdigits).2
    · intro name hname
      dsimp only at hname
      split at hname
      · next hquoted => exact Option.mem_some.mp hname ▸ quoted_ne_nil hquoted
      · exact of_decide_eq_true (Option.filter_eq_some_iff.mp hname).2

theorem ssRow_read {attributed : Bool} (h : ssRow platform attributed line = some row) : row.Read := by
  unfold ssRow at h
  dsimp only at h
  split at h
  · cases h
  · obtain ⟨port, hport, rfl⟩ := Option.map_eq_some_iff.mp h
    have hinfo := parseProcessInfo_read platform (Js.join [0x20] ((words line).drop 5))
    cases attributed with
    | true => exact ⟨extractPort_le hport, hinfo.1, hinfo.2, rfl⟩
    | false => exact ⟨extractPort_le hport, fun _ h => (Option.not_mem_none _ h).elim,
        fun _ h => (Option.not_mem_none _ h).elim, rfl⟩

theorem netstatRow_read (h : netstatRow platform line = some row) : row.Read := by
  unfold netstatRow at h
  dsimp only at h
  split at h
  · cases h
  · next listenAt _ =>
    split at h
    · cases h
    · obtain ⟨port, hport, rfl⟩ := Option.map_eq_some_iff.mp h
      have hinfo := parseProcessInfo_read platform (Js.join [0x20] ((words line).drop (listenAt + 1)))
      exact ⟨extractPort_le hport, hinfo.1, hinfo.2, rfl⟩

theorem mem_rowsOf {read : Text → Option RemotePort} {stdout : Text} :
    row ∈ rowsOf read stdout ↔ ∃ line ∈ linesOf stdout, Js.trim line ≠ [] ∧ read (Js.trim line) = some row := by
  unfold rowsOf
  rw [List.mem_filterMap]
  constructor
  · rintro ⟨_, htrimmed, h⟩
    obtain ⟨line, hline, rfl⟩ := List.mem_map.mp htrimmed
    split at h
    · cases h
    · next hne => exact ⟨line, hline, hne, h⟩
  · rintro ⟨line, hline, hne, h⟩
    exact ⟨_, List.mem_map_of_mem hline, by rw [if_neg hne]; exact h⟩

end

/-! ## The merged listings -/

section

variable {platform : Platform} {sections : List (Text × Text)} {rows : List RemotePort} {n : Nat}

/-- The rows of the four listings, in the order they are asked. -/
def rowLists (platform : Platform) (sections : List (Text × Text)) : List (List RemotePort) :=
  [sectionRows sections (rowsOf (ssRow platform false)) SECTION_SS_TLN,
    sectionRows sections (rowsOf (netstatRow platform)) SECTION_NETSTAT_TLN,
    sectionRows sections (rowsOf (netstatRow platform)) SECTION_NETSTAT_TLNP,
    sectionRows sections (rowsOf (ssRow platform true)) SECTION_SS_TLNP]

/-- The rows of the first listing that has one. -/
def firstRows (platform : Platform) (sections : List (Text × Text)) : List RemotePort :=
  ((rowLists platform sections).find? (· ≠ [])).getD []

theorem sectionRows_dedupe (read : Text → List RemotePort) (name : Text) :
    sectionRows sections (fun text => dedupe (read text)) name = dedupe (sectionRows sections read name) := by
  have hnil : [] = dedupe [] := (dedupe_eq_nil.mpr rfl).symm
  unfold sectionRows
  split
  · split
    · exact hnil
    · rfl
  · exact hnil

theorem listings_eq : listings platform sections = (rowLists platform sections).map dedupe := by
  unfold listings rowLists
  simp only [List.map_cons, List.map_nil, ← sectionRows_dedupe]
  rfl

theorem find_dedupe (lists : List (List RemotePort)) :
    ((lists.map dedupe).find? (· ≠ [])).getD [] = dedupe ((lists.find? (· ≠ [])).getD []) := by
  have hcongr : ((fun l : List RemotePort => decide (l ≠ [])) ∘ dedupe) = fun l => decide (l ≠ []) := by
    funext l
    simp [dedupe_eq_nil]
  rw [List.find?_map, hcongr]
  cases lists.find? (· ≠ []) with
  | none => exact (dedupe_eq_nil.mpr rfl).symm
  | some l => rfl

variable {row : RemotePort}

/-- A row of a section is one of the text of it. -/
theorem mem_sectionRows {read : Text → List RemotePort} {name : Text}
    (h : row ∈ sectionRows sections read name) : ∃ text, row ∈ read text := by
  unfold sectionRows at h
  split at h
  · split at h
    · cases h
    · exact ⟨_, h⟩
  · cases h

theorem rowLists_read (h : row ∈ (rowLists platform sections).flatten) : row.Read := by
  obtain ⟨l, hl, hrow⟩ := List.mem_flatten.mp h
  unfold rowLists at hl
  simp only [List.mem_cons, List.not_mem_nil, or_false] at hl
  rcases hl with rfl | rfl | rfl | rfl
  -- a row of either program was read by the rule for it
  all_goals
    obtain ⟨text, hrow⟩ := mem_sectionRows hrow
    obtain ⟨line, -, -, hread⟩ := mem_rowsOf.mp hrow
    first | exact ssRow_read hread | exact netstatRow_read hread

theorem firstRows_subset : firstRows platform sections ⊆ (rowLists platform sections).flatten := by
  intro row hrow
  unfold firstRows at hrow
  cases hfind : (rowLists platform sections).find? (· ≠ []) with
  | none =>
    rw [hfind] at hrow
    cases hrow
  | some l =>
    rw [hfind] at hrow
    exact List.mem_flatten.mpr ⟨l, List.mem_of_find?_eq_some hfind, hrow⟩

/-- The last row of a port is the one that counts. -/
theorem property_attribution : property n (attribution rows) = (rows.filter (·.port = n)).getLast? :=
  property_last.trans Option.map_id'

theorem attributed_said (h : row ∈ attributed platform sections) :
    SaidIn (rowLists platform sections).flatten row := by
  have hlist : ∃ l ∈ rowLists platform sections, row ∈ dedupe l := by
    unfold attributed at h
    rcases List.mem_append.mp (List.mem_filter.mp h).1 with h | h
    · have hrow : row ∈ dedupe (sectionRows sections (rowsOf (netstatRow platform)) SECTION_NETSTAT_TLNP) := by
        rw [← sectionRows_dedupe]
        exact h
      exact ⟨_, by simp [rowLists], hrow⟩
    · have hrow : row ∈ dedupe (sectionRows sections (rowsOf (ssRow platform true)) SECTION_SS_TLNP) := by
        rw [← sectionRows_dedupe]
        exact h
      exact ⟨_, by simp [rowLists], hrow⟩
  obtain ⟨l, hl, hrow⟩ := hlist
  exact (dedupe_said hrow).mono fun r hr => List.mem_flatten.mpr ⟨l, hl, hr⟩

theorem port_attribute (known : List (Nat × RemotePort)) (p : RemotePort) : (p.attribute known).port = p.port := by
  unfold RemotePort.attribute
  split <;> rfl

theorem merged_eq (stdout : Text) : mergePortScanSections platform stdout =
    (dedupe (firstRows platform (splitSections stdout))).map
      (RemotePort.attribute (attribution (attributed platform (splitSections stdout)))) := by
  unfold mergePortScanSections firstRows
  dsimp only
  rw [listings_eq, find_dedupe]

theorem ports_merged (stdout : Text) : (mergePortScanSections platform stdout).map (·.port) =
    (dedupe (firstRows platform (splitSections stdout))).map (·.port) := by
  rw [merged_eq, List.map_map]
  exact List.map_congr_left fun p _ => port_attribute _ p

/-- A row that `ss -tlnp` gives for a port is the last one that is known of it. -/
theorem attribution_ss
    (h : row ∈ dedupe (sectionRows sections (rowsOf (ssRow platform true)) SECTION_SS_TLNP))
    (hpid : row.pid.isSome = true) : property row.port (attribution (attributed platform sections)) = some row := by
  have hsplit : attributed platform sections =
      (dedupe (sectionRows sections (rowsOf (netstatRow platform)) SECTION_NETSTAT_TLNP)).filter
          (fun row => row.process.isSome || row.pid.isSome) ++
        (dedupe (sectionRows sections (rowsOf (ssRow platform true)) SECTION_SS_TLNP)).filter
          (fun row => row.process.isSome || row.pid.isSome) := by
    unfold attributed
    rw [List.filter_append, ← sectionRows_dedupe, ← sectionRows_dedupe]
    rfl
  generalize dedupe (sectionRows sections (rowsOf (netstatRow platform)) SECTION_NETSTAT_TLNP) = before at hsplit
  have hsorted := dedupe_sorted (sectionRows sections (rowsOf (ssRow platform true)) SECTION_SS_TLNP)
  generalize dedupe (sectionRows sections (rowsOf (ssRow platform true)) SECTION_SS_TLNP) = rows at h hsplit hsorted
  -- no other row of that listing has the port
  have hone : ∀ r ∈ rows, r.port = row.port → r = row := by
    intro r hr hport
    by_contra hne
    have hnodup : (rows.map (·.port)).Nodup := List.pairwise_map.mpr (hsorted.imp fun h => Nat.ne_of_lt h)
    exact hne (List.inj_on_of_nodup_map hnodup hr h hport)
  have hkept : row ∈ rows.filter fun row => row.process.isSome || row.pid.isSome :=
    List.mem_filter.mpr ⟨h, by simp [hpid]⟩
  rw [property_attribution, hsplit, List.filter_append]
  have hne : (rows.filter fun row => row.process.isSome || row.pid.isSome).filter (·.port = row.port) ≠ [] :=
    List.ne_nil_of_mem (List.mem_filter.mpr ⟨hkept, decide_eq_true rfl⟩)
  rw [List.getLast?_append_of_ne_nil _ hne, List.getLast?_eq_some_getLast hne]
  have hlast := List.getLast_mem hne
  obtain ⟨hlast, hport⟩ := List.mem_filter.mp hlast
  exact congrArg some (hone _ (List.mem_filter.mp hlast).1 (of_decide_eq_true hport))

/-- What the attribution adds to a port is said of the same port. -/
theorem attribute_said {q : RemotePort} (hq : q ∈ dedupe (firstRows platform sections)) :
    SaidIn (rowLists platform sections).flatten (q.attribute (attribution (attributed platform sections))) := by
  have hown : SaidIn (rowLists platform sections).flatten q := (dedupe_said hq).mono firstRows_subset
  unfold RemotePort.attribute
  rw [property_attribution]
  cases hextra : ((attributed platform sections).filter (·.port = q.port)).getLast? with
  | none => exact hown
  | some extra =>
    obtain ⟨hmem, hport⟩ := List.mem_filter.mp (List.mem_of_getLast? hextra)
    have hsame : extra.port = q.port := of_decide_eq_true hport
    obtain ⟨hpid, hprocess⟩ := attributed_said hmem
    rw [hsame] at hpid hprocess
    constructor
    · intro pid h
      rcases Option.or_eq_some_iff.mp h with h | ⟨-, h⟩
      · exact hown.pid pid h
      · exact hpid pid h
    · intro process h
      rcases Option.or_eq_some_iff.mp h with h | ⟨-, h⟩
      · exact hown.process process h
      · exact hprocess process h

theorem attribute_read {q : RemotePort} (hq : q ∈ dedupe (firstRows platform sections)) :
    (q.attribute (attribution (attributed platform sections))).Read := by
  obtain ⟨hpid, hprocess⟩ := attribute_said hq
  obtain ⟨first, hfirst, hsame⟩ := List.mem_map.mp (mem_ports_dedupe.mp (List.mem_map_of_mem hq))
  refine ⟨?_, fun pid h => ?_, fun process h => ?_, ?_⟩
  · rw [port_attribute, ← hsame]
    exact (rowLists_read (firstRows_subset hfirst)).port
  · obtain ⟨row, hrow, -, hsaid⟩ := hpid pid h
    exact (rowLists_read hrow).pid pid hsaid
  · obtain ⟨row, hrow, -, hsaid⟩ := hprocess process h
    exact (rowLists_read hrow).process process hsaid
  · have hcwd : q.cwd = none := dedupe_cwd hq fun row hrow => (rowLists_read (firstRows_subset hrow)).cwd
    unfold RemotePort.attribute
    split
    · exact hcwd
    · exact hcwd

/-- The ports of a scan are those of the first listing that has any, each once and in order. A
process is one that a row of the same port names, and none that `ss` knows is lost. -/
theorem listeners_merged (platform : Platform) (stdout : Text) :
    let sections := splitSections stdout
    let merged := mergePortScanSections platform stdout
    merged.Pairwise (·.port < ·.port) ∧
      (∀ n, n ∈ merged.map (·.port) ↔ n ∈ (firstRows platform sections).map (·.port)) ∧
      ∀ p ∈ merged, p.Read ∧
        (∀ pid, p.pid = some pid →
          ∃ row ∈ (rowLists platform sections).flatten, row.port = p.port ∧ row.pid = some pid) ∧
        (∀ process, p.process = some process →
          ∃ row ∈ (rowLists platform sections).flatten, row.port = p.port ∧ row.process = some process) ∧
        ∀ row ∈ sectionRows sections (rowsOf (ssRow platform true)) SECTION_SS_TLNP,
          row.port = p.port → row.pid.isSome = true → p.pid.isSome = true := by
  dsimp only
  refine ⟨?_, fun n => ?_, ?_⟩
  · have hsorted := dedupe_sorted (firstRows platform (splitSections stdout))
    have hports : ((mergePortScanSections platform stdout).map (·.port)).Pairwise (· < ·) := by
      rw [ports_merged]
      exact List.pairwise_map.mpr hsorted
    exact List.pairwise_map.mp hports
  · rw [ports_merged]
    exact mem_ports_dedupe
  intro p hp
  rw [merged_eq] at hp
  generalize splitSections stdout = sections at hp ⊢
  obtain ⟨q, hq, rfl⟩ := List.mem_map.mp hp
  obtain ⟨hpid, hprocess⟩ := attribute_said hq
  refine ⟨attribute_read hq, hpid, hprocess, fun row hrow hrowPort hknown => ?_⟩
  -- the row that the listing is collapsed to knows a process as well
  have hmem : row.port ∈ (dedupe (sectionRows sections (rowsOf (ssRow platform true)) SECTION_SS_TLNP)).map (·.port) :=
    mem_ports_dedupe.mpr (List.mem_map_of_mem hrow)
  obtain ⟨collapsed, hcollapsed, hsame⟩ := List.mem_map.mp hmem
  have hcollapsedPid := dedupe_knows hcollapsed hrow hsame.symm hknown
  have hlast := attribution_ss hcollapsed hcollapsedPid
  rw [hsame, hrowPort, port_attribute] at hlast
  unfold RemotePort.attribute
  rw [hlast]
  dsimp only
  cases q.pid <;> simp [hcollapsedPid]

end

/-! ## Sections -/

variable {s : Sections}

theorem flush_eq_nil : s.flush = [] ↔ s.sections = [] ∧ s.current = none := by
  unfold Sections.flush
  split
  · next name hcurrent =>
    rw [hcurrent]
    refine iff_of_false (fun h => ?_) (fun h => by cases h.2)
    have hmem : name ∈ keys (assign name (Js.join [0x0a] s.buffer) s.sections) := Js.mem_keys_assign.mpr (.inl rfl)
    rw [h] at hmem
    cases hmem
  · next hcurrent => simp [hcurrent]

theorem flush_line (rawLine : Text) :
    (s.line rawLine).flush = [] ↔ s.flush = [] ∧ markerOf (Js.trim rawLine) = none := by
  rw [flush_eq_nil, flush_eq_nil]
  unfold Sections.line
  split
  · next name hmarker => simp [hmarker]
  · next hmarker =>
    rw [hmarker]
    split <;> simp

/-- There are no sections exactly when no line is a sentinel. -/
theorem splitSections_eq_nil {stdout : Text} :
    splitSections stdout = [] ↔ ∀ line ∈ linesOf stdout, markerOf (Js.trim line) = none := by
  have hrun : ∀ lines : List Text, (lines.foldl Sections.line ⟨[], none, []⟩).flush = [] ↔
      ∀ line ∈ lines, markerOf (Js.trim line) = none := by
    intro lines
    induction lines using List.reverseRecOn with
    | nil => simp [flush_eq_nil]
    | append_singleton lines line ih =>
      rw [List.foldl_append, List.foldl_cons, List.foldl_nil, flush_line, ih]
      simp [or_imp, forall_and]
  exact hrun _

/-- Nothing in the line ends it, and it is no sentinel. -/
structure Plain (line : Text) : Prop where
  feed : (0x0a : UInt16) ∉ line
  dropReturn : line.getLast? ≠ some 0x0d
  marker : markerOf (Js.trim line) = none

/-- What the command prints: a sentinel before each listing, and all lines ended. -/
def printed (listings : List (Text × List Text)) : Text :=
  (listings.flatMap fun p => (ascii "<<<" ++ p.1 ++ ascii ">>>") :: p.2).flatMap (· ++ [0x0a])

/-- The rows of lines that are not split any more. -/
def rowsIn (row : Text → Option RemotePort) (lines : List Text) : List RemotePort :=
  (lines.map Js.trim).filterMap fun line => if line = [] then none else row line

theorem dropReturn_self {line : Text} (h : line.getLast? ≠ some 0x0d) : dropReturn line = line := if_neg h

variable {lines : List Text}

theorem linesOf_printed (h : ∀ line ∈ lines, (0x0a : UInt16) ∉ line ∧ line.getLast? ≠ some 0x0d) :
    linesOf (lines.flatMap (· ++ [0x0a])) = lines ++ [[]] := by
  have hsplit : (lines.flatMap (· ++ [0x0a])).splitOn (0x0a : UInt16) = lines ++ [[]] := by
    induction lines with
    | nil => rfl
    | cons line lines ih =>
      rw [List.flatMap_cons, List.append_assoc, List.singleton_append,
        List.splitOn_append_cons_self_of_not_mem (h line List.mem_cons_self).1,
        ih fun l hl => h l (List.mem_cons_of_mem _ hl)]
      rfl
  unfold linesOf
  rw [hsplit]
  dsimp only
  rw [List.dropLast_concat, List.getLast?_concat]
  refine congrArg (· ++ _) ((List.map_congr_left fun line hline => ?_).trans (List.map_id _))
  exact dropReturn_self (h line hline).2

/-- The lines of a section are those that were joined. -/
theorem rowsOf_join {row : Text → Option RemotePort}
    (h : ∀ line ∈ lines, (0x0a : UInt16) ∉ line ∧ line.getLast? ≠ some 0x0d) :
    rowsOf row (Js.join [0x0a] lines) = rowsIn row lines := by
  by_cases hnil : lines = []
  · subst hnil
    rfl
  have hsplit : (Js.join [0x0a] lines).splitOn 0x0a = lines :=
    List.splitOn_intercalate _ (fun line hline => (h line hline).1) hnil
  have hlines : linesOf (Js.join [0x0a] lines) = lines := by
    unfold linesOf
    rw [hsplit]
    dsimp only
    have hmap : lines.dropLast.map dropReturn = lines.dropLast :=
      (List.map_congr_left fun line hline =>
        dropReturn_self (h line (List.mem_of_mem_dropLast hline)).2).trans (List.map_id _)
    rw [hmap, List.getLast?_eq_some_getLast hnil]
    exact List.dropLast_append_getLast hnil
  unfold rowsOf rowsIn
  rw [hlines]

theorem markerOf_sentinel {name : Text} (hne : name ≠ []) (hunits : name.all isSectionUnit = true) :
    markerOf (Js.trim (ascii "<<<" ++ name ++ ascii ">>>")) = some name := by
  have hopen : ascii "<<<" = [0x3c, 0x3c, 0x3c] := by decide
  have hclose : ascii ">>>" = [0x3e, 0x3e, 0x3e] := by decide
  rw [Js.trim_self]
  · unfold markerOf
    have hname : ((ascii "<<<" ++ name ++ ascii ">>>").drop 3).rdrop 3 = name := by
      rw [hopen, hclose, List.rdrop_eq_reverse_drop_reverse]
      simp
    dsimp only
    rw [hname, if_pos ⟨rfl, hne, hunits⟩]
  · rw [hopen]
    intro unit hunit
    obtain rfl : 0x3c = unit := Option.some.inj hunit
    decide
  · rw [hclose]
    intro unit hunit
    rw [List.getLast?_append] at hunit
    obtain rfl : 0x3e = unit := Option.some.inj hunit
    decide

/-- Lines that are no sentinels are kept for the section they stand in. -/
theorem foldl_plain (hs : s.current.isSome = true)
    (h : ∀ line ∈ lines, markerOf (Js.trim line) = none) :
    lines.foldl Sections.line s = { s with buffer := s.buffer ++ lines } := by
  induction lines generalizing s with
  | nil => rw [List.append_nil]; rfl
  | cons line lines ih =>
    have hline : s.line line = { s with buffer := s.buffer ++ [line] } := by
      unfold Sections.line
      rw [h line List.mem_cons_self]
      exact if_pos hs
    have hkept : ({ s with buffer := s.buffer ++ [line] } : Sections).current.isSome = true := hs
    rw [List.foldl_cons, hline, ih hkept fun l hl => h l (List.mem_cons_of_mem _ hl)]
    simp

theorem foldl_listing {name : Text} (hne : name ≠ [])
    (hunits : name.all isSectionUnit = true) (h : ∀ line ∈ lines, markerOf (Js.trim line) = none) :
    ((ascii "<<<" ++ name ++ ascii ">>>") :: lines).foldl Sections.line s = ⟨s.flush, some name, lines⟩ := by
  have hline : s.line (ascii "<<<" ++ name ++ ascii ">>>") = ⟨s.flush, some name, []⟩ := by
    unfold Sections.line
    rw [markerOf_sentinel hne hunits]
  rw [List.foldl_cons, hline, foldl_plain rfl h]
  rfl

theorem sectionRows_join {sections : List (Text × Text)} {row : Text → Option RemotePort} {name : Text}
    (lines : List Text) (hname : property name sections = some (Js.join [0x0a] lines))
    (h : ∀ line ∈ lines, (0x0a : UInt16) ∉ line ∧ line.getLast? ≠ some 0x0d) :
    sectionRows sections (rowsOf row) name = rowsIn row lines := by
  unfold sectionRows
  rw [hname]
  dsimp only
  rw [← rowsOf_join h]
  split
  · next hempty =>
    rw [hempty]
    rfl
  · rfl

/-- The line that the end of the output leaves is no row. -/
theorem rowsIn_snoc_nil (row : Text → Option RemotePort) (lines : List Text) :
    rowsIn row (lines ++ [[]]) = rowsIn row lines := by
  have htrim : Js.trim [] = [] := rfl
  unfold rowsIn
  rw [List.map_append, List.filterMap_append, List.map_singleton, htrim]
  exact List.append_nil _

theorem sections_apart : SECTION_SS_TLN ≠ SECTION_SS_TLNP ∧ SECTION_SS_TLN ≠ SECTION_NETSTAT_TLNP ∧
    SECTION_SS_TLN ≠ SECTION_NETSTAT_TLN ∧ SECTION_SS_TLNP ≠ SECTION_NETSTAT_TLNP ∧
      SECTION_SS_TLNP ≠ SECTION_NETSTAT_TLN ∧ SECTION_NETSTAT_TLNP ≠ SECTION_NETSTAT_TLN := by decide

theorem splitSections_printed {tln tlnp netstatTlnp netstatTln : List Text}
    (h : ∀ line ∈ tln ++ tlnp ++ netstatTlnp ++ netstatTln, Plain line) :
    splitSections (printed [(SECTION_SS_TLN, tln), (SECTION_SS_TLNP, tlnp),
        (SECTION_NETSTAT_TLNP, netstatTlnp), (SECTION_NETSTAT_TLN, netstatTln)]) =
      [(SECTION_SS_TLN, Js.join [0x0a] tln), (SECTION_SS_TLNP, Js.join [0x0a] tlnp),
        (SECTION_NETSTAT_TLNP, Js.join [0x0a] netstatTlnp),
        (SECTION_NETSTAT_TLN, Js.join [0x0a] (netstatTln ++ [[]]))] := by
  simp only [List.mem_append, or_imp, forall_and] at h
  obtain ⟨⟨⟨htln, htlnp⟩, hnetstatTlnp⟩, hnetstatTln⟩ := h
  have hnil : markerOf (Js.trim []) = none := by decide
  have hlast : ∀ line ∈ netstatTln ++ [[]], markerOf (Js.trim line) = none := by
    intro line hline
    rcases List.mem_append.mp hline with hline | hline
    · exact (hnetstatTln line hline).marker
    · obtain rfl := List.mem_singleton.mp hline
      exact hnil
  have hlines : linesOf (printed [(SECTION_SS_TLN, tln), (SECTION_SS_TLNP, tlnp),
        (SECTION_NETSTAT_TLNP, netstatTlnp), (SECTION_NETSTAT_TLN, netstatTln)]) =
      ((ascii "<<<" ++ SECTION_SS_TLN ++ ascii ">>>") :: tln) ++
        (((ascii "<<<" ++ SECTION_SS_TLNP ++ ascii ">>>") :: tlnp) ++
          (((ascii "<<<" ++ SECTION_NETSTAT_TLNP ++ ascii ">>>") :: netstatTlnp) ++
            ((ascii "<<<" ++ SECTION_NETSTAT_TLN ++ ascii ">>>") :: (netstatTln ++ [[]])))) := by
    unfold printed
    rw [linesOf_printed]
    · simp
    · simp only [List.flatMap_cons, List.flatMap_nil, List.append_nil, List.mem_append, List.mem_cons]
      have hplain : ∀ {lines : List Text}, (∀ line ∈ lines, Plain line) → ∀ line ∈ lines,
          (0x0a : UInt16) ∉ line ∧ line.getLast? ≠ some 0x0d := fun h line hline =>
        ⟨(h line hline).feed, (h line hline).dropReturn⟩
      rintro line ((rfl | hline) | (rfl | hline) | (rfl | hline) | rfl | hline)
      · decide
      · exact hplain htln line hline
      · decide
      · exact hplain htlnp line hline
      · decide
      · exact hplain hnetstatTlnp line hline
      · decide
      · exact hplain hnetstatTln line hline
  unfold splitSections
  rw [hlines, List.foldl_append, List.foldl_append, List.foldl_append,
    foldl_listing (by decide) (by decide) fun line hline => (htln line hline).marker,
    foldl_listing (by decide) (by decide) fun line hline => (htlnp line hline).marker,
    foldl_listing (by decide) (by decide) fun line hline => (hnetstatTlnp line hline).marker,
    foldl_listing (by decide) (by decide) hlast]
  unfold Sections.flush
  dsimp only
  obtain ⟨h12, h13, h14, h23, h24, h34⟩ := sections_apart
  simp only [assign, if_neg h12, if_neg h13, if_neg h14, if_neg h23, if_neg h24, if_neg h34]

/-- What the four listings print is read as the rows of each. -/
theorem printed_read (platform : Platform) (tln tlnp netstatTlnp netstatTln : List Text)
    (h : ∀ line ∈ tln ++ tlnp ++ netstatTlnp ++ netstatTln, Plain line) :
    rowLists platform (splitSections (printed [(SECTION_SS_TLN, tln), (SECTION_SS_TLNP, tlnp),
        (SECTION_NETSTAT_TLNP, netstatTlnp), (SECTION_NETSTAT_TLN, netstatTln)])) =
      [rowsIn (ssRow platform false) tln, rowsIn (netstatRow platform) netstatTln,
        rowsIn (netstatRow platform) netstatTlnp, rowsIn (ssRow platform true) tlnp] := by
  have hends : ∀ line ∈ tln ++ tlnp ++ netstatTlnp ++ (netstatTln ++ [[]]),
      (0x0a : UInt16) ∉ line ∧ line.getLast? ≠ some 0x0d := by
    intro line hline
    rw [← List.append_assoc] at hline
    rcases List.mem_append.mp hline with hline | hline
    · exact ⟨(h line hline).feed, (h line hline).dropReturn⟩
    · obtain rfl := List.mem_singleton.mp hline
      decide
  rw [splitSections_printed h]
  obtain ⟨h12, h13, h14, h23, h24, h34⟩ := sections_apart
  unfold rowLists
  rw [sectionRows_join tln (by simp [Js.property_cons]),
    sectionRows_join (netstatTln ++ [[]]) (by simp [Js.property_cons, h14, h24, h34]),
    sectionRows_join netstatTlnp (by simp [Js.property_cons, h13, h23]),
    sectionRows_join tlnp (by simp [Js.property_cons, h12]), rowsIn_snoc_nil]
  all_goals exact fun line hline => hends line (by simp [hline])

/-! ## The scan -/

section

variable {platform : Platform} {exec : ExecRequest → Except Text SshExecResult} {connection : SshConnectionRef}
  {options : PortScanOptions} {request : ExecRequest} {raw : SshExecResult}

/-- A script over numerals: nothing of it is read off the host but their units. -/
def IsCwdScript (command : Text) : Prop :=
  ∃ numerals : List Text, numerals ≠ [] ∧ (∀ numeral ∈ numerals, numeral ≠ [] ∧ numeral.all isNumeralUnit = true) ∧
    command = cwdScript numerals

theorem procCwdCommand_script {pids : List Nat} (h : procCwdCommand platform pids ≠ []) :
    IsCwdScript (procCwdCommand platform pids) := by
  have hsafe : pids.filter (0 < ·) ≠ [] := fun hnone => h (if_pos hnone)
  have hscript : procCwdCommand platform pids = cwdScript ((pids.filter (0 < ·)).map platform.numberText) :=
    if_neg hsafe
  refine ⟨_, ?_, fun numeral hnumeral => ?_, hscript⟩
  · rwa [Ne, List.map_eq_nil_iff]
  · obtain ⟨n, -, rfl⟩ := List.mem_map.mp hnumeral
    exact platform.numberText_units n

/-- `raw` is what the capability answers to this request over this connection. -/
def Answers (exec : ExecRequest → Except Text SshExecResult) (request : ExecRequest) (raw : SshExecResult) : Prop :=
  exec request = .ok raw ∧ raw.requestId = request.requestId ∧ raw.connection = request.connection

theorem execChecked_ok : execChecked exec request = .ok raw ↔ Answers exec request raw := by
  unfold execChecked Answers
  cases hexec : exec request with
  | error thrown => simp
  | ok result =>
    dsimp only
    split
    · next h =>
      rw [Except.ok.injEq]
      exact ⟨fun heq => ⟨heq, heq ▸ h⟩, fun h => h.1⟩
    · next h =>
      refine iff_of_false (by simp only [reduceCtorEq, not_false_eq_true]) fun ⟨heq, hecho⟩ => h ?_
      rw [Except.ok.injEq] at heq
      exact heq ▸ hecho

/-- A result is a listing exactly when the command ended well and a sentinel was printed. -/
theorem parsePortScanResult_ok : (parsePortScanResult platform raw).ok = true ↔
    raw.timedOut = false ∧ raw.exitCode = some 0 ∧
      ∃ line ∈ linesOf raw.stdout, (markerOf (Js.trim line)).isSome = true := by
  have hnil : splitSections raw.stdout = [] ↔
      ¬ ∃ line ∈ linesOf raw.stdout, (markerOf (Js.trim line)).isSome = true := by
    rw [splitSections_eq_nil]
    simp
  unfold parsePortScanResult
  split
  · next h => simp [failed, h]
  · next htimed =>
    split
    · next hexit => exact iff_of_false (by simp [failed]) fun h => hexit h.2.1
    · next hexit =>
      split
      · next hsections => exact iff_of_false (by simp [failed]) fun h => hnil.mp hsections h.2.2
      · next hsections =>
        refine iff_of_true rfl ⟨by simpa using htimed, not_not.mp hexit, ?_⟩
        exact not_not.mp fun h => hsections (hnil.mpr h)

theorem parsePortScanResult_failed (h : (parsePortScanResult platform raw).ok = false) :
    (parsePortScanResult platform raw).ports = [] ∧ (parsePortScanResult platform raw).error.isSome = true := by
  unfold parsePortScanResult at h ⊢
  split
  · exact ⟨rfl, rfl⟩
  · split
    · exact ⟨rfl, rfl⟩
    · split
      · exact ⟨rfl, rfl⟩
      · simp_all

theorem parsePortScanResult_ports (h : (parsePortScanResult platform raw).ok = true) :
    parsePortScanResult platform raw = ⟨true, mergePortScanSections platform raw.stdout, none⟩ := by
  unfold parsePortScanResult at h ⊢
  split at h
  · cases h
  · next htimed =>
    rw [if_neg htimed]
    split at h
    · cases h
    · next hexit =>
      rw [if_neg hexit]
      split at h
      · cases h
      · next hsections => rw [if_neg hsections]

/-- How a scan goes: no answer, an answer alone, or an answer and a script. -/
theorem scan_cases (platform : Platform) (exec : ExecRequest → Except Text SshExecResult)
    (connection : SshConnectionRef) (options : PortScanOptions) :
    (∃ thrown, (∀ raw, ¬ Answers exec (listenerRequest connection options) raw) ∧
        scanRemotePorts platform exec connection options = (failed thrown, [listenerRequest connection options])) ∨
      ∃ raw, Answers exec (listenerRequest connection options) raw ∧
        (scanRemotePorts platform exec connection options =
            (parsePortScanResult platform raw, [listenerRequest connection options]) ∨
          (parsePortScanResult platform raw).ok = true ∧ ∃ command, IsCwdScript command ∧ ∃ result,
            scanRemotePorts platform exec connection options =
                (result, [listenerRequest connection options, cwdRequest connection options command]) ∧
              (result = parsePortScanResult platform raw ∨
                ∃ answer, Answers exec (cwdRequest connection options command) answer ∧
                  result = { parsePortScanResult platform raw with
                    ports := (parsePortScanResult platform raw).ports.map
                      (RemotePort.label (parseProcCwds platform answer.stdout)) })) := by
  unfold scanRemotePorts
  dsimp only
  cases hfirst : execChecked exec (listenerRequest connection options) with
  | error thrown =>
    refine .inl ⟨thrown, fun raw h => ?_, rfl⟩
    rw [execChecked_ok.mpr h] at hfirst
    cases hfirst
  | ok raw =>
    refine .inr ⟨raw, execChecked_ok.mp hfirst, ?_⟩
    dsimp only
    split
    · exact .inl rfl
    · next hgo =>
      rw [Bool.or_eq_true, not_or, Bool.not_eq_true', Bool.not_eq_false, decide_eq_true_iff] at hgo
      refine .inr ⟨hgo.1, _, procCwdCommand_script hgo.2, ?_⟩
      cases hsecond : execChecked exec (cwdRequest connection options
          (procCwdCommand platform (pidsOf (parsePortScanResult platform raw).ports))) with
      | error thrown => exact ⟨_, rfl, .inl rfl⟩
      | ok answer => exact ⟨_, rfl, .inr ⟨answer, execChecked_ok.mp hsecond, rfl⟩⟩

theorem Answers.unique {other : SshExecResult} (h : Answers exec request raw) (h' : Answers exec request other) :
    raw = other := by
  have heq := h.1.symm.trans h'.1
  exact Except.ok.inj heq

theorem merged_read {stdout : Text} {p : RemotePort} (hp : p ∈ mergePortScanSections platform stdout) : p.Read := by
  rw [merged_eq] at hp
  obtain ⟨q, hq, rfl⟩ := List.mem_map.mp hp
  exact attribute_read hq

/-- A scan lists ports exactly when its first command was answered well over this connection. The
second command is a script over numerals, and it changes nothing but the directories: each is the
last one that it prints for the process. -/
theorem scan_settled (platform : Platform) (exec : ExecRequest → Except Text SshExecResult)
    (connection : SshConnectionRef) (options : PortScanOptions) :
    let first := listenerRequest connection options
    let scan := scanRemotePorts platform exec connection options
    (scan.1.ok = true ↔ ∃ raw, Answers exec first raw ∧ raw.timedOut = false ∧ raw.exitCode = some 0 ∧
        ∃ line ∈ linesOf raw.stdout, (markerOf (Js.trim line)).isSome = true) ∧
      (scan.1.ok = false → scan.1.ports = [] ∧ scan.1.error.isSome = true ∧ scan.2 = [first]) ∧
      (∀ raw, Answers exec first raw → scan.1.ok = true → scan.1.error = none ∧
        scan.1.ports.map (fun p => { p with cwd := none }) = mergePortScanSections platform raw.stdout) ∧
      (scan.2 = [first] ∧ (∀ p ∈ scan.1.ports, p.cwd = none) ∨
        ∃ command, IsCwdScript command ∧ scan.2 = [first, cwdRequest connection options command] ∧
          ∀ p ∈ scan.1.ports, ∀ cwd, p.cwd = some cwd →
            ∃ answer pid, Answers exec (cwdRequest connection options command) answer ∧ p.pid = some pid ∧
              (((linesOf answer.stdout).filterMap (cwdOf platform)).filter (·.1 = some pid)).getLast? =
                some (some pid, cwd)) := by
  dsimp only
  rcases scan_cases platform exec connection options with ⟨thrown, hnone, hscan⟩ | ⟨raw, hraw, hscan⟩
  · rw [hscan]
    refine ⟨iff_of_false (by simp [failed]) fun ⟨raw, hraw, _⟩ => hnone raw hraw, fun _ => ⟨rfl, rfl, rfl⟩,
      fun raw hraw => absurd hraw (hnone raw), .inl ⟨rfl, fun p hp => ?_⟩⟩
    cases hp
  have hok : (parsePortScanResult platform raw).ok = true ↔
      ∃ raw, Answers exec (listenerRequest connection options) raw ∧
      raw.timedOut = false ∧ raw.exitCode = some 0 ∧
        ∃ line ∈ linesOf raw.stdout, (markerOf (Js.trim line)).isSome = true := by
    rw [parsePortScanResult_ok]
    exact ⟨fun h => ⟨raw, hraw, h⟩, fun ⟨other, hother, h⟩ => hraw.unique hother ▸ h⟩
  -- Without a directory lookup the listing is the merged one, in which no row has a directory.
  have hports : ∀ other, Answers exec (listenerRequest connection options) other →
      (parsePortScanResult platform raw).ok = true → (parsePortScanResult platform raw).error = none ∧
        (parsePortScanResult platform raw).ports.map (fun p => { p with cwd := none }) =
          mergePortScanSections platform other.stdout := by
    intro other hother h
    rw [← hraw.unique hother, parsePortScanResult_ports h]
    refine ⟨rfl, (List.map_congr_left fun p hp => ?_).trans (List.map_id _)⟩
    show { p with cwd := none } = p
    rw [← (merged_read hp).cwd]
  have hplain : ∀ p ∈ (parsePortScanResult platform raw).ports, p.cwd = none := by
    intro p hp
    cases h : (parsePortScanResult platform raw).ok with
    | false =>
      rw [(parsePortScanResult_failed h).1] at hp
      cases hp
    | true =>
      rw [parsePortScanResult_ports h] at hp
      exact (merged_read hp).cwd
  rcases hscan with hscan | ⟨hlisted, command, hscript, result, hscan, hresult⟩
  · rw [hscan]
    refine ⟨hok, fun h => ?_, hports, .inl ⟨rfl, hplain⟩⟩
    obtain ⟨hempty, herror⟩ := parsePortScanResult_failed h
    exact ⟨hempty, herror, rfl⟩
  rw [hscan]
  dsimp only
  rcases hresult with rfl | ⟨answer, hanswer, rfl⟩
  · refine ⟨hok, fun h => absurd (hlisted.symm.trans h) (by decide), hports,
      .inr ⟨command, hscript, rfl, fun p hp cwd hcwd => ?_⟩⟩
    rw [hplain p hp] at hcwd
    cases hcwd
  · refine ⟨hok, fun h => absurd (hlisted.symm.trans h) (by decide), fun other hother h => ?_,
      .inr ⟨command, hscript, rfl, fun p hp cwd hcwd => ?_⟩⟩
    · obtain ⟨herror, hsame⟩ := hports other hother h
      refine ⟨herror, ?_⟩
      rw [← hsame]
      dsimp only
      rw [List.map_map]
      rfl
    · obtain ⟨q, hq, rfl⟩ := List.mem_map.mp hp
      obtain ⟨pid, hpid, hknown⟩ := Option.bind_eq_some_iff.mp hcwd
      refine ⟨answer, pid, hanswer, hpid, ?_⟩
      unfold parseProcCwds at hknown
      rw [property_last] at hknown
      obtain ⟨⟨key, text⟩, hlast, htext⟩ := Option.map_eq_some_iff.mp hknown
      obtain rfl : text = cwd := htext
      have hkey : key = some pid := of_decide_eq_true (List.mem_filter.mp (List.mem_of_getLast? hlast)).2
      rw [hlast, hkey]

/-- The ports of a scan that lists any are those of the first listing with a row. -/
theorem scan_listed (hok : (scanRemotePorts platform exec connection options).1.ok = true) :
    ∃ raw, Answers exec (listenerRequest connection options) raw ∧ raw.timedOut = false ∧ raw.exitCode = some 0 ∧
      ∀ n, n ∈ (scanRemotePorts platform exec connection options).1.ports.map (·.port) ↔
        n ∈ (firstRows platform (splitSections raw.stdout)).map (·.port) := by
  rcases scan_cases platform exec connection options with ⟨thrown, -, hscan⟩ | ⟨raw, hraw, hscan⟩
  · rw [hscan] at hok
    cases hok
  have hrest : (parsePortScanResult platform raw).ok = true ∧
      (scanRemotePorts platform exec connection options).1.ports.map (·.port) =
        (parsePortScanResult platform raw).ports.map (·.port) := by
    rcases hscan with hscan | ⟨hlisted, command, -, result, hscan, rfl | ⟨answer, -, rfl⟩⟩
    · rw [hscan] at hok ⊢
      exact ⟨hok, rfl⟩
    · rw [hscan]
      exact ⟨hlisted, rfl⟩
    · rw [hscan]
      refine ⟨hlisted, ?_⟩
      dsimp only
      rw [List.map_map]
      rfl
  obtain ⟨hlisted, hports⟩ := hrest
  obtain ⟨htimed, hexit, -⟩ := parsePortScanResult_ok.mp hlisted
  refine ⟨raw, hraw, htimed, hexit, fun n => ?_⟩
  rw [hports, parsePortScanResult_ports hlisted, ports_merged]
  exact mem_ports_dedupe

/-- A plan that was made of a scan gives up a tunnel nobody silenced only when the listing was
answered over this connection, names another port, and does not name this one. -/
theorem given_up_unlisted {input : PortForward.PortForwardPlanInput} {port : Nat}
    (hok : input.scan.ok = (scanRemotePorts platform exec connection options).1.ok)
    (hports : input.scan.ports = (scanRemotePorts platform exec connection options).1.ports.map fun p => (p.port : Int))
    (hclosed : (port : Int) ∈ (PortForward.planPortForwards input).closePorts)
    (hssh : (port : Int) ∉ input.sshConfigPorts) (hoff : input.forcedOff port = false)
    (hauto : input.autoEnabled = true) :
    ∃ raw, Answers exec (listenerRequest connection options) raw ∧ raw.timedOut = false ∧ raw.exitCode = some 0 ∧
      port ∉ (firstRows platform (splitSections raw.stdout)).map (·.port) ∧
        ∃ other ∈ (firstRows platform (splitSections raw.stdout)).map (·.port), other ≠ 0 := by
  cases PortForward.PortForwardPlanInput.closeReason hclosed hssh with
  | forcedOff h => exact absurd (hoff.symm.trans h) (by decide)
  | disabled h => exact absurd (hauto.symm.trans h) (by decide)
  | gone misses _ _ hmisses =>
    obtain ⟨hscan, ⟨other, hother, hvalid⟩, hmissing⟩ := hmisses
    obtain ⟨raw, hraw, htimed, hexit, hlisted⟩ := scan_listed (hok ▸ hscan)
    rw [hports] at hother hmissing
    -- A scan that lists nothing is not believed, hence the other port.
    refine ⟨raw, hraw, htimed, hexit, fun hmem => hmissing ?_, ?_⟩
    · obtain ⟨p, hp, rfl⟩ := List.mem_map.mp ((hlisted port).mpr hmem)
      exact List.mem_map_of_mem hp
    · obtain ⟨p, hp, rfl⟩ := List.mem_map.mp hother
      refine ⟨p.port, (hlisted _).mp (List.mem_map_of_mem hp), ?_⟩
      rintro hzero
      rw [hzero] at hvalid
      cases hvalid

end

/-! A host with one socket, whose process only `ss -tlnp` lists. -/

def asciiPlatform : Platform where
  toUpperCase text := text.map fun unit => if 0x61 ≤ unit && unit ≤ 0x7a then unit - 0x20 else unit
  double := some
  double_exact _ _ := rfl
  double_large n hn m hm := by
    obtain rfl : n = m := Option.some.inj hm
    exact hn
  numberText := Js.naturalText
  numberText_units n := by
    obtain ⟨unit, more, hnumeral, -⟩ := Js.natural_cons n
    refine ⟨by rw [hnumeral]; exact List.cons_ne_nil _ _, List.all_eq_true.mpr fun unit hunit => ?_⟩
    have hdigit : ∀ d < 10, isNumeralUnit (Js.digitUnit d) = true := by decide
    unfold Js.naturalText at hunit
    split at hunit
    · obtain rfl := List.mem_singleton.mp hunit
      decide
    · obtain ⟨d, hd, rfl⟩ := List.mem_map.mp hunit
      exact hdigit d (Nat.digits_lt_base (by decide) (List.mem_reverse.mp hd))

def listed : Text := ascii "LISTEN 0 128 [::]:8080 [::]:*"

def owned : Text := ascii "LISTEN 0 128 [::]:8080 [::]:* users:((\"node\",pid=42,fd=7))"

theorem printed_read_one : rowLists asciiPlatform (splitSections (printed [(SECTION_SS_TLN, [listed]),
    (SECTION_SS_TLNP, [owned]), (SECTION_NETSTAT_TLNP, []), (SECTION_NETSTAT_TLN, [])])) =
      [[⟨8080, none, none, none⟩], [], [], [⟨8080, some (ascii "node"), some 42, none⟩]] := by
  refine (printed_read asciiPlatform [listed] [owned] [] [] fun line hline => ?_).trans (by decide)
  have hcases : line = listed ∨ line = owned := by simpa using hline
  rcases hcases with rfl | rfl
  · exact ⟨by decide, by decide, by decide⟩
  · exact ⟨by decide, by decide, by decide⟩

def firstConnection : SshConnectionRef := ⟨ascii "c", ascii "g"⟩

def plainOptions : PortScanOptions where
  createRequestId n := Js.naturalText n

/-- The host answers the first command, and not the second. -/
def answering (request : ExecRequest) : Except Text SshExecResult :=
  if request.command = PORT_LISTENER_SCAN_COMMAND then
    .ok ⟨request.requestId, request.connection, printed [(SECTION_SS_TLN, [listed])], [], some 0, false⟩
  else .error []

/-- The tunnel of 9000 was missed once. -/
def afterScan : PortForward.PortForwardPlanInput where
  scan :=
    { ok := (scanRemotePorts asciiPlatform answering firstConnection plainOptions).1.ok
      ports := (scanRemotePorts asciiPlatform answering firstConnection plainOptions).1.ports.map
        fun p => (p.port : Int)
      error := none }
  activeForwards := [⟨9000, .auto⟩]
  desiredManualPorts := []
  intents := []
  sshConfigPorts := []
  autoEnabled := true
  priorMissingScans := [(9000, 1)]
  failedAt := []
  nowMs := 0
  config := {}

theorem given_up_unlisted_once : ∃ raw, Answers answering (listenerRequest firstConnection plainOptions) raw ∧
    9000 ∉ (firstRows asciiPlatform (splitSections raw.stdout)).map (·.port) := by
  have hok : afterScan.scan.ok = (scanRemotePorts asciiPlatform answering firstConnection plainOptions).1.ok := by
    simp only [afterScan]
  have hports : afterScan.scan.ports =
      (scanRemotePorts asciiPlatform answering firstConnection plainOptions).1.ports.map fun p => (p.port : Int) := by
    simp only [afterScan]
  have hclosed : ((9000 : Nat) : Int) ∈ (PortForward.planPortForwards afterScan).closePorts := by decide +kernel
  obtain ⟨raw, hraw, -, -, hmissing, -⟩ := given_up_unlisted hok hports hclosed (by decide) rfl rfl
  exact ⟨raw, hraw, hmissing⟩

end PocketShell.PortScan
