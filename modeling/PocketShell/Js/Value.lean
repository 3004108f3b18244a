import PocketShell.Js.RoundTrip

/-!
# JSON values by their parts

`Json.str`, `Json.arr` and `Json.obj` build values, `Json.view` takes them apart.
-/

namespace Js

variable {N : Type}

/-- Numbers that are kept as they were written. -/
abbrev Literal : Type := {text : Text // isNumber text = true}

instance : JsNumber Literal where
  read text := if h : isNumber text = true then ⟨text, h⟩ else ⟨[0x30], by decide⟩
  write n := some n.1
  write_isNumber n _ h := by
    cases h
    exact n.2

/-- The outermost part of a value. -/
inductive View (N : Type)
  | null
  | bool (b : Bool)
  | num (n : N)
  | str (s : Text)
  | arr (items : List (Json N))
  | obj (members : List (Text × Json N)) (once : (keys members).Nodup)

namespace Json

def ofMember (p : {p : Text × Raw N // p.2.Wf}) : Text × Json N := (p.1.1, ⟨p.1.2, p.2⟩)

def members (raw : List (Text × Raw N)) (h : WfMembers raw) : List (Text × Json N) :=
  (raw.attachWith (·.2.Wf) (wfMembers_iff.mp h)).map ofMember

theorem keys_members {raw : List (Text × Raw N)} (h : WfMembers raw) : keys (members raw h) = keys raw := by
  have hp : (Prod.fst ∘ ofMember : {p : Text × Raw N // p.2.Wf} → Text) = fun p => p.1.1 := rfl
  rw [keys, members, List.map_map, hp]
  exact List.attachWith_map_val (f := Prod.fst) _

def view : Json N → View N
  | ⟨.null, _⟩ => .null
  | ⟨.bool b, _⟩ => .bool b
  | ⟨.num n, _⟩ => .num n
  | ⟨.str s, _⟩ => .str s
  | ⟨.arr items, h⟩ => .arr (items.attachWith Raw.Wf (wfItems_iff.mp h))
  | ⟨.obj raw, h⟩ => .obj (members raw h.2) (by rw [keys_members]; exact h.1)

def null : Json N := ⟨.null, trivial⟩

def bool (b : Bool) : Json N := ⟨.bool b, trivial⟩

def str (s : Text) : Json N := ⟨.str s, trivial⟩

def num (n : N) : Json N := ⟨.num n, trivial⟩

def arr (items : List (Json N)) : Json N :=
  ⟨.arr (items.map Subtype.val), wfItems_iff.mpr fun v hv => by
    obtain ⟨w, _, rfl⟩ := List.mem_map.mp hv
    exact w.2⟩

def toMember (p : Text × Json N) : Text × Raw N := (p.1, p.2.1)

variable {o : List (Text × Json N)}

theorem keys_map_toMember : keys (o.map toMember) = keys o := by
  rw [keys, List.map_map]
  rfl

def obj (o : List (Text × Json N)) (once : (keys o).Nodup) : Json N :=
  ⟨.obj (o.map toMember), by rw [keys_map_toMember]; exact once, wfMembers_iff.mpr fun p hp => by
    obtain ⟨q, _, rfl⟩ := List.mem_map.mp hp
    exact q.2.2⟩

@[simp] theorem view_null : (null : Json N).view = .null := rfl

@[simp] theorem view_bool {b : Bool} : (bool b : Json N).view = .bool b := rfl

@[simp] theorem view_num {n : N} : (num n : Json N).view = .num n := rfl

@[simp] theorem view_str {s : Text} : (str s : Json N).view = .str s := rfl

theorem eq_of_view_str {v : Json N} {s : Text} (h : v.view = .str s) : v = .str s := by
  obtain ⟨raw, hw⟩ := v
  cases raw with
  | str t =>
    cases h
    rfl
  | _ => cases h

variable {items : List (Json N)}

@[simp] theorem view_arr : (arr items).view = .arr items := by
  have h : (items.map Subtype.val).attachWith Raw.Wf
      (wfItems_iff.mp (arr items).2) = items := by
    refine List.ext_getElem (by simp) fun i _ _ => Subtype.ext ?_
    simp
  exact congrArg View.arr h

theorem members_toMember (h : WfMembers (o.map toMember)) : members (o.map toMember) h = o := by
  refine List.ext_getElem (by simp [members]) fun i _ _ => ?_
  simp only [members, List.getElem_map, List.getElem_attachWith]
  rfl

@[simp] theorem view_obj {once : (keys o).Nodup} : (obj o once).view = .obj o once := by
  show View.obj (members (o.map toMember) _) _ = _
  congr 1
  exact members_toMember _

variable [JsNumber N]

@[simp] theorem written_null : (null : Json N).written = null := rfl

@[simp] theorem written_bool {b : Bool} : (bool b : Json N).written = bool b := rfl

@[simp] theorem written_str {s : Text} : (str s : Json N).written = str s := rfl

theorem writtenItems_eq {items : List (Raw N)} : writtenItems items = items.map Raw.written := by
  induction items with
  | nil => rfl
  | cons v items ih => rw [writtenItems, ih, List.map_cons]

theorem writtenMembers_eq {o : List (Text × Raw N)} :
    writtenMembers o = o.map fun p => (p.1, p.2.written) := by
  induction o with
  | nil => rfl
  | cons p o ih =>
    obtain ⟨key, v⟩ := p
    rw [writtenMembers, ih, List.map_cons]

@[simp] theorem written_arr : (arr items).written = arr (items.map written) := by
  refine Subtype.ext ?_
  show Raw.arr (writtenItems (items.map Subtype.val)) = Raw.arr ((items.map written).map Subtype.val)
  rw [writtenItems_eq, List.map_map, List.map_map]
  rfl

theorem keys_written : keys (o.map fun p => (p.1, p.2.written)) = keys o := by
  rw [keys, List.map_map]
  rfl

@[simp] theorem written_obj {once : (keys o).Nodup} :
    (obj o once).written = obj (o.map fun p => (p.1, p.2.written)) (by rw [keys_written]; exact once) := by
  refine Subtype.ext ?_
  show Raw.obj (writtenMembers (o.map toMember)) =
    Raw.obj ((o.map fun p => (p.1, p.2.written)).map toMember)
  rw [writtenMembers_eq, List.map_map, List.map_map]
  rfl

/-- An object is read as it was written when its properties are. -/
theorem written_obj_self (once : (keys o).Nodup)
    (h : ∀ p ∈ o, p.2.written = p.2) : (obj o once).written = obj o once := by
  have hmap : (o.map fun p => (p.1, p.2.written)) = o := by
    refine (List.map_congr_left fun p hp => ?_).trans (List.map_id o)
    rw [h p hp]
    rfl
  rw [written_obj]
  simp only [hmap]

theorem written_arr_self (h : ∀ v ∈ items, v.written = v) : (arr items).written = arr items := by
  rw [written_arr, List.map_congr_left (g := id) h, List.map_id]

end Json

end Js
