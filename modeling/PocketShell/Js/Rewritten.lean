import PocketShell.Js.Value

/-!
# Writing again what was read

* `StableNumber`: a number that was read of its own text is written as that text.
* `tokens_written`: so is every value.
* `SameText`: values of one text.
-/

namespace Js

variable {N : Type} [JsNumber N]

/-- The text of a number is the text of the number it is read as. -/
class StableNumber (N : Type) [JsNumber N] : Prop where
  write_read : ∀ (n : N) text, JsNumber.write n = some text →
    JsNumber.write (JsNumber.read text : N) = some text

instance : StableNumber Literal where
  write_read n text h := by
    cases h
    show some (if h : isNumber n.1 = true then (⟨n.1, h⟩ : Literal) else ⟨[0x30], by decide⟩).1 = some n.1
    rw [dif_pos n.2]

mutual

theorem tokens_written [StableNumber N] : ∀ v : Raw N, v.written.tokens = v.tokens
  | .null => rfl
  | .bool true => rfl
  | .bool false => rfl
  | .num n => by
    rw [Raw.written]
    cases h : JsNumber.write n with
    | none => simp only [Raw.tokens, h]
    | some text => simp only [Raw.tokens, h, StableNumber.write_read n text h]
  | .str _ => rfl
  | .arr items => by rw [Raw.written, Raw.tokens, Raw.tokens, itemTokens_written items]
  | .obj members => by rw [Raw.written, Raw.tokens, Raw.tokens, memberTokens_written members]
termination_by structural v => v

theorem itemTokens_written [StableNumber N] : ∀ (items : List (Raw N)) (before : List Token),
    itemTokens before (writtenItems items) = itemTokens before items
  | [], _ => rfl
  | v :: items, before => by
    rw [writtenItems, itemTokens, itemTokens, tokens_written v, itemTokens_written items]
termination_by structural items => items

theorem memberTokens_written [StableNumber N] : ∀ (members : List (Text × Raw N)) (before : List Token),
    memberTokens before (writtenMembers members) = memberTokens before members
  | [], _ => rfl
  | (key, v) :: members, before => by
    rw [writtenMembers, memberTokens, memberTokens, tokens_written v, memberTokens_written members]
termination_by structural members => members

end

namespace Json

/-- `v` and `w` are written as the same text. -/
def SameText (v w : Json N) : Prop := v.1.tokens = w.1.tokens

theorem SameText.refl {v : Json N} : SameText v v := rfl

theorem SameText.written [StableNumber N] {v : Json N} : SameText v.written v := tokens_written v.1

theorem SameText.arr {vs ws : List (Json N)} (h : List.Forall₂ SameText vs ws) :
    SameText (Json.arr vs) (Json.arr ws) := by
  have hitems : ∀ before, itemTokens before (vs.map Subtype.val) =
      itemTokens before (ws.map Subtype.val) := by
    induction h with
    | nil => exact fun _ => rfl
    | cons hv _ ih =>
      intro before
      have hv : _ = _ := hv
      rw [List.map_cons, List.map_cons, itemTokens, itemTokens, hv, ih]
  show Raw.tokens (.arr _) = Raw.tokens (.arr _)
  rw [Raw.tokens, Raw.tokens, hitems]

theorem SameText.obj {o o' : List (Text × Json N)} {once : (keys o).Nodup} {once' : (keys o').Nodup}
    (h : List.Forall₂ (fun p q => p.1 = q.1 ∧ SameText p.2 q.2) o o') :
    SameText (Json.obj o once) (Json.obj o' once') := by
  have hmembers : ∀ before, memberTokens before (o.map toMember) =
      memberTokens before (o'.map toMember) := by
    clear once once'
    induction h with
    | nil => exact fun _ => rfl
    | cons hp _ ih =>
      intro before
      obtain ⟨hk, hv⟩ := hp
      have hv : _ = _ := hv
      rw [List.map_cons, List.map_cons, toMember, toMember, memberTokens, memberTokens, hk, hv, ih]
  show Raw.tokens (.obj _) = Raw.tokens (.obj _)
  rw [Raw.tokens, Raw.tokens, hmembers]

theorem SameText.stringify {v w : Json N} (h : SameText v w) : JSON.stringify v = JSON.stringify w :=
  congrArg render h

end Json

end Js
