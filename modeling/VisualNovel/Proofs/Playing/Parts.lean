import VisualNovel.Proofs.Playing.Calls

/-!
This module contains the parts of which the playing of a tag is composed. What holds of the parts, and of all
that is composed of such parts, holds of the whole.
-/

namespace VisualNovel

variable {H : Type}

namespace Conductor

/--
A conductor whose first call has been made from within other calls.
-/
def above (c : Conductor H) (others : List Cursor) : Conductor H :=
  { c with callers := c.callers ++ others }

end Conductor

namespace Conducting

/--
A property that the parts have, and what is composed of them.
-/
structure Compositional (P : (α : Type) → Conducting H α → Prop) : Prop where
  pure {α : Type} (a : α) : P α (pure a)
  bind {α β : Type} {x : Conducting H α} {f : α → Conducting H β} : P α x → (∀ a, P β (f a)) → P β (x >>= f)
  throw {α : Type} {e : ConductorError} : e ≠ .noScript → P α (throw e)
  modify {f : Conductor H → Conductor H} : (∀ c others, f (c.above others) = (f c).above others) →
    (∀ c, ∃ library vars printed status latestMark, f c = { c with library, vars, printed, status, latestMark }) →
    P Unit (modify f)
  onVariables {α : Type} (f : Option Fields → ExceptT CursorError (StateM Variables) α) : P α (onVariables f)
  onScene {α : Type} (p : Play α) : P α (onScene p)
  jump (tag : Tag) (mode : EntryMode) : P Unit (jump tag mode)
  runAction (tag : Tag) : P Unit (runAction tag)

namespace Compositional

variable {P : (α : Type) → Conducting H α → Prop} (h : Compositional P)

include h

theorem requireString (tag : Tag) (values : Fields) (key : String)
    : P String (requireString tag values key) := by
  unfold Conducting.requireString
  split
  . apply h.pure
  . apply h.throw
    exact nofun

theorem loopCount (tag : Tag) (values : Fields) : P Nat (loopCount tag values) := by
  unfold Conducting.loopCount
  split
  . apply h.throw
    exact nofun
  . dsimp only
    split
    . apply h.pure
    . apply h.throw
      exact nofun

theorem runScript (tag : Tag) : P Unit (runScript tag) := by
  unfold Conducting.runScript
  apply h.bind (h.onVariables _)
  intro value
  split
  . exact h.modify (fun _ _ => rfl) fun _ => ⟨_, _, _, _, _, rfl⟩
  . apply h.pure

theorem dispatch {tag : Tag} (hback : tag.directive? = some .back → P Unit (back tag)) : P Unit (dispatch tag) := by
  unfold Conducting.dispatch
  cases hdirective : tag.directive? with
  | none => exact h.runAction tag
  | some d =>
    cases d with
    | char | lineBreak => exact h.runAction tag
    | label => exact h.pure _
    | saveMark | stop => exact h.modify (fun _ _ => rfl) fun _ => ⟨_, _, _, _, _, rfl⟩
    | script => exact h.runScript tag
    | ifThen => exact h.bind (h.requireString _ _ _) fun _ => h.onScene _
    | elsif | otherwise | endIf | endFor | breakFor => exact h.onScene _
    | forLoop =>
      apply h.bind (h.onVariables _)
      intro values
      exact h.bind (h.loopCount tag values) fun _ => h.onScene _
    | define =>
      apply h.bind (h.onVariables _)
      intro values
      apply h.bind (h.requireString tag values _)
      intro name
      exact h.bind (h.onScene _) fun _ => h.modify (fun _ _ => rfl) fun _ => ⟨_, _, _, _, _, rfl⟩
    | endDefine =>
      apply h.throw
      exact nofun
    | jump => exact h.jump tag .jump
    | call => exact h.jump tag .call
    | back => exact hback hdirective

end Compositional
end Conducting
end VisualNovel
