/-
TailwindUpgrade/Proofs/Config/Schema.lean

The form of the parts of a configuration.  What becomes a part of the new stylesheet is looked up by
name and taken for a text, a list or an object; these are the forms on which that succeeds.  A field
that may be missing is only said something about if it is there (`MayHave`).
-/
import TailwindUpgrade.Literal.Value

namespace TailwindUpgrade.Config

/-- A field that may be missing is of a given form if it is there. -/
def MayHave (name : Text) (P : Value → Prop) (fields : Record Value) : Prop :=
  ∀ v, Record.get? name fields = some v → P v

/-- A text. -/
inductive IsText : Value → Prop
  | str (text : Text) : IsText (.str text)

/-- Screens, the widths of which are texts. -/
inductive IsScreens : Value → Prop
  | object {fields : Record Value} :
      (∀ field ∈ fields, IsText field.2) → IsScreens (.object fields)

/-- Typography with an object for the default style. -/
inductive IsTypography : Value → Prop
  | object {fields style css : Record Value} :
      Record.get? "DEFAULT" fields = some (.object style) →
      Record.get? "css" style = some (.object css) → IsTypography (.object fields)

/-- What may extend a theme. -/
inductive IsExtend : Value → Prop
  | object {fields : Record Value} :
      MayHave "typography" IsTypography fields → IsExtend (.object fields)

/-- The themes that daisyUI takes. -/
inductive IsThemes : Value → Prop
  | all (b : Bool) : IsThemes (.bool b)
  | one (name : Text) : IsThemes (.str name)
  | list (items : List Value) : IsThemes (.array items)

/-- The settings of daisyUI. -/
inductive IsDaisy : Value → Prop
  | object {fields : Record Value} {themes : Value} :
      Record.get? "themes" fields = some themes → IsThemes themes →
      MayHave "darkTheme" IsText fields → IsDaisy (.object fields)

end TailwindUpgrade.Config
