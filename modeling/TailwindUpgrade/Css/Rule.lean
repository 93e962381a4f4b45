/-
TailwindUpgrade/Css/Rule.lean

Rules and declarations read from component values, and the library for CSS that this makes.

A declaration is a name, a colon and a value; an exclamation mark and `important` at its very end
belong to no value. A block in braces may only stand first in a value.
-/
import TailwindUpgrade.Css.Nesting
import TailwindUpgrade.Css.Write

namespace TailwindUpgrade.Css

/-! ### Rules -/

/-- Whether a node ends what stands before the block of an at-rule: the block, or a semicolon. -/
def endsPrelude (node : Node) : Bool := node.braces?.isSome || node.isMark ";"

/-- Reads an at-rule from after its keyword, and gives the number of nodes taken. -/
def atRule (name : Text) (after : List Node) : AtRule × Nat :=
  let prelude := after.takeWhile fun node => !endsPrelude node
  match after.drop prelude.length with
  | [] => (⟨name, prelude, none⟩, prelude.length)
  | node :: _ => (⟨name, prelude, node.braces?⟩, prelude.length + 1)

/-- Whether a node is skipped between the rules of a stylesheet. -/
def separatesRules (node : Node) : Bool :=
  node.isWhitespace || node.isMark "<!--" || node.isMark "-->"

/-- The rules of a stylesheet. One without a block takes all that follows with it. -/
def rules : List Node → List Rule
  | [] => []
  | node :: rest =>
    if separatesRules node then rules rest
    else
      match node with
      | .leaf (.atKeyword name) =>
        let (rule, n) := atRule name rest
        .atRule rule :: rules (rest.drop n)
      | .block .curly body => .qualified [] body :: rules rest
      | first =>
        let more := rest.takeWhile fun node => node.braces?.isNone
        match (rest.drop more.length).head?.bind Node.braces? with
        | some body => .qualified (first :: more) body :: rules (rest.drop (more.length + 1))
        | none => [.unreadable "EOF reached before \x7b\x7d block for a qualified rule."]
termination_by nodes => nodes.length
decreasing_by all_goals simp only [List.length_drop, List.length_cons]; omega

/-- The rules of a CSS text. -/
def stylesheet (text : Text) : List Rule := rules (nodes text)

/-! ### Declarations -/

/-- How far the end of a value looks like the mark of importance. -/
inductive Importance where
  | value
  | bang
  | important
  deriving DecidableEq

/-- What is known of a value after some of its nodes: how its end looks, at how many nodes the last
exclamation mark stood, whether anything but whitespace was part of the value itself, and whether a
block in braces came after that. -/
structure ValueState where
  ending : Importance
  bangAt : Nat
  nonempty : Bool
  lateBlock : Bool

/-- Whether a node is the word `important`, in any case. -/
def isImportant : Node → Bool
  | .leaf (.ident name) => name.map CodePoint.toLower == "important"
  | _ => false

/-- Takes the node at place `i` of a value. -/
def ValueState.take (state : ValueState) (i : Nat) (node : Node) : ValueState :=
  if state.ending = .value ∧ node.isMark "!" then { state with ending := .bang, bangAt := i }
  else if state.ending = .bang ∧ isImportant node then { state with ending := .important }
  else if node.isWhitespace then state
  else
    { state with
      ending := .value
      nonempty := true
      lateBlock := state.lateBlock || (node.braces?.isSome && state.nonempty) }

/-- What is known of a value after all of its nodes, `i` being the place of the first one. -/
def ValueState.takeAll (state : ValueState) (i : Nat) : List Node → ValueState
  | [] => state
  | node :: rest => (state.take i node).takeAll (i + 1) rest

/-- The declaration of a name with a value, unless a block stands late in the value. -/
def declare (name : Text) (value : List Node) : BodyItem :=
  let state := ValueState.takeAll ⟨.value, 0, false, false⟩ 0 value
  if state.lateBlock then .unreadable
  else if state.ending = .important then .declaration ⟨name, value.take state.bangAt, true⟩
  else .declaration ⟨name, value, false⟩

/-- The declaration that nodes up to a semicolon make. -/
def declaration (first : Node) (more : List Node) : BodyItem :=
  match first, more.dropWhile Node.isWhitespace with
  | .leaf (.ident name), colon :: value =>
    if colon.isMark ":" then declare name value else .unreadable
  | _, _ => .unreadable

/-- The declarations and at-rules in the body of a rule. -/
def bodyItems : List Node → List BodyItem
  | [] => []
  | node :: rest =>
    if node.isWhitespace || node.isMark ";" then bodyItems rest
    else
      match node with
      | .leaf (.atKeyword name) =>
        let (rule, n) := atRule name rest
        .atRule rule :: bodyItems (rest.drop n)
      | first =>
        let more := rest.takeWhile fun node => !node.isMark ";"
        declaration first more :: bodyItems (rest.drop (more.length + 1))
termination_by nodes => nodes.length
decreasing_by all_goals simp only [List.length_drop, List.length_cons]; omega

/-! ### Writing -/

/-- The text of an at-rule: one without a block ends with a semicolon. -/
def AtRule.write (rule : AtRule) : Text :=
  let body := match rule.body with
    | none => ";"
    | some body => "\x7b" ++ Css.write body ++ "\x7d"
  "@" ++ writeIdent rule.name ++ Css.write rule.prelude ++ body

/-- The library that is used. -/
def library : Library where
  stylesheet := stylesheet
  bodyItems := bodyItems
  bodyItemsOfText text := bodyItems (nodes text)
  write := write
  writeRule := AtRule.write

end TailwindUpgrade.Css
