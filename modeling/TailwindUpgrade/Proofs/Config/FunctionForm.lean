/-
TailwindUpgrade/Proofs/Config/FunctionForm.lean

Typography that is given by a function.  What counts is the object that the function returns: the
parameters are passed over, whatever they are (`afterArrow?_append`), and the round brackets around
the result are taken off with the blanks inside and behind them (`insideParens_append`), but nothing
of the object is, be it well formed or not.

Main result: a reader answers a function as it answers the object by itself, whatever it keeps from
before, and with the same warnings down to the positions in them (`answer_function`).
-/
import TailwindUpgrade.Config.Reader
import TailwindUpgrade.Proofs.Config.Isolation

namespace TailwindUpgrade.Config

open Text (AllBlank Trimmed)

variable {parameters object source before behind s : Text}

/-! ### Functions -/

/-- The parameters of a function: a name, or any text in round brackets that closes none. -/
inductive IsParameters : Text → Prop
  | name {name : Text} : IsIdentifier name → IsParameters name
  | brackets {inside : Text} :
      .char ')' ∉ inside → IsParameters (.char '(' :: (inside ++ [.char ')']))

/-- A function that returns an object, which stands in round brackets. -/
inductive Returns (object : Text) : Text → Prop
  | arrow {parameters beforeArrow behindArrow before behind last : Text} :
      IsParameters parameters → AllBlank beforeArrow → AllBlank behindArrow → AllBlank before →
      AllBlank behind → AllBlank last →
      Returns object (parameters ++ beforeArrow ++ "=>" ++ behindArrow ++ "(" ++ before ++ object ++
        behind ++ ")" ++ last)

/-! ### What is taken off -/

/-- A blank or an arrow does not go on with a name. -/
theorem not_part_of_arrow (hbefore : AllBlank before) (s : Text) :
    ∀ c ∈ (before ++ .char '=' :: s).head?, Text.isIdentifierPart c = false := by
  intro c hc
  cases before with
  | nil =>
    obtain rfl : CodePoint.char '=' = c := Option.some.inj hc
    decide +kernel
  | cons d before =>
    obtain rfl : d = c := Option.some.inj hc
    exact (Text.isKeyPart_eq_false.1 (Text.isKeyPart_of_isBlank (hbefore d List.mem_cons_self))).1

/-- Parameters are passed over with the arrow behind them and the blanks around it. -/
theorem afterArrow?_append (hparameters : IsParameters parameters) (hbefore : AllBlank before)
    (s : Text) :
    afterArrow? (parameters ++ (before ++ .char '=' :: .char '>' :: s)) =
      some (Text.stripStart s) := by
  have hstrip : Text.stripStart (before ++ .char '=' :: .char '>' :: s) =
      .char '=' :: .char '>' :: s := by
    rw [Text.stripStart, List.dropWhile_append_of_pos hbefore]
    rfl
  have harrow : (Text.after? "=>" (Text.stripStart (before ++ .char '=' :: .char '>' :: s))).bind
      (fun s => some (Text.stripStart s)) = some (Text.stripStart s) := by
    rw [hstrip]
    rfl
  cases hparameters with
  | @name name hname =>
    have hidentifier := hname.identifier?_append (not_part_of_arrow hbefore (.char '>' :: s))
    obtain ⟨c, r, rfl, hc, -⟩ := hname.exists_cons
    rw [List.cons_append] at hidentifier ⊢
    rw [afterArrow?, hidentifier]
    · exact harrow
    · -- a name begins with no bracket
      intro rest hbracket
      obtain ⟨rfl, -⟩ := List.cons.inj hbracket
      exact absurd hc (by decide)
  | @brackets inside hinside =>
    have hdrop : (inside ++ .char ')' :: (before ++ .char '=' :: .char '>' :: s)).dropWhile
        (· ≠ CodePoint.char ')') = .char ')' :: (before ++ .char '=' :: .char '>' :: s) := by
      apply Text.dropWhile_append_stop
      · intro c hc
        have hne : c ≠ .char ')' := fun h => hinside (h ▸ hc)
        simpa using hne
      · rintro c ⟨⟩
        rfl
    rw [List.cons_append, List.append_assoc, List.singleton_append]
    show ((Text.after? ")" ((inside ++ CodePoint.char ')' :: _).dropWhile
      (· ≠ CodePoint.char ')'))).bind _) = _
    rw [hdrop]
    exact harrow

/-- Round brackets are taken off with the blanks inside them. -/
theorem insideParens_append (hfirst : ∀ c ∈ object.head?, Text.isBlank c = false)
    (hlast : Trimmed object) (hbefore : AllBlank before) (hbehind : AllBlank behind) :
    insideParens (.char '(' :: (before ++ (object ++ behind) ++ [.char ')'])) = object := by
  have hbrackets : (CodePoint.char '(' :: (before ++ (object ++ behind) ++ [.char ')'])).head? =
        some (.char '(') ∧
      (CodePoint.char '(' :: (before ++ (object ++ behind) ++ [.char ')'])).getLast? =
        some (.char ')') := by
    rw [← List.cons_append, List.getLast?_concat]
    exact ⟨rfl, rfl⟩
  rw [insideParens, if_pos hbrackets, List.drop_one, List.tail_cons, List.dropLast_concat,
    Text.strip_blanks_append hbefore hbehind hfirst hlast]

/-- The source of the typography that a function gives is the object that it returns. -/
theorem typographySource_of_returns (hfirst : ∀ c ∈ object.head?, Text.isBlank c = false)
    (hlast : Trimmed object) (h : Returns object source) : typographySource source = object := by
  cases h with
  | @arrow parameters beforeArrow behindArrow before behind last hparameters hbeforeArrow
      hbehindArrow hbefore hbehind hend =>
    -- the result in its brackets, with blanks before and behind it
    let result : Text := .char '(' :: (before ++ (object ++ behind) ++ [.char ')'])
    have htext : parameters ++ beforeArrow ++ "=>" ++ behindArrow ++ "(" ++ before ++ object ++
        behind ++ ")" ++ last =
        parameters ++
          (beforeArrow ++ .char '=' :: .char '>' :: (behindArrow ++ (result ++ last))) := by
      simp [result, Text.ofString]
    have hresult : Text.strip (behindArrow ++ (result ++ last)) = result := by
      refine Text.strip_blanks_append hbehindArrow hend ?_ ?_
      · rintro c ⟨⟩
        decide
      · have htrimmed : Trimmed (.char '(' :: (before ++ (object ++ behind)) ++ [.char ')']) :=
          Text.trimmed_concat (by decide)
        exact htrimmed
    have harrow := afterArrow?_append hparameters hbeforeArrow (behindArrow ++ (result ++ last))
    rw [htext, typographySource, harrow]
    show insideParens (Text.strip (Text.stripStart (behindArrow ++ (result ++ last)))) = object
    rw [Text.strip_stripStart, hresult]
    exact insideParens_append hfirst hlast hbefore hbehind

/-- An object that is given by itself is its own source. -/
theorem typographySource_of_brace (hobject : Text.beginsWith "\x7b" object = true) :
    typographySource object = object := by
  obtain ⟨rest, rfl⟩ := List.isPrefixOf_iff_prefix.1 hobject
  rfl

/-- **A function counts for what it returns.**  Typography that is given by a function is the object
in the round brackets behind its arrow, whatever its parameters are and whatever blanks stand around
the arrow, inside the brackets and behind them.  A reader answers it as it answers the object by
itself, from what it keeps and with what it keeps afterwards, its warnings included, even if the
object is malformed. -/
theorem answer_function (hobject : Text.beginsWith "\x7b" object = true) (htrimmed : Trimmed object)
    (h : Returns object source) :
    typographySource source = object ∧ typographySource object = object ∧
      ∀ reader : Reader,
        reader.answer (.part .typography source) = reader.answer (.part .typography object) := by
  have hfirst : ∀ c ∈ object.head?, Text.isBlank c = false := by
    obtain ⟨rest, rfl⟩ := List.isPrefixOf_iff_prefix.1 hobject
    rintro c ⟨⟩
    decide
  have hsource := typographySource_of_returns hfirst htrimmed h
  have hself := typographySource_of_brace hobject
  refine ⟨hsource, hself, fun reader => ?_⟩
  have hread : Part.read reader.bindings source .typography =
      Part.read reader.bindings object .typography := by
    rw [Part.read, Part.read, typography, typography, hsource, hself]
  rw [Reader.answer, Reader.answer, Reader.readPart, Reader.readPart, hread]

/-- A malformed object with brackets and an arrow of its own, as it is returned for parameters in
brackets and for a name.  The position in the warning is that in the object. -/
theorem answer_function_malformed :
    let object : Text := "\x7b DEFAULT: (x) => (y], css: ("
    let answer : Except Refusal Value × Reader :=
      (.ok noTypography, ⟨[], ["Could not parse theme.extend.typography: " ++
        "Expected ')' but found ']' at position 20"], []⟩)
    Reader.fresh.answer (.part .typography object) = answer ∧
      Reader.fresh.answer (.part .typography
        "(\x7b theme \x7d)\n=> ( \x7b DEFAULT: (x) => (y], css: ( ) ") = answer ∧
      Reader.fresh.answer (.part .typography
        "$t=>(\x7b DEFAULT: (x) => (y], css: ()") = answer := by
  intro object answer
  have hobject : Text.beginsWith "\x7b" object = true := by decide
  have htrimmed : Trimmed object := by
    rintro c ⟨⟩
    decide
  have hspace : AllBlank (" " : Text) := Text.allBlank_spaces 1
  have hbrackets : Returns object "(\x7b theme \x7d)\n=> ( \x7b DEFAULT: (x) => (y], css: ( ) " :=
    @Returns.arrow object "(\x7b theme \x7d)" "\n" " " " " " " " "
      (@IsParameters.brackets "\x7b theme \x7d" (by decide)) Text.allBlank_lineFeed hspace hspace
      hspace hspace
  have hname : Returns object "$t=>(\x7b DEFAULT: (x) => (y], css: ()" :=
    @Returns.arrow object "$t" [] [] [] [] [] (.name (by decide)) Text.allBlank_nil
      Text.allBlank_nil Text.allBlank_nil Text.allBlank_nil Text.allBlank_nil
  have hanswer : Reader.fresh.answer (.part .typography object) = answer := by decide +kernel
  exact ⟨hanswer, ((answer_function hobject htrimmed hbrackets).2.2 _).trans hanswer,
    ((answer_function hobject htrimmed hname).2.2 _).trans hanswer⟩

end TailwindUpgrade.Config
