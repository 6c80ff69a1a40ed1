/-
Module: CallAtlas.Scan.Parameter
Purpose: The names in a list of parameters.
Main definitions: splitTopLevel, ParameterStyle.names
-/
import CallAtlas.Pattern.Search
import CallAtlas.Pattern.Vocabulary
import CallAtlas.Scan.Grammar
import CallAtlas.Text.Words

namespace CallAtlas

open Pattern in
/-- An annotation with its arguments. -/
def annotationTag : Pattern :=
  char '@' ++ (wordOr ".").plus ++ (gap ++ char '(' ++ (noneOf ")").star ++ char ')').opt

open Pattern in
/-- An annotation, or an attribute in square brackets. -/
def annotationOrAttribute : Pattern :=
  annotationTag <|> (char '[' ++ (noneOf "]").star ++ char ']')

/-- Whether a character opens a bracket, angle brackets included. -/
def opensGroup (c : Char) : Bool := c == '(' || c == '<' || c == '[' || c == '{'

/-- Whether a character closes a bracket, angle brackets included. -/
def closesGroup (c : Char) : Bool := c == ')' || c == '>' || c == ']' || c == '}'

/-- The pieces between the commas at depth zero.  A bracket that closes nothing is passed over. -/
def splitAtDepth (depth : Nat) : Text → List Text
  | [] => [[]]
  | c :: t =>
    if c == ',' && depth = 0 then [] :: splitAtDepth 0 t
    else
      let depth' := if opensGroup c then depth + 1 else if closesGroup c then depth - 1 else depth
      match splitAtDepth depth' t with
      | [] => [[c]]
      | piece :: pieces => (c :: piece) :: pieces

/-- The parts between the commas outside brackets, trimmed; empty ones are left out. -/
def splitTopLevel (t : Text) : List Text :=
  ((splitAtDepth 0 t).map Text.trim).filter fun part => !part.isEmpty

/-- The text before the first `=` outside brackets that is not part of `=>`. -/
def beforeDefault (depth : Nat) : Text → Text
  | [] => []
  | c :: t =>
    if c == '=' && depth = 0 && t.head? != some '>' then []
    else
      let depth' := if opensGroup c then depth + 1 else if closesGroup c then depth - 1 else depth
      c :: beforeDefault depth' t

/-- A parameter without its default value. -/
def withoutDefault (parameter : Text) : Text := (beforeDefault 0 parameter).trim

/-- Words before a type that do not belong to it. -/
def typedModifiers : List String :=
  ["final", "ref", "out", "in", "params", "this", "readonly", "scoped"]

/-- Words before a name that do not belong to it. -/
def namedModifiers : List String := ["public", "private", "protected", "readonly", "override"]

/-- Words between `TYPE` or `LIKE` and the type itself. -/
def typeWords : List String :=
  ["ref", "to", "standard", "sorted", "hashed", "table", "of", "line", "range"]

/-- A text, unless it is empty. -/
def nonEmpty? (t : Text) : Option String := if t.isEmpty then none else some (String.ofList t)

/-- The name in a parameter whose type comes first. -/
def nameAfterType? (parameter : Text) : Option String := do
  let cleaned := withoutDefault (annotationOrAttribute.replaceAll [' '] parameter)
  let last ←
    (cleaned.words.filter fun w => !typedModifiers.contains (String.ofList w)).getLast?
  nonEmpty? (Text.dropRepeatedEnd ['[', ']'] (Text.dropRepeated ['.', '.', '.'] last))

/-- A parameter without the modifiers at its front; none if nothing else is there.  `fuel` is the
parameter itself: every modifier takes some of it. -/
def withoutModifiers? : Text → Text → Option Text
  | fuel, t =>
    match t.words with
    | [] => none
    | w :: _ =>
      if namedModifiers.contains (String.ofList w) then
        match fuel with
        | [] => none
        | _ :: fuel => withoutModifiers? fuel (Text.trimStart (t.trimStart.drop w.length))
      else some t

/-- The text up to and with the last occurrence of a character; all of it if there is none. -/
def throughLast (c : Char) (t : Text) : Text :=
  match t.reverse.dropWhile (· != c) with
  | [] => t
  | kept => kept.reverse

/-- The name in a parameter whose type comes last.  A destructured parameter is its own name. -/
def nameBeforeType? (parameter : Text) : Option String := do
  let cleaned := withoutDefault (annotationTag.replaceAll [' '] parameter)
  let t ← withoutModifiers? cleaned cleaned
  match t with
  | '{' :: _ => some (String.ofList (throughLast '}' t).collapse)
  | '[' :: _ => some (String.ofList (throughLast ']' t).collapse)
  | _ =>
    let token ← t.words.head?
    let front := token.takeWhile (· != ':')
    nonEmpty? (Text.dropRepeatedEnd ['?'] (Text.dropRepeated ['.', '.', '.'] front))

/-- The name in a token of a section: `VALUE(x)` stands for `x`. -/
def sectionName? (token : Text) : Option String :=
  let inner :=
    if "VALUE(".toList.isPrefixOf token || "value(".toList.isPrefixOf token then
      Text.dropRepeatedEnd [')'] (token.drop 6)
    else token
  nonEmpty? inner

/-- What is left of the tokens after a type: the words before it and the type itself are dropped. -/
def afterType (tokens : List Text) : List Text :=
  (tokens.dropWhile fun w => typeWords.contains (String.ofList w.toLower)).drop 1

theorem length_afterType_le (tokens : List Text) : (afterType tokens).length ≤ tokens.length := by
  unfold afterType
  rw [List.length_drop]
  have := (List.dropWhile_sublist (l := tokens)
    (p := fun w => typeWords.contains (String.ofList w.toLower))).length_le
  omega

/-- The names of parameters in sections.  Nothing counts before the first section word. -/
def sectionNames (inSection : Bool) : List Text → List String
  | [] => []
  | token :: more =>
    match String.ofList token.toUpper with
    | "USING" | "CHANGING" | "TABLES" => sectionNames true more
    | "RAISING" => []
    | "TYPE" | "LIKE" => sectionNames inSection (afterType more)
    | _ =>
      if inSection then (sectionName? token).toList ++ sectionNames inSection more
      else sectionNames inSection more
termination_by tokens => tokens.length
decreasing_by
  all_goals simp only [List.length_cons]
  all_goals have := length_afterType_le more
  all_goals omega

/-- The names in a list of parameters, in order. -/
def ParameterStyle.names (style : ParameterStyle) (t : Text) : List String :=
  match style with
  | .typeFirst => (splitTopLevel t).filterMap nameAfterType?
  | .nameFirst => (splitTopLevel t).filterMap nameBeforeType?
  | .sections => sectionNames false t.words

end CallAtlas
