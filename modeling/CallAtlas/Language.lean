/-
Module: CallAtlas.Language
Purpose: The source languages, their names, file extensions and comment styles.
Main definitions: Language, Language.ofExtension?, Language.ofName?, CommentStyle, Reading
-/
import CallAtlas.Text.Basic

namespace CallAtlas

/-- A language whose sources can be read. -/
inductive Language where
  | python
  | java
  | javascript
  | typescript
  | csharp
  | go
  | abap
deriving Repr, DecidableEq, Inhabited

/-- How a language writes comments and strings. -/
inductive CommentStyle where
  /-- `//` and `/* */`; double, single and back quotes, text blocks, verbatim strings. -/
  | slashes
  /-- `#`; single, double and triple quotes. -/
  | hash
  /-- `*` in the first column, `"` anywhere; single and back quotes, templates between bars. -/
  | star
deriving Repr, DecidableEq, Inhabited

/-- How the records of a file are obtained. -/
inductive Reading where
  /-- From the outline of the text, as a tree. -/
  | outline
  /-- From patterns that are looked for in the text. -/
  | patterns
deriving Repr, DecidableEq, Inhabited

namespace Language

/-- All languages, in the order in which they are listed. -/
def all : List Language := [python, java, javascript, typescript, csharp, go, abap]

/-- The name a language is known by. -/
def id : Language → String
  | python => "python"
  | java => "java"
  | javascript => "javascript"
  | typescript => "typescript"
  | csharp => "csharp"
  | go => "go"
  | abap => "abap"

/-- File extensions, without the dot. -/
def extensions : Language → List String
  | python => ["py", "pyw"]
  | java => ["java"]
  | javascript => ["js", "jsx", "mjs", "cjs"]
  | typescript => ["ts", "tsx", "mts", "cts"]
  | csharp => ["cs"]
  | go => ["go"]
  | abap => ["abap"]

/-- How the language writes comments and strings. -/
def commentStyle : Language → CommentStyle
  | python => .hash
  | abap => .star
  | java | javascript | typescript | csharp | go => .slashes

/-- How the language is read. -/
def reading : Language → Reading
  | python => .outline
  | java | javascript | typescript | csharp | go | abap => .patterns

/-- A string with its ASCII letters in lower case. -/
def lowered (s : String) : String := String.ofList (Text.toLower s.toList)

/-- The language of a file extension, in either case. -/
def ofExtension? (extension : String) : Option Language :=
  all.find? fun lang => lang.extensions.contains (lowered extension)

/-- The language of exactly this name. -/
def ofId? (name : String) : Option Language := all.find? fun lang => lang.id = name

/-- The language of a name or a common short name, in either case. -/
def ofName? (name : String) : Option Language :=
  match lowered name with
  | "js" => some javascript
  | "ts" => some typescript
  | "c#" | "cs" => some csharp
  | other => ofId? other

end Language

/-- A name that is no language. -/
structure UnknownLanguage where
  name : String
deriving Repr, DecidableEq

/-- The text of the failure. -/
def UnknownLanguage.message (e : UnknownLanguage) : String := "unknown language: " ++ e.name

/-- The language of a name or a common short name, or the name that was not understood. -/
def Language.parse (name : String) : Except UnknownLanguage Language :=
  match ofName? name with
  | some lang => .ok lang
  | none => .error ⟨name⟩

end CallAtlas
