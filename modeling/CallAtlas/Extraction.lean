/-
Module: CallAtlas.Extraction
Purpose: The records of a source file in any language.
Main definitions: Language.grammar?, Language.extractWith, Language.extract
-/
import CallAtlas.Entry.Rules
import CallAtlas.Grammar.Abap
import CallAtlas.Grammar.CSharp
import CallAtlas.Grammar.Go
import CallAtlas.Grammar.Java
import CallAtlas.Grammar.Script
import CallAtlas.Python.Outline
import CallAtlas.Python.Walk
import CallAtlas.Scan.File

namespace CallAtlas

namespace Language

/-- The grammar of a language that is read by patterns. -/
def grammar? : Language → Option Grammar
  | python => none
  | java => some .java
  | javascript => some .javascript
  | typescript => some .typescript
  | csharp => some .csharp
  | go => some .go
  | abap => some .abap

/-- The functions, calls and control flows of a source file.  `parse` gives the tree of a Python
text. -/
def declaredWith (parse : Text → Python.Tree) (lang : Language) (file : SourceFile) (limit : Nat) :
    FileRecords :=
  match lang.grammar? with
  | some grammar => grammar.extract file limit
  | none => Python.recordsOf file limit (parse file.text)

/-- All records of a source file, entry points included.  Conditions are cut after `limit`
characters. -/
def extractWith (parse : Text → Python.Tree) (lang : Language) (file : SourceFile) (limit : Nat) :
    FileRecords :=
  let records := lang.declaredWith parse file limit
  { records with entryPoints := entryPoints lang records.functions }

/-- All records of a source file; a Python text is read as its outline says. -/
def extract (lang : Language) (file : SourceFile) (limit : Nat) : FileRecords :=
  lang.extractWith Python.outline file limit

end Language

end CallAtlas
