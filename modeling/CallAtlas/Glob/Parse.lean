/-
Module: CallAtlas.Glob.Parse
Purpose: Glob patterns from their text.
Main definitions: GlobFault, GlobFault.message, Glob.parse
-/
import CallAtlas.Glob.Basic

namespace CallAtlas

/-- Why a text is no glob pattern. -/
inductive GlobFault where
  | unclosedSet
  | emptyRange (low high : Char)
  | unclosedAlternates
  | unopenedAlternates
  | danglingEscape
deriving Repr, DecidableEq, Inhabited

/-- The text of a fault. -/
def GlobFault.message : GlobFault → String
  | unclosedSet => "unclosed character class; missing ']'"
  | emptyRange low high =>
    "invalid range; '" ++ low.toString ++ "' > '" ++ high.toString ++ "'"
  | unclosedAlternates =>
    "unclosed alternate group; missing '\x7d' (maybe escape '\x7b' with '[\x7b]'?)"
  | unopenedAlternates =>
    "unopened alternate group; missing '\x7b' (maybe escape '\x7d' with '[\x7d]'?)"
  | danglingEscape => "dangling '\\'"

namespace Glob

/-- A set that is being read. -/
structure SetReading where
  /-- The ranges so far, the last one first. -/
  ranges : List (Char × Char)
  /-- Whether a hyphen after a character has been read. -/
  inRange : Bool
  /-- Whether nothing has been read. -/
  first : Bool
deriving Repr, DecidableEq, Inhabited

/-- Closes the last range at a character. -/
def SetReading.close (s : SetReading) (c : Char) : Except GlobFault SetReading :=
  match s.ranges with
  | (low, _) :: more =>
    if c < low then .error (.emptyRange low c) else .ok ⟨(low, c) :: more, false, false⟩
  | [] => .ok ⟨[(c, c)], false, false⟩

/-- Reads a character of a set. -/
def SetReading.push (s : SetReading) (c : Char) : Except GlobFault SetReading :=
  if s.inRange then s.close c
  else if c == '-' && !s.first then .ok { s with inRange := true }
  else .ok ⟨(c, c) :: s.ranges, false, false⟩

/-- The ranges of a set that is read to its end.  A hyphen at the end stands for itself. -/
def SetReading.finish (s : SetReading) : List (Char × Char) :=
  (if s.inRange then ('-', '-') :: s.ranges else s.ranges).reverse

/-- Reads a set up to its closing bracket, which stands for itself at the start: the ranges, and the
text after the bracket. -/
def readSet (s : SetReading) : Text → Except GlobFault (List (Char × Char) × Text)
  | [] => .error .unclosedSet
  | c :: t =>
    if c == ']' && !s.first then .ok (s.finish, t)
    else
      match s.push c with
      | .ok next => readSet next t
      | .error fault => .error fault

/-- Reads a set after its opening bracket: the token, and the text after it. -/
def readSetToken (t : Text) : Except GlobFault (GlobToken × Text) :=
  match t with
  | '!' :: rest | '^' :: rest =>
    (readSet ⟨[], false, true⟩ rest).map fun (ranges, left) => (.set true ranges, left)
  | _ => (readSet ⟨[], false, true⟩ t).map fun (ranges, left) => (.set false ranges, left)

/-- A group of alternates that is open: its finished branches, and the tokens before the group; each
list with the last one first. -/
structure OpenAlternates where
  branches : List (List GlobToken)
  before : List GlobToken
deriving Repr, Inhabited

/-- A pattern that is being read. -/
structure Progress where
  /-- The tokens of the current branch, the last one first. -/
  tokens : List GlobToken
  /-- The open groups, the innermost first. -/
  groups : List OpenAlternates
  /-- The character before. -/
  previous : Option Char
deriving Repr, Inhabited

namespace Progress

/-- Adds a token, read up to and including a character. -/
def push (p : Progress) (t : GlobToken) (c : Char) : Progress :=
  { p with tokens := t :: p.tokens, previous := some c }

/-- Replaces the last token, the slash before two stars.  Tokens that already reach over
directories stay. -/
def reach (p : Progress) (t : GlobToken) (c : Char) : Progress :=
  match p.tokens with
  | .leading :: _ => { p with previous := some c }
  | .trailing :: _ => { p with previous := some c }
  | _ :: more => { p with tokens := t :: more, previous := some c }
  | [] => p.push t c

/-- Two stars that do not stand between slashes. -/
def twoStars (p : Progress) : Progress :=
  { p with tokens := .star :: .star :: p.tokens, previous := some '*' }

/-- Reads two stars, given the text after them: the new state, and the text left. -/
def stars (p : Progress) (t : Text) : Progress × Text :=
  if p.tokens.isEmpty then
    match t with
    | [] => (p.push .leading '*', [])
    | '/' :: rest => (p.push .leading '/', rest)
    | _ => (p.twoStars, t)
  else
    let inside := !p.groups.isEmpty
    let starts := p.previous == some '/' ||
      (inside && (p.previous == some ',' || p.previous == some '{'))
    match t with
    | [] => (if starts then p.reach .trailing '*' else p.twoStars, [])
    | '/' :: rest => if starts then (p.reach .between '/', rest) else (p.twoStars, t)
    | c :: _ =>
      if starts && inside && (c == ',' || c == '}') then (p.reach .trailing '*', t)
      else (p.twoStars, t)

/-- Opens a group. -/
def openGroup (p : Progress) : Progress := ⟨[], ⟨[], p.tokens⟩ :: p.groups, some '{'⟩

/-- Starts the next branch of the innermost group.  Outside of groups a comma is a character. -/
def comma (p : Progress) : Progress :=
  match p.groups with
  | g :: more => ⟨[], { g with branches := p.tokens.reverse :: g.branches } :: more, some ','⟩
  | [] => p.push (.literal ',') ','

/-- Closes the innermost group. -/
def closeGroup (p : Progress) : Except GlobFault Progress :=
  match p.groups with
  | g :: more =>
    let branches := (p.tokens.reverse :: g.branches).reverse
    .ok ⟨.alternates branches :: g.before, more, some '}'⟩
  | [] => .error .unopenedAlternates

end Progress

/-- Reads a pattern.  Each step reads at least one character; `fuel` is the text that is left. -/
def readTokens : Text → Progress → Text → Except GlobFault Progress
  | _ :: fuel, p, c :: t =>
    match c, t with
    | '?', _ => readTokens fuel (p.push .any c) t
    | '*', '*' :: rest => let (next, left) := p.stars rest; readTokens fuel next left
    | '*', _ => readTokens fuel (p.push .star c) t
    | '[', _ =>
      match readSetToken t with
      | .ok (token, left) => readTokens fuel (p.push token ']') left
      | .error fault => .error fault
    | '{', _ => readTokens fuel p.openGroup t
    | '}', _ =>
      match p.closeGroup with
      | .ok next => readTokens fuel next t
      | .error fault => .error fault
    | ',', _ => readTokens fuel p.comma t
    | '\\', [] => .error .danglingEscape
    | '\\', e :: rest => readTokens fuel (p.push (.literal e) e) rest
    | _, _ => readTokens fuel (p.push (.literal c) c) t
  | _, p, _ => .ok p

/-- The pattern that a text stands for. -/
def parse (pattern : String) : Except GlobFault Glob :=
  let t : Text := pattern.toList
  match readTokens t ⟨[], [], none⟩ t with
  | .ok p => if p.groups.isEmpty then .ok ⟨p.tokens.reverse⟩ else .error .unclosedAlternates
  | .error fault => .error fault

end Glob

end CallAtlas
