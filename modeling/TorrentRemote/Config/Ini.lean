import TorrentRemote.Text.Blank
import TorrentRemote.Text.Lines
import TorrentRemote.Text.LowerCase
import TorrentRemote.Text.Quoted

/-!
# INI files

A file has sections with options. An option is a line with a name and a value around `=` or `:`, and
lines that are indented deeper go on with the value. Lines that start with `#` or `;` are comments.
Names of options do not depend on case, and the options of the section `DEFAULT` are in every
section.
-/

namespace TorrentRemote.Config

abbrev Section := List (String × String)

structure Ini where
  defaults : Section
  sections : List (String × Section)

inductive IniError where
  | noSection (line : Nat) (text : String)
  | repeatedSection (line : Nat) (name : String)
  | repeatedOption (line : Nat) (name option : String)
  | badLines (lines : List (Nat × String))
  deriving DecidableEq

namespace Ini

def defaultSection : String := "DEFAULT"

/-! ## Messages -/

def lineText (n : Nat) : String :=
  (if n < 10 then " " else "") ++ toString n

def sourceText (path : String) : String :=
  "PosixPath(" ++ Text.quoted path ++ ")"

def repeatedText (path : String) (line : Nat) (what : String) : String :=
  "While reading from " ++ sourceText path ++ " [line " ++ lineText line ++ "]: " ++ what ++
    " already exists"

end Ini

open Ini in
def IniError.message (path : String) : IniError → String
  | .noSection line text =>
    "File contains no section headers.\nfile: " ++ sourceText path ++ ", line: " ++
      toString line ++ "\n" ++ Text.quoted text
  | .repeatedSection line name => repeatedText path line ("section " ++ Text.quoted name)
  | .repeatedOption line name option =>
    repeatedText path line ("option " ++ Text.quoted option ++ " in section " ++ Text.quoted name)
  | .badLines lines =>
    "Source contains parsing errors: " ++ sourceText path ++
      String.join (lines.map fun (line, text) =>
        "\n\t[line " ++ lineText line ++ "]: " ++ Text.quoted text)

namespace Ini

/-! ## Lines -/

inductive Content where
  | comment
  | blank
  | words (text : List Char)

def isComment (text : List Char) : Bool :=
  text.head? = some '#' || text.head? = some ';'

def content (line : List Char) : Content :=
  match Text.trim line with
  | [] => .blank
  | text => if isComment text then .comment else .words text

def indentOf (line : List Char) : Nat :=
  (line.takeWhile Text.isBlank).length

def sectionName? : List Char → Option String
  | '[' :: rest =>
    match rest.reverse.dropWhile (· ≠ ']') with
    | [] => none
    | [_] => none
    | _ :: name => some (String.ofList name.reverse)
  | _ => none

def isDelimiter (c : Char) : Bool :=
  c = '=' || c = ':'

def option? (text : List Char) : Option (String × String) :=
  match text.dropWhile fun c => !isDelimiter c with
  | [] => none
  | _ :: value =>
    let name := Text.trimEnd Text.isBlank (text.takeWhile fun c => !isDelimiter c)
    some (String.ofList (Text.lower name), String.ofList (Text.trim value))

/-! ## Reading -/

abbrev Entries := List (String × List String)

/-- Where reading stands: the sections so far, the one that is open, the option that lines can go on
with, and the indentation that they have to be deeper than. -/
structure Progress where
  defaults : Entries
  sections : List (String × Entries)
  current : Option String
  option : Option String
  indent : Nat
  bad : List (Nat × String)

def Progress.initial : Progress := ⟨[], [], none, none, 0, []⟩

def Progress.entries (p : Progress) (name : String) : Entries :=
  if name = defaultSection then p.defaults else (p.sections.lookup name).getD []

def Progress.change (p : Progress) (name : String) (f : Entries → Entries) : Progress :=
  if name = defaultSection then { p with defaults := f p.defaults }
  else
    { p with sections := p.sections.map fun s => if s.1 = name then (s.1, f s.2) else s }

def extend (option line : String) (es : Entries) : Entries :=
  es.map fun e => if e.1 = option then (e.1, e.2 ++ [line]) else e

def Progress.goOn (p : Progress) (line : String) : Progress :=
  match p.current, p.option with
  | some name, some option => p.change name (extend option line)
  | _, _ => p

def Progress.openSection (p : Progress) (line : Nat) (name : String) : Except IniError Progress :=
  let p := { p with current := some name, option := none }
  if name = defaultSection then .ok p
  else if (p.sections.lookup name).isSome then .error (.repeatedSection line name)
  else .ok { p with sections := p.sections ++ [(name, [])] }

def Progress.markBad (p : Progress) (line : Nat) (text : List Char) : Progress :=
  { p with bad := p.bad ++ [(line, String.ofList text)] }

/-- Adds an option to the open section. One without a name is bad, but it is added all the same. -/
def Progress.addOption (p : Progress) (line : Nat) (name option value : String) :
    Except IniError Progress :=
  if ((p.entries name).lookup option).isSome then .error (.repeatedOption line name option)
  else
    let p := p.change name (· ++ [(option, [value])])
    .ok { p with option := if option.isEmpty then none else some option }

def Progress.startLine (p : Progress) (line : Nat) (whole text : List Char) :
    Except IniError Progress :=
  match sectionName? text, p.current with
  | some name, _ => p.openSection line name
  | none, none => .error (.noSection line (String.ofList whole))
  | none, some name =>
    match option? text with
    | none => .ok (p.markBad line whole)
    | some (option, value) =>
      let p := if option.isEmpty then p.markBad line whole else p
      p.addOption line name option value

def Progress.read (p : Progress) (line : Nat) (whole : List Char) : Except IniError Progress :=
  match content whole with
  | .comment => .ok p
  | .blank => .ok (p.goOn "")
  | .words text =>
    let indent := indentOf whole
    if p.current.isSome ∧ p.option.isSome ∧ p.indent < indent then
      .ok (p.goOn (String.ofList text))
    else { p with indent }.startLine line whole text

def Progress.readLines (p : Progress) : (number : Nat) → List (List Char) → Except IniError Progress
  | _, [] => .ok p
  | number, line :: rest => do
    let p ← p.read number line
    p.readLines (number + 1) rest

def options (es : Entries) : Section :=
  es.map fun (name, lines) =>
    (name, String.ofList (Text.trimEnd Text.isBlank ("\n".intercalate lines).toList))

def Progress.finish (p : Progress) : Except IniError Ini :=
  if p.bad.isEmpty then
    .ok ⟨options p.defaults, p.sections.map fun (name, es) => (name, options es)⟩
  else .error (.badLines p.bad)

def parse (lines : List (List Char)) : Except IniError Ini :=
  (Progress.initial.readLines 1 lines).bind Progress.finish

/-! ## Looking up -/

def hasSection (ini : Ini) (name : String) : Bool :=
  (ini.sections.lookup name).isSome

def get? (ini : Ini) (name option : String) : Option String :=
  (((ini.sections.lookup name).getD []).lookup option).or (ini.defaults.lookup option)

end Ini

end TorrentRemote.Config
