/-
The arguments of the command line: one path, and options before or after it.

An option is written out, or by a beginning of its name that no other option has; its value follows
an equals sign or is the next argument. Options of one letter may share a dash. Everything behind two
dashes is no option; two dashes that follow an equals sign leave the option without a value.
-/
import Storyboard.CommandLine.Integer
import Storyboard.CommandLine.Argument
import Storyboard.Settings

namespace Storyboard.CommandLine

/-- What the tool is asked to do. -/
structure Request where
  path : Text
  settings : Settings := {}
  verbose : Bool := false

/-- What the arguments amount to: a request, a question for help, or nothing that is understood. -/
inductive Outcome where
  | run (request : Request)
  | help
  | rejected

/-- What has been understood so far. -/
structure Draft where
  path : Option Text := none
  settings : Settings := {}
  verbose : Bool := false
  /-- There was an argument that nothing takes. -/
  extra : Bool := false

/-- Takes the value of an option. -/
def Draft.set (d : Draft) (switch : Switch) (value : Text) : Option Draft :=
  match switch with
  | .encoding => some { d with settings.encoding := some (.ofList value) }
  | .scanLimit => (integer? value).map fun n => { d with settings.scanLimit := some n }
  | .help | .verbose => none

/-- Leaves an option without a value. -/
def Draft.clear (d : Draft) (switch : Switch) : Draft :=
  match switch with
  | .encoding => { d with settings.encoding := none }
  | .scanLimit => { d with settings.scanLimit := none }
  | .help | .verbose => d

/-- Takes what follows the equals sign of an option as its value. -/
def Draft.attach (d : Draft) (switch : Switch) (value : Text) : Option Draft :=
  if value = separator then some (d.clear switch) else d.set switch value

/-- Takes options without a value; `none` when one of them asks for help. -/
def Draft.raise (d : Draft) (switches : List Switch) : Option Draft :=
  if .help ∈ switches then none else some { d with verbose := d.verbose || .verbose ∈ switches }

def Draft.finish (d : Draft) : Outcome :=
  match d.path with
  | some path => if d.extra then .rejected else .run ⟨path, d.settings, d.verbose⟩
  | none => .rejected

/-- Takes arguments from left to right. The separator goes with the path next to it. -/
def consume (d : Draft) : List Argument → Outcome
  | [] => d.finish
  | .value t :: .separator :: rest =>
    if d.path.isNone then consume { d with path := some t } rest
    else consume { d with extra := true } rest
  | .value t :: rest =>
    if d.path.isNone then consume { d with path := some t } rest
    else consume { d with extra := true } rest
  | .separator :: .value t :: rest =>
    if d.path.isNone then consume { d with path := some t } rest
    else consume { d with extra := true } rest
  | .separator :: rest => consume { d with extra := true } rest
  | .unknown :: rest => consume { d with extra := true } rest
  | .ambiguous :: _ => .rejected
  | .option switch byLetter attached :: rest =>
    if switch.takesValue then
      match attached, rest with
      | some value, rest => match d.attach switch value with
        | some d => consume d rest
        | none => .rejected
      | none, .value value :: rest => match d.set switch value with
        | some d => consume d rest
        | none => .rejected
      | none, _ => .rejected
    else
      match attached with
      | none => match d.raise [switch] with
        | some d => consume d rest
        | none => .help
      | some letters =>
        if !byLetter then .rejected
        else match letters? letters with
          | none => .rejected
          | some switches => match d.raise (switch :: switches) with
            | some d => consume d rest
            | none => .help

/-- Understands the arguments of the command line; one that could be several options spoils all. -/
def parse (arguments : List Text) : Outcome :=
  let classified := classifyAll arguments
  if .ambiguous ∈ classified then .rejected else consume {} classified

end Storyboard.CommandLine
