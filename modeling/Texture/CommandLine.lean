/- Texture/CommandLine
   digest: The three commands of the program, their options, and what comes of them. -/

import Texture.Evaluate
import Texture.Operator.Listing
import Texture.Painter
import Texture.Project

set_option autoImplicit false
set_option relaxedAutoImplicit false

namespace Texture.CommandLine

inductive Command where
  /-- Compiles a project to a document. -/
  | svg (source target : String) (pixels : Option Nat) (root : Option String)
  /-- Paints a project. -/
  | render (source target : String) (size : Option ExportSize) (root : Option String)
  /-- Lists nodes with their parameters, and edges. -/
  | inspect (source : String)

namespace Command

def source : Command → String
  | svg source _ _ _ => source
  | render source _ _ _ => source
  | inspect source => source

end Command

abbrev Options := List (String × String)

/-- Whether a word cannot be the value of an option. -/
def isOption (word : String) : Bool :=
  match word.toList with
  | '-' :: _ :: _ => true
  | _ => false

/-- Adds an option, which must be known and new. -/
def addOption (known : List String) (options : Options) (key value : String) : Option Options :=
  if known.contains key && (options.lookup key).isNone then some ((key, value) :: options)
  else none

/-- Reads options, each with its value behind it or behind an equals sign. Two hyphens alone end
them. -/
def readOptions (known : List String) : List String → Options → Option Options
  | [], options => some options
  | word :: words, options =>
    match word.toList with
    | ['-', '-'] => if words.isEmpty then some options else none
    | '-' :: '-' :: cs =>
      let key := String.ofList (cs.takeWhile (· != '='))
      match cs.dropWhile (· != '=') with
      | _ :: value =>
        (addOption known options key (String.ofList value)).bind (readOptions known words)
      | [] =>
        match words with
        | value :: words =>
          if isOption value then none
          else (addOption known options key value).bind (readOptions known words)
        | [] => none
    | _ => none

/-- The path in an option, which must not be empty. -/
def path? (options : Options) (key : String) : Option String :=
  (options.lookup key).filter fun text => !text.isEmpty

/-- A whole number of thirty-two bits, with a sign or without. -/
def count? (text : String) : Option Nat :=
  let (negative, ds) := Number.Reader.splitSign text.toList
  let n := Number.Reader.digitsValue ds
  if ds.isEmpty || !ds.all Char.isDigit || (negative && n != 0) || 4294967296 ≤ n then none
  else some n

def size? (text : String) : Option ExportSize :=
  ExportSize.all.find? fun size => toString size.resolution.pixels == text

def readOption {α : Type} (read : String → Option α) (options : Options) (key : String) :
    Option (Option α) :=
  match options.lookup key with
  | none => some none
  | some text => (read text).map some

def parse : List String → Option Command
  | "svg" :: words => do
    let options ← readOptions ["in", "out", "resolution", "root"] words []
    return .svg (← path? options "in") (← path? options "out")
      (← readOption count? options "resolution") (options.lookup "root")
  | "render" :: words => do
    let options ← readOptions ["in", "out", "resolution", "root"] words []
    return .render (← path? options "in") (← path? options "out")
      (← readOption size? options "resolution") (options.lookup "root")
  | "inspect" :: words => do
    let options ← readOptions ["in"] words []
    return .inspect (← path? options "in")
  | _ => none

inductive Content where
  | text (s : String)
  | picture (p : Picture)

inductive Outcome where
  /-- A line that tells what went wrong. -/
  | failure (message : String)
  | listing (text : String)
  | file (target kind : String) (content : Content)

def listing (p : Project) : String :=
  let nodes := p.graph.nodes.map fun n =>
    s!"node {n.id} {n.operator.listedName}: "
      ++ Listing.settings (Settings.ofBag n.operator n.bag)
  let edges := p.graph.edges.map fun e =>
    s!"edge {e.id}: {e.source}.{e.sourceHandle} -> {e.target}.{e.targetHandle}"
  let first := s!"project '{p.name}' at {p.resolution.pixels}px: "
    ++ s!"{p.graph.nodes.length} nodes, {p.graph.edges.length} edges"
  String.join ((first :: nodes ++ edges).map (· ++ "\n"))

def result {α : Type} (work : Work α) : Except Fault α := (work.run.run Session.start).1

def runOn (p : Project) : Command → Outcome
  | .svg _ target pixels root =>
    let document : Except Fault Svg.Document := do
      let r ← match pixels with
        | some px => Resolution.ofPixels px
        | none => pure p.resolution
      result (Evaluate.document p.graph ⟨r, Painter.rasterizer⟩ root)
    match document with
    | .ok document => .file target "svg" (.text document.write)
    | .error fault => .failure fault.message
  | .render _ target size root =>
    let r := (size.map ExportSize.resolution).getD p.resolution
    match result (Evaluate.picture p.graph ⟨r, Painter.rasterizer⟩ root) with
    | .ok picture => .file target "png" (.picture picture)
    | .error _ => .failure s!"export {r.pixels}x{r.pixels}"
  | .inspect _ => .listing (listing p)

def run (command : Command) : Option String → Outcome
  | none => .failure s!"open project '{command.source}'"
  | some text =>
    match Project.ofText text with
    | .ok p => runOn p command
    | .error _ => .failure "parse project JSON"

/-- The parts of a path without those at its end that name nothing. -/
def namingParts (parts : List String) : List String :=
  (parts.reverse.dropWhile fun part => part == "" || part == ".").reverse

/-- The directory in which a path lies, if the path names one. -/
def directoryOf (path : String) : Option String :=
  match namingParts (namingParts (path.splitOn "/")).dropLast with
  | [] => none
  | parts => some ("/".intercalate parts)

def failureText (message : String) : String := "Error: " ++ message

def directoryFailure (directory : String) : String := s!"create output dir '{directory}'"

def writeFailure (kind target : String) : String := s!"write {kind} '{target}'"

def writtenLine (target : String) : String := "wrote " ++ target

end Texture.CommandLine
