import TaintPolicy.Project.Config
import TaintPolicy.Timestamp
import TaintPolicy.Tool.Guide
import TaintPolicy.Tool.Registry
import TaintPolicy.Template

/-!
# Project files

What is asked of the machine that a project lives on, and how the presets of a project are loaded. A
preset that cannot be read counts as empty; a configuration that cannot be read is a fault.
-/

namespace TaintPolicy

structure Host (m : Type → Type) where
  /-- The text of a file; none where there is no such file or it holds no text. -/
  read : String → m (Option String)
  /-- Something stands at the path. -/
  holds : String → m Bool
  /-- The absolute path of what stands at a path. -/
  absolute : String → m (Option String)
  /-- Writes a file and says whether that was possible. -/
  write : String → String → m Bool
  now : m Timestamp
  /-- A word that no other run has. -/
  seed : m String

namespace Host

variable {m : Type → Type} [Monad m]

/-- The configuration of the project at a root. -/
def loadConfig (host : Host m) (root : String) : m (Except Fault Config) := do
  let path := Path.join root Config.fileName
  if ← host.holds path then
    match ← host.read path with
    | none => return .error (.inaccessible path)
    | some text =>
      match Config.ofToml? text with
      | some c => return .ok (c.resolved root)
      | none => return .error (.badConfig path)
  else return .ok (Config.ofProject root)

/-- What a reader makes of a file, or the fallback. -/
def load {α : Type} (host : Host m) (read : String → Except Fault α) (fallback : α)
    (path : String) : m α := do
  match ← host.read path with
  | none => return fallback
  | some text =>
    match read text with
    | .ok a => return a
    | .error _ => return fallback

def loadCatalog (host : Host m) (path : String) : m Catalog :=
  host.load Catalog.ofText .empty path

def loadTemplates (host : Host m) (mode : Mode) (path : String) : m (List Template) :=
  host.load (Template.listOfText mode) [] path

def loadGuides (host : Host m) (path : String) : m (List ClassGuide) :=
  host.load ClassGuide.listOfText [] path

end Host

end TaintPolicy
